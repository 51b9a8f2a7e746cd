import ToolchainRelease.Proofs.ReadBack
import ToolchainRelease.Proofs.SavedFile
import ToolchainRelease.Proofs.Validation

/-! What a run of the program leaves: its exit status, the release in its output file, and all other
files as they were. -/
namespace ToolchainRelease

namespace FileSystem

lemma readText_of_find {fs : FileSystem} {path text : String}
    (h : fs.find path = .ok (.file (Text.utf8 text))) : fs.readText path = .ok text := by
  have hopened : fs.openFile path = .ok ⟨Text.utf8 text, none⟩ := by
    rw [openFile, h]
    rfl
  unfold readText
  simp only [hopened, bind, Except.bind, Text.ofUtf8?_utf8]
  rfl

end FileSystem

lemma ReleaseFile.parse_bare (r : Release) :
    Text.parse Release ("" ++ header ++ Text.print r) = .ok r := by
  have htop : Text.Trivia (Text.utf8 "") := .nil
  have hempty := RecordType.parse_trivia (t := .release) htop
  refine (RecordType.parse_append_print header_break hempty r r).2 ⟨?_, ?_⟩
  · exact RecordType.empty_apart (t := .release) r
  · exact (RecordType.empty_combine (t := .release) r).symm

lemma Options.boilerplatePath?_eq_none {o : Options}
    (h : o.boilerplate = none ∨ o.boilerplate = some "") : o.boilerplatePath? = none := by
  rcases h with h | h <;> rw [boilerplatePath?, h] <;> rfl

namespace Program
open ReleaseFile

variable {fs : FileSystem} {o : Options} {c : Config}

/-- The configuration that a run goes by: that in its targets file, or the built-in one. -/
inductive Configured (fs : FileSystem) (o : Options) : Config → Prop
  | builtIn (absent : o.targets = none) : Configured fs o {}
  | loaded {path : String} {c : Config} (given : o.targets = some path)
      (load : Config.load fs path = .ok c) : Configured fs o c

lemma Configured.validate (h : Configured fs o c) : c.validate = .ok () := by
  cases h with
  | builtIn => exact Config.validate_default
  | loaded _ load =>
    obtain ⟨text, htext⟩ := Config.parse_of_load load
    exact Config.validate_of_parse htext

/-- There is a configuration, unless there is a targets file that is at fault. -/
lemma configured_or_fault (fs : FileSystem) (o : Options) :
    (∃ c, Configured fs o c) ∨
      ∃ path f, o.targets = some path ∧ Config.load fs path = .error f := by
  cases htargets : o.targets with
  | none => exact .inl ⟨{}, .builtIn htargets⟩
  | some path =>
    cases hload : Config.load fs path with
    | ok c => exact .inl ⟨c, .loaded htargets hload⟩
    | error f => exact .inr ⟨path, f, rfl, hload⟩

lemma generate_of_fault {path : String} {f : Failure} (htargets : o.targets = some path)
    (hload : Config.load fs path = .error f) :
    (generate fs o).files = fs ∧ (generate fs o).failure.isSome = true := by
  simp only [generate, configuration, htargets, hload]
  exact ⟨trivial, rfl⟩

/-- Once there is a configuration, all that can go wrong is saving the release. -/
lemma generate_of_configured (h : Configured fs o c) :
    ∃ r, Release.build c.labels c.targets = .ok r ∧
      (generate fs o).files = (save fs r o.out o.boilerplatePath?).files ∧
      (generate fs o).failure =
        (save fs r o.out o.boilerplatePath?).failure.map fun f => (none, f) := by
  obtain ⟨r, hbuild⟩ := Config.build_of_validate h.validate
  have hconf : ∃ events, configuration fs o = .ok (c, events) := by
    cases h with
    | builtIn absent => exact ⟨[], by rw [configuration, absent]⟩
    | loaded given load => exact ⟨_, by simp only [configuration, given, load]; rfl⟩
  obtain ⟨events, hconf⟩ := hconf
  refine ⟨r, hbuild, ?_⟩
  simp only [generate, hconf, hbuild]
  cases (save fs r o.out o.boilerplatePath?).failure <;> exact ⟨rfl, rfl⟩

lemma run_generate {args : List String} (h : CommandLine.parse args = .generate o)
    (fs : FileSystem) (verbosity : Verbosity) :
    (run fs verbosity args).files = (generate fs o).files ∧
      (run fs verbosity args).exit = if (generate fs o).failure.isSome then 1 else 0 := by
  simp only [run, h]
  cases (generate fs o).failure <;> exact ⟨rfl, rfl⟩

lemma exit_of_configured {args : List String} (h : CommandLine.parse args = .generate o)
    (hconf : Configured fs o c) (verbosity : Verbosity) :
    ∃ r, Release.build c.labels c.targets = .ok r ∧
      (run fs verbosity args).files = (save fs r o.out o.boilerplatePath?).files ∧
      (run fs verbosity args).exit =
        if (save fs r o.out o.boilerplatePath?).failure.isSome then 1 else 0 := by
  obtain ⟨hfiles, hexit⟩ := run_generate h fs verbosity
  obtain ⟨r, hbuild, hsaved, hfailure⟩ := generate_of_configured hconf
  exact ⟨r, hbuild, hfiles.trans hsaved, by rw [hexit, hfailure, Option.isSome_map]⟩

lemma exit_of_fault {args : List String} (h : CommandLine.parse args = .generate o)
    {path : String} {f : Failure} (htargets : o.targets = some path)
    (hload : Config.load fs path = .error f) (verbosity : Verbosity) :
    (run fs verbosity args).files = fs ∧ (run fs verbosity args).exit = 1 := by
  obtain ⟨hfiles, hexit⟩ := run_generate h fs verbosity
  obtain ⟨hsame, hfailure⟩ := generate_of_fault htargets hload
  exact ⟨hfiles.trans hsame, by rw [hexit, hfailure, if_pos rfl]⟩

/-- A run that has a configuration and no boilerplate writes the whole file of its release. -/
lemma run_writes {args : List String} {l : Location} (h : CommandLine.parse args = .generate o)
    (hconf : Configured fs o c) (hbare : o.boilerplatePath? = none)
    (hout : fs.Creatable o.out l) (verbosity : Verbosity) :
    ∃ r, Release.build c.labels c.targets = .ok r ∧ (run fs verbosity args).exit = 0 ∧
      (run fs verbosity args).files.readText o.out = .ok ("" ++ header ++ Text.print r) := by
  obtain ⟨r, hbuild, hfiles, hexit⟩ := exit_of_configured h hconf verbosity
  rw [hbare] at hfiles hexit
  have hfailure : (save fs r o.out none).failure = none := (save_creatable hout r none).2
  have hfound : (save fs r o.out none).files.find o.out = .ok (.file (fileBytes [] r)) :=
    find_saved hout r none
  refine ⟨r, hbuild, by rw [hexit, hfailure]; rfl, ?_⟩
  rw [hfiles]
  refine FileSystem.readText_of_find ?_
  rw [hfound, utf8_file]
  rfl

/-- A run without boilerplate ends well if it has a configuration to go by: the built-in one, or
one that its targets file holds. The file that it writes is then read back as the release of that
configuration, with one toolchain for each target and no identifier twice. -/
theorem run_without_boilerplate {args : List String} {l : Location}
    (h : CommandLine.parse args = .generate o)
    (hbare : o.boilerplate = none ∨ o.boilerplate = some "") (hout : fs.Creatable o.out l)
    (verbosity : Verbosity) :
    let outcome := run fs verbosity args
    (outcome.exit = 0 ↔ o.targets = none ∨
      ∃ path c, o.targets = some path ∧ Config.load fs path = .ok c ∧ c.validate = .ok ()) ∧
    (outcome.exit = 0 → ∃ c, Configured fs o c ∧
      ∃ text r, outcome.files.readText o.out = .ok text ∧ Text.parse Release text = .ok r ∧
        r.majorVersion = some c.labels.majorVersion ∧
        r.minorVersion = some c.labels.minorVersion ∧
        r.defaultTargetCpu = none ∧
        List.Forall₂ (fun t toolchain => Toolchain.build t = .ok toolchain)
          c.targets r.toolchains ∧
        (r.toolchains.map Toolchain.identifier).Nodup) := by
  intro outcome
  rcases configured_or_fault fs o with ⟨c, hconf⟩ | ⟨path, f, htargets, hload⟩
  · obtain ⟨r, hbuild, hexit, htext⟩ :=
      run_writes h hconf (Options.boilerplatePath?_eq_none hbare) hout verbosity
    obtain ⟨hmajor, hminor, hcpu, hbuilt⟩ := Release.fields_of_build hbuild
    have hdistinct : (r.toolchains.map Toolchain.identifier).Nodup := by
      rw [hbuilt.identifiers]
      have husable := (c.validate_eq_ok_iff.1 hconf.validate).2
      exact husable.distinct.map fun _ _ => Option.some.inj
    refine ⟨iff_of_true hexit ?_, fun _ => ⟨c, hconf, _, r, htext, parse_bare r, hmajor, hminor,
      hcpu, hbuilt, hdistinct⟩⟩
    cases hconf with
    | builtIn absent => exact .inl absent
    | loaded given load => exact .inr ⟨_, c, given, load, (Configured.loaded given load).validate⟩
  · obtain ⟨-, hexit⟩ := exit_of_fault h htargets hload verbosity
    have hexit' : ¬outcome.exit = 0 := by
      rw [hexit]
      exact Nat.one_ne_zero
    refine ⟨iff_of_false hexit' ?_, fun h0 => absurd h0 hexit'⟩
    rintro (habsent | ⟨path', c, hpath, hc, -⟩)
    · rw [htargets] at habsent
      cases habsent
    · rw [htargets] at hpath
      cases hpath
      rw [hload] at hc
      cases hc

/-- A targets file with one target is read, and the release of it is written. -/
theorem run_for_one_target :
    let text := "[[target]]\ncpu = \"a\"\nlibc = \"c\"\ncross = true\n"
    let fs : FileSystem := ⟨[(["t"], .file (Text.utf8 text))], []⟩
    let args := ["--out", "o", "--targets", "t"]
    (run fs .quiet args).exit = 0 ∧
      ∃ written r, (run fs .quiet args).files.readText "o" = .ok written ∧
        Text.parse Release written = .ok r ∧ (r.toolchains.map Toolchain.identifier).Nodup := by
  intro text fs args
  have hargs : CommandLine.parse args = .generate ⟨"o", none, some "t"⟩ := by decide +kernel
  have hout : fs.Creatable "o" ["o"] := ⟨by decide +kernel, .inl (by decide +kernel)⟩
  obtain ⟨c, hload⟩ := exists_ok (x := Config.load fs "t") (by decide +kernel)
  clear_value fs args
  have hrun := run_without_boilerplate hargs (.inl rfl) hout .quiet
  obtain ⟨text', hparse⟩ := Config.parse_of_load hload
  have h0 := hrun.1.2 (.inr ⟨"t", c, rfl, hload, Config.validate_of_parse hparse⟩)
  obtain ⟨-, -, written, r, hread, hr, -, -, -, -, hdistinct⟩ := hrun.2 h0
  exact ⟨h0, written, r, hread, hr, hdistinct⟩

lemma generate_frame (fs : FileSystem) (o : Options) {m : Location}
    (hm : ∀ l, fs.outputLocation o.out = .ok l → m ≠ l) :
    (generate fs o).files.get? m = fs.get? m := by
  rcases configured_or_fault fs o with ⟨c, hconf⟩ | ⟨path, f, htargets, hload⟩
  · obtain ⟨r, -, hfiles, -⟩ := generate_of_configured hconf
    rw [hfiles, save_frame fs r o.out o.boilerplatePath? hm]
  · rw [(generate_of_fault htargets hload).1]

lemma run_without_output {args : List String} (h : CommandLine.parse args = .generate o)
    {f : IoFault} (hcreate : fs.create o.out = .error f) (verbosity : Verbosity) :
    (run fs verbosity args).files = fs ∧ (run fs verbosity args).exit = 1 := by
  rcases configured_or_fault fs o with ⟨c, hconf⟩ | ⟨path, f', htargets, hload⟩
  · obtain ⟨r, -, hfiles, hexit⟩ := exit_of_configured h hconf verbosity
    obtain ⟨hsame, hfailure⟩ := save_of_create_error hcreate r o.boilerplatePath?
    exact ⟨hfiles.trans hsame, by rw [hexit, hfailure]; rfl⟩
  · exact exit_of_fault h htargets hload verbosity

/-- A boilerplate that cannot be opened, or not be read to its end, leaves the output file with
those of its bytes that were copied. -/
lemma run_cut_short {args : List String} (h : CommandLine.parse args = .generate o)
    (hconf : Configured fs o c) {l : Location} (hout : fs.Creatable o.out l) {b : Boilerplate}
    (hb : opened fs l o.boilerplatePath? = some b) {bytes : List UInt8} {f : Failure}
    (hfate : ∀ r, fate r (some b) = (bytes, some f)) (verbosity : Verbosity) :
    (run fs verbosity args).files = fs.put l (.file bytes) ∧
      (run fs verbosity args).exit = 1 := by
  obtain ⟨r, -, hfiles, hexit⟩ := exit_of_configured h hconf verbosity
  obtain ⟨hsaved, hfailure⟩ := save_creatable hout r o.boilerplatePath?
  rw [hb, hfate r] at hsaved hfailure
  exact ⟨hfiles.trans hsaved, by rw [hexit, hfailure]; rfl⟩

/-- A run changes no file but the one that its output path leads to. It changes no file at all if
its targets file is at fault or its output cannot be opened. If its boilerplate cannot be opened or
read, the output is emptied and keeps just what was copied: wherever the reading breaks off, nothing
else has been written. -/
theorem run_frame (fs : FileSystem) (verbosity : Verbosity) (args : List String) :
    let outcome := run fs verbosity args
    (∀ m, (∀ o l, CommandLine.parse args = .generate o → fs.outputLocation o.out = .ok l → m ≠ l) →
      outcome.files.get? m = fs.get? m) ∧
    (∀ o, CommandLine.parse args = .generate o →
      (∀ path f, o.targets = some path → Config.load fs path = .error f →
        outcome.files = fs ∧ outcome.exit = 1) ∧
      (∀ f, fs.create o.out = .error f → outcome.files = fs ∧ outcome.exit = 1) ∧
      (∀ c top made l, fs.Plain → Configured fs o c → o.boilerplatePath? = some top →
        fs.create o.out = .ok (made, l) →
        (∀ f, made.openFile top = .error f →
          outcome.files = fs.put l (.file []) ∧ outcome.exit = 1) ∧
        (∀ bytes f, made.openFile top = .ok ⟨bytes, some f⟩ →
          outcome.files = fs.put l (.file bytes) ∧ outcome.exit = 1))) ∧
    (∀ r top bytes f,
      let written := write ({ device := {} } : Buffered) r (some ⟨top, .ok ⟨bytes, some f⟩⟩)
      written.sink.close.contents = bytes ∧ written.failure = some (.copyBoilerplate top f)) := by
  intro outcome
  refine ⟨fun m hm => ?_, fun o h => ⟨fun path f htargets hload => ?_, fun f hcreate => ?_,
    fun c top made l hplain hconf htop hcreate => ?_⟩, fun r top bytes f => ?_⟩
  · cases h : CommandLine.parse args with
    | generate o =>
      rw [(run_generate h fs verbosity).1]
      exact generate_frame fs o fun l hl => hm o l h hl
    | _ => simp only [outcome, run, h]
  · exact exit_of_fault h htargets hload verbosity
  · exact run_without_output h hcreate verbosity
  · have hout := hplain.creatable hcreate
    cases hcreate.symm.trans hout.create_eq
    have hopened : opened fs l o.boilerplatePath? =
        some ⟨top, (fs.put l (.file [])).openFile top⟩ := by
      rw [htop]
      rfl
    refine ⟨fun f hf => ?_, fun bytes f hf => ?_⟩
    · rw [hf] at hopened
      exact run_cut_short h hconf hout hopened (fun _ => rfl) verbosity
    · rw [hf] at hopened
      exact run_cut_short h hconf hout hopened (fun _ => rfl) verbosity
  · obtain ⟨hwritten, hfailure⟩ := write_gathered (Buffered.gathered_start 8192) r
      (some ⟨top, .ok ⟨bytes, some f⟩⟩)
    exact ⟨hwritten.close, hfailure⟩

/-- Faults of runs over the same files: there is no targets file, the output is a directory, there
is no boilerplate, or it is a directory, which can be opened but not read. -/
theorem run_frame_at_faults :
    let fs : FileSystem := ⟨[(["o"], .file [120]), (["d"], .directory)], []⟩
    (∀ args ∈ [["--out", "o", "--targets", "t"], ["--out", "d"]],
      (run fs .quiet args).files = fs ∧ (run fs .quiet args).exit = 1) ∧
    (∀ top ∈ ["b", "d"],
      (run fs .quiet ["--out", "o", "--boilerplate", top]).files = fs.put ["o"] (.file []) ∧
        (run fs .quiet ["--out", "o", "--boilerplate", top]).exit = 1) ∧
    (run fs .quiet ["--out", "o"]).files.get? ["d"] = some .directory := by
  intro fs
  have hplain : fs.Plain := FileSystem.plain_of_items (by decide +kernel)
  have hlocation : fs.outputLocation "o" = .ok ["o"] := by decide +kernel
  have hout : fs.Creatable "o" ["o"] := ⟨hlocation, .inr ⟨[120], by decide +kernel⟩⟩
  have htargets : Config.load fs "t" = .error (.targetsNotFound "t") := by
    have hfind : fs.find "t" = .error .notFound := by decide +kernel
    rw [Config.load, hfind]
  have hitem : fs.get? ["d"] = some .directory := by decide +kernel
  have hdirectory : fs.create "d" = .error .isADirectory := by
    have hlocation : fs.outputLocation "d" = .ok ["d"] := by decide +kernel
    rw [FileSystem.create, hlocation]
    simp only [bind, Except.bind, hitem]
  have hmissing : (fs.put ["o"] (.file [])).openFile "b" = .error .notFound := by
    have hfind : (fs.put ["o"] (.file [])).find "b" = .error .notFound := by decide +kernel
    rw [FileSystem.openFile, hfind]
    rfl
  have hunread : (fs.put ["o"] (.file [])).openFile "d" = .ok ⟨[], some .isADirectory⟩ := by
    have hfind : (fs.put ["o"] (.file [])).find "d" = .ok .directory := by decide +kernel
    rw [FileSystem.openFile, hfind]
    rfl
  clear_value fs
  refine ⟨?_, ?_, ?_⟩
  · intro args hargs
    simp only [List.mem_cons, List.not_mem_nil, or_false] at hargs
    obtain ⟨-, hfaults, -⟩ := run_frame fs .quiet args
    rcases hargs with rfl | rfl
    · exact (hfaults ⟨"o", none, some "t"⟩ (by decide +kernel)).1 "t" _ rfl htargets
    · exact (hfaults ⟨"d", none, none⟩ (by decide +kernel)).2.1 _ hdirectory
  · intro top htop
    simp only [List.mem_cons, List.not_mem_nil, or_false] at htop
    obtain ⟨-, hfaults, -⟩ := run_frame fs .quiet ["--out", "o", "--boilerplate", top]
    rcases htop with rfl | rfl
    · exact ((hfaults ⟨"o", some "b", none⟩ (by decide +kernel)).2.2 {} "b" _ _ hplain
        (.builtIn rfl) (by decide +kernel) hout.create_eq).1 _ hmissing
    · exact ((hfaults ⟨"o", some "d", none⟩ (by decide +kernel)).2.2 {} "d" _ _ hplain
        (.builtIn rfl) (by decide +kernel) hout.create_eq).2 _ _ hunread
  · obtain ⟨hframe, -⟩ := run_frame fs .quiet ["--out", "o"]
    rw [hframe ["d"] ?_, hitem]
    intro o l ho hl
    have hargs : CommandLine.parse ["--out", "o"] = .generate ⟨"o", none, none⟩ := by
      decide +kernel
    cases hargs.symm.trans ho
    cases hlocation.symm.trans hl
    decide

end Program

end ToolchainRelease
