import ToolchainRelease.Proofs.Files.SystemFaults
import ToolchainRelease.Proofs.Run
import ToolchainRelease.Proofs.Text.Occurrences

/-! How often the line of a failed run tells the fault of the system that the run failed with. The
text of such a fault starts and ends like none of the words around it, so where no path has this
text, it is told just where the line puts it. -/
namespace ToolchainRelease
open Text

namespace IoFault

variable {f : IoFault}

lemma message_ne_nil (h : f ∈ ofSystem) : f.message.toList ≠ [] := by
  have all : ∀ f ∈ ofSystem, f.message.toList ≠ [] := by decide +kernel
  exact all f h

/-- No text of a fault has a character that ends a part of the line. -/
lemma separator_not_mem_message (h : f ∈ ofSystem) :
    ':' ∉ f.message.toList ∧ '\n' ∉ f.message.toList ∧ f.message.toList.head? ≠ some ' ' := by
  have all : ∀ f ∈ ofSystem,
      ':' ∉ f.message.toList ∧ '\n' ∉ f.message.toList ∧ f.message.toList.head? ≠ some ' ' := by
    decide +kernel
  exact all f h

def wordsBefore : List String :=
  ["loading targets from ", "failed to open ", "failed copying boilerplate "]

def wordsAfter : List String := ["", " for writing", " for reading"]

lemma message_infix_words_iff (h : f ∈ ofSystem) {first last : String}
    (hfirst : first ∈ wordsBefore) (hlast : last ∈ wordsAfter) (path : List Char) :
    f.message.toList <:+: first.toList ++ path ++ last.toList ↔ f.message.toList <:+: path := by
  have before : ∀ f ∈ ofSystem, ∀ first ∈ wordsBefore, ¬f.message.toList <:+: first.toList ∧
      ∀ s ∈ first.toList.tails, s <+: f.message.toList → s = [] := by decide +kernel
  have after : ∀ f ∈ ofSystem, ∀ last ∈ wordsAfter, ¬f.message.toList <:+: last.toList ∧
      ∀ s ∈ last.toList.inits, s <:+ f.message.toList → s = [] := by decide +kernel
  obtain ⟨outside, ends⟩ := before f h first hfirst
  obtain ⟨outside', starts⟩ := after f h last hlast
  rw [infix_append_right_iff outside' starts, infix_append_left_iff outside ends]

/-- The words around a path do not tell a fault that the path does not tell. -/
lemma timesIn_words (h : f ∈ ofSystem) (first path last : String) (hfirst : first ∈ wordsBefore)
    (hlast : last ∈ wordsAfter) (hpath : timesIn f.message path = 0) :
    timesIn f.message (first ++ path ++ last) = 0 := by
  have hnot : ¬f.message.toList <:+: path.toList := occurrences_eq_zero_iff.1 hpath
  rw [timesIn, occurrences_eq_zero_iff, String.toList_append, String.toList_append,
    message_infix_words_iff h hfirst hlast]
  exact hnot

lemma timesIn_label (h : f ∈ ofSystem) (label : String)
    (hlabel : label ∈ ["error", "I/O error"]) : timesIn f.message label = 0 := by
  have all : ∀ f ∈ ofSystem, ∀ label ∈ ["error", "I/O error"], timesIn f.message label = 0 := by
    decide +kernel
  exact all f h label hlabel

lemma timesIn_message (h : f ∈ ofSystem) : timesIn f.message f.message = 1 :=
  occurrences_self (message_ne_nil h)

lemma timesIn_parts (h : f ∈ ofSystem) (part rest : String) :
    timesIn f.message (part ++ ": " ++ rest) = timesIn f.message part + timesIn f.message rest := by
  obtain ⟨hcolon, -, hspace⟩ := separator_not_mem_message h
  have hne := message_ne_nil h
  have hsplit : (part ++ ": " ++ rest).toList = part.toList ++ ':' :: ' ' :: rest.toList := by
    simp
  -- The colon separates the occurrences; the space after it is not where one starts.
  rw [timesIn, hsplit, occurrences_append_cons hne hcolon, occurrences_cons_of_ne hspace hne]
  rfl

lemma timesIn_newline (h : f ∈ ofSystem) (text : String) :
    timesIn f.message (text ++ "\n") = timesIn f.message text := by
  obtain ⟨-, hnewline, -⟩ := separator_not_mem_message h
  have hne := message_ne_nil h
  have hsplit : (text ++ "\n").toList = text.toList ++ '\n' :: [] := by simp
  rw [timesIn, hsplit, occurrences_append_cons hne hnewline, occurrences_nil hne]
  rfl

end IoFault

namespace Failure

/-- How often the fault of the system is told. One that comes without a path is told in the message
of the failure, and once more as its cause. -/
def tellings : Failure → Nat
  | io _ => 2
  | _ => 1

variable {failure : Failure} {f : IoFault}

lemma causes_of_ioFault (h : failure.ioFault? = some f) : failure.causes = [f.message] := by
  cases failure <;> cases h <;> rfl

lemma timesIn_message_of_ioFault (hf : f ∈ IoFault.ofSystem) (h : failure.ioFault? = some f)
    (hpath : ∀ path, failure.ioPath? = some path → timesIn f.message path = 0) :
    timesIn f.message failure.message + 1 = failure.tellings := by
  cases failure <;> cases h
  case io =>
    have hparts := IoFault.timesIn_parts hf "I/O error" f.message
    rw [IoFault.timesIn_label hf "I/O error" (by decide), IoFault.timesIn_message hf,
      Nat.zero_add] at hparts
    exact congrArg (· + 1) hparts
  case create path =>
    have hnone := IoFault.timesIn_words hf "failed to open " path " for writing"
      (by decide) (by decide) (hpath path rfl)
    exact congrArg (· + 1) hnone
  case openBoilerplate path =>
    have hnone := IoFault.timesIn_words hf "failed to open " path " for reading"
      (by decide) (by decide) (hpath path rfl)
    exact congrArg (· + 1) hnone
  case copyBoilerplate path =>
    have hnone := IoFault.timesIn_words hf "failed copying boilerplate " path ""
      (by decide) (by decide) (hpath path rfl)
    rw [String.append_empty] at hnone
    exact congrArg (· + 1) hnone

end Failure

namespace Config

lemma ioFault_of_validate {c : Config} {failure : Failure} (h : c.validate = .error failure) :
    failure.ioFault? = none := by
  rcases (c.validate_eq_error_iff failure).1 h with ⟨-, rfl⟩ | ⟨-, -, -, d, -, -, -, rfl⟩
  · rfl
  · cases d <;> rfl

lemma ioFault_of_parse {text : String} {failure : Failure} (h : parse text = .error failure) :
    failure.ioFault? = none := by
  unfold parse parseWith at h
  split at h
  · cases h
    rfl
  · split at h
    · cases h
      rfl
    · next c hc =>
      cases hvalid : c.validate with
      | ok => simp [hvalid, bind, Except.bind, pure, Except.pure] at h
      | error failure' =>
        simp only [hvalid, bind, Except.bind] at h
        cases h
        exact ioFault_of_validate hvalid

/-- A targets file that is there fails with a fault of the system if it cannot be read, and only
then. -/
lemma load_systemic {fs : FileSystem} {path : String} {failure : Failure} {f : IoFault}
    (h : load fs path = .error failure) (hfault : failure.ioFault? = some f) :
    failure = .io f ∧ f ∈ IoFault.ofSystem := by
  unfold load at h
  split at h
  · cases h
    cases hfault
  · split at h
    · next f' hread =>
      cases h
      cases hfault
      exact ⟨rfl, fs.systemic_readText path f hread⟩
    · next text hread =>
      rw [ioFault_of_parse h] at hfault
      cases hfault

end Config

def Options.paths (o : Options) : List String := o.out :: (o.boilerplate.toList ++ o.targets.toList)

lemma Options.boilerplatePath_mem_paths {o : Options} {p : String}
    (h : p ∈ o.boilerplatePath?.toList) : p ∈ o.paths := by
  have hgiven : p ∈ o.boilerplate.toList := by
    simp only [boilerplatePath?, Option.mem_toList, Option.filter_eq_some_iff] at h ⊢
    exact h.1
  exact List.mem_cons_of_mem _ (List.mem_append_left _ hgiven)

namespace Program

variable {fs : FileSystem} {o : Options} {stage : Option String} {failure : Failure} {f : IoFault}

/-- A run that fails with a fault of the system fails while it loads its targets, and says so, or
while it saves the release. -/
lemma generate_systemic (hfails : (generate fs o).failure = some (stage, failure))
    (hfault : failure.ioFault? = some f) :
    f ∈ IoFault.ofSystem ∧ (∀ p, failure.ioPath? = some p → p ∈ o.paths) ∧
      ∀ s, stage = some s → ∃ p ∈ o.paths, s = "loading targets from " ++ p := by
  rcases configured_or_fault fs o with ⟨c, hconf⟩ | ⟨path, failure', htargets, hload⟩
  · obtain ⟨r, -, -, hsaved⟩ := generate_of_configured hconf
    rw [hsaved] at hfails
    obtain ⟨failure', hsave, hpair⟩ := Option.map_eq_some_iff.1 hfails
    cases hpair
    obtain ⟨f', hf', hfault', hpath⟩ := ReleaseFile.save_systemic fs r o.out _ hsave
    cases hfault.symm.trans hfault'
    refine ⟨hf', fun p hp => ?_, by simp⟩
    rcases List.mem_cons.1 (hpath p hp) with rfl | hp
    · exact List.mem_cons_self
    · exact Options.boilerplatePath_mem_paths hp
  · simp only [generate, configuration, htargets, hload] at hfails
    cases hfails
    obtain ⟨rfl, hf⟩ := Config.load_systemic hload hfault
    have hnone : ∀ p, (Failure.io f).ioPath? = some p → p ∈ o.paths := by
      intro p hp
      cases hp
    refine ⟨hf, hnone, fun s hs => ⟨path, ?_, ?_⟩⟩
    · simp [Options.paths, htargets]
    · cases hs
      rfl

/-- The line of a failure tells the fault once as the cause, and where else its parts tell it. -/
lemma timesIn_failureLine (hf : f ∈ IoFault.ofSystem) (hfault : failure.ioFault? = some f)
    (hstage : ∀ s, stage = some s → timesIn f.message s = 0) :
    timesIn f.message (failureLine (stage, failure)) = timesIn f.message failure.message + 1 := by
  have hstart : timesIn f.message "error" = 0 := IoFault.timesIn_label hf "error" (by decide)
  cases stage with
  | none =>
    have hline : failureLine (none, failure) =
        "error" ++ ": " ++ (failure.message ++ ": " ++ f.message) ++ "\n" := by
      simp only [failureLine, Failure.causes_of_ioFault hfault]
      rfl
    rw [hline, IoFault.timesIn_newline hf, IoFault.timesIn_parts hf, hstart,
      IoFault.timesIn_parts hf, IoFault.timesIn_message hf, Nat.zero_add]
  | some s =>
    have hline : failureLine (some s, failure) =
        "error" ++ ": " ++ (s ++ ": " ++ failure.message ++ ": " ++ f.message) ++ "\n" := by
      simp only [failureLine, Failure.causes_of_ioFault hfault]
      rfl
    rw [hline, IoFault.timesIn_newline hf, IoFault.timesIn_parts hf, hstart,
      IoFault.timesIn_parts hf, IoFault.timesIn_message hf, IoFault.timesIn_parts hf,
      hstage s rfl, Nat.zero_add, Nat.zero_add]

/-- A run that fails with a fault of the system, and for which no path has the text of the fault,
tells the fault once if it comes with a path: the output that cannot be opened, or the boilerplate
that cannot be opened or copied. A fault without a path, from reading the targets or from writing
the release, is told twice. -/
theorem run_tells_fault {args : List String} (h : CommandLine.parse args = .generate o)
    (hfails : (generate fs o).failure = some (stage, failure))
    (hfault : failure.ioFault? = some f) (hpaths : ∀ p ∈ o.paths, timesIn f.message p = 0)
    (verbosity : Verbosity) :
    (run fs verbosity args).exit = 1 ∧
      timesIn f.message (run fs verbosity args).stderr = failure.tellings := by
  obtain ⟨hf, hpath, hstage⟩ := generate_systemic hfails hfault
  have hrun : (run fs verbosity args).exit = 1 ∧
      (run fs verbosity args).stderr = failureLine (stage, failure) := by
    simp only [run, h, hfails]
    exact ⟨trivial, trivial⟩
  obtain ⟨hexit, hstderr⟩ := hrun
  have hmessage : timesIn f.message failure.message + 1 = failure.tellings :=
    Failure.timesIn_message_of_ioFault hf hfault fun p hp => hpaths p (hpath p hp)
  have hdoing : ∀ s, stage = some s → timesIn f.message s = 0 := by
    intro s hs
    obtain ⟨p, hp, rfl⟩ := hstage s hs
    have hnone := IoFault.timesIn_words hf "loading targets from " p "" (by decide) (by decide)
      (hpaths p hp)
    rw [String.append_empty] at hnone
    exact hnone
  refine ⟨hexit, ?_⟩
  rw [hstderr, timesIn_failureLine hf hfault hdoing, hmessage]

/-- A boilerplate that is a directory is told once. -/
theorem run_tells_unreadable_boilerplate :
    let fs : FileSystem := ⟨[(["d"], .directory)], []⟩
    let args := ["--out", "o", "--boilerplate", "d"]
    (run fs .quiet args).exit = 1 ∧
      timesIn "Is a directory (os error 21)" (run fs .quiet args).stderr = 1 := by
  intro fs args
  have hargs : CommandLine.parse args = .generate ⟨"o", some "d", none⟩ := by decide +kernel
  have hout : fs.Creatable "o" ["o"] := ⟨by decide +kernel, .inl (by decide +kernel)⟩
  have hopened : (fs.put ["o"] (.file [])).openFile "d" = .ok ⟨[], some .isADirectory⟩ := by
    have hfind : (fs.put ["o"] (.file [])).find "d" = .ok .directory := by decide +kernel
    rw [FileSystem.openFile, hfind]
    rfl
  have hpaths : ∀ p ∈ Options.paths ⟨"o", some "d", none⟩,
      timesIn IoFault.isADirectory.message p = 0 := by decide +kernel
  clear_value fs args
  obtain ⟨r, -, -, hsaved⟩ := generate_of_configured
    (o := ⟨"o", some "d", none⟩) (Configured.builtIn rfl : Configured fs _ {})
  have hboilerplate : Options.boilerplatePath? ⟨"o", some "d", none⟩ = some "d" := by
    decide +kernel
  have hfate : (ReleaseFile.save fs r "o" (some "d")).failure =
      some (.copyBoilerplate "d" .isADirectory) := by
    rw [(ReleaseFile.save_creatable hout r (some "d")).2, ReleaseFile.opened, Option.map_some,
      hopened]
    rfl
  rw [hboilerplate, hfate] at hsaved
  exact run_tells_fault hargs hsaved rfl hpaths .quiet

/-- A targets file that is a directory is told twice, though no path has the text of this fault. -/
theorem run_tells_unreadable_targets_twice :
    let fs : FileSystem := ⟨[(["d"], .directory)], []⟩
    let args := ["--out", "o", "--targets", "d"]
    let text := IoFault.isADirectory.message
    CommandLine.parse args = .generate ⟨"o", none, some "d"⟩ ∧
      fs.readText "d" = .error .isADirectory ∧
      (∀ p ∈ Options.paths ⟨"o", none, some "d"⟩, timesIn text p = 0) ∧
      (run fs .quiet args).exit = 1 ∧ timesIn text (run fs .quiet args).stderr = 2 := by
  intro fs args text
  refine ⟨by decide +kernel, ?_, by decide +kernel, by decide +kernel, by decide +kernel⟩
  have hfind : fs.find "d" = .ok .directory := by decide +kernel
  rw [FileSystem.readText, FileSystem.openFile, hfind]
  rfl

end Program

end ToolchainRelease
