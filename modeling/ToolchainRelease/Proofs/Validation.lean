import Mathlib.Data.List.Nodup
import ToolchainRelease.Program
import ToolchainRelease.Proofs.Build

/-! Which configurations are accepted, and why others are not. A configuration that is accepted can
be built, and where its texts are not blank, validating and building it find the same fault. -/
namespace ToolchainRelease

namespace Target

def IsNamed (t : Target) : Prop := Text.isBlank t.cpu = false ∧ Text.isBlank t.libc = false

instance : DecidablePred IsNamed := fun t =>
  inferInstanceAs (Decidable (Text.isBlank t.cpu = false ∧ Text.isBlank t.libc = false))

/-- The targets of a usable configuration: each is named, and no two have the same name. -/
structure AllUsable (ts : List Target) : Prop where
  named : ∀ t ∈ ts, t.IsNamed
  distinct : (ts.map systemName).Nodup

lemma AllUsable.nil : AllUsable [] := ⟨by simp, List.nodup_nil⟩

lemma allUsable_snoc {ts : List Target} {t : Target} :
    AllUsable (ts ++ [t]) ↔ AllUsable ts ∧ t.IsNamed ∧ t.systemName ∉ ts.map systemName := by
  constructor
  · rintro ⟨named, distinct⟩
    rw [List.map_append, List.map_singleton, ← List.concat_eq_append, List.nodup_concat] at distinct
    exact ⟨⟨fun u hu => named u (by simp [hu]), distinct.2⟩, named t (by simp), distinct.1⟩
  · rintro ⟨⟨named, distinct⟩, ht, hnew⟩
    refine ⟨fun u hu => ?_, ?_⟩
    · rcases List.mem_append.1 hu with hu | hu
      · exact named u hu
      · rwa [List.mem_singleton.1 hu]
    · rw [List.map_append, List.map_singleton, ← List.concat_eq_append, List.nodup_concat]
      exact ⟨hnew, distinct⟩

lemma AllUsable.of_append {as bs : List Target} (h : AllUsable (as ++ bs)) : AllUsable as := by
  refine ⟨fun t ht => h.named t (by simp [ht]), ?_⟩
  have hdistinct := h.distinct
  rw [List.map_append] at hdistinct
  exact hdistinct.of_append_left

/-- What is wrong with a target that comes after others. A blank processor counts before a blank
library, and both count before a name that a target before it has. -/
inductive IsFault (before : List Target) (t : Target) : Config.Defect → Prop
  | emptyCpu (blank : Text.isBlank t.cpu = true) : IsFault before t (.emptyCpu (before.length + 1))
  | emptyLibc (named : Text.isBlank t.cpu = false) (blank : Text.isBlank t.libc = true) :
      IsFault before t (.emptyLibc (before.length + 1) t.cpu)
  | duplicate (named : t.IsNamed) (found : t.systemName ∈ before.map systemName) :
      IsFault before t (.duplicate t.systemName)

lemma IsFault.unique {before : List Target} {t : Target} {d d' : Config.Defect}
    (h : IsFault before t d) (h' : IsFault before t d') : d = d' := by
  cases h <;> cases h' <;> simp_all [IsNamed]

lemma IsFault.not_usable {before after : List Target} {t : Target} {d : Config.Defect}
    (h : IsFault before t d) : ¬AllUsable (before ++ t :: after) := by
  intro husable
  rw [← List.singleton_append, ← List.append_assoc] at husable
  obtain ⟨-, ⟨hcpu, hlibc⟩, hnew⟩ := allUsable_snoc.1 husable.of_append
  cases h with
  | emptyCpu blank => simp [blank] at hcpu
  | emptyLibc named blank => simp [blank] at hlibc
  | duplicate named found => exact hnew found

/-- The first target of a list that is at fault has this defect; the list comes after others, which
are not at fault. -/
def IsFirstFault (before ts : List Target) (d : Config.Defect) : Prop :=
  ∃ mid t after, ts = mid ++ t :: after ∧ AllUsable (before ++ mid) ∧ IsFault (before ++ mid) t d

section FirstFault

variable {before ts : List Target} {t : Target} {d d' : Config.Defect}

lemma isFirstFault_nil : ¬IsFirstFault before [] d := by
  rintro ⟨mid, t, after, hts, -⟩
  simp at hts

lemma isFirstFault_of_fault (h : AllUsable before) (hd : IsFault before t d') :
    IsFirstFault before (t :: ts) d ↔ d' = d := by
  constructor
  · rintro ⟨mid, u, after, hts, husable, hu⟩
    cases mid with
    | nil =>
      obtain ⟨rfl, rfl⟩ := List.cons.inj hts
      rw [List.append_nil] at hu
      exact hd.unique hu
    | cons v mid =>
      obtain ⟨rfl, rfl⟩ := List.cons.inj hts
      exact absurd husable hd.not_usable
  · rintro rfl
    exact ⟨[], t, ts, rfl, by simpa using h, by simpa using hd⟩

lemma isFirstFault_after (h : AllUsable (before ++ [t])) :
    IsFirstFault before (t :: ts) d ↔ IsFirstFault (before ++ [t]) ts d := by
  constructor
  · rintro ⟨mid, u, after, hts, hmid, hu⟩
    cases mid with
    | nil =>
      obtain ⟨rfl, rfl⟩ := List.cons.inj hts
      rw [List.append_nil] at hu
      exact absurd h hu.not_usable
    | cons v mid =>
      obtain ⟨rfl, rfl⟩ := List.cons.inj hts
      rw [← List.singleton_append, ← List.append_assoc] at hmid hu
      exact ⟨mid, u, after, rfl, hmid, hu⟩
  · rintro ⟨mid, u, after, rfl, hmid, hu⟩
    rw [List.append_assoc] at hmid hu
    exact ⟨t :: mid, u, after, rfl, hmid, hu⟩

end FirstFault

def names (ts : List Target) : List String := (ts.map systemName).reverse

lemma names_snoc (ts : List Target) (t : Target) :
    names (ts ++ [t]) = t.systemName :: names ts := by
  simp [names]

end Target

namespace Config
open Target

lemma firstDefect_cases (before : List Target) (t : Target) (ts : List Target) :
    (∃ d, IsFault before t d ∧
      firstDefect (before.length + 1) (names before) (t :: ts) = some d) ∨
    (t.IsNamed ∧ t.systemName ∉ before.map systemName ∧
      firstDefect (before.length + 1) (names before) (t :: ts) =
        firstDefect ((before ++ [t]).length + 1) (names (before ++ [t])) ts) := by
  have hmem : t.systemName ∈ names before ↔ t.systemName ∈ before.map systemName :=
    List.mem_reverse
  rw [names_snoc, List.length_append, List.length_singleton, firstDefect]
  split_ifs with hcpu hlibc hseen
  · exact .inl ⟨_, .emptyCpu hcpu, rfl⟩
  · exact .inl ⟨_, .emptyLibc (by simpa using hcpu) hlibc, rfl⟩
  · have named : t.IsNamed := ⟨by simpa using hcpu, by simpa using hlibc⟩
    exact .inl ⟨_, .duplicate named (hmem.1 hseen), rfl⟩
  · have named : t.IsNamed := ⟨by simpa using hcpu, by simpa using hlibc⟩
    exact .inr ⟨named, fun h => hseen (hmem.2 h), rfl⟩

lemma firstDefect_eq_none_iff {before : List Target} (h : AllUsable before) (ts : List Target) :
    firstDefect (before.length + 1) (names before) ts = none ↔ AllUsable (before ++ ts) := by
  induction ts generalizing before with
  | nil =>
    rw [List.append_nil]
    exact iff_of_true rfl h
  | cons t ts ih =>
    rcases firstDefect_cases before t ts with ⟨d, hd, heq⟩ | ⟨named, hnew, heq⟩
    · rw [heq]
      exact iff_of_false (Option.some_ne_none d) hd.not_usable
    · rw [heq, ih (allUsable_snoc.2 ⟨h, named, hnew⟩), List.append_assoc, List.singleton_append]

lemma firstDefect_eq_some_iff {before : List Target} (h : AllUsable before) (ts : List Target)
    (d : Defect) :
    firstDefect (before.length + 1) (names before) ts = some d ↔ IsFirstFault before ts d := by
  induction ts generalizing before with
  | nil => exact iff_of_false (by simp [firstDefect]) isFirstFault_nil
  | cons t ts ih =>
    rcases firstDefect_cases before t ts with ⟨d', hd, heq⟩ | ⟨named, hnew, heq⟩
    · rw [heq, Option.some_inj, isFirstFault_of_fault h hd]
    · have husable : AllUsable (before ++ [t]) := allUsable_snoc.2 ⟨h, named, hnew⟩
      rw [heq, ih husable, isFirstFault_after husable]

lemma defect?_eq_none_iff (c : Config) :
    c.defect? = none ↔ c.targets ≠ [] ∧ AllUsable c.targets := by
  unfold defect?
  split_ifs with hempty
  · simp [List.isEmpty_iff.1 hempty]
  · have hne : c.targets ≠ [] := fun h => hempty (List.isEmpty_iff.2 h)
    have hnone := firstDefect_eq_none_iff AllUsable.nil c.targets
    rw [and_iff_right hne]
    exact hnone

lemma defect?_eq_some_iff (c : Config) (d : Defect) :
    c.defect? = some d ↔ (c.targets = [] ∧ d = .noTargets) ∨
      ∃ before t after, c.targets = before ++ t :: after ∧ AllUsable before ∧
        IsFault before t d := by
  unfold defect?
  split_ifs with hempty
  · have hnil := List.isEmpty_iff.1 hempty
    simp [hnil, eq_comm]
  · have hne : c.targets ≠ [] := fun h => hempty (List.isEmpty_iff.2 h)
    have hsome := firstDefect_eq_some_iff AllUsable.nil c.targets d
    rw [or_iff_right fun h => hne h.1]
    exact hsome

lemma validate_eq_ok_iff (c : Config) :
    c.validate = .ok () ↔ c.targets ≠ [] ∧ AllUsable c.targets := by
  rw [← defect?_eq_none_iff, validate]
  cases c.defect? <;> simp

lemma validate_eq_error_iff (c : Config) (f : Failure) :
    c.validate = .error f ↔ (c.targets = [] ∧ f = .noTargets) ∨
      ∃ before t after d, c.targets = before ++ t :: after ∧ AllUsable before ∧
        IsFault before t d ∧ f = .ofDefect d := by
  have hdefect : c.validate = .error f ↔ ∃ d, c.defect? = some d ∧ f = .ofDefect d := by
    unfold validate
    cases c.defect? <;> simp [eq_comm]
  rw [hdefect]
  constructor
  · rintro ⟨d, hd, rfl⟩
    rcases (c.defect?_eq_some_iff d).1 hd with ⟨hnil, rfl⟩ | ⟨before, t, after, hts, hall, ht⟩
    · exact .inl ⟨hnil, rfl⟩
    · exact .inr ⟨before, t, after, d, hts, hall, ht, rfl⟩
  · rintro (⟨hnil, rfl⟩ | ⟨before, t, after, d, hts, hall, ht, rfl⟩)
    · exact ⟨.noTargets, (c.defect?_eq_some_iff _).2 (.inl ⟨hnil, rfl⟩), rfl⟩
    · exact ⟨d, (c.defect?_eq_some_iff d).2 (.inr ⟨before, t, after, hts, hall, ht⟩), rfl⟩

/-- Among named targets, the search for a defect and the building of toolchains come to the same
end: both loops look for a name that they have met. -/
lemma buildAll_agrees {ts : List Target} (named : ∀ t ∈ ts, t.IsNamed) (number : Nat)
    (seen : List String) :
    (firstDefect number seen ts = none ∧
      ∃ toolchains, Release.buildAll seen ts = .ok toolchains) ∨
    ∃ name, firstDefect number seen ts = some (.duplicate name) ∧
      Release.buildAll seen ts = .error (.duplicateToolchain name) := by
  induction ts generalizing number seen with
  | nil => exact .inl ⟨rfl, [], rfl⟩
  | cons t ts ih =>
    obtain ⟨hcpu, hlibc⟩ := named t (by simp)
    obtain ⟨toolchain, ht⟩ := Toolchain.build_ok t
    simp only [firstDefect, Release.buildAll, hcpu, hlibc, ht, Bool.false_eq_true, if_false]
    split_ifs with hseen
    · exact .inr ⟨t.systemName, rfl, rfl⟩
    · rcases ih (fun u hu => named u (by simp [hu])) (number + 1) (t.systemName :: seen) with
        ⟨hnone, toolchains, hok⟩ | ⟨name, hsome, herror⟩
      · rw [hok]
        exact .inl ⟨hnone, _, rfl⟩
      · rw [herror]
        exact .inr ⟨name, hsome, rfl⟩

/-- Where targets are named, a configuration is accepted and can be built, or two of its targets
have one name, and both report the same. -/
lemma build_agrees {c : Config} (hne : c.targets ≠ []) (named : ∀ t ∈ c.targets, t.IsNamed)
    (labels : Labels) :
    (c.validate = .ok () ∧ ∃ release, Release.build labels c.targets = .ok release) ∨
    ∃ name, c.validate = .error (.duplicateToolchain name) ∧
      Release.build labels c.targets = .error (.duplicateToolchain name) := by
  have hdefect : c.defect? = firstDefect 1 [] c.targets := by simp [defect?, hne]
  unfold validate Release.build
  rw [hdefect]
  rcases buildAll_agrees named 1 [] with ⟨hnone, toolchains, hok⟩ | ⟨name, hsome, herror⟩
  · rw [hnone, hok]
    exact .inl ⟨rfl, _, rfl⟩
  · rw [hsome, herror]
    exact .inr ⟨name, rfl, rfl⟩

lemma build_of_validate {c : Config} (h : c.validate = .ok ()) :
    ∃ release, Release.build c.labels c.targets = .ok release := by
  obtain ⟨hne, named, -⟩ := c.validate_eq_ok_iff.1 h
  rcases build_agrees hne named c.labels with ⟨-, hbuild⟩ | ⟨name, herror, -⟩
  · exact hbuild
  · cases h.symm.trans herror

lemma validate_of_parse {read : String → Option Toml.Fields} {text : String} {c : Config}
    (h : parseWith read text = .ok c) : c.validate = .ok () := by
  unfold parseWith at h
  split at h
  · cases h
  · split at h
    · cases h
    · next c' _ =>
      cases hvalid : c'.validate with
      | error f =>
        rw [hvalid] at h
        cases h
      | ok _ =>
        rw [hvalid] at h
        cases h
        exact hvalid

lemma parse_of_load {fs : FileSystem} {path : String} {c : Config} (h : load fs path = .ok c) :
    ∃ text, parse text = .ok c := by
  unfold load at h
  split at h
  · cases h
  · split at h
    · cases h
    · exact ⟨_, h⟩

lemma validate_default : validate {} = .ok () := by
  have hnone : defect? {} = none := by decide +kernel
  rw [validate, hnone]

end Config

namespace Program

variable {fs : FileSystem} {o : Options}

lemma validate_of_configuration {c : Config} {events : List Event}
    (h : configuration fs o = .ok (c, events)) : c.validate = .ok () := by
  unfold configuration at h
  split at h
  · cases h
    exact Config.validate_default
  · split at h
    · next c' hload =>
      cases h
      obtain ⟨text, htext⟩ := Config.parse_of_load hload
      exact Config.validate_of_parse htext
    · cases h

lemma stage_of_configuration {stage : String} {f : Failure}
    (h : configuration fs o = .error (stage, f)) : stage ≠ "building toolchains" := by
  unfold configuration at h
  split at h
  · cases h
  · split at h
    · cases h
    · cases h
      intro hstage
      have hletters := congrArg String.toList hstage
      simp [toString] at hletters

/-- A run never fails while it builds toolchains: its configuration has been validated. -/
lemma generate_failure (fs : FileSystem) (o : Options) (f : Failure) :
    (generate fs o).failure ≠ some (some "building toolchains", f) := by
  unfold generate
  split
  · next stage f' hconf =>
    intro h
    cases h
    exact stage_of_configuration hconf rfl
  · next c loaded hconf =>
    obtain ⟨release, hbuild⟩ := Config.build_of_validate (validate_of_configuration hconf)
    simp only [hbuild]
    split <;> simp

end Program

namespace Config
open Target

/-- Validation fails with the first fault in order, and only with one: no targets at all, or for
the first target at fault a blank processor, a blank library, or a name that an earlier target has.
Where no text is blank it agrees with building, down to the name that it reports. So what has been
accepted can always be built. -/
theorem validate_and_build :
    (∀ c : Config, c.validate = .ok () ↔ c.targets ≠ [] ∧ AllUsable c.targets) ∧
    (∀ (c : Config) (f : Failure), c.validate = .error f ↔
      (c.targets = [] ∧ f = .noTargets) ∨
        ∃ before t after d, c.targets = before ++ t :: after ∧ AllUsable before ∧
          IsFault before t d ∧ f = .ofDefect d) ∧
    (∀ (c : Config) (labels : Labels), c.targets ≠ [] → (∀ t ∈ c.targets, t.IsNamed) →
      (c.validate = .ok () ∧ ∃ release, Release.build labels c.targets = .ok release) ∨
        ∃ name, c.validate = .error (.duplicateToolchain name) ∧
          Release.build labels c.targets = .error (.duplicateToolchain name)) ∧
    (∀ text c, parse text = .ok c →
      ∃ release, Release.build c.labels c.targets = .ok release) ∧
    (∀ fs path c, load fs path = .ok c →
      ∃ release, Release.build c.labels c.targets = .ok release) ∧
    (∃ release, Release.build ({} : Config).labels ({} : Config).targets = .ok release) ∧
    ∀ fs o f, (Program.generate fs o).failure ≠ some (some "building toolchains", f) := by
  refine ⟨validate_eq_ok_iff, validate_eq_error_iff, fun c labels hne named => ?_,
    fun text c htext => ?_, fun fs path c hload => ?_, ?_, Program.generate_failure⟩
  · exact build_agrees hne named labels
  · exact build_of_validate (validate_of_parse htext)
  · obtain ⟨text, htext⟩ := parse_of_load hload
    exact build_of_validate (validate_of_parse htext)
  · exact build_of_validate validate_default

/-- The hyphens of two platforms give them one name; a platform alone is accepted and built. -/
theorem validate_and_build_of_hyphens :
    let c : Config := ⟨{}, [⟨"a-b", "c", true⟩, ⟨"a", "b-c", true⟩]⟩
    let text := "[[target]]\ncpu = \"a-b\"\nlibc = \"c\"\ncross = true\n"
    let fs : FileSystem := ⟨[(["t"], .file (Text.utf8 text))], []⟩
    (c.validate = .error (.duplicateToolchain "cross-a-b-c") ∧
      Release.build c.labels c.targets = .error (.duplicateToolchain "cross-a-b-c")) ∧
    (∃ c, parse text = .ok c ∧ ∃ release, Release.build c.labels c.targets = .ok release) ∧
    ∃ c, load fs "t" = .ok c ∧ ∃ release, Release.build c.labels c.targets = .ok release := by
  intro c text fs
  obtain ⟨hok, -, hagree, hparse, hload, -⟩ := validate_and_build
  refine ⟨?_, ?_, ?_⟩
  · have named : ∀ t ∈ c.targets, t.IsNamed := by decide +kernel
    rcases hagree c c.labels (by decide) named with ⟨hvalid, -⟩ | ⟨name, hvalid, hbuild⟩
    · have hdistinct := ((hok c).1 hvalid).2.distinct
      exact absurd hdistinct (by decide +kernel)
    · have hdefect : c.defect? = some (.duplicate "cross-a-b-c") := by decide +kernel
      have hname : c.validate = .error (.duplicateToolchain "cross-a-b-c") := by
        rw [validate, hdefect]
        rfl
      cases hname.symm.trans hvalid
      exact ⟨hname, hbuild⟩
  · obtain ⟨c', hc⟩ := exists_ok (x := parse text) (by decide +kernel)
    exact ⟨c', hc, hparse text c' hc⟩
  · obtain ⟨c', hc⟩ := exists_ok (x := load fs "t") (by decide +kernel)
    exact ⟨c', hc, hload fs "t" c' hc⟩

end Config

end ToolchainRelease
