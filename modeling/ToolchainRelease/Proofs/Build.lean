import Mathlib.Data.List.Forall2
import Mathlib.Tactic.Common
import ToolchainRelease.Build

/-! What is built for a target. The built-in text describes a toolchain, which each target makes
its own. -/
namespace ToolchainRelease

lemma exists_ok {ε α : Type} {x : Except ε α} (h : x.isOk = true) : ∃ a, x = .ok a := by
  cases x with
  | ok a => exact ⟨a, rfl⟩
  | error e => cases h

namespace Baseline

def content : Toolchain where
  identifier := some ""
  hostSystemName := some "host"
  targetSystemName := some ""
  targetCpu := some ""
  targetLibc := some ""
  compiler := some ""
  abiVersion := some ""
  abiLibcVersion := some ""
  compilerFlags :=
    ["-U_FORTIFY_SOURCE", "-D_FORTIFY_SOURCE=1", "-fstack-protector", "-Wall",
      "-Wunused-but-set-parameter", "-Wno-free-nonheap-object", "-fno-omit-frame-pointer"]
  unfilteredCxxFlags :=
    ["-no-canonical-prefixes", "-fno-canonical-system-headers", "-Wno-builtin-macro-redefined",
      "-D__DATE__=\"redacted\"", "-D__TIMESTAMP__=\"redacted\"", "-D__TIME__=\"redacted\""]
  linkerFlags := ["-Wl,-z,relro,-z,now", "-no-canonical-prefixes", "-pass-exit-codes"]
  objcopyEmbedFlags := ["-I", "binary"]
  compilationModeFlags :=
    [{ mode := some .dbg, compilerFlags := ["-g"] },
      { mode := some .opt
        compilerFlags := ["-g0", "-O2", "-DNDEBUG", "-ffunction-sections", "-fdata-sections"]
        linkerFlags := ["-Wl,--gc-sections"] }]
  linkingModeFlags := [{ mode := some .dynamic }]
  builtinSysroot := some ""
  supportsGoldLinker := some false
  supportsStartEndLib := some false
  supportsInterfaceSharedObjects := some false
  supportsIncrementalLinker := some false
  supportsFission := some false
  supportsNormalizingAr := some false
  needsPic := some true

set_option maxRecDepth 1000 in
lemma toOption_toolchain : toolchain.toOption = some content := by
  decide +kernel

/-- The built-in text is read without a fault, so that any target has a toolchain. -/
lemma toolchain_eq : toolchain = .ok content := by
  have hcontent := toOption_toolchain
  generalize toolchain = x at hcontent ⊢
  cases x with
  | ok base => exact congrArg Except.ok (Option.some.inj hcontent)
  | error f => cases hcontent

lemma toolchain_ok : ∃ base, toolchain = .ok base := ⟨content, toolchain_eq⟩

lemma toolPaths_eq_nil {base : Toolchain} (h : toolchain = .ok base) : base.toolPaths = [] := by
  obtain rfl := Except.ok.inj (toolchain_eq.symm.trans h)
  rfl

end Baseline

lemma Toolchain.build_eq {base : Toolchain} (h : Baseline.toolchain = .ok base) (t : Target) :
    build t = .ok (base.specialize t) := by
  -- Opened at a target, the definition would be compared by reading the built-in text again.
  have hbuild : build = build := rfl
  conv at hbuild => rhs; delta build
  rw [hbuild]
  generalize Baseline.toolchain = x at h
  subst h
  rfl

lemma Toolchain.build_ok (t : Target) : ∃ toolchain, build t = .ok toolchain := by
  obtain ⟨base, hbase⟩ := Baseline.toolchain_ok
  exact ⟨_, build_eq hbase t⟩

lemma Toolchain.identifier_of_build {t : Target} {toolchain : Toolchain}
    (h : build t = .ok toolchain) : toolchain.identifier = some t.systemName := by
  obtain ⟨base, hbase⟩ := Baseline.toolchain_ok
  rw [build_eq hbase] at h
  cases h
  rfl

/-- The toolchains are those of the targets, one for each and in their order. -/
def Toolchain.BuiltFor : List Target → List Toolchain → Prop :=
  List.Forall₂ fun t toolchain => build t = .ok toolchain

lemma Toolchain.BuiltFor.identifiers {ts : List Target} {toolchains : List Toolchain}
    (h : BuiltFor ts toolchains) :
    toolchains.map identifier = (ts.map Target.systemName).map some := by
  induction h with
  | nil => rfl
  | cons ht _ ih => rw [List.map_cons, List.map_cons, List.map_cons, ih, identifier_of_build ht]

namespace Release

lemma builtFor_of_buildAll {seen : List String} {ts : List Target} {toolchains : List Toolchain}
    (h : buildAll seen ts = .ok toolchains) : Toolchain.BuiltFor ts toolchains := by
  induction ts generalizing seen toolchains with
  | nil =>
    cases h
    exact .nil
  | cons t ts ih =>
    obtain ⟨toolchain, ht⟩ := Toolchain.build_ok t
    unfold buildAll at h
    rw [ht] at h
    split_ifs at h
    cases hrest : buildAll (t.systemName :: seen) ts with
    | error f =>
      rw [hrest] at h
      cases h
    | ok rest =>
      rw [hrest] at h
      cases h
      exact .cons ht (ih hrest)

lemma fields_of_build {labels : Labels} {targets : List Target} {r : Release}
    (h : build labels targets = .ok r) :
    r.majorVersion = some labels.majorVersion ∧ r.minorVersion = some labels.minorVersion ∧
      r.defaultTargetCpu = none ∧ Toolchain.BuiltFor targets r.toolchains := by
  unfold build at h
  cases hall : buildAll [] targets with
  | error f =>
    rw [hall] at h
    cases h
  | ok toolchains =>
    rw [hall] at h
    cases h
    exact ⟨rfl, rfl, rfl, builtFor_of_buildAll hall⟩

end Release

end ToolchainRelease
