import ToolchainRelease.Proofs.ToolBinaries

/-! The toolchain of a target, field by field. Of the toolchain that the built-in text describes it
changes the fields that name the target and those that list its tools and directories. -/
namespace ToolchainRelease.Toolchain
open Target

lemma find?_toolPaths (path : String → String) (tools : List String) (name : String) :
    ((tools.map fun tool => (⟨some tool, some (path tool)⟩ : ToolPath)).find?
        fun p => p.name = some name) =
      if name ∈ tools then some ⟨some name, some (path name)⟩ else none := by
  induction tools with
  | nil => rfl
  | cons tool tools ih =>
    by_cases h : tool = name
    · subst h
      simp
    · simp [h, Ne.symm h, ih]

variable {t : Target} {toolchain : Toolchain}

lemma tool_of_build (h : build t = .ok toolchain) (name : String) :
    toolchain.tool name = if name ∈ toolNames then some (t.toolPath name) else none := by
  rw [tool, toolPaths_of_build h, find?_toolPaths]
  split_ifs <;> rfl

lemma eq_specialize_of_build (h : build t = .ok toolchain) :
    toolchain = Baseline.content.specialize t :=
  Except.ok.inj (h.symm.trans (build_eq Baseline.toolchain_eq t))

/-- A target that is not a cross target gives away no more than its library. -/
lemma specialize_host (base : Toolchain) (cpu cpu' libc : String) :
    base.specialize ⟨cpu, libc, false⟩ = base.specialize ⟨cpu', libc, false⟩ := rfl

/-- Every target has a toolchain: the one that the built-in text describes, but for the fields that
name the target and those that list its tools, one of them twice, and its directories. A tool is
found there under its own name, and with the label of the target before it if this is a cross
target; no other name is found. The processor of a target that is not a cross target is nowhere in
its toolchain. -/
theorem build_total :
    Text.parse Toolchain Baseline.text = .ok Baseline.content ∧ toolNames.count "ld" = 2 ∧
      (∀ t : Target, ∃ toolchain, build t = .ok toolchain ∧
        toolchain = { Baseline.content with
          compiler := some "gcc"
          identifier := some t.systemName
          targetSystemName := some t.systemName
          targetCpu := some t.effectiveCpu
          targetLibc := some t.libcLabel
          abiVersion := some t.libcLabel
          abiLibcVersion := some t.libcLabel
          toolPaths := toolNames.map fun tool => ⟨some tool, some (t.toolPath tool)⟩
          cxxBuiltinIncludeDirectories := t.includeDirectories } ∧
        ∀ name, toolchain.tool name =
          if name ∈ toolNames then
            some (if t.cross then "/usr/bin/" ++ t.libcLabel ++ "-" ++ name
              else "/usr/bin/" ++ name)
          else none) ∧
      ∀ cpu cpu' libc, build ⟨cpu, libc, false⟩ = build ⟨cpu', libc, false⟩ := by
  refine ⟨Baseline.toolchain_eq, by decide, fun t => ?_, fun cpu cpu' libc => ?_⟩
  · obtain ⟨toolchain, h⟩ := build_ok t
    exact ⟨toolchain, h, eq_specialize_of_build h, tool_of_build h⟩
  · rw [build_eq Baseline.toolchain_eq, build_eq Baseline.toolchain_eq,
      specialize_host _ cpu cpu']

end ToolchainRelease.Toolchain
