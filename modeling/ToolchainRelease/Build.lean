import ToolchainRelease.Baseline
import ToolchainRelease.Failure

/-! Toolchains for targets, and the release that holds them. -/
namespace ToolchainRelease

namespace Toolchain

def compilerName : String := "gcc"

/-- Sets what tells the toolchain of a target from others, and lists its tools and the
directories that its compiler searches. -/
def specialize (base : Toolchain) (t : Target) : Toolchain :=
  { base with
    compiler := some compilerName
    identifier := some t.systemName
    targetSystemName := some t.systemName
    targetCpu := some t.effectiveCpu
    targetLibc := some t.libcLabel
    abiVersion := some t.libcLabel
    abiLibcVersion := some t.libcLabel
    toolPaths := base.toolPaths ++
      Target.toolNames.map fun tool => ⟨some tool, some (t.toolPath tool)⟩
    cxxBuiltinIncludeDirectories := base.cxxBuiltinIncludeDirectories ++ t.includeDirectories }

def build (t : Target) : Except Failure Toolchain :=
  match Baseline.toolchain with
  | .ok base => .ok (base.specialize t)
  | .error f => .error (.text f)

end Toolchain

namespace Release

/-- The toolchains of targets that come after targets with the names `seen`. -/
def buildAll (seen : List String) : List Target → Except Failure (List Toolchain)
  | [] => .ok []
  | t :: ts =>
    if t.systemName ∈ seen then .error (.duplicateToolchain t.systemName)
    else do
      let toolchain ← Toolchain.build t
      let rest ← buildAll (t.systemName :: seen) ts
      return toolchain :: rest

/-- A release with one toolchain for each target, in order. No two targets may have one name. -/
def build (labels : Labels) (targets : List Target) : Except Failure Release := do
  let toolchains ← buildAll [] targets
  return { majorVersion := some labels.majorVersion
           minorVersion := some labels.minorVersion
           toolchains := toolchains }

end Release

end ToolchainRelease
