import ToolchainRelease.Target
import ToolchainRelease.Text.Quoted

/-! What is told about a run, and how much of it is shown. -/
namespace ToolchainRelease

inductive Level
  | debug
  | info
deriving DecidableEq

namespace Level

def label : Level → String
  | debug => "DEBUG"
  | info => " INFO"

end Level

/-- The least important level that is shown, if any is. -/
inductive Verbosity
  | quiet
  | upTo (level : Level)

namespace Verbosity

/-- The name of a level in any case. By default, and for all levels above `info`, nothing that
this program tells is shown. -/
def ofName (name : Option String) : Verbosity :=
  match name.map String.toLower with
  | some "info" => upTo .info
  | some "debug" | some "trace" => upTo .debug
  | _ => quiet

def shows : Verbosity → Level → Bool
  | quiet, _ => false
  | upTo .info, .debug => false
  | upTo _, _ => true

end Verbosity

inductive Event
  | loadedTargets (path : String) (targets : Nat)
  | builtToolchain (target : Target)
  | copiedBoilerplate (path : String) (bytes : Nat)
  | wroteRelease (path : String) (toolchains : Nat)

namespace Event

def level : Event → Level
  | loadedTargets _ _ | builtToolchain _ | copiedBoilerplate _ _ => .debug
  | wroteRelease _ _ => .info

def text : Event → String
  | loadedTargets path n => s!"loaded targets file path={path} targets={n}"
  | builtToolchain t =>
    "built toolchain toolchain=" ++ Text.quoted t.systemName ++ " cpu=" ++
      Text.quoted t.effectiveCpu ++ " cross=" ++ (if t.cross then "true" else "false")
  | copiedBoilerplate path n => s!"copied boilerplate path={path} bytes={n}"
  | wroteRelease path n => s!"wrote CROSSTOOL path={path} toolchains={n}"

def line (e : Event) : String := e.level.label ++ " " ++ e.text

end Event

end ToolchainRelease
