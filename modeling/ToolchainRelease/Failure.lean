import ToolchainRelease.Config
import ToolchainRelease.Output.IoFault
import ToolchainRelease.Text.Fault

/-! Why a release could not be made, and the message that says so. -/
namespace ToolchainRelease

/-- Why a targets file is no configuration. -/
inductive DocumentFault
  | malformed
  | mismatch (m : Toml.Mismatch)

namespace DocumentFault

def message : DocumentFault → String
  | malformed => "malformed document"
  | mismatch m => m.message

end DocumentFault

inductive Failure
  | text (fault : Text.Fault)
  | io (fault : IoFault)
  | create (path : String) (fault : IoFault)
  | openBoilerplate (path : String) (fault : IoFault)
  | copyBoilerplate (path : String) (fault : IoFault)
  | document (fault : DocumentFault)
  | targetsNotFound (path : String)
  | noTargets
  | emptyCpu (number : Nat)
  | emptyLibc (number : Nat) (cpu : String)
  | duplicateToolchain (identifier : String)

namespace Failure

def ofDefect : Config.Defect → Failure
  | .noTargets => noTargets
  | .emptyCpu n => emptyCpu n
  | .emptyLibc n cpu => emptyLibc n cpu
  | .duplicate identifier => duplicateToolchain identifier

def message : Failure → String
  | text f => s!"text format parse error: {f.message}"
  | io f => s!"I/O error: {f.message}"
  | create path _ => s!"failed to open {path} for writing"
  | openBoilerplate path _ => s!"failed to open {path} for reading"
  | copyBoilerplate path _ => s!"failed copying boilerplate {path}"
  | document f => s!"TOML parse error: {f.message}"
  | targetsNotFound path => s!"targets file not found: {path}"
  | noTargets => "validation error: no targets defined"
  | emptyCpu n => s!"validation error: target #{n} has an empty cpu"
  | emptyLibc n cpu => s!"validation error: target #{n} ({cpu}) has an empty libc"
  | duplicateToolchain identifier => s!"duplicate toolchain identifier '{identifier}'"

/-- The messages of the faults that led to this one, outermost first. -/
def causes : Failure → List String
  | text f => [f.message]
  | io f | create _ f | openBoilerplate _ f | copyBoilerplate _ f => [f.message]
  | document f => [f.message]
  | _ => []

end Failure

namespace Config

def validate (c : Config) : Except Failure Unit :=
  match c.defect? with
  | none => .ok ()
  | some d => .error (.ofDefect d)

/-- The configuration that a text describes, if it is usable. The text is read as a document by
`read`. -/
def parseWith (read : String → Option Toml.Fields) (text : String) : Except Failure Config :=
  match read text with
  | none => .error (.document .malformed)
  | some fields =>
    match ofFields fields with
    | .error m => .error (.document (.mismatch m))
    | .ok c => do
      c.validate
      return c

def parse (text : String) : Except Failure Config := parseWith Toml.fieldsOf? text

end Config

end ToolchainRelease
