import ToolchainRelease.Decimal.Double
import ToolchainRelease.Text.Quoted
import ToolchainRelease.Toml.Value

/-! Values read as data of a known form. A record is a table, whose keys are visited in the order
of the document, or an array of its fields; the first part that does not fit is reported. -/
namespace ToolchainRelease.Toml

/-- What stands where something else was expected. -/
inductive Found
  | text (s : String)
  | integer (i : Int)
  | float (x : Float)
  | boolean (b : Bool)
  | sequence
  | map

inductive Mismatch
  | missingField (name : String)
  | invalidType (found : Found) (wanted : String)
  | invalidLength (length : Nat) (wanted : String)

namespace Found

def describe : Found → String
  | text s => "string " ++ Text.quoted s
  | integer i => s!"integer \x60{i}\x60"
  | float x => "floating point \x60" ++ Decimal.showDouble x ++ "\x60"
  | boolean b => "boolean \x60" ++ (if b then "true" else "false") ++ "\x60"
  | sequence => "sequence"
  | map => "map"

end Found

namespace Mismatch

def message : Mismatch → String
  | missingField name => s!"missing field \x60{name}\x60"
  | invalidType found wanted => "invalid type: " ++ found.describe ++ ", expected " ++ wanted
  | invalidLength length wanted => s!"invalid length {length}, expected {wanted}"

end Mismatch

namespace Value

/-- How a value is named where it is not expected; a date counts as a table. -/
def found : Value → Found
  | .text s => .text s
  | .integer i => .integer i
  | .float x => .float x
  | .boolean b => .boolean b
  | .array _ | .tables _ => .sequence
  | .moment _ | .table _ _ => .map

def asText : Value → Except Mismatch String
  | .text s => .ok s
  | v => .error (.invalidType v.found "a string")

def asBoolean : Value → Except Mismatch Bool
  | .boolean b => .ok b
  | v => .error (.invalidType v.found "a boolean")

def asSequence : Value → Except Mismatch (List Value)
  | .array items | .tables items => .ok items
  | v => .error (.invalidType v.found "a sequence")

/-- The two ways to write a record. A date is a table none of whose keys a record knows. -/
inductive Layout
  | keys (fields : Fields)
  | places (items : List Value)

def layout (recordName : String) : Value → Except Mismatch Layout
  | .table _ fields => .ok (.keys fields)
  | .moment _ => .ok (.keys [])
  | .array items | .tables items => .ok (.places items)
  | v => .error (.invalidType v.found ("struct " ++ recordName))

end Value

/-- A field that has to be there. -/
def required {α : Type} (name : String) (v : Option α) : Except Mismatch α :=
  match v with
  | some a => .ok a
  | none => .error (.missingField name)

end ToolchainRelease.Toml
