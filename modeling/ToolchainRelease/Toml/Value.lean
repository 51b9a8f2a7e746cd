/-! The values of a TOML document. A table remembers how it came about, since that decides what
may still be added to it. -/
namespace ToolchainRelease.Toml

inductive Origin
  /-- Written between braces. -/
  | inline
  /-- Named by a header of its own. -/
  | header
  /-- Named by the header of a table below it. -/
  | implied
  /-- Named by the first parts of a dotted key. -/
  | dotted
deriving DecidableEq

inductive Value
  | text (s : String)
  | integer (i : Int)
  | float (x : Float)
  | boolean (b : Bool)
  /-- A date, a time or both, as it was written. -/
  | moment (written : String)
  | array (items : List Value)
  /-- Tables under a header in double brackets. -/
  | tables (items : List Value)
  | table (origin : Origin) (fields : List (String × Value))
deriving Inhabited

abbrev Fields := List (String × Value)

namespace Fields

def get? (fs : Fields) (key : String) : Option Value := fs.lookup key

/-- Puts a value in the place of the one that the key has. -/
def replace (fs : Fields) (key : String) (v : Value) : Fields :=
  fs.map fun f => if f.1 = key then (key, v) else f

def remove (fs : Fields) (key : String) : Fields := fs.filter fun f => f.1 ≠ key

end Fields

end ToolchainRelease.Toml
