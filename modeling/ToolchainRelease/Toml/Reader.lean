import ToolchainRelease.Toml.Number
import ToolchainRelease.Toml.Table

/-! Documents from text. Arrays and inline tables may hold one another to a fixed depth, and a
dotted key has a bounded number of parts. -/
namespace ToolchainRelease.Toml

/-- No nesting and no dotted key gets as far as this. -/
def depthLimit : Nat := 80

def isBareKey (c : Char) : Bool := c.isAlphanum || c = '_' || c = '-'

/-- One part of a key; only strings on one line can be keys. -/
def simpleKey? (cs : List Char) : Option (String × List Char) :=
  match cs with
  | '"' :: cs => basicRest (cs.length + 1) [] cs
  | '\'' :: cs => literalRest cs
  | _ =>
    let bare := cs.takeWhile isBareKey
    if bare.isEmpty then none else some (String.ofList bare, cs.drop bare.length)

/-- The parts of a key, with blanks around each of them. -/
def keyParts (steps : Nat) (cs : List Char) : Option (List String × List Char) :=
  match steps with
  | 0 => none
  | steps + 1 => do
    let (k, cs) ← simpleKey? (skipSpaces cs)
    match skipSpaces cs with
    | '.' :: cs => do
      let (ks, cs) ← keyParts steps cs
      return (k :: ks, cs)
    | cs => return ([k], cs)

/-- The parts of a key but the last, and the last one. -/
def key? (cs : List Char) : Option ((List String × String) × List Char) := do
  let (ks, cs) ← keyParts (depthLimit - 1) cs
  let last ← ks.getLast?
  return ((ks.dropLast, last), cs)

mutual

/-- A value. `depth` counts the arrays and inline tables that may still be opened. -/
def value? (depth : Nat) : Nat → List Char → Option (Value × List Char)
  | 0, _ => none
  | steps + 1, cs =>
    match cs with
    | '"' :: _ | '\'' :: _ => (text? cs).map fun t => (.text t.1, t.2)
    | '[' :: cs =>
      match depth with
      | 0 => none
      | depth + 1 => do
        let (items, cs) ← items? depth steps cs
        return (.array items, cs)
    | '\x7b' :: cs =>
      match depth with
      | 0 => none
      | depth + 1 => do
        let (assignments, cs) ← assignments? depth steps cs
        let fs ← assignAll .inline [] assignments
        return (.table .inline fs, cs)
    | 't' :: 'r' :: 'u' :: 'e' :: cs => some (.boolean true, cs)
    | 'f' :: 'a' :: 'l' :: 's' :: 'e' :: cs => some (.boolean false, cs)
    | 'i' :: _ | 'n' :: _ => number? cs
    | _ => (moment? cs).or (number? cs)
termination_by structural steps => steps

/-- The items of an array after its opening bracket. -/
def items? (depth : Nat) : Nat → List Char → Option (List Value × List Char)
  | 0, _ => none
  | steps + 1, cs => do
    let cs ← gap? cs
    match cs with
    | ']' :: cs => return ([], cs)
    | _ =>
      let (v, cs) ← value? depth steps cs
      let cs ← gap? cs
      match cs with
      | ',' :: cs => do
        let (vs, cs) ← items? depth steps cs
        return (v :: vs, cs)
      | ']' :: cs => return ([v], cs)
      | _ => none
termination_by structural steps => steps

/-- The keys of an inline table after its opening brace. -/
def assignments? (depth : Nat) : Nat → List Char → Option (List Assignment × List Char)
  | 0, _ => none
  | steps + 1, cs =>
    match skipSpaces cs with
    | '\x7d' :: cs => some ([], cs)
    | cs => moreAssignments? depth steps cs
termination_by structural steps => steps

/-- One key of an inline table and those after it. -/
def moreAssignments? (depth : Nat) : Nat → List Char → Option (List Assignment × List Char)
  | 0, _ => none
  | steps + 1, cs => do
    let ((path, key), cs) ← key? cs
    let cs ← char? '=' cs
    let (v, cs) ← value? depth steps (skipSpaces cs)
    match skipSpaces cs with
    | ',' :: cs => do
      let (as, cs) ← moreAssignments? depth steps cs
      return (⟨path, key, v⟩ :: as, cs)
    | '\x7d' :: cs => return ([⟨path, key, v⟩], cs)
    | _ => none
termination_by structural steps => steps

end

/-- A key with its value, up to the end of the line. -/
def assignment? (cs : List Char) : Option (Assignment × List Char) := do
  let ((path, key), cs) ← key? cs
  let cs ← char? '=' cs
  let cs := skipSpaces cs
  let (v, cs) ← value? (depthLimit - 1) (2 * cs.length + 2) cs
  let cs ← lineEnd? cs
  return (⟨path, key, v⟩, cs)

/-- A header line as a section without keys. -/
def header? (cs : List Char) : Option (Section × List Char) :=
  match cs with
  | '[' :: '[' :: cs => do
    let ((path, key), cs) ← key? cs
    let cs ← char? ']' cs
    let cs ← char? ']' cs
    let cs ← lineEnd? cs
    return (⟨true, path, key, []⟩, cs)
  | '[' :: cs => do
    let ((path, key), cs) ← key? cs
    let cs ← char? ']' cs
    let cs ← lineEnd? cs
    return (⟨false, path, key, []⟩, cs)
  | _ => none

namespace Document

/-- Adds a key to the last section. The sections, and the keys of each, come newest first. -/
def push (a : Assignment) (d : Document) : Document :=
  match d.sections with
  | [] => { d with assignments := a :: d.assignments }
  | s :: ss => { d with sections := { s with assignments := a :: s.assignments } :: ss }

/-- Puts sections and keys in the order of the text. -/
def inOrder (d : Document) : Document :=
  ⟨d.assignments.reverse,
   d.sections.reverse.map fun s => { s with assignments := s.assignments.reverse }⟩

/-- The lines of a document after those that `d` holds. -/
def lines (steps : Nat) (d : Document) (cs : List Char) : Option Document :=
  match steps with
  | 0 => none
  | steps + 1 =>
    match skipSpaces cs with
    | [] => some d.inOrder
    | '#' :: cs => do
      let cs ← lineEnd? ('#' :: cs)
      lines steps d cs
    | '[' :: cs => do
      let (s, cs) ← header? ('[' :: cs)
      lines steps { d with sections := s :: d.sections } cs
    | cs =>
      match newline? cs with
      | some cs => lines steps d cs
      | none => do
        let (a, cs) ← assignment? cs
        lines steps (d.push a) cs

/-- A byte order mark may come first. -/
def ofText? (text : String) : Option Document :=
  let cs := match text.toList with
    | '\ufeff' :: cs => cs
    | cs => cs
  lines (cs.length + 1) ⟨[], []⟩ cs

end Document

/-- The table that a text describes. -/
def fieldsOf? (text : String) : Option Fields := (Document.ofText? text).bind Document.fields?

end ToolchainRelease.Toml
