import ToolchainRelease.Toml.Value

/-! Tables put together from the lines of a document. A table is defined once: by its header,
by dotted keys, or between braces. -/
namespace ToolchainRelease.Toml

/-- A key and its value; the key has one part at least. -/
structure Assignment where
  path : List String
  key : String
  value : Value

/-- Changes the table at the end of a path. Tables that are missing on the way are made, with
the origin `made`; a dotted key passes through tables that no header has defined. -/
def descend (made : Origin) (change : Origin → Fields → Option Fields) :
    List String → Origin → Fields → Option Fields
  | [], origin, fs => change origin fs
  | k :: ks, _, fs =>
    match fs.get? k with
    | none => do
      let inner ← descend made change ks made []
      return fs ++ [(k, .table made inner)]
    | some (.table origin inner) =>
      if origin = .inline ∨ (made = .dotted ∧ origin = .header) then none
      else do
        let inner ← descend made change ks origin inner
        return fs.replace k (.table origin inner)
    | some (.tables items) =>
      match items.getLast? with
      | some (.table origin inner) => do
        let inner ← descend made change ks origin inner
        return fs.replace k (.tables (items.dropLast ++ [.table origin inner]))
      | _ => none
    | some _ => none

/-- Adds a key to a table that has not got it. A dotted key ends in a table that dotted keys
have made, and a plain key in the table it stands in. -/
def assign (a : Assignment) (origin : Origin) (fs : Fields) : Option Fields :=
  let add (last : Origin) (fs : Fields) : Option Fields :=
    if (last = .dotted) = a.path.isEmpty then none
    else if (fs.get? a.key).isSome then none
    else some (fs ++ [(a.key, a.value)])
  descend .dotted add a.path origin fs

def assignAll (origin : Origin) (fs : Fields) (as : List Assignment) : Option Fields :=
  as.foldlM (fun fs a => assign a origin fs) fs

/-- A header with the keys that follow it. -/
structure Section where
  /-- Whether the header stands in double brackets. -/
  element : Bool
  path : List String
  key : String
  assignments : List Assignment

/-- Adds a section to the table that holds its own. A header may come after the headers of
tables below it, and then takes their place at the end. -/
def Section.addTo (s : Section) (fs : Fields) : Option Fields :=
  if s.element then
    match fs.get? s.key with
    | none => do
      let inner ← assignAll .header [] s.assignments
      return fs ++ [(s.key, .tables [.table .header inner])]
    | some (.tables items) => do
      let inner ← assignAll .header [] s.assignments
      return fs.replace s.key (.tables (items ++ [.table .header inner]))
    | some _ => none
  else
    match fs.get? s.key with
    | none => do
      let inner ← assignAll .header [] s.assignments
      return fs ++ [(s.key, .table .header inner)]
    | some (.table .implied inner) => do
      let inner ← assignAll .header inner s.assignments
      return fs.remove s.key ++ [(s.key, .table .header inner)]
    | some _ => none

/-- The keys before the first header, and the sections. -/
structure Document where
  assignments : List Assignment
  sections : List Section

def Document.fields? (d : Document) : Option Fields := do
  let root ← assignAll .header [] d.assignments
  let add (fs : Fields) (s : Section) : Option Fields :=
    descend .implied (fun _ inner => s.addTo inner) s.path .header fs
  d.sections.foldlM add root

end ToolchainRelease.Toml
