import ToolchainRelease.Text.Reader
import ToolchainRelease.Text.Writer

/-! Records of one type as entries, and the operations that a type gains by it: parsing,
merging a text into a record, and printing. -/
namespace ToolchainRelease.Text

class Record (α : Type) where
  Kind : Type
  schema : Schema Kind
  kind : Kind
  /-- The entries of a record in the order of the schema; a field that is not set has none. -/
  entries : α → List Entry
  ofEntries : List Entry → α

variable {α : Type} [R : Record α]

def Record.fullName (α : Type) [R : Record α] : String := R.schema.fullName R.kind

/-- A record after a merge, and the fault that cut the merge short. -/
structure Merged (α : Type) where
  record : α
  fault : Option Fault

/-- Reads a text into a record: repeated fields are appended, a scalar may not be set twice. -/
def merge (text : String) (r : α) : Merged α :=
  let reading := readInto R.schema R.kind (R.entries r) text
  ⟨R.ofEntries reading.entries, reading.fault⟩

def parse (α : Type) [R : Record α] (text : String) : Except Fault α :=
  let merged := merge text (R.ofEntries [])
  match merged.fault with
  | none => .ok merged.record
  | some f => .error f

def printPieces (r : α) : List String := piecesAll 0 (R.entries r)

def print (r : α) : String := render (R.entries r)

/-- How a field of the record type `α` is listed, stored and described. -/
structure Slot (Kind α : Type) where
  field : FieldSchema Kind
  entries : α → List Entry
  store : List Entry → α → α

namespace Slot

variable {Kind α β : Type}

def text (name : String) (get : α → Option String) (set : Option String → α → α) :
    Slot Kind α where
  field := ⟨name, .text⟩
  entries r := (get r).toList.map (.text name)
  store es := set (es.findSome? (Entry.text? name))

def flag (name : String) (get : α → Option Bool) (set : Option Bool → α → α) : Slot Kind α where
  field := ⟨name, .flag⟩
  entries r := (get r).toList.map (.flag name)
  store es := set (es.findSome? (Entry.flag? name))

def choice (name : String) (choices : Choices) (toName : β → String)
    (ofName? : String → Option β) (get : α → Option β) (set : Option β → α → α) :
    Slot Kind α where
  field := ⟨name, .choice choices⟩
  entries r := (get r).toList.map fun v => .choice name (toName v)
  store es := set ((es.findSome? (Entry.choice? name)).bind ofName?)

def texts (name : String) (get : α → List String) (set : List String → α → α) :
    Slot Kind α where
  field := ⟨name, .texts⟩
  entries r := (get r).map (.text name)
  store es := set (es.filterMap (Entry.text? name))

def records (name : String) (kind : Kind) (entries : β → List Entry)
    (ofEntries : List Entry → β) (get : α → List β) (set : List β → α → α) : Slot Kind α where
  field := ⟨name, .records kind⟩
  entries r := (get r).map fun v => .record name (entries v)
  store es := set ((es.filterMap (Entry.record? name)).map ofEntries)

def entriesOf (slots : List (Slot Kind α)) (r : α) : List Entry :=
  slots.flatMap fun s => s.entries r

def ofEntries (slots : List (Slot Kind α)) (empty : α) (es : List Entry) : α :=
  slots.foldl (fun r s => s.store es r) empty

end Slot

end ToolchainRelease.Text
