import ToolchainRelease.Text.Entry
import ToolchainRelease.Text.Scanner
import ToolchainRelease.Text.Schema

/-! Entries from tokens. The reader takes one token at a time and keeps a stack of the records
that are still open; an entry is stored only when its value is complete, so that a fault leaves
the outermost record with whole entries alone. -/
namespace ToolchainRelease.Text

/-- A record under way, its newest entry first. -/
structure OpenRecord (Kind : Type) where
  kind : Kind
  entries : List Entry

/-- A record that waits for a nested one, which belongs to `field` and stands in `delimiter`. -/
structure Enclosing (Kind : Type) where
  record : OpenRecord Kind
  field : String
  delimiter : Delimiter

/-- What the next token has to be. A scalar remembers the place of its field name. -/
inductive Need (Kind : Type)
  /-- A field name, the closing delimiter or the end; after a complete field also a separator. -/
  | field (separator : Bool)
  | colon (field : FieldSchema Kind) (place : Position)
  | value (field : FieldSchema Kind) (place : Position)
  /-- After a literal: further literals that continue it, or what follows the field. -/
  | moreText (field : FieldSchema Kind) (place first : Position) (bytes : List UInt8)
  | block (field : FieldSchema Kind) (kind : Kind) (colon : Bool)

structure Reader (Kind : Type) where
  record : OpenRecord Kind
  /-- The open records around it, innermost first. -/
  outer : List (Enclosing Kind)
  need : Need Kind

def readFlag? (w : String) : Option Bool :=
  if w ∈ ["true", "True", "t", "1"] then some true
  else if w ∈ ["false", "False", "f", "0"] then some false
  else none

/-- What reading a text leaves: the entries of the outermost record, and the fault that
ended the reading early. -/
structure Reading where
  entries : List Entry
  fault : Option Fault

namespace Reader

variable {Kind : Type}

def start (kind : Kind) (entries : List Entry) : Reader Kind :=
  ⟨⟨kind, entries.reverse⟩, [], .field false⟩

/-- The entries of the outermost record, in the order of the text. -/
def kept (r : Reader Kind) : List Entry :=
  match r.outer.getLast? with
  | some e => e.record.entries.reverse
  | none => r.record.entries.reverse

def store (r : Reader Kind) (e : Entry) : Reader Kind :=
  { r with record := { r.record with entries := e :: r.record.entries }, need := .field true }

/-- Stores a scalar, unless its field has a value already. -/
def storeOnce (r : Reader Kind) (e : Entry) (place : Position) : Except Fault (Reader Kind) :=
  if hasField e.name r.record.entries then .error ⟨place, .repeatedField e.name⟩
  else .ok (r.store e)

/-- Stores the text that the literals of a field spell together. -/
def storeText (r : Reader Kind) (field : FieldSchema Kind) (place first : Position)
    (bytes : List UInt8) : Except Fault (Reader Kind) :=
  match ofUtf8? bytes with
  | none => .error ⟨first, .invalidUtf8⟩
  | some s =>
    if field.shape.isScalar then r.storeOnce (.text field.name s) place
    else .ok (r.store (.text field.name s))

/-- The entries of a nested record become an entry of the record around it. -/
def leave (r : Reader Kind) (e : Enclosing Kind) (outer : List (Enclosing Kind)) : Reader Kind :=
  store ⟨e.record, outer, r.need⟩ (.record e.field r.record.entries.reverse)

def enter (r : Reader Kind) (field : String) (kind : Kind) (d : Delimiter) : Reader Kind :=
  ⟨⟨kind, []⟩, ⟨r.record, field, d⟩ :: r.outer, .field false⟩

def wanted : Shape Kind → Expected
  | .text | .texts => .text
  | .flag => .flag
  | .choice _ => .choice
  | .records _ => .block

/-- A word where a field name may stand. -/
def beginField (S : Schema Kind) (r : Reader Kind) (p : Position) (w : String) :
    Except Fault (Reader Kind) :=
  match S.field? r.record.kind w with
  | none => .error ⟨p, .unknownField w (S.fullName r.record.kind)⟩
  | some f =>
    match f.shape with
    | .records k => .ok { r with need := .block f k true }
    | _ => .ok { r with need := .colon f p }

/-- A token where a field may begin or the record may end. -/
def atField (S : Schema Kind) (r : Reader Kind) (separator : Bool) (t : Placed) :
    Except Fault (Reader Kind) :=
  let refuse := Except.error ⟨t.position, .unexpected .fieldName (some t.token)⟩
  match t.token with
  | .word w => if isFieldName w then r.beginField S t.position w else refuse
  | .closing d =>
    match r.outer with
    | e :: outer => if e.delimiter = d then .ok (r.leave e outer) else refuse
    | [] => refuse
  | .separator => if separator then .ok { r with need := .field false } else refuse
  | _ => refuse

/-- The value of a scalar or of a repeated text. -/
def takeValue (r : Reader Kind) (field : FieldSchema Kind) (place : Position) (t : Placed) :
    Except Fault (Reader Kind) :=
  let refuse := Except.error ⟨t.position, .unexpected (wanted field.shape) (some t.token)⟩
  match field.shape, t.token with
  | .text, .literal bs | .texts, .literal bs =>
    .ok { r with need := .moreText field place t.position bs }
  | .flag, .word w =>
    match readFlag? w with
    | some b => r.storeOnce (.flag field.name b) place
    | none => .error ⟨t.position, .invalidFlag w⟩
  | .choice c, .word w =>
    if w ∈ c.names then r.storeOnce (.choice field.name w) place
    else .error ⟨t.position, .unknownChoice c.typeName w⟩
  | _, _ => refuse

/-- Goes on, or stops with the entries that `r` has kept. -/
def orStop (r : Reader Kind) : Except Fault (Reader Kind) → Except Reading (Reader Kind)
  | .ok r' => .ok r'
  | .error f => .error ⟨r.kept, some f⟩

/-- A text is stored when the token after its literals is known, and is kept even if that token
is at fault. -/
def step (S : Schema Kind) (r : Reader Kind) (t : Placed) : Except Reading (Reader Kind) :=
  let refuse (wanted : Expected) :=
    Except.error ⟨r.kept, some ⟨t.position, .unexpected wanted (some t.token)⟩⟩
  match r.need with
  | .field separator => r.orStop (r.atField S separator t)
  | .colon field place =>
    match t.token with
    | .colon => .ok { r with need := .value field place }
    | _ => refuse .colon
  | .value field place => r.orStop (r.takeValue field place t)
  | .moreText field place first bytes =>
    match t.token with
    | .literal more => .ok { r with need := .moreText field place first (bytes ++ more) }
    | _ => do
      let stored ← r.orStop (r.storeText field place first bytes)
      stored.orStop (stored.atField S true t)
  | .block field kind colon =>
    match t.token with
    | .colon => if colon then .ok { r with need := .block field kind false } else refuse .block
    | .opening d => .ok (r.enter field.name kind d)
    | _ => refuse .block

/-- The end of the text at place `p`. -/
def finish (S : Schema Kind) (r : Reader Kind) (p : Position) : Reading :=
  let close (r : Reader Kind) : Reading :=
    match r.outer with
    | [] => ⟨r.kept, none⟩
    | _ => ⟨r.kept, some ⟨p, .unclosed (S.fullName r.record.kind)⟩⟩
  let refuse (wanted : Expected) : Reading := ⟨r.kept, some ⟨p, .unexpected wanted none⟩⟩
  match r.need with
  | .field _ => close r
  | .colon _ _ => refuse .colon
  | .value field _ => refuse (wanted field.shape)
  | .moreText field place first bytes =>
    match r.storeText field place first bytes with
    | .ok stored => close stored
    | .error f => ⟨r.kept, some f⟩
  | .block _ _ _ => refuse .block

def run (S : Schema Kind) (r : Reader Kind) : List Placed → Ending → Reading
  | [], .finished p => r.finish S p
  | [], .broken _ f => ⟨r.kept, some f⟩
  | t :: ts, ending =>
    match r.step S t with
    | .ok r' => r'.run S ts ending
    | .error reading => reading

end Reader

/-- Reads a text into a record that has entries already. -/
def readInto {Kind : Type} (S : Schema Kind) (kind : Kind) (entries : List Entry) (text : String) :
    Reading :=
  let s := scan text
  (Reader.start kind entries).run S s.tokens s.ending

end ToolchainRelease.Text
