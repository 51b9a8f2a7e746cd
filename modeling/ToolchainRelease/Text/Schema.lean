/-! Which fields a kind of record has. A schema names its kinds of record by an index type,
so that a record may hold records of its own kind. -/
namespace ToolchainRelease.Text

/-- An enumeration whose values are written by name. -/
structure Choices where
  typeName : String
  names : List String

inductive Shape (Kind : Type)
  | text
  | flag
  | choice (choices : Choices)
  | texts
  | records (kind : Kind)

/-- A scalar occurs at most once in a record. -/
def Shape.isScalar {Kind : Type} : Shape Kind → Bool
  | text | flag | choice _ => true
  | texts | records _ => false

structure FieldSchema (Kind : Type) where
  name : String
  shape : Shape Kind

structure Schema (Kind : Type) where
  fullName : Kind → String
  /-- The fields of a kind of record, in the order in which they are written. -/
  fields : Kind → List (FieldSchema Kind)

namespace Schema

variable {Kind : Type}

def field? (S : Schema Kind) (k : Kind) (name : String) : Option (FieldSchema Kind) :=
  (S.fields k).find? fun f => f.name = name

theorem name_of_field? {S : Schema Kind} {k : Kind} {name : String} {f : FieldSchema Kind}
    (h : S.field? k name = some f) : f.name = name := by
  simpa using List.find?_some h

theorem mem_of_field? {S : Schema Kind} {k : Kind} {name : String} {f : FieldSchema Kind}
    (h : S.field? k name = some f) : f ∈ S.fields k :=
  List.mem_of_find?_eq_some h

end Schema

end ToolchainRelease.Text
