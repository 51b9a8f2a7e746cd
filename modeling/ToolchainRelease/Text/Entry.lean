/-! One occurrence of a field in a record. The list of a record's entries, in the order of the
text, is what is read and what is written; the values of a field are looked up in it by name. -/
namespace ToolchainRelease.Text

inductive Entry
  | text (name value : String)
  | flag (name : String) (value : Bool)
  | choice (name value : String)
  | record (name : String) (fields : List Entry)
deriving Inhabited

namespace Entry

def name : Entry → String
  | text n _ | flag n _ | choice n _ | record n _ => n

def text? (field : String) : Entry → Option String
  | text n v => if n = field then some v else none
  | _ => none

def flag? (field : String) : Entry → Option Bool
  | flag n v => if n = field then some v else none
  | _ => none

def choice? (field : String) : Entry → Option String
  | choice n v => if n = field then some v else none
  | _ => none

def record? (field : String) : Entry → Option (List Entry)
  | record n fs => if n = field then some fs else none
  | _ => none

end Entry

/-- Whether a field occurs at all. -/
def hasField (field : String) (es : List Entry) : Bool :=
  es.any fun e => e.name = field

theorem hasField_append (field : String) (as bs : List Entry) :
    hasField field (as ++ bs) = (hasField field as || hasField field bs) := by
  simp [hasField]

theorem hasField_reverse (field : String) (es : List Entry) :
    hasField field es.reverse = hasField field es := by
  simp [hasField]

end ToolchainRelease.Text
