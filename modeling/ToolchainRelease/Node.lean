import ToolchainRelease.Records

/-! A record type that holds records of its own type, to any depth. The name of the type belongs
to whoever uses it. -/
namespace ToolchainRelease

open Text

structure Node where
  label : Option String := none
  flag : Option Bool := none
  mode : Option LinkingMode := none
  tags : List String := []
  children : List Node := []
deriving Inhabited

namespace Node

/-- The fields that hold no records. -/
def slots : List (Slot Unit Node) :=
  [.text "label" label fun v r => { r with label := v },
   .flag "flag" flag fun v r => { r with flag := v },
   .choice "mode" LinkingMode.choices LinkingMode.name LinkingMode.ofName? mode
     fun v r => { r with mode := v },
   .texts "tag" tags fun v r => { r with tags := v }]

mutual

def entries : Node → List Entry
  | ⟨label, flag, mode, tags, children⟩ =>
    Slot.entriesOf slots ⟨label, flag, mode, tags, []⟩ ++ childEntries children

def childEntries : List Node → List Entry
  | [] => []
  | n :: ns => .record "child" n.entries :: childEntries ns

end

mutual

def child? : Entry → Option Node
  | .record name fields =>
    if name = "child" then
      some { Slot.ofEntries slots {} fields with children := childrenOf fields }
    else none
  | _ => none
termination_by structural e => e

def childrenOf : List Entry → List Node
  | [] => []
  | e :: es => (child? e).toList ++ childrenOf es
termination_by structural es => es

end

def ofEntries (es : List Entry) : Node :=
  { Slot.ofEntries slots {} es with children := childrenOf es }

def schema (fullName : String) : Schema Unit :=
  ⟨fun _ => fullName, fun _ => slots.map Slot.field ++ [⟨"child", .records ()⟩]⟩

abbrev record (fullName : String) : Record Node := ⟨Unit, schema fullName, (), entries, ofEntries⟩

end Node

end ToolchainRelease
