import ToolchainRelease.Node
import ToolchainRelease.Proofs.Records

/-! The record types that a text can hold, with the laws that all of them share. A node holds
nodes, so its laws are by induction on how deep these are nested. -/
namespace ToolchainRelease
open Text

namespace Node

def allSlots : List (Slot Unit Node) :=
  slots ++ [.records "child" () entries ofEntries children fun v r => { r with children := v }]

lemma childEntries_eq_map (ns : List Node) :
    childEntries ns = ns.map fun n => .record "child" n.entries := by
  induction ns with
  | nil => rfl
  | cons n ns ih => rw [childEntries, ih, List.map_cons]

lemma entries_eq (n : Node) : n.entries = Slot.entriesOf allSlots n := by
  cases n with
  | mk label flag mode tags children =>
    rw [entries, childEntries_eq_map]
    simp only [Slot.entriesOf, allSlots, List.flatMap_append, List.flatMap_singleton]
    rfl

lemma child?_eq (e : Entry) : child? e = (e.record? "child").map ofEntries := by
  cases e with
  | record name fields =>
    by_cases hn : name = "child"
    · subst hn
      rfl
    · simp [child?, Entry.record?, hn]
  | text | flag | choice => rfl

lemma childrenOf_eq (es : List Entry) :
    childrenOf es = (es.filterMap (Entry.record? "child")).map ofEntries := by
  induction es with
  | nil => rfl
  | cons e es ih =>
    rw [childrenOf, child?_eq, ih]
    cases he : e.record? "child" <;> simp [he]

lemma ofEntries_eq (es : List Entry) : ofEntries es = Slot.ofEntries allSlots {} es := by
  rw [ofEntries, childrenOf_eq]
  rfl

lemma layout (fullName : String) : Layout (schema fullName) () allSlots {} where
  fields := rfl
  distinct := by decide
  nameable := by decide +kernel
  apart es := List.map_inj_left.1 rfl

lemma lawful {fullName : String} {n : Node} {es : List Entry}
    (fits : ∀ v ∈ n.children, (schema fullName).Fits () v.entries)
    (arranges : ∀ fields, .record "child" fields ∈ es → (schema fullName).Fits () fields →
      entries (ofEntries fields) = arrange (schema fullName) () fields) :
    ∀ s ∈ allSlots, s.Lawful (schema fullName) () n es := by
  simp only [allSlots, slots, List.cons_append, List.nil_append, List.forall_mem_cons]
  and_intros
  · exact .text fun _ _ => rfl
  · exact .flag fun _ _ => rfl
  · exact .choice (fun _ _ => rfl) LinkingMode.name_mem LinkingMode.ofName?_of_mem
  · exact .texts fun _ _ => rfl
  · exact .records (fun _ _ => rfl) fits arranges
  · simp

lemma of_children {P : Node → Prop} (h : ∀ n, (∀ v ∈ n.children, P v) → P n) (n : Node) : P n :=
  h n fun v _ => of_children h v
termination_by sizeOf n
decreasing_by
  have hlt := List.sizeOf_lt_of_mem ‹v ∈ n.children›
  cases n with
  | mk label flag mode tags children =>
    simp only [mk.sizeOf_spec] at hlt ⊢
    omega

lemma entries_fit (fullName : String) (n : Node) : (schema fullName).Fits () n.entries := by
  induction n using of_children with
  | h n ih =>
    rw [entries_eq]
    exact (layout fullName).entriesOf_fits (lawful ih fun _ h => nomatch h)

lemma ofEntries_entries (n : Node) : ofEntries n.entries = n := by
  induction n using of_children with
  | h n ih =>
    rw [entries_eq, ofEntries_eq, (layout "").ofEntries_entriesOf
      (lawful (fun v _ => entries_fit "" v) fun _ h => nomatch h)]
    simp only [allSlots, slots, List.cons_append, List.nil_append, List.foldl_cons, List.foldl_nil,
      Slot.text_restore, Slot.flag_restore, Slot.choice_restore LinkingMode.ofName?_name,
      Slot.texts_restore, Slot.records_restore ih]
    cases n with
    | mk label flag mode tags children => rfl

lemma entries_ofEntries (fullName : String) (es : List Entry)
    (fits : (schema fullName).Fits () es) :
    entries (ofEntries es) = arrange (schema fullName) () es := by
  rw [entries_eq, ofEntries_eq]
  exact (layout fullName).entriesOf_ofEntries (lawful (n := {}) (fun _ h => nomatch h)
    fun fields _ inside => entries_ofEntries fullName fields inside) fits
termination_by sizeOf es
decreasing_by
  have hlt := List.sizeOf_lt_of_mem ‹Entry.record "child" fields ∈ es›
  simp only [Entry.record.sizeOf_spec] at hlt
  omega

theorem faithful (fullName : String) : Faithful (schema fullName) () entries ofEntries :=
  ⟨(layout fullName).fields_distinct, ofEntries_entries, entries_fit fullName,
    entries_ofEntries fullName⟩

end Node

inductive RecordType
  | toolPath
  | compilationModeFlags
  | linkingModeFlags
  | toolchain
  | release
  | node (fullName : String)

namespace RecordType

abbrev Carrier : RecordType → Type
  | toolPath => ToolPath
  | compilationModeFlags => CompilationModeFlags
  | linkingModeFlags => LinkingModeFlags
  | toolchain => Toolchain
  | release => Release
  | node _ => Node

instance record : (t : RecordType) → Record t.Carrier
  | toolPath => inferInstanceAs (Record ToolPath)
  | compilationModeFlags => inferInstanceAs (Record CompilationModeFlags)
  | linkingModeFlags => inferInstanceAs (Record LinkingModeFlags)
  | toolchain => inferInstanceAs (Record Toolchain)
  | release => inferInstanceAs (Record Release)
  | node fullName => Node.record fullName

theorem faithful (t : RecordType) :
    Faithful t.record.schema t.record.kind t.record.entries t.record.ofEntries := by
  cases t with
  | toolPath => exact ToolPath.faithful
  | compilationModeFlags => exact CompilationModeFlags.faithful
  | linkingModeFlags => exact LinkingModeFlags.faithful
  | toolchain => exact Toolchain.faithful
  | release => exact Release.faithful
  | node fullName => exact Node.faithful fullName

end RecordType

end ToolchainRelease
