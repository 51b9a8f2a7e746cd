import ToolchainRelease.Proofs.Acceptance
import ToolchainRelease.Proofs.Text.Printing

/-! A record of any type is read back from what is printed of it. -/
namespace ToolchainRelease
open Text

lemma RecordKind.choicesSpelled : schema.ChoicesSpelled := by
  intro k
  cases k <;> decide +kernel

lemma Node.choicesSpelled (fullName : String) : (schema fullName).ChoicesSpelled := by
  intro k
  show ∀ f ∈ slots.map Slot.field ++ [⟨"child", .records ()⟩], ∀ w ∈ f.shape.choiceNames, IsWord w
  decide +kernel

namespace RecordType

lemma choicesSpelled (t : RecordType) : t.record.schema.ChoicesSpelled := by
  cases t with
  | node fullName => exact Node.choicesSpelled fullName
  | _ => exact RecordKind.choicesSpelled

/-- Printing and parsing give back the same record: what is set and what is not, every text
whatever its characters, and the order of repeated fields, at any depth. -/
theorem parse_print (t : RecordType) (r : t.Carrier) : parse t.Carrier (print r) = .ok r := by
  obtain ⟨p, hend, body⟩ := scan_render t.choicesSpelled (t.faithful.fits r)
  rw [parse_eq_ok_iff_merge, merge_eq_iff, entries_ofEntries_nil]
  exact ⟨p, _, hend, body, Schema.apart_nil_left _ _, (t.arrange_entries r).symm⟩

end RecordType

end ToolchainRelease
