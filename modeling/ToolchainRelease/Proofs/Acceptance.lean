import ToolchainRelease.Proofs.RecordTypes
import ToolchainRelease.Proofs.Text.Reading

/-! Which texts the record types accept, and the records that they make of them. -/
namespace ToolchainRelease
open Text

namespace RecordType

variable (t : RecordType)

lemma entries_injective {r r' : t.Carrier} (h : t.record.entries r = t.record.entries r') :
    r = r' := by
  rw [← t.faithful.restores r, h, t.faithful.restores]

lemma arrange_entries (r : t.Carrier) :
    arrange t.record.schema t.record.kind (t.record.entries r) = t.record.entries r := by
  rw [← t.faithful.arranges _ (t.faithful.fits r), t.faithful.restores]

lemma entries_ofEntries_nil : t.record.entries (t.record.ofEntries []) = [] := by
  rw [t.faithful.arranges [] (Schema.fits_nil _), arrange_nil]

/-- A merge succeeds on the bodies that set no scalar again, and adds their entries to those that
the record had. -/
theorem merge_eq_iff {text : String} {s r : t.Carrier} :
    merge text s = ⟨r, none⟩ ↔
      ∃ p es, (scan text).ending = .finished p ∧
        Derives t.record.schema t.record.kind ((scan text).tokens.map Placed.token) es ∧
        t.record.schema.Apart t.record.kind (t.record.entries s) es ∧
        t.record.entries r =
          arrange t.record.schema t.record.kind (t.record.entries s ++ es) := by
  constructor
  · intro h
    cases hread : readInto t.record.schema t.record.kind (t.record.entries s) text with
    | mk out fault =>
      simp only [merge, hread, Merged.mk.injEq] at h
      obtain ⟨rfl, rfl⟩ := h
      obtain ⟨p, es, hend, body, apart, rfl⟩ := readInto_iff.1 hread
      have fits := (t.faithful.fits s).append body.fits apart
      exact ⟨p, es, hend, body, apart, t.faithful.arranges _ fits⟩
  · rintro ⟨p, es, hend, body, apart, hr⟩
    have hread := readInto_iff.2 ⟨p, es, hend, body, apart, rfl⟩
    have fits := (t.faithful.fits s).append body.fits apart
    rw [← t.faithful.arranges _ fits] at hr
    simp only [merge, hread, t.entries_injective hr]

theorem parse_eq_ok_iff_merge {text : String} {r : t.Carrier} :
    parse t.Carrier text = .ok r ↔ merge text (t.record.ofEntries []) = ⟨r, none⟩ := by
  unfold parse
  cases merge text (t.record.ofEntries []) with
  | mk record fault => cases fault <;> simp

/-- A text is accepted exactly when it tokenizes and its tokens derive a body. The record lists
the entries of that body: each repeated field in the order of the text. -/
theorem parse_eq_ok_iff (text : String) (r : t.Carrier) :
    parse t.Carrier text = .ok r ↔
      ∃ p es, (scan text).ending = .finished p ∧
        Derives t.record.schema t.record.kind ((scan text).tokens.map Placed.token) es ∧
        t.record.entries r = arrange t.record.schema t.record.kind es := by
  rw [parse_eq_ok_iff_merge, merge_eq_iff]
  simp only [entries_ofEntries_nil, List.nil_append, Schema.apart_nil_left, true_and]

end RecordType

end ToolchainRelease
