import ToolchainRelease.Proofs.Acceptance
import ToolchainRelease.Proofs.Text.FailedReading

/-! What a merge leaves that fails: the record with the whole fields before the one at fault. -/
namespace ToolchainRelease
open Text

namespace Text

variable {α : Type} [R : Record α]

/-- Where the field of the outermost record begins at which a merge fails, or the token that
stands in the place of a field. -/
def failedAt (text : String) (r : α) : Position :=
  (Reader.start R.kind (R.entries r)).itemStart R.schema .start (scan text).tokens
    (scan text).ending

end Text

namespace RecordType

/-- A failed merge leaves what a merge of the text before the field at fault leaves. That text
ends where this field, or the stray token, begins; the fault is not before its end. What it adds
are the entries of whole fields, after those that the record had. -/
theorem merge_failed (t : RecordType) {text : String} {s : t.Carrier} {f : Fault}
    (h : (merge text s).fault = some f) :
    ∃ before after rest, text = before ++ after ∧
      Position.start.advanceAll (utf8 before) = failedAt text s ∧
      (scan text).tokens = (scan before).tokens ++ rest ∧
      BeginsAt (failedAt text s) rest (scan text).ending ∧
      merge before s = ⟨(merge text s).record, none⟩ ∧
      failedAt text s ≤ f.position ∧
      (∃ es, Derives t.record.schema t.record.kind ((scan before).tokens.map Placed.token) es ∧
        t.record.entries (merge text s).record =
          arrange t.record.schema t.record.kind (t.record.entries s ++ es)) ∧
      ∀ n, entriesNamed n (t.record.entries s) <+:
        entriesNamed n (t.record.entries (merge text s).record) := by
  cases hread : readInto t.record.schema t.record.kind (t.record.entries s) text with
  | mk out fault =>
    have hmerge : merge text s = ⟨t.record.ofEntries out, fault⟩ := by simp only [merge, hread]
    rw [hmerge] at h ⊢
    cases h
    have hle : failedAt text s ≤ f.position :=
      Reader.itemStart_le hread (scan_ordered text) (by simp [Reader.start, Need.places])
    rcases Reader.run_before_itemStart .start hread with ⟨hwhole, -⟩ |
      ⟨tokens, rest, htokens, hbegins, hrun⟩
    · cases hwhole
    obtain ⟨before, after, rfl, hplace, hscan⟩ :=
      (cutAt_of_beginsAt htokens hbegins).exists_text
    have hbefore : merge before s = ⟨t.record.ofEntries out, none⟩ := by
      simp only [merge, readInto, hscan, hrun]
    obtain ⟨_, es, -, body, -, hentries⟩ := t.merge_eq_iff.1 hbefore
    refine ⟨before, after, rest, rfl, hplace, ?_, hbegins, hbefore, hle, ⟨es, body, hentries⟩,
      fun n => ?_⟩
    · rw [hscan, htokens]
    · rw [hentries]
      have := entriesNamed_arrange_append t.faithful.distinct n (t.record.entries s) es
      rwa [t.arrange_entries] at this

/-- The text that the stray character follows is in a nested record, which is not kept. -/
theorem merge_failed_in_toolchain :
    let text := "major_version: \"1\" toolchain \x7b target_cpu: \"k8\" @"
    (merge text ({} : Release)).fault = some ⟨⟨1, 49⟩, .unexpectedCharacter 64⟩ ∧
      ∃ before after, text = before ++ after ∧
        merge before ({} : Release) = ⟨(merge text ({} : Release)).record, none⟩ := by
  intro text
  have h : (merge text ({} : release.Carrier)).fault =
      some ⟨⟨1, 49⟩, .unexpectedCharacter 64⟩ := by decide +kernel
  obtain ⟨before, after, -, htext, -, -, -, hmerge, -⟩ := merge_failed release h
  exact ⟨h, before, after, htext, hmerge⟩

end RecordType

end ToolchainRelease
