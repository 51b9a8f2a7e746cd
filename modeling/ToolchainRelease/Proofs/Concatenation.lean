import ToolchainRelease.Proofs.Acceptance
import ToolchainRelease.Proofs.Text.Resuming

/-! Merging one text after another. A merge of both, with a break between them, leaves what the
merges of the two leave in sequence, and places the fault of the second further down. -/
namespace ToolchainRelease
open Text

namespace Text

/-- What any reading leaves fits the schema, however it ends. -/
lemma Reader.run_fits {Kind : Type} {S : Schema Kind} {k : Kind} {base : List Entry}
    (fits : S.Fits k base) (ts : List Placed) (ending : Ending) :
    S.Fits k ((Reader.start k base).run S ts ending).entries := by
  have whole {ts : List Placed} {ending : Ending} {out : List Entry}
      (h : (Reader.start k base).run S ts ending = ⟨out, none⟩) : S.Fits k out := by
    obtain ⟨_, es, -, body, apart, rfl⟩ := Reader.run_start_iff.1 h
    exact fits.append body.fits apart
  cases hrun : (Reader.start k base).run S ts ending with
  | mk out fault =>
    cases fault with
    | none => exact whole hrun
    | some f =>
      rcases Reader.run_before_itemStart .start hrun with ⟨hwhole, -⟩ | ⟨_, _, -, -, hbefore⟩
      · cases hwhole
      · exact whole (hbefore .start)

end Text

namespace RecordType

variable {t : RecordType}

/-- A text is read into a record as into the entries that the record was made of. -/
lemma readInto_ofEntries {out : List Entry} (fits : t.record.schema.Fits t.record.kind out)
    (n : Nat) (ts : List Placed) (ending : Ending) :
    let reading := (Reader.start t.record.kind (t.record.entries (t.record.ofEntries out))).run
      t.record.schema ts ending
    let lowered := (Reader.start t.record.kind out).run t.record.schema
      (ts.map (Placed.lower n)) (ending.lower n)
    t.record.ofEntries lowered.entries = t.record.ofEntries reading.entries ∧
      lowered.fault = reading.fault.map (Fault.lower n) := by
  intro reading lowered
  have hentries := t.faithful.arranges out fits
  have same (m : String) :
      hasField m (t.record.entries (t.record.ofEntries out)) = hasField m out := by
    rw [hentries]
    exact hasField_arrange t.faithful.distinct fits.1 m
  have halike := (Reader.alike_start (n := n) t.record.kind).run same (S := t.record.schema)
    ts ending
  obtain ⟨⟨ds, hds, hds'⟩, hfault⟩ := halike
  refine ⟨t.entries_injective ?_, hfault⟩
  rw [t.faithful.arranges _ (Reader.run_fits fits _ _),
    t.faithful.arranges _ (Reader.run_fits (t.faithful.fits _) _ _), hds, hds', hentries,
    t.faithful.arrange_append_left fits]

lemma merge_after {top text whole : String} {n : Nat} {s s' : t.Carrier}
    (h : merge top s = ⟨s', none⟩)
    (hscan : scan whole = (scan text).after (scan top).tokens n)
    (hnew : (scan text).startsAnew = true) :
    merge whole s = ⟨(merge text s').record, (merge text s').fault.map (Fault.lower n)⟩ := by
  cases hread : readInto t.record.schema t.record.kind (t.record.entries s) top with
  | mk out fault =>
    simp only [merge, hread, Merged.mk.injEq] at h
    obtain ⟨rfl, rfl⟩ := h
    obtain ⟨p, es, hend, body, apart, hout⟩ := readInto_iff.1 hread
    have fits : t.record.schema.Fits t.record.kind out := by
      rw [hout]
      exact (t.faithful.fits s).append body.fits apart
    simp only [readInto, hend] at hread
    have hrun : readInto t.record.schema t.record.kind (t.record.entries s) whole =
        (Reader.start t.record.kind out).run t.record.schema
          ((scan text).tokens.map (Placed.lower n)) ((scan text).ending.lower n) := by
      simp only [readInto, hscan, Scan.after]
      exact Reader.run_append Reader.reached_start hread
        (((scan text).startsAnew_after _).trans hnew)
    simp only [merge, hrun, Merged.mk.injEq]
    exact readInto_ofEntries fits _ _ _

lemma finished_of_merge {top : String} {s s' : t.Carrier} (h : merge top s = ⟨s', none⟩) :
    ∃ p, (scan top).ending = .finished p := by
  obtain ⟨p, -, hend, -⟩ := t.merge_eq_iff.1 h
  exact ⟨p, hend⟩

/-- After a text that can be merged and a break, a text is merged as by itself. -/
theorem merge_append_break {top gap text : String} {s s' : t.Carrier}
    (hgap : Break (utf8 gap)) (h : merge top s = ⟨s', none⟩)
    (hnew : (scan text).startsAnew = true) :
    merge (top ++ gap ++ text) s = ⟨(merge text s').record,
      (merge text s').fault.map (Fault.lower ((utf8 (top ++ gap)).count 10))⟩ := by
  obtain ⟨p, hend⟩ := finished_of_merge h
  exact merge_after h (scan_append hgap hend text) hnew

theorem merge_append_line {top text : String} {s s' : t.Carrier}
    (hline : (utf8 top).getLast? = some 10) (h : merge top s = ⟨s', none⟩)
    (hnew : (scan text).startsAnew = true) :
    merge (top ++ text) s = ⟨(merge text s').record,
      (merge text s').fault.map (Fault.lower ((utf8 top).count 10))⟩ := by
  obtain ⟨p, hend⟩ := finished_of_merge h
  exact merge_after h (scan_append_line hend hline text) hnew

/-- Merging two texts with a newline between them is merging the first and then the second, if
this starts anew: the record is the same, and so is the fault, as many lines further down as the
first text and the newline have. -/
theorem merge_append_newline (t : RecordType) {top text : String} {s s' : t.Carrier}
    (h : merge top s = ⟨s', none⟩) (hnew : (scan text).startsAnew = true) :
    (merge (top ++ "\n" ++ text) s).record = (merge text s').record ∧
      (merge (top ++ "\n" ++ text) s).fault = (merge text s').fault.map fun f =>
        ⟨⟨f.position.line + ((utf8 top).count 10 + 1), f.position.column⟩, f.cause⟩ := by
  have hlines : (utf8 (top ++ "\n")).count 10 = (utf8 top).count 10 + 1 := by
    rw [utf8_append, List.count_append]
    rfl
  rw [merge_append_break newline_break h hnew, hlines]
  exact ⟨rfl, rfl⟩

/-- The first text ends in a comment, and the second is at fault. -/
theorem merge_append_newline_after_comment :
    let top := "major_version: \"1\" # first"
    let text := "minor_version: 2"
    (merge (top ++ "\n" ++ text) ({} : Release)).record = { majorVersion := some "1" } ∧
      (merge (top ++ "\n" ++ text) ({} : Release)).fault =
        some ⟨⟨2, 16⟩, .unexpected .text (some (.word "2"))⟩ := by
  intro top text
  have hfault : (merge top ({} : release.Carrier)).fault = none := by decide +kernel
  have h : merge top ({} : release.Carrier) =
      ⟨(merge top ({} : release.Carrier)).record, none⟩ := by
    rw [← hfault]
  have hnew : (scan text).startsAnew = true := by decide +kernel
  obtain ⟨hrecord, hline⟩ := merge_append_newline release h hnew
  refine ⟨hrecord.trans ?_, hline.trans ?_⟩ <;> decide +kernel

end RecordType

end ToolchainRelease
