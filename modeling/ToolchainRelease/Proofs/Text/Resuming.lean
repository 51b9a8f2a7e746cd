import ToolchainRelease.Proofs.Text.FailedReading
import ToolchainRelease.Proofs.Text.Lowering

/-! Reading on after a whole text. The tokens after it are read as they would be by themselves, into
the record that the first reading has left, unless the first of them continues its last field. Two
readings of the same tokens, one of them further down, add the same entries. -/
namespace ToolchainRelease.Text

variable {Kind : Type} {S : Schema Kind}

/-- The tokens that may belong to the field before them: a further literal, or its separator. -/
def Token.continues : Token → Bool
  | .literal _ | .separator => true
  | _ => false

/-- No token is there that continues a field before the text, or cannot be read: the text has no
tokens, or the first of them begins something new. -/
def Scan.startsAnew (s : Scan) : Bool :=
  match s.tokens, s.ending with
  | t :: _, _ => !t.token.continues
  | [], .finished _ => true
  | [], .broken _ _ => false

lemma Scan.startsAnew_after (s : Scan) (n : Nat) : (s.after [] n).startsAnew = s.startsAnew := by
  obtain ⟨tokens, ending⟩ := s
  cases tokens with
  | nil => cases ending <;> rfl
  | cons t ts => rfl

lemma Token.not_literal {t : Token} (h : t.continues = false) (bs : List UInt8) :
    t ≠ .literal bs := by
  rintro rfl
  cases h

lemma Token.not_separator {t : Token} (h : t.continues = false) : t ≠ .separator := by
  rintro rfl
  cases h

namespace Reader

section Whole

variable {r : Reader Kind} {k : Kind} {base : List Entry}

lemma settle_of_finish {p : Position} {out : List Entry} (h : r.finish S p = ⟨out, none⟩) :
    ∃ stored, r.settle = .ok stored ∧ stored.isWhole = true ∧ stored.kept = out := by
  have field {stored : Reader Kind} {separable : Bool} (hneed : stored.need = .field separable)
      (hstored : stored.finish S p = ⟨out, none⟩) :
      stored.isWhole = true ∧ stored.kept = out := by
    obtain ⟨rec, outer, need⟩ := stored
    cases hneed
    cases outer with
    | nil => exact ⟨rfl, congrArg Reading.entries hstored⟩
    | cons e outer => cases hstored
  obtain ⟨rec, outer, need⟩ := r
  cases need with
  | field separable => exact ⟨_, rfl, field rfl h⟩
  | moreText f place first bytes =>
    cases hs : settle ⟨rec, outer, .moreText f place first bytes⟩ with
    | ok stored =>
      rw [finish_settle hs] at h
      obtain ⟨v, -, -, rfl⟩ := storeText_eq_ok hs
      exact ⟨_, rfl, field rfl h⟩
    | error fault =>
      have hs' : storeText _ f place first bytes = .error fault := hs
      simp [finish, hs'] at h
  | colon | value | block => cases h

/-- Between two fields of the outermost record, a reader is one that starts with what it has. -/
lemma Reached.eq_start {ts : List Token} (h : Reached S k base r ts) (hwhole : r.isWhole = true) :
    ∃ separable, r = { start k r.kept with need := .field separable } := by
  obtain ⟨houter, separable, hneed⟩ := isWhole_eq_true.1 hwhole
  obtain ⟨rec, outer, need⟩ := r
  cases houter
  cases hneed
  cases h with
  | outermost body apart => exact ⟨separable, by simp [start, kept]⟩

lemma step_separable {t : Placed} (ht : t.token ≠ .separator) (separable separable' : Bool) :
    step S { r with need := .field separable } t =
      step S { r with need := .field separable' } t := by
  obtain ⟨token, position⟩ := t
  cases token with
  | separator => exact absurd rfl ht
  | _ => rfl

/-- A text that starts anew is read into what the tokens before it leave. -/
lemma run_of_finish {before : List Token} {us : List Placed} {ending : Ending} {p : Position}
    {out : List Entry} (h : Reached S k base r before) (hr : r.finish S p = ⟨out, none⟩)
    (hnew : (Scan.mk us ending).startsAnew = true) :
    r.run S us ending = (start k out).run S us ending := by
  obtain ⟨stored, hs, hwhole, rfl⟩ := settle_of_finish hr
  cases us with
  | nil =>
    cases ending with
    | finished q =>
      simp only [run]
      rw [finish_settle hs, finish_of_isWhole hwhole, finish_of_isWhole (r := start k _) rfl]
      simp [start, kept]
    | broken start f => cases hnew
  | cons t us =>
    have ht : t.token.continues = false := by simpa [Scan.startsAnew] using hnew
    obtain ⟨separable, heq⟩ := (reached_settle h hs).eq_start hwhole
    have hstep : r.step S t = (start k stored.kept).step S t := by
      rw [step_settle (Token.not_literal ht) hs]
      exact (congrArg (step S · t) heq).trans
        (step_separable (Token.not_separator ht) separable false)
    simp only [run, hstep]

/-- The tokens of two texts are read one text after the other. -/
theorem run_append {before : List Token} {ts us : List Placed} {ending : Ending} {p : Position}
    {out : List Entry} (h : Reached S k base r before)
    (hr : r.run S ts (.finished p) = ⟨out, none⟩) (hnew : (Scan.mk us ending).startsAnew = true) :
    r.run S (ts ++ us) ending = (start k out).run S us ending := by
  induction ts generalizing r before with
  | nil => exact run_of_finish h hr hnew
  | cons t ts ih =>
    simp only [run] at hr
    split at hr
    · next r' hs =>
      rw [List.cons_append, run_cons hs]
      exact ih (reached_step h hs) hr
    · next reading hs =>
      obtain ⟨f, rfl, -⟩ := step_error hs
      cases hr

end Whole

end Reader

def Need.lower (n : Nat) : Need Kind → Need Kind
  | .field separable => .field separable
  | .colon f place => .colon f (place.lower n)
  | .value f place => .value f (place.lower n)
  | .moreText f place first bytes => .moreText f (place.lower n) (first.lower n) bytes
  | .block f kind optional => .block f kind optional

inductive EndAlike {ε α : Type} (faults : ε → ε → Prop) (values : α → α → Prop) :
    Except ε α → Except ε α → Prop
  | ok {a a' : α} (h : values a a') : EndAlike faults values (.ok a) (.ok a')
  | error {e e' : ε} (h : faults e e') : EndAlike faults values (.error e) (.error e')

namespace Reader

/-- The same open records, but for the entries that the outermost one had at first: `as` on the
one side and `bs` on the other. -/
inductive Rebased (as bs : List Entry) : OpenRecord Kind → List (Enclosing Kind) →
    OpenRecord Kind → List (Enclosing Kind) → Prop
  | outermost {kind : Kind} (new : List Entry) :
      Rebased as bs ⟨kind, new ++ as.reverse⟩ [] ⟨kind, new ++ bs.reverse⟩ []
  | nested {rec around around' : OpenRecord Kind} {outer outer' : List (Enclosing Kind)}
      {field : String} {d : Delimiter} (h : Rebased as bs around outer around' outer') :
      Rebased as bs rec (⟨around, field, d⟩ :: outer) rec (⟨around', field, d⟩ :: outer')

section Rebased

variable {as bs : List Entry} {rec rec' : OpenRecord Kind} {outer outer' : List (Enclosing Kind)}
  (h : Rebased as bs rec outer rec' outer')
include h

lemma Rebased.kind_eq : rec'.kind = rec.kind := by
  cases h <;> rfl

lemma Rebased.hasField_eq (same : ∀ n, hasField n as = hasField n bs) (n : String) :
    hasField n rec'.entries = hasField n rec.entries := by
  cases h with
  | outermost => simp only [hasField_append, hasField_reverse, same]
  | nested => rfl

lemma Rebased.push (e : Entry) :
    Rebased as bs ⟨rec.kind, e :: rec.entries⟩ outer ⟨rec'.kind, e :: rec'.entries⟩ outer' := by
  cases h with
  | outermost => exact .outermost (e :: _)
  | nested h => exact .nested h

lemma Rebased.kept (need need' : Need Kind) : ∃ ds, Reader.kept ⟨rec, outer, need⟩ = as ++ ds ∧
    Reader.kept ⟨rec', outer', need'⟩ = bs ++ ds := by
  induction h with
  | @outermost kind new => exact ⟨new.reverse, by simp [Reader.kept], by simp [Reader.kept]⟩
  | @nested rec around around' outer outer' field d h ih =>
    have hkept (rec around : OpenRecord Kind) (outer : List (Enclosing Kind)) (need : Need Kind) :
        Reader.kept ⟨rec, ⟨around, field, d⟩ :: outer, need⟩ =
          Reader.kept ⟨around, outer, need⟩ := by
      cases outer with
      | nil => rfl
      | cons e outer => exact kept_deeper ..
    rw [hkept, hkept]
    exact ih

end Rebased

/-- Two readers that are at the same place of one text, the second `n` lines further down: they
have read the same entries, into a record that had the entries `as` and into one that had `bs`. -/
structure Alike (n : Nat) (as bs : List Entry) (r r' : Reader Kind) : Prop where
  records : Rebased as bs r.record r.outer r'.record r'.outer
  need : r'.need = r.need.lower n

structure AlikeReading (n : Nat) (as bs : List Entry) (x x' : Reading) : Prop where
  entries : ∃ ds, x.entries = as ++ ds ∧ x'.entries = bs ++ ds
  fault : x'.fault = x.fault.map (Fault.lower n)

section Alike

variable {n : Nat} {as bs : List Entry} {r r' : Reader Kind}

lemma alike_start (k : Kind) : Alike n as bs (start k as) (start k bs) :=
  ⟨.outermost [], rfl⟩

lemma Alike.ask (h : Alike n as bs r r') (need : Need Kind) :
    Alike n as bs { r with need := need } { r' with need := need.lower n } :=
  ⟨h.records, rfl⟩

lemma Alike.store (h : Alike n as bs r r') (e : Entry) : Alike n as bs (r.store e) (r'.store e) :=
  ⟨h.records.push e, rfl⟩

lemma Alike.enter (h : Alike n as bs r r') (field : String) (k : Kind) (d : Delimiter) :
    Alike n as bs (r.enter field k d) (r'.enter field k d) :=
  ⟨.nested h.records, rfl⟩

lemma Alike.stop (h : Alike n as bs r r') (f : Option Fault) :
    AlikeReading n as bs ⟨r.kept, f⟩ ⟨r'.kept, f.map (Fault.lower n)⟩ :=
  ⟨h.records.kept r.need r'.need, rfl⟩

abbrev AlikeResults (n : Nat) (as bs : List Entry) :
    Except Fault (Reader Kind) → Except Fault (Reader Kind) → Prop :=
  EndAlike (fun f f' => f' = f.lower n) (Alike n as bs)

abbrev AlikeSteps (n : Nat) (as bs : List Entry) :
    Except Reading (Reader Kind) → Except Reading (Reader Kind) → Prop :=
  EndAlike (AlikeReading n as bs) (Alike n as bs)

lemma Alike.orStop (h : Alike n as bs r r') {x x' : Except Fault (Reader Kind)}
    (hx : AlikeResults n as bs x x') : AlikeSteps n as bs (r.orStop x) (r'.orStop x') := by
  cases hx with
  | ok hq => exact .ok hq
  | error hf =>
    subst hf
    exact .error (h.stop (some _))

variable (same : ∀ m, hasField m as = hasField m bs)
include same

lemma Alike.storeOnce (h : Alike n as bs r r') (e : Entry) (place : Position) :
    AlikeResults n as bs (r.storeOnce e place) (r'.storeOnce e (place.lower n)) := by
  unfold Reader.storeOnce
  rw [h.records.hasField_eq same]
  split
  · exact .error rfl
  · exact .ok (h.store e)

lemma Alike.storeText (h : Alike n as bs r r') (f : FieldSchema Kind) (place first : Position)
    (bytes : List UInt8) : AlikeResults n as bs (r.storeText f place first bytes)
      (r'.storeText f (place.lower n) (first.lower n) bytes) := by
  unfold Reader.storeText
  split
  · exact .error rfl
  · split
    · exact h.storeOnce same _ place
    · exact .ok (h.store _)

lemma Alike.takeValue (h : Alike n as bs r r') (f : FieldSchema Kind) (place : Position)
    (t : Placed) : AlikeResults n as bs (r.takeValue f place t)
      (r'.takeValue f (place.lower n) (t.lower n)) := by
  obtain ⟨token, position⟩ := t
  unfold Reader.takeValue
  simp only [Placed.lower]
  split
  · exact .ok (h.ask _)
  · exact .ok (h.ask _)
  · split
    · exact h.storeOnce same _ place
    · exact .error rfl
  · split
    · exact h.storeOnce same _ place
    · exact .error rfl
  · exact .error rfl

omit same

lemma Alike.beginField (h : Alike n as bs r r') (p : Position) (w : String) :
    AlikeResults n as bs (r.beginField S p w) (r'.beginField S (p.lower n) w) := by
  unfold Reader.beginField
  rw [h.records.kind_eq]
  split
  · exact .error rfl
  · split
    · exact .ok (h.ask _)
    · exact .ok (h.ask _)

lemma Alike.atField (h : Alike n as bs r r') (separable : Bool) (t : Placed) :
    AlikeResults n as bs (r.atField S separable t) (r'.atField S separable (t.lower n)) := by
  obtain ⟨token, position⟩ := t
  obtain ⟨rec, outer, need⟩ := r
  obtain ⟨rec', outer', need'⟩ := r'
  unfold Reader.atField
  simp only [Placed.lower]
  split
  · split
    · exact h.beginField position _
    · exact .error rfl
  · obtain ⟨records, -⟩ := h
    cases records with
    | outermost => exact .error rfl
    | nested around =>
      simp only
      split
      · exact .ok ⟨around.push _, rfl⟩
      · exact .error rfl
  · split
    · exact .ok (h.ask _)
    · exact .error rfl
  · exact .error rfl

include same

/-- One token takes two readers that are alike to readers that are alike, or both stop at it. -/
theorem Alike.step (h : Alike n as bs r r') (t : Placed) :
    AlikeSteps n as bs (r.step S t) (r'.step S (t.lower n)) := by
  have hneed := h.need
  unfold Reader.step
  cases hr : r.need with
  | field separable =>
    rw [hr] at hneed
    simp only [hneed, Need.lower]
    exact h.orStop (h.atField separable t)
  | colon f place =>
    rw [hr] at hneed
    simp only [hneed, Need.lower, Placed.lower]
    split
    · exact .ok (h.ask _)
    · exact .error (h.stop (some _))
  | value f place =>
    rw [hr] at hneed
    simp only [hneed, Need.lower]
    exact h.orStop (h.takeValue same f place t)
  | moreText f place first bytes =>
    rw [hr] at hneed
    simp only [hneed, Need.lower, Placed.lower]
    split
    · exact .ok (h.ask _)
    · -- Storing the text fails on both sides or on neither; then `t` is read between two fields.
      have hstored := h.storeText same f place first bytes
      generalize r.storeText f place first bytes = x at hstored ⊢
      generalize r'.storeText f (place.lower n) (first.lower n) bytes = x' at hstored ⊢
      cases hstored with
      | ok hq => exact hq.orStop (hq.atField true t)
      | error hf =>
        subst hf
        exact .error (h.stop (some _))
  | block f k colon =>
    rw [hr] at hneed
    simp only [hneed, Need.lower, Placed.lower]
    split
    · split
      · exact .ok (h.ask _)
      · exact .error (h.stop (some _))
    · exact .ok (h.enter _ _ _)
    · exact .error (h.stop (some _))

omit same

lemma Alike.close (h : Alike n as bs r r') (p : Position) {separable : Bool}
    (hr : r.need = .field separable) :
    AlikeReading n as bs (r.finish S p) (r'.finish S (p.lower n)) := by
  have hneed := h.need
  obtain ⟨rec, outer, need⟩ := r
  obtain ⟨rec', outer', need'⟩ := r'
  cases hr
  cases hneed
  simp only [Reader.finish]
  have hstop := h.stop
  obtain ⟨records, -⟩ := h
  cases records with
  | outermost => exact hstop none
  | nested => exact hstop (some _)

include same

theorem Alike.finish (h : Alike n as bs r r') (p : Position) :
    AlikeReading n as bs (r.finish S p) (r'.finish S (p.lower n)) := by
  have hneed := h.need
  cases hr : r.need with
  | field separable => exact h.close p hr
  | moreText f place first bytes =>
    rw [hr] at hneed
    have hstored := h.storeText same f place first bytes
    generalize hx : r.storeText f place first bytes = x at hstored
    generalize hx' : r'.storeText f (place.lower n) (first.lower n) bytes = x' at hstored
    cases hstored with
    | @ok stored stored' hq =>
      have hsettle : r.settle = .ok stored := by simpa only [settle, hr] using hx
      have hsettle' : r'.settle = .ok stored' := by
        simpa only [settle, hneed, Need.lower] using hx'
      obtain ⟨v, -, -, rfl⟩ := storeText_eq_ok hx
      rw [finish_settle hsettle, finish_settle hsettle']
      exact hq.close p rfl
    | error hf =>
      subst hf
      simp only [Reader.finish, hr, hneed, Need.lower, hx, hx']
      exact h.stop (some _)
  | colon f place | value f place | block f k optional =>
    rw [hr] at hneed
    simp only [Reader.finish, hr, hneed, Need.lower]
    exact h.stop (some _)

theorem Alike.run (h : Alike n as bs r r') (ts : List Placed) (ending : Ending) :
    AlikeReading n as bs (r.run S ts ending)
      (r'.run S (ts.map (Placed.lower n)) (ending.lower n)) := by
  induction ts generalizing r r' with
  | nil =>
    cases ending with
    | finished p => exact h.finish same p
    | broken start f => exact h.stop (some f)
  | cons t ts ih =>
    have hstep := h.step (S := S) same t
    simp only [Reader.run, List.map_cons]
    generalize r.step S t = x at hstep ⊢
    generalize r'.step S (t.lower n) = x' at hstep ⊢
    cases hstep with
    | ok hq => exact ih hq
    | error hx => exact hx

end Alike

end Reader

end ToolchainRelease.Text
