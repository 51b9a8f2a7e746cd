import ToolchainRelease.Proofs.Text.Reading
import ToolchainRelease.Proofs.Text.TokenStarts

/-! What a reading keeps that ends in a fault: the whole fields before the outermost field, or the
stray token, that was being read. The tokens before it are read without a fault. -/
namespace ToolchainRelease.Text

namespace Reader

variable {Kind : Type} {S : Schema Kind} {r r' : Reader Kind} {t : Placed}

def isWhole (r : Reader Kind) : Bool :=
  match r.outer, r.need with
  | [], .field _ => true
  | _, _ => false

/-- What a token does to a reader: it asks for something else, or it completes an entry, or it
enters or leaves a nested record. -/
inductive Goes (r : Reader Kind) (t : Placed) : Reader Kind → Prop
  | asks {need : Need Kind} (places : ∀ p ∈ need.places, p = t.position ∨ p ∈ r.need.places) :
      Goes r t { r with need := need }
  | stores {e : Entry} : Goes r t (r.store e)
  | enters {field : String} {kind : Kind} {d : Delimiter} : Goes r t (r.enter field kind d)
  | leaves {e : Enclosing Kind} {outer : List (Enclosing Kind)} (inside : r.outer = e :: outer) :
      Goes r t (r.leave e outer)

lemma beginField_goes {w : String} (h : r.beginField S t.position w = .ok r') : Goes r t r' := by
  unfold beginField at h
  split at h
  · cases h
  · split at h
    · cases h
      exact .asks (by simp [Need.places])
    · cases h
      exact .asks (by simp [Need.places])

lemma atField_goes {separable : Bool} (h : r.atField S separable t = .ok r') : Goes r t r' := by
  unfold atField at h
  split at h
  · split at h
    · exact beginField_goes h
    · cases h
  · split at h
    · next e outer ho =>
      split at h
      · cases h
        exact .leaves ho
      · cases h
    · cases h
  · split at h
    · cases h
      exact .asks (by simp [Need.places])
    · cases h
  · cases h

lemma takeValue_goes {f : FieldSchema Kind} {place : Position} (hr : r.need = .value f place)
    (h : r.takeValue f place t = .ok r') : Goes r t r' := by
  have text (bs : List UInt8) : Goes r t { r with need := .moreText f place t.position bs } := by
    refine .asks fun p hp => ?_
    simp only [Need.places, List.mem_cons, List.not_mem_nil, or_false] at hp
    rcases hp with rfl | rfl
    · exact .inr (by simp [hr, Need.places])
    · exact .inl rfl
  unfold takeValue at h
  split at h
  · cases h
    exact text _
  · cases h
    exact text _
  · split at h
    · obtain ⟨-, rfl⟩ := storeOnce_eq_ok h
      exact .stores
    · cases h
  · split at h
    · obtain ⟨-, rfl⟩ := storeOnce_eq_ok h
      exact .stores
    · cases h
  · cases h

theorem step_goes (h : r.step S t = .ok r') : Goes (r.ahead t) t r' := by
  obtain ⟨rec, outer, need⟩ := r
  cases need with
  | field separable =>
    rw [ahead_of_settle _ rfl t]
    exact atField_goes (orStop_eq_ok h)
  | value f place =>
    rw [ahead_of_settle _ rfl t]
    exact takeValue_goes rfl (orStop_eq_ok h)
  | colon f place =>
    rw [ahead_of_settle _ rfl t]
    simp only [step] at h
    split at h
    · cases h
      exact .asks fun p hp => .inr hp
    · cases h
  | block f k colon =>
    rw [ahead_of_settle _ rfl t]
    simp only [step] at h
    split at h
    · split at h
      · cases h
        exact .asks (by simp [Need.places])
      · cases h
    · cases h
      exact .enters
    · cases h
  | moreText f place first bytes =>
    rcases moreText_cases (r := ⟨rec, outer, .moreText f place first bytes⟩) S rfl t with
      ⟨more, -, hahead, hstep⟩ | ⟨fault, -, -, hstep⟩ | ⟨v, -, hahead, hstep⟩
    · rw [hstep] at h
      rw [hahead]
      cases h
      exact .asks fun p hp => .inr hp
    · rw [hstep] at h
      cases h
    · rw [hstep] at h
      rw [hahead]
      exact atField_goes (orStop_eq_ok h)

/-- Inside a nested record, what is kept depends on the outermost one alone. -/
lemma kept_nested (rec rec' : OpenRecord Kind) (e : Enclosing Kind) (outer : List (Enclosing Kind))
    (need need' : Need Kind) :
    Reader.kept ⟨rec, e :: outer, need⟩ = Reader.kept ⟨rec', e :: outer, need'⟩ := by
  unfold Reader.kept
  cases hlast : (e :: outer).getLast? with
  | none => simp at hlast
  | some last => rfl

lemma kept_deeper (rec rec' : OpenRecord Kind) (e e' : Enclosing Kind)
    (outer : List (Enclosing Kind)) (need need' : Need Kind) :
    Reader.kept ⟨rec, e :: e' :: outer, need⟩ = Reader.kept ⟨rec', e' :: outer, need'⟩ := by
  rw [kept_nested rec' rec e' outer need' need]
  simp only [Reader.kept, List.getLast?_cons_cons]

/-- A reader keeps what it had until it is again between two fields of the outermost record. -/
lemma Goes.kept (h : Goes r t r') (hwhole : r'.isWhole = false) : r'.kept = r.kept := by
  obtain ⟨rec, outer, need⟩ := r
  cases h with
  | asks => rfl
  | enters =>
    cases outer with
    | nil => rfl
    | cons e outer => exact kept_deeper ..
  | stores =>
    cases outer with
    | nil => cases hwhole
    | cons e outer => exact kept_nested ..
  | @leaves e outer' inside =>
    cases inside
    cases outer' with
    | nil => cases hwhole
    | cons e' outer' => exact (kept_deeper ..).symm

lemma Goes.since {mark : Position} (h : Goes r t r') (hmark : mark ≤ t.position)
    (hneed : ∀ p ∈ r.need.places, mark ≤ p) : ∀ p ∈ r'.need.places, mark ≤ p := by
  cases h with
  | asks places =>
    intro p hp
    rcases places p hp with rfl | hp
    · exact hmark
    · exact hneed p hp
  | stores | enters | leaves => exact nofun

lemma isWhole_eq_true :
    r.isWhole = true ↔ r.outer = [] ∧ ∃ separable, r.need = .field separable := by
  obtain ⟨rec, outer, need⟩ := r
  cases outer <;> cases need <;> simp [isWhole]

/-- With a token in sight, at most a text has been stored. -/
lemma ahead_cases (r : Reader Kind) (t : Placed) :
    r.ahead t = r ∨ r.settle = .ok (r.ahead t) ∧ ∃ e, r.ahead t = r.store e := by
  obtain ⟨rec, outer, need⟩ := r
  cases need with
  | moreText f place first bytes =>
    cases hs : settle ⟨rec, outer, .moreText f place first bytes⟩ with
    | error fault => exact .inl (ahead_settle_error hs)
    | ok stored =>
      by_cases ht : ∃ more, t.token = .literal more
      · obtain ⟨more, ht⟩ := ht
        exact .inl (ahead_literal ht)
      · have hn : ∀ bs, t.token ≠ .literal bs := fun bs hb => ht ⟨bs, hb⟩
        obtain ⟨v, _, _, rfl⟩ := storeText_eq_ok hs
        rw [ahead_settle hn hs]
        exact .inr ⟨rfl, _, rfl⟩
  | _ => exact .inl (ahead_of_settle _ rfl t)

lemma settle_of_isWhole (h : r.isWhole = true) : r.settle = .ok r := by
  obtain ⟨-, separable, hneed⟩ := isWhole_eq_true.1 h
  simp only [settle, hneed]

lemma ahead_of_isWhole (h : r.isWhole = true) : r.ahead t = r :=
  ahead_of_settle r (settle_of_isWhole h) t

lemma kept_ahead (h : (r.ahead t).isWhole = false) : (r.ahead t).kept = r.kept := by
  rcases r.ahead_cases t with heq | ⟨-, e, heq⟩
  · rw [heq]
  · rw [heq] at h ⊢
    exact Goes.kept (t := t) .stores h

lemma finish_of_isWhole (h : r.isWhole = true) (p : Position) :
    r.finish S p = ⟨r.kept, none⟩ := by
  obtain ⟨houter, separable, hneed⟩ := isWhole_eq_true.1 h
  simp only [finish, hneed, houter]

lemma finish_ahead (h : (r.ahead t).isWhole = true) (p : Position) :
    r.finish S p = ⟨(r.ahead t).kept, none⟩ := by
  rw [← finish_of_isWhole h p]
  rcases r.ahead_cases t with heq | ⟨hs, -⟩
  · rw [heq]
  · exact finish_settle hs p

lemma finish_fault {p : Position} {out : List Entry} {f : Fault}
    (h : r.finish S p = ⟨out, some f⟩) :
    r.isWhole = false ∧ out = r.kept ∧ (f.position = p ∨ f.position ∈ r.need.places) := by
  have hwhole : r.isWhole = false := by
    by_contra hw
    rw [finish_of_isWhole (by simpa using hw)] at h
    cases h
  refine ⟨hwhole, ?_⟩
  obtain ⟨rec, outer, need⟩ := r
  cases need with
  | field separable =>
    cases outer <;> cases h
    exact ⟨rfl, .inl rfl⟩
  | moreText field place first bytes =>
    simp only [finish] at h
    split at h
    · next stored hs =>
      obtain ⟨v, _, _, rfl⟩ := storeText_eq_ok hs
      cases outer <;> cases h
      exact ⟨kept_nested .., .inl rfl⟩
    · next fault hs =>
      cases h
      exact ⟨rfl, .inr (by simpa [Need.places] using storeText_eq_error hs)⟩
  | _ =>
    cases h
    exact ⟨rfl, .inl rfl⟩

/-- Where the outermost field begins that `t` belongs to, or `t` itself if it is in the place of
one; `mark` is where the field under way began. -/
def markAt (r : Reader Kind) (t : Placed) (mark : Position) : Position :=
  if (r.ahead t).isWhole then t.position else mark

/-- Where the outermost field begins whose reading ends in a fault, or the token in the place of
a field that is at fault. -/
def itemStart (S : Schema Kind) (r : Reader Kind) (mark : Position) :
    List Placed → Ending → Position
  | [], .finished _ => mark
  | [], .broken start _ => if r.isWhole then start else mark
  | t :: ts, ending =>
    match r.step S t with
    | .ok r' => r'.itemStart S (r.markAt t mark) ts ending
    | .error _ => r.markAt t mark

lemma itemStart_ok (h : r.step S t = .ok r') (mark : Position) (ts : List Placed)
    (ending : Ending) :
    r.itemStart S mark (t :: ts) ending = r'.itemStart S (r.markAt t mark) ts ending := by
  simp only [itemStart, h]

lemma itemStart_error {reading : Reading} (h : r.step S t = .error reading) (mark : Position)
    (ts : List Placed) (ending : Ending) :
    r.itemStart S mark (t :: ts) ending = r.markAt t mark := by
  simp only [itemStart, h]

lemma markAt_le {mark : Position} (hmark : mark ≤ t.position) : r.markAt t mark ≤ t.position := by
  unfold markAt
  split_ifs
  · exact t.position.le_refl
  · exact hmark

lemma markAt_le_places {mark : Position} (hneed : ∀ p ∈ r.need.places, mark ≤ p) :
    ∀ p ∈ (r.ahead t).need.places, r.markAt t mark ≤ p := by
  intro p hp
  rcases r.ahead_cases t with heq | ⟨-, e, heq⟩
  · unfold markAt
    split_ifs with hw
    · obtain ⟨-, separable, hfield⟩ := isWhole_eq_true.1 hw
      rw [hfield] at hp
      cases hp
    · exact hneed p (heq ▸ hp)
  · rw [heq] at hp
    cases hp

theorem itemStart_le {ts : List Placed} {ending : Ending} {out : List Entry} {f : Fault}
    {mark : Position} (h : r.run S ts ending = ⟨out, some f⟩) (hts : Ordered mark ts ending)
    (hneed : ∀ p ∈ r.need.places, mark ≤ p) : r.itemStart S mark ts ending ≤ f.position := by
  induction ts generalizing r mark with
  | nil =>
    cases ending with
    | finished p =>
      obtain ⟨-, -, hf | hf⟩ := finish_fault h
      · rw [hf]
        exact hts
      · exact hneed _ hf
    | broken start g =>
      cases h
      simp only [itemStart]
      split_ifs
      · exact hts.2
      · exact Position.le_trans hts.1 hts.2
  | cons t ts ih =>
    obtain ⟨hmark, hts⟩ := hts
    have hplaces := markAt_le_places (t := t) hneed
    have hle : r.markAt t mark ≤ t.position := markAt_le hmark
    simp only [run] at h
    split at h
    · next r' hs =>
      rw [itemStart_ok hs]
      exact ih h (hts.mono hle) ((step_goes hs).since hle hplaces)
    · next reading hs =>
      rw [itemStart_error hs]
      obtain ⟨g, rfl, hg⟩ := step_error hs
      cases h
      rcases hg with hg | hg
      · rw [hg]
        exact hle
      · exact hplaces _ hg

/-- A field that ends the run, and has begun at `t` or was under way at it. -/
lemma item_of_kept (S : Schema Kind) (r : Reader Kind) (mark : Position) (t : Placed)
    (ts : List Placed) (ending : Ending) :
    (r.isWhole = false ∧ (r.ahead t).kept = r.kept ∧ r.markAt t mark = mark) ∨
      ∃ before rest, t :: ts = before ++ rest ∧ BeginsAt (r.markAt t mark) rest ending ∧
        ∀ p, r.run S before (.finished p) = ⟨(r.ahead t).kept, none⟩ := by
  by_cases hw : (r.ahead t).isWhole = true
  · exact .inr ⟨[], t :: ts, rfl, (if_pos hw).symm, finish_ahead hw⟩
  · have hwhole : r.isWhole = false := by
      by_contra hr
      rw [Bool.not_eq_false] at hr
      exact hw (by rwa [ahead_of_isWhole hr])
    exact .inl ⟨hwhole, kept_ahead (by simpa using hw), if_neg hw⟩

/-- The tokens before that field are read without a fault, and leave what the whole run does. -/
theorem run_before_itemStart {ts : List Placed} {ending : Ending} {out : List Entry} {f : Fault}
    (mark : Position) (h : r.run S ts ending = ⟨out, some f⟩) :
    (r.isWhole = false ∧ out = r.kept ∧ r.itemStart S mark ts ending = mark) ∨
      ∃ before rest, ts = before ++ rest ∧ BeginsAt (r.itemStart S mark ts ending) rest ending ∧
        ∀ p, r.run S before (.finished p) = ⟨out, none⟩ := by
  -- The first case is for a field that is under way and stays so: nothing can be cut off yet.
  induction ts generalizing r mark with
  | nil =>
    cases ending with
    | finished p =>
      obtain ⟨hwhole, hout, -⟩ := finish_fault h
      exact .inl ⟨hwhole, hout, rfl⟩
    | broken start g =>
      cases h
      by_cases hwhole : r.isWhole = true
      · refine .inr ⟨[], [], rfl, ?_, fun p => finish_of_isWhole hwhole p⟩
        simp [itemStart, BeginsAt, hwhole]
      · exact .inl ⟨by simpa using hwhole, rfl, by simp [itemStart, hwhole]⟩
  | cons t ts ih =>
    have hitem := item_of_kept S r mark t ts ending
    simp only [run] at h
    split at h
    · next r' hs =>
      rw [itemStart_ok hs]
      rcases ih (r.markAt t mark) h with ⟨hwhole, rfl, hmark⟩ | ⟨before, rest, rfl, hbegins, hrun⟩
      · rw [hmark, (step_goes hs).kept hwhole]
        exact hitem
      · refine .inr ⟨t :: before, rest, rfl, hbegins, fun p => ?_⟩
        rw [run_cons hs, hrun]
    · next reading hs =>
      rw [itemStart_error hs]
      obtain ⟨g, rfl, -⟩ := step_error hs
      cases h
      exact hitem

end Reader

end ToolchainRelease.Text
