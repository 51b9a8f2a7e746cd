import ToolchainRelease.Proofs.Text.Grammar

/-! What the reader accepts is what the grammar derives. -/
namespace ToolchainRelease.Text

def Need.places {Kind : Type} : Need Kind → List Position
  | .colon _ place | .value _ place => [place]
  | .moreText _ place first _ => [place, first]
  | .field _ | .block _ _ _ => []

namespace Reader

variable {Kind : Type} {S : Schema Kind}

/-- The reader when no literal follows: a text under way is stored. -/
def settle (r : Reader Kind) : Except Fault (Reader Kind) :=
  match r.need with
  | .moreText field place first bytes => r.storeText field place first bytes
  | _ => .ok r

lemma orStop_ok (r r' : Reader Kind) : r.orStop (.ok r') = .ok r' := rfl

lemma orStop_error (r : Reader Kind) (f : Fault) : r.orStop (.error f) = .error ⟨r.kept, some f⟩ :=
  rfl

lemma orStop_eq_ok {r r' : Reader Kind} {x : Except Fault (Reader Kind)}
    (h : r.orStop x = .ok r') : x = .ok r' := by
  cases x with
  | ok r'' => exact congrArg Except.ok (Except.ok.inj h)
  | error f => cases h

lemma storeOnce_eq_ok {r r' : Reader Kind} {e : Entry} {place : Position}
    (h : r.storeOnce e place = .ok r') :
    hasField e.name r.record.entries = false ∧ r' = r.store e := by
  unfold storeOnce at h
  split at h
  · cases h
  · next hf => exact ⟨by simpa using hf, (Except.ok.inj h).symm⟩

lemma storeOnce_ok {r : Reader Kind} {e : Entry} (h : hasField e.name r.record.entries = false)
    (place : Position) : r.storeOnce e place = .ok (r.store e) := by
  simp [storeOnce, h]

lemma storeText_eq_ok {r r' : Reader Kind} {f : FieldSchema Kind} {place first : Position}
    {bs : List UInt8} (h : r.storeText f place first bs = .ok r') :
    ∃ v, utf8 v = bs ∧ (f.shape.isScalar = true → hasField f.name r.record.entries = false) ∧
      r' = r.store (.text f.name v) := by
  unfold storeText at h
  split at h
  · cases h
  · next v hv =>
    refine ⟨v, ofUtf8?_eq_some_iff.1 hv, ?_⟩
    split at h
    · obtain ⟨hf, rfl⟩ := storeOnce_eq_ok h
      exact ⟨fun _ => hf, rfl⟩
    · next hs => exact ⟨fun hs' => absurd hs' hs, (Except.ok.inj h).symm⟩

/-- Stores the value of a field, a scalar only if it has none yet. -/
def storeValue (r : Reader Kind) (f : FieldSchema Kind) (e : Entry) (place : Position) :
    Except Fault (Reader Kind) :=
  if f.shape.isScalar then r.storeOnce e place else .ok (r.store e)

lemma storeText_utf8 (r : Reader Kind) (f : FieldSchema Kind) (v : String)
    (place first : Position) :
    r.storeText f place first (utf8 v) = r.storeValue f (.text f.name v) place := by
  simp only [storeText, ofUtf8?_utf8]
  rfl

lemma storeValue_ok {r : Reader Kind} {f : FieldSchema Kind} {e : Entry}
    (h : f.shape.isScalar = true → hasField e.name r.record.entries = false)
    (place : Position) : r.storeValue f e place = .ok (r.store e) := by
  unfold storeValue
  split
  · next hs => exact storeOnce_ok (h hs) place
  · rfl

lemma storeValue_error {r : Reader Kind} {f : FieldSchema Kind} {e : Entry}
    (hs : f.shape.isScalar = true) (h : hasField e.name r.record.entries = true)
    (place : Position) : r.storeValue f e place = .error ⟨place, .repeatedField e.name⟩ := by
  simp [storeValue, hs, storeOnce, h]

lemma step_settle {r r' : Reader Kind} {t : Placed} (ht : ∀ bs, t.token ≠ .literal bs)
    (h : r.settle = .ok r') : r.step S t = r'.step S t := by
  obtain ⟨rec, outer, need⟩ := r
  cases need with
  | moreText f place first bs =>
    obtain ⟨v, _, _, rfl⟩ := storeText_eq_ok h
    have hs : storeText ⟨rec, outer, .moreText f place first bs⟩ f place first bs = _ := h
    obtain ⟨token, position⟩ := t
    cases token with
    | literal more => exact absurd rfl (ht more)
    | _ => simp only [step, hs, orStop_ok]; rfl
  | _ => cases h; rfl

lemma step_settle_error {r : Reader Kind} {t : Placed} {f : Fault}
    (ht : ∀ bs, t.token ≠ .literal bs) (h : r.settle = .error f) :
    r.step S t = .error ⟨r.kept, some f⟩ := by
  obtain ⟨rec, outer, need⟩ := r
  cases need with
  | moreText field place first bs =>
    have hs : storeText ⟨rec, outer, .moreText field place first bs⟩ field place first bs = _ := h
    obtain ⟨token, position⟩ := t
    cases token with
    | literal more => exact absurd rfl (ht more)
    | _ => simp only [step, hs, orStop_error]; rfl
  | _ => cases h

/-- The reader with `t` in sight: a text that `t` does not continue is stored, if it can be. -/
def ahead (r : Reader Kind) (t : Placed) : Reader Kind :=
  match t.token, r.settle with
  | .literal _, _ => r
  | _, .ok stored => stored
  | _, .error _ => r

lemma ahead_literal {r : Reader Kind} {t : Placed} {bs : List UInt8} (ht : t.token = .literal bs) :
    r.ahead t = r := by
  simp [ahead, ht]

lemma ahead_settle {r r' : Reader Kind} {t : Placed} (ht : ∀ bs, t.token ≠ .literal bs)
    (h : r.settle = .ok r') : r.ahead t = r' := by
  unfold ahead
  rw [h]
  split <;> simp_all

lemma ahead_settle_error {r : Reader Kind} {t : Placed} {f : Fault} (h : r.settle = .error f) :
    r.ahead t = r := by
  unfold ahead
  rw [h]
  split <;> simp_all

lemma ahead_of_settle (r : Reader Kind) (h : r.settle = .ok r) (t : Placed) : r.ahead t = r := by
  unfold ahead
  rw [h]
  split <;> simp_all

/-- A text under way goes on with a literal. Any other token is read once the text is stored, which
may fail. -/
lemma moreText_cases (S : Schema Kind) {r : Reader Kind} {f : FieldSchema Kind}
    {place first : Position} {bytes : List UInt8} (hr : r.need = .moreText f place first bytes)
    (t : Placed) :
    (∃ more, t.token = .literal more ∧ r.ahead t = r ∧
      r.step S t = .ok { r with need := .moreText f place first (bytes ++ more) }) ∨
    (∃ fault, r.settle = .error fault ∧ r.ahead t = r ∧
      r.step S t = .error ⟨r.kept, some fault⟩) ∨
    ∃ v, r.settle = .ok (r.store (.text f.name v)) ∧ r.ahead t = r.store (.text f.name v) ∧
      r.step S t =
        (r.store (.text f.name v)).orStop ((r.store (.text f.name v)).atField S true t) := by
  by_cases ht : ∃ more, t.token = .literal more
  · obtain ⟨more, ht⟩ := ht
    exact .inl ⟨more, ht, ahead_literal ht, by simp only [step, hr, ht]⟩
  · have hn : ∀ bs, t.token ≠ .literal bs := fun bs hb => ht ⟨bs, hb⟩
    cases hs : r.settle with
    | error fault =>
      exact .inr (.inl ⟨fault, rfl, ahead_settle_error hs, step_settle_error hn hs⟩)
    | ok stored =>
      have hstored : r.storeText f place first bytes = .ok stored := by simpa [settle, hr] using hs
      obtain ⟨v, _, _, rfl⟩ := storeText_eq_ok hstored
      exact .inr (.inr ⟨v, rfl, ahead_settle hn hs, step_settle hn hs⟩)

lemma orStop_eq_error {r : Reader Kind} {x : Except Fault (Reader Kind)} {reading : Reading}
    (h : r.orStop x = .error reading) : ∃ f, reading = ⟨r.kept, some f⟩ ∧ x = .error f := by
  cases x with
  | ok r' => cases h
  | error f => exact ⟨f, (Except.error.inj h).symm, rfl⟩

lemma storeOnce_eq_error {r : Reader Kind} {e : Entry} {place : Position} {f : Fault}
    (h : r.storeOnce e place = .error f) : f.position = place := by
  unfold storeOnce at h
  split at h <;> cases h
  rfl

lemma storeText_eq_error {r : Reader Kind} {field : FieldSchema Kind} {place first : Position}
    {bs : List UInt8} {f : Fault} (h : r.storeText field place first bs = .error f) :
    f.position = place ∨ f.position = first := by
  unfold storeText at h
  split at h
  · cases h
    exact .inr rfl
  · split at h
    · exact .inl (storeOnce_eq_error h)
    · cases h

lemma atField_eq_error {r : Reader Kind} {separable : Bool} {t : Placed} {f : Fault}
    (h : r.atField S separable t = .error f) : f.position = t.position := by
  unfold atField beginField at h
  split at h
  · split at h
    · split at h
      · cases h
        rfl
      · split at h <;> cases h
    · cases h
      rfl
  · split at h
    · split at h <;> cases h
      rfl
    · cases h
      rfl
  · split at h <;> cases h
    rfl
  · cases h
    rfl

lemma takeValue_eq_error {r : Reader Kind} {field : FieldSchema Kind} {place : Position}
    {t : Placed} {f : Fault} (h : r.takeValue field place t = .error f) :
    f.position = t.position ∨ f.position = place := by
  unfold takeValue at h
  split at h
  · cases h
  · cases h
  · split at h
    · exact .inr (storeOnce_eq_error h)
    · cases h
      exact .inl rfl
  · split at h
    · exact .inr (storeOnce_eq_error h)
    · cases h
      exact .inl rfl
  · cases h
    exact .inl rfl

/-- Only a fault stops the reader at a token. It keeps what it had with that token in sight, and
the fault is at the token or at a place that the reader has passed in the same field. -/
lemma step_error {r : Reader Kind} {t : Placed} {reading : Reading}
    (h : r.step S t = .error reading) : ∃ f, reading = ⟨(r.ahead t).kept, some f⟩ ∧
      (f.position = t.position ∨ f.position ∈ (r.ahead t).need.places) := by
  obtain ⟨rec, outer, need⟩ := r
  cases need with
  | field separable =>
    rw [ahead_of_settle _ rfl t]
    obtain ⟨f, rfl, hf⟩ := orStop_eq_error h
    exact ⟨f, rfl, .inl (atField_eq_error hf)⟩
  | value field place =>
    rw [ahead_of_settle _ rfl t]
    obtain ⟨f, rfl, hf⟩ := orStop_eq_error h
    exact ⟨f, rfl, by simpa [Need.places] using takeValue_eq_error hf⟩
  | colon f place =>
    rw [ahead_of_settle _ rfl t]
    simp only [step] at h
    split at h
    · cases h
    · exact ⟨_, (Except.error.inj h).symm, .inl rfl⟩
  | block f k colon =>
    rw [ahead_of_settle _ rfl t]
    simp only [step] at h
    split at h
    · split at h
      · cases h
      · exact ⟨_, (Except.error.inj h).symm, .inl rfl⟩
    · cases h
    · exact ⟨_, (Except.error.inj h).symm, .inl rfl⟩
  | moreText f place first bytes =>
    rcases moreText_cases (r := ⟨rec, outer, .moreText f place first bytes⟩) S rfl t with
      ⟨more, -, -, hstep⟩ | ⟨fault, hs, hahead, hstep⟩ | ⟨v, -, hahead, hstep⟩
    · rw [hstep] at h
      cases h
    · rw [hstep] at h
      rw [hahead]
      refine ⟨fault, (Except.error.inj h).symm, .inr ?_⟩
      simpa [Need.places] using storeText_eq_error hs
    · rw [hstep] at h
      rw [hahead]
      obtain ⟨f, rfl, hf⟩ := orStop_eq_error h
      exact ⟨f, rfl, .inl (atField_eq_error hf)⟩

lemma finish_settle {r r' : Reader Kind} (h : r.settle = .ok r') (p : Position) :
    r.finish S p = r'.finish S p := by
  obtain ⟨rec, outer, need⟩ := r
  cases need with
  | moreText f place first bs =>
    obtain ⟨v, _, _, rfl⟩ := storeText_eq_ok h
    have hs : storeText ⟨rec, outer, .moreText f place first bs⟩ f place first bs = _ := h
    simp only [finish, hs]
    rfl
  | _ => cases h; rfl

lemma finish_settle_error {r : Reader Kind} {f : Fault} (h : r.settle = .error f)
    (p : Position) : r.finish S p = ⟨r.kept, some f⟩ := by
  obtain ⟨rec, outer, need⟩ := r
  cases need with
  | moreText field place first bs =>
    have hs : storeText ⟨rec, outer, .moreText field place first bs⟩ field place first bs = _ := h
    simp only [finish, hs]
  | _ => cases h

def NoLiteral (ts : List Placed) : Prop := ∀ t ∈ ts.head?, ∀ bs, t.token ≠ .literal bs

/-- After a text comes a token that can be read and does not go on with it, or the end. -/
def Follows (ts : List Placed) (ending : Ending) : Prop :=
  NoLiteral ts ∧ (ts = [] → ∃ p, ending = .finished p)

lemma NoLiteral.follows {ts : List Placed} (h : NoLiteral ts) (p : Position) :
    Follows ts (.finished p) :=
  ⟨h, fun _ => ⟨p, rfl⟩⟩

lemma noLiteral_of_word {ps : List Placed} {w : String} {ts : List Token}
    (h : ps.map Placed.token = .word w :: ts) (rest : List Placed) : NoLiteral (ps ++ rest) := by
  obtain ⟨q, qs, rfl, hq, -⟩ := List.map_eq_cons_iff.1 h
  simp [NoLiteral, hq]

lemma run_cons {r r' : Reader Kind} {t : Placed} (h : r.step S t = .ok r') (ts : List Placed)
    (ending : Ending) : r.run S (t :: ts) ending = r'.run S ts ending := by
  simp [run, h]

def resume (S : Schema Kind) (r : Reader Kind) (stored : Except Fault (Reader Kind))
    (ts : List Placed) (ending : Ending) : Reading :=
  match stored with
  | .ok r' => r'.run S ts ending
  | .error f => ⟨r.kept, some f⟩

lemma resume_ok (r r' : Reader Kind) (ts : List Placed) (ending : Ending) :
    r.resume S (.ok r') ts ending = r'.run S ts ending := rfl

lemma resume_error (r : Reader Kind) (f : Fault) (ts : List Placed) (ending : Ending) :
    r.resume S (.error f) ts ending = ⟨r.kept, some f⟩ := rfl

lemma run_step {r : Reader Kind} {t : Placed} {stored : Except Fault (Reader Kind)}
    (h : r.step S t = r.orStop stored) (ts : List Placed) (ending : Ending) :
    r.run S (t :: ts) ending = r.resume S stored ts ending := by
  simp only [run, h]
  cases stored <;> rfl

lemma run_settled {r : Reader Kind} {ts : List Placed} {ending : Ending}
    (follows : Follows ts ending) : r.run S ts ending = r.resume S r.settle ts ending := by
  obtain ⟨hn, hend⟩ := follows
  cases ts with
  | nil =>
    obtain ⟨p, rfl⟩ := hend rfl
    cases hs : r.settle with
    | ok stored => exact finish_settle hs p
    | error fault => exact finish_settle_error hs p
  | cons t ts =>
    cases hs : r.settle with
    | ok stored => simp only [run, step_settle (hn t rfl) hs, resume]
    | error fault => simp only [run, step_settle_error (hn t rfl) hs, resume]

def extend (r : Reader Kind) (es : List Entry) (separable : Bool) : Reader Kind :=
  ⟨⟨r.record.kind, es.reverse ++ r.record.entries⟩, r.outer, .field separable⟩

lemma extend_store (r : Reader Kind) (es : List Entry) (e : Entry) (separable : Bool) :
    (r.extend es separable).store e = r.extend (es ++ [e]) true := by
  simp [extend, store]

section Accepted

variable {r : Reader Kind} {f : FieldSchema Kind}

lemma step_name {separable : Bool} (hr : r.need = .field separable) (h : S.Names r.record.kind f)
    (hs : ∀ k, f.shape ≠ .records k) {q : Placed} (hq : q.token = .word f.name) :
    r.step S q = .ok { r with need := .colon f q.position } := by
  simp only [step, atField, beginField, hr, hq, h.1, h.2, if_true]
  rfl

lemma step_name_records {separable : Bool} (hr : r.need = .field separable)
    (h : S.Names r.record.kind f) {k : Kind} (hs : f.shape = .records k) {q : Placed}
    (hq : q.token = .word f.name) :
    r.step S q = .ok { r with need := .block f k true } := by
  simp only [step, atField, beginField, hr, hq, h.1, h.2, if_true, hs]
  rfl

lemma run_literals {place first : Position} {literals : List (List UInt8)} {ps : List Placed}
    (hps : ps.map Placed.token = literals.map .literal) (bs : List UInt8) (rest : List Placed)
    (ending : Ending) :
    run S { r with need := .moreText f place first bs } (ps ++ rest) ending =
      run S { r with need := .moreText f place first (bs ++ literals.flatten) } rest ending := by
  induction literals generalizing bs ps with
  | nil => simp_all
  | cons more literals ih =>
    obtain ⟨q, qs, rfl, hq, hqs⟩ := List.map_eq_cons_iff.1 hps
    have hstep : step S { r with need := .moreText f place first bs } q =
        .ok { r with need := .moreText f place first (bs ++ more) } := by
      simp only [step, hq]
    rw [List.cons_append, run_cons hstep, ih hqs, List.flatten_cons, List.append_assoc]

/-- The literals of a field are stored as one text once the token after them is in sight. -/
lemma run_text (shape : f.shape = .text ∨ f.shape = .texts) (place : Position) {q : Placed}
    {qs rest : List Placed} {literals : List (List UInt8)}
    {ending : Ending} (hps : (q :: qs).map Placed.token = literals.map .literal)
    (follows : Follows rest ending) :
    run S { r with need := .value f place } (q :: (qs ++ rest)) ending =
      r.resume S (r.storeText f place q.position literals.flatten) rest ending := by
  cases literals with
  | nil => cases hps
  | cons bs literals =>
    obtain ⟨hq, hqs⟩ := List.cons.inj hps
    have hstep : step S { r with need := .value f place } q =
        .ok { r with need := .moreText f place q.position bs } := by
      rcases shape with hs | hs <;> simp only [step, takeValue, hs, hq] <;> rfl
    rw [run_cons hstep, run_literals hqs, ← List.flatten_cons]
    exact run_settled follows

lemma run_value {vs : List Token} {e : Entry} (h : ValueOf f vs e) (place : Position)
    {ps rest : List Placed} (hps : ps.map Placed.token = vs) (hn : NoLiteral rest)
    (p : Position) :
    run S { r with need := .value f place } (ps ++ rest) (.finished p) =
      r.resume S (r.storeValue f e place) rest (.finished p) := by
  cases h with
  | @text v literals shape found joined =>
    cases ps with
    | nil => exact absurd (List.map_eq_nil_iff.1 hps.symm) found
    | cons q qs =>
      rw [List.cons_append, run_text shape place hps (hn.follows p), ← joined, storeText_utf8]
  | @flag w v shape spelled =>
    obtain ⟨q, rfl, hq⟩ := List.map_eq_singleton_iff.1 hps
    refine run_step ?_ rest _
    simp only [step, takeValue, shape, hq, readFlag?_eq_some_iff.2 spelled, storeValue]
    rfl
  | @choice w c shape listed =>
    obtain ⟨q, rfl, hq⟩ := List.map_eq_singleton_iff.1 hps
    refine run_step ?_ rest _
    simp only [step, takeValue, shape, hq, listed, if_true, storeValue]
    rfl

/-- A field that has a value is read into the record that is open, if it can be stored there. -/
lemma run_valued {vs : List Token} {e : Entry} {separable : Bool}
    (hr : r.need = .field separable) (named : S.Names r.record.kind f) (h : ValueOf f vs e)
    {q : Placed} {qs rest : List Placed} (hq : q.token = .word f.name)
    (hqs : qs.map Placed.token = .colon :: vs) (hn : NoLiteral rest) (p : Position) :
    r.run S (q :: (qs ++ rest)) (.finished p) =
      r.resume S (r.storeValue f e q.position) rest (.finished p) := by
  obtain ⟨c, qs, rfl, hc, hqs⟩ := List.map_eq_cons_iff.1 hqs
  have hname := step_name hr named h.not_records hq
  have hcolon : step S { r with need := .colon f q.position } c =
      .ok { r with need := .value f q.position } := by
    simp only [step, hc]
  rw [List.cons_append, run_cons hname, run_cons hcolon, run_value h q.position hqs hn]

lemma run_enter {separable : Bool} (hr : r.need = .field separable) (h : S.Names r.record.kind f)
    {k : Kind} (hs : f.shape = .records k) {colon : List Token}
    (hc : colon = [] ∨ colon = [.colon]) {d : Delimiter} {ps : List Placed}
    (hps : ps.map Placed.token = .word f.name :: (colon ++ [.opening d])) (rest : List Placed)
    (ending : Ending) :
    r.run S (ps ++ rest) ending = (r.enter f.name k d).run S rest ending := by
  obtain ⟨q, qs, rfl, hq, hqs⟩ := List.map_eq_cons_iff.1 hps
  rw [List.cons_append, run_cons (step_name_records hr h hs hq)]
  rcases hc with rfl | rfl
  · obtain ⟨q', rfl, hq'⟩ := List.map_eq_singleton_iff.1 hqs
    exact run_cons (by simp only [step, hq']; rfl) rest ending
  · obtain ⟨c, qs, rfl, hc, hqs⟩ := List.map_eq_cons_iff.1 hqs
    obtain ⟨q', rfl, hq'⟩ := List.map_eq_singleton_iff.1 hqs
    have hcolon : step S { r with need := .block f k true } c =
        .ok { r with need := .block f k false } := by
      simp only [step, hc]
      rfl
    rw [List.cons_append, run_cons hcolon]
    exact run_cons (by simp only [step, hq']; rfl) rest ending

lemma step_closing {separable : Bool} (hr : r.need = .field separable) {e : Enclosing Kind}
    {outer : List (Enclosing Kind)} (ho : r.outer = e :: outer) {q : Placed}
    (hq : q.token = .closing e.delimiter) : r.step S q = .ok (r.leave e outer) := by
  simp only [step, atField, hr, ho, hq, if_true]
  rfl

lemma run_block {separable separable' : Bool} (hr : r.need = .field separable)
    (h : S.Names r.record.kind f) {k : Kind} (hs : f.shape = .records k) {colon inner : List Token}
    (hc : colon = [] ∨ colon = [.colon]) {d : Delimiter} {fields : List Entry} {p : Position}
    (hbody : ∀ {ns rest : List Placed}, ns.map Placed.token = inner → NoLiteral rest →
      (r.enter f.name k d).run S (ns ++ rest) (.finished p) =
        ((r.enter f.name k d).extend fields separable').run S rest (.finished p))
    {ps rest : List Placed}
    (hps : ps.map Placed.token = .word f.name :: (colon ++ .opening d :: (inner ++ [.closing d]))) :
    r.run S (ps ++ rest) (.finished p) =
      (r.store (.record f.name fields)).run S rest (.finished p) := by
  rw [show Token.word f.name :: (colon ++ .opening d :: (inner ++ [.closing d])) =
    (.word f.name :: (colon ++ [.opening d])) ++ (inner ++ [.closing d]) by simp] at hps
  obtain ⟨heads, qs, rfl, hheads, hqs⟩ := List.map_eq_append_iff.1 hps
  obtain ⟨ns, last, rfl, hns, hlast⟩ := List.map_eq_append_iff.1 hqs
  obtain ⟨c, rfl, hc'⟩ := List.map_eq_singleton_iff.1 hlast
  have hclosing : NoLiteral (c :: rest) := by simp [NoLiteral, hc']
  have hleave :
      ((r.enter f.name k d).extend fields separable').leave ⟨r.record, f.name, d⟩ r.outer =
      r.store (.record f.name fields) := by
    simp [leave, extend, store, enter]
  rw [List.append_assoc, List.append_assoc, run_enter hr h hs hc hheads, List.singleton_append,
    hbody hns hclosing, run_cons (step_closing rfl rfl hc'), hleave]

lemma step_separator (hr : r.need = .field true) {q : Placed} (hq : q.token = .separator) :
    r.step S q = .ok { r with need := .field false } := by
  simp only [step, atField, hr, hq, if_true]
  rfl

end Accepted

/-- A body is read into the record that is open, whatever stands around it and after it. -/
theorem run_body {k : Kind} {separable : Bool} {ts : List Token} {es : List Entry}
    (h : Body S k separable ts es) {r : Reader Kind} (hk : r.record.kind = k)
    (hr : r.need = .field false) (ha : S.Apart k r.record.entries es) {ps rest : List Placed}
    (hps : ps.map Placed.token = ts) (hn : NoLiteral rest) (p : Position) :
    r.run S (ps ++ rest) (.finished p) = (r.extend es separable).run S rest (.finished p) := by
  -- A body ends in its last field, so this field is read into what the body before it leaves.
  induction h generalizing r ps rest with
  | empty =>
    obtain ⟨rec, outer, need⟩ := r
    cases hr
    cases hk
    cases List.map_eq_nil_iff.1 hps
    rfl
  | @value k separable ts vs es f e before named spelled once ih =>
    subst hk
    obtain ⟨os, qs, rfl, hos, hqs⟩ := List.map_eq_append_iff.1 hps
    have hfresh : f.shape.isScalar = true →
        hasField e.name (r.extend es separable).record.entries = false := by
      intro hs
      have hbase := ha.hasField_eq_false (by rw [spelled.name_eq, named.isScalar_eq, hs])
      rw [spelled.name_eq] at hbase ⊢
      simp [extend, hasField_append, hasField_reverse, once hs, hbase]
    rw [List.append_assoc, ih rfl hr ha.of_append hos (noLiteral_of_word hqs rest)]
    obtain ⟨q, qs, rfl, hq, hqs⟩ := List.map_eq_cons_iff.1 hqs
    rw [List.cons_append, run_valued (r := r.extend es separable) rfl named spelled hq hqs hn,
      storeValue_ok hfresh q.position, resume_ok, extend_store]
  | @block k k' separable separable' ts inner es fields f colon d before named shape optional inside
      ih ihInside =>
    subst hk
    obtain ⟨os, qs, rfl, hos, hqs⟩ := List.map_eq_append_iff.1 hps
    have hbody {ns rest : List Placed} (hns : ns.map Placed.token = inner) (hn : NoLiteral rest) :=
      ihInside (r := (r.extend es separable).enter f.name k' d) rfl rfl
        (Schema.apart_nil_left _ _) hns hn
    rw [List.append_assoc, ih rfl hr ha.of_append hos (noLiteral_of_word hqs rest),
      run_block (r := r.extend es separable) rfl named shape optional hbody hqs, extend_store]
  | @separator k ts es before ih =>
    obtain ⟨os, qs, rfl, hos, hqs⟩ := List.map_eq_append_iff.1 hps
    obtain ⟨c, rfl, hc⟩ := List.map_eq_singleton_iff.1 hqs
    rw [List.append_assoc, List.singleton_append, ih hk hr ha hos (by simp [NoLiteral, hc])]
    exact run_cons (step_separator rfl hc) rest _

/-- The tokens before the innermost open record and in it: a body of the outermost record, which
had the entries `base` before, and for each record inside it the start of its block and a body. -/
inductive Inside (S : Schema Kind) (k : Kind) (base : List Entry) :
    List Token → Bool → OpenRecord Kind → List (Enclosing Kind) → Prop
  | outermost {separable : Bool} {ts : List Token} {es : List Entry}
      (body : Body S k separable ts es) (apart : S.Apart k base es) :
      Inside S k base ts separable ⟨k, (base ++ es).reverse⟩ []
  | nested {separable separable' : Bool} {ts inner : List Token} {fields : List Entry}
      {rec : OpenRecord Kind} {outer : List (Enclosing Kind)} {f : FieldSchema Kind} {k' : Kind}
      {colon : List Token} {d : Delimiter} (around : Inside S k base ts separable rec outer)
      (named : S.Names rec.kind f) (shape : f.shape = .records k')
      (optional : colon = [] ∨ colon = [.colon]) (body : Body S k' separable' inner fields) :
      Inside S k base (ts ++ .word f.name :: (colon ++ .opening d :: inner)) separable'
        ⟨k', fields.reverse⟩ (⟨rec, f.name, d⟩ :: outer)

def Reached (S : Schema Kind) (k : Kind) (base : List Entry) (r : Reader Kind)
    (ts : List Token) : Prop :=
  match r.need with
  | .field separable => Inside S k base ts separable r.record r.outer
  | .colon f _ => ∃ before separable, Inside S k base before separable r.record r.outer ∧
      S.Names r.record.kind f ∧ ts = before ++ [.word f.name]
  | .value f _ => ∃ before separable, Inside S k base before separable r.record r.outer ∧
      S.Names r.record.kind f ∧ ts = before ++ [.word f.name, .colon]
  | .moreText f _ _ bytes => ∃ before separable literals,
      Inside S k base before separable r.record r.outer ∧ S.Names r.record.kind f ∧
      (f.shape = .text ∨ f.shape = .texts) ∧ literals ≠ [] ∧ bytes = literals.flatten ∧
      ts = before ++ .word f.name :: .colon :: literals.map .literal
  | .block f k' colon => ∃ before separable,
      Inside S k base before separable r.record r.outer ∧ S.Names r.record.kind f ∧
      f.shape = .records k' ∧ ts = before ++ .word f.name :: (if colon then [] else [.colon])

section Sound

variable {k : Kind} {base : List Entry}

/-- A field that may end any body of a kind may end the record that is open. -/
lemma Inside.snoc {ts fs : List Token} {separable : Bool} {rec : OpenRecord Kind}
    {outer : List (Enclosing Kind)} {e : Entry} (h : Inside S k base ts separable rec outer)
    (fresh : S.isScalar rec.kind e.name = true → hasField e.name rec.entries = false)
    (field : ∀ {separable ts es}, Body S rec.kind separable ts es →
      (S.isScalar rec.kind e.name = true → hasField e.name es = false) →
      Body S rec.kind true (ts ++ fs) (es ++ [e])) :
    Inside S k base (ts ++ fs) true ⟨rec.kind, e :: rec.entries⟩ outer := by
  cases h with
  | @outermost _ _ es body apart =>
    have hboth : S.isScalar k e.name = true →
        hasField e.name base = false ∧ hasField e.name es = false := by
      intro hs
      simpa [hasField_append, hasField_reverse, and_comm] using fresh hs
    have := Inside.outermost (field body fun hs => (hboth hs).2)
      (apart.snoc fun hs => (hboth hs).1)
    simpa using this
  | @nested _ _ _ _ fields _ _ _ _ _ d around named shape optional body =>
    have hfields := fun hs => (hasField_reverse e.name fields).symm.trans (fresh hs)
    have := Inside.nested (d := d) around named shape optional (field body hfields)
    simpa using this

lemma Inside.separator {ts : List Token} {rec : OpenRecord Kind} {outer : List (Enclosing Kind)}
    (h : Inside S k base ts true rec outer) :
    Inside S k base (ts ++ [.separator]) false rec outer := by
  cases h with
  | outermost body apart => exact .outermost body.separator apart
  | @nested _ _ _ _ _ _ _ _ _ _ d around named shape optional body =>
    have := Inside.nested (d := d) around named shape optional body.separator
    simpa using this

lemma Inside.value {ts vs : List Token} {separable : Bool} {rec : OpenRecord Kind}
    {outer : List (Enclosing Kind)} {f : FieldSchema Kind} {e : Entry}
    (h : Inside S k base ts separable rec outer) (named : S.Names rec.kind f)
    (spelled : ValueOf f vs e)
    (fresh : f.shape.isScalar = true → hasField f.name rec.entries = false) :
    Inside S k base (ts ++ .word f.name :: .colon :: vs) true
      ⟨rec.kind, e :: rec.entries⟩ outer := by
  have hscalar := spelled.name_eq ▸ named.isScalar_eq
  refine h.snoc (fun hs => spelled.name_eq ▸ fresh (hscalar ▸ hs)) fun body once => ?_
  exact body.value named spelled fun hs => spelled.name_eq ▸ once (hscalar.trans hs)

lemma Inside.leave {ts : List Token} {separable : Bool} {r : Reader Kind} {e : Enclosing Kind}
    {outer : List (Enclosing Kind)} (h : Inside S k base ts separable r.record (e :: outer)) :
    Inside S k base (ts ++ [.closing e.delimiter]) true (r.leave e outer).record outer := by
  obtain ⟨rec, o, need⟩ := r
  cases h with
  | @nested _ _ ts inner fields rec _ f k' colon d around named shape optional body =>
    have hscalar : S.isScalar rec.kind f.name = false := by rw [named.isScalar_eq, shape]; rfl
    have := around.snoc (e := .record f.name fields)
      (fun hs => absurd hs (by simp [Entry.name, hscalar]))
      (fun before _ => before.block (d := d) named shape optional body)
    simpa [Reader.leave, store] using this

lemma reached_start : Reached S k base (start k base) [] := by
  have := Inside.outermost (.empty : Body S k false [] []) (Schema.apart_nil_right k base)
  simpa [Reached, start] using this

lemma reached_settle {r r' : Reader Kind} {ts : List Token} (h : Reached S k base r ts)
    (hs : r.settle = .ok r') : Reached S k base r' ts := by
  obtain ⟨rec, outer, need⟩ := r
  cases need with
  | moreText f place first bytes =>
    obtain ⟨before, separable, literals, inside, named, shape, found, rfl, rfl⟩ := h
    obtain ⟨v, hv, fresh, rfl⟩ := storeText_eq_ok hs
    exact inside.value named (.text shape found hv) fresh
  | _ => cases hs; exact h

lemma reached_atField {r r' : Reader Kind} {t : Placed} {ts : List Token} {separable : Bool}
    (hr : r.need = .field separable) (h : Reached S k base r ts)
    (hs : r.atField S separable t = .ok r') : Reached S k base r' (ts ++ [t.token]) := by
  obtain ⟨rec, outer, need⟩ := r
  cases hr
  unfold atField at hs
  split at hs
  · next w hw =>
    split at hs
    · next hname =>
      unfold beginField at hs
      split at hs
      · cases hs
      · next f hf =>
        obtain ⟨rfl, named⟩ := Schema.names_of_field? hf hname
        split at hs
        · next k' hk =>
          cases hs
          exact ⟨ts, separable, h, named, hk, by rw [hw]; rfl⟩
        · cases hs
          exact ⟨ts, separable, h, named, by rw [hw]⟩
    · cases hs
  · next d hd =>
    split at hs
    · next e outer' ho =>
      split at hs
      · next hdel =>
        cases hs
        subst ho
        rw [hd, ← hdel]
        exact Inside.leave (r := ⟨rec, e :: outer', .field separable⟩) h
      · cases hs
    · cases hs
  · next hsep =>
    split at hs
    · next htrue =>
      cases hs
      subst htrue
      rw [hsep]
      exact Inside.separator h
    · cases hs
  · cases hs

lemma reached_takeValue {r r' : Reader Kind} {t : Placed} {ts : List Token}
    {f : FieldSchema Kind} {place : Position} (hr : r.need = .value f place)
    (h : Reached S k base r ts) (hs : r.takeValue f place t = .ok r') :
    Reached S k base r' (ts ++ [t.token]) := by
  obtain ⟨rec, outer, need⟩ := r
  cases hr
  obtain ⟨before, separable, inside, named, rfl⟩ := h
  rw [List.append_assoc]
  have text {bs : List UInt8} (ht : t.token = .literal bs)
      (shape : f.shape = .text ∨ f.shape = .texts) :
      Reached S k base ⟨rec, outer, .moreText f place t.position bs⟩
        (before ++ ([.word f.name, .colon] ++ [t.token])) :=
    ⟨before, separable, [bs], inside, named, shape, by simp, by simp, by simp [ht]⟩
  unfold takeValue at hs
  split at hs
  · next bs shape ht =>
    cases hs
    exact text ht (.inl shape)
  · next bs shape ht =>
    cases hs
    exact text ht (.inr shape)
  · next w shape ht =>
    split at hs
    · next v hv =>
      obtain ⟨fresh, rfl⟩ := storeOnce_eq_ok hs
      rw [ht]
      exact inside.value named (.flag shape (readFlag?_eq_some_iff.1 hv)) fun _ => fresh
    · cases hs
  · next c w shape ht =>
    split at hs
    · next listed =>
      obtain ⟨fresh, rfl⟩ := storeOnce_eq_ok hs
      rw [ht]
      exact inside.value named (.choice shape listed) fun _ => fresh
    · cases hs
  · cases hs

/-- One token takes the reader from where its tokens have brought it to where they bring it
together with that token. -/
theorem reached_step {r r' : Reader Kind} {t : Placed} {ts : List Token}
    (h : Reached S k base r ts) (hs : r.step S t = .ok r') :
    Reached S k base r' (ts ++ [t.token]) := by
  obtain ⟨rec, outer, need⟩ := r
  cases need with
  | field separable => exact reached_atField rfl h (orStop_eq_ok hs)
  | value f place => exact reached_takeValue rfl h (orStop_eq_ok hs)
  | colon f place =>
    obtain ⟨before, separable, inside, named, rfl⟩ := h
    simp only [step] at hs
    split at hs
    · next ht =>
      cases hs
      exact ⟨before, separable, inside, named, by simp [ht]⟩
    · cases hs
  | moreText f place first bytes =>
    rcases moreText_cases (r := ⟨rec, outer, .moreText f place first bytes⟩) S rfl t with
      ⟨more, ht, -, hstep⟩ | ⟨fault, -, -, hstep⟩ | ⟨v, hsettle, -, hstep⟩
    · obtain ⟨before, separable, literals, inside, named, shape, found, rfl, rfl⟩ := h
      rw [hstep] at hs
      cases hs
      exact ⟨before, separable, literals ++ [more], inside, named, shape, by simp, by simp,
        by simp [ht]⟩
    · rw [hstep] at hs
      cases hs
    · -- The text ends before `t`, which is the first token after its field.
      have hstored := reached_settle h hsettle
      rw [hstep] at hs
      exact reached_atField rfl hstored (orStop_eq_ok hs)
  | block f k' colon =>
    obtain ⟨before, separable, inside, named, shape, rfl⟩ := h
    simp only [step] at hs
    split at hs
    · next ht =>
      split at hs
      · next hc =>
        cases hs
        exact ⟨before, separable, inside, named, shape, by simp [ht, hc]⟩
      · cases hs
    · next d ht =>
      cases hs
      have optional : (if colon then [] else [Token.colon]) = [] ∨
          (if colon then [] else [Token.colon]) = [.colon] := by cases colon <;> simp
      have := Inside.nested (d := d) inside named shape optional .empty
      simpa [Reached, enter, ht] using this
    · cases hs

lemma reached_finish_field {r : Reader Kind} {ts : List Token} {p : Position} {out : List Entry}
    {separable : Bool} (hneed : r.need = .field separable) (h : Reached S k base r ts)
    (hr : r.finish S p = ⟨out, none⟩) :
    ∃ es, Derives S k ts es ∧ S.Apart k base es ∧ out = base ++ es := by
  obtain ⟨rec, outer, need⟩ := r
  cases hneed
  cases h with
  | @outermost _ _ es body apart =>
    refine ⟨es, ⟨separable, body⟩, apart, ?_⟩
    simpa [finish, kept] using hr.symm
  | nested around named shape optional body => simp [finish] at hr

lemma reached_finish {r : Reader Kind} {ts : List Token} {p : Position} {out : List Entry}
    (h : Reached S k base r ts) (hr : r.finish S p = ⟨out, none⟩) :
    ∃ es, Derives S k ts es ∧ S.Apart k base es ∧ out = base ++ es := by
  obtain ⟨rec, outer, need⟩ := r
  cases need with
  | field separable => exact reached_finish_field rfl h hr
  | moreText f place first bytes =>
    cases hs : settle ⟨rec, outer, .moreText f place first bytes⟩ with
    | ok stored =>
      have hstored := reached_settle h hs
      rw [finish_settle hs] at hr
      obtain ⟨v, _, _, rfl⟩ := storeText_eq_ok hs
      exact reached_finish_field rfl hstored hr
    | error fault =>
      have hs' : storeText _ f place first bytes = .error fault := hs
      simp [finish, hs'] at hr
  | _ => simp [finish] at hr

theorem reached_run {r : Reader Kind} {ps : List Placed} {ending : Ending} {ts : List Token}
    {out : List Entry} (h : Reached S k base r ts) (hr : r.run S ps ending = ⟨out, none⟩) :
    ∃ p es, ending = .finished p ∧ Derives S k (ts ++ ps.map Placed.token) es ∧
      S.Apart k base es ∧ out = base ++ es := by
  induction ps generalizing r ts with
  | nil =>
    cases ending with
    | broken start f => cases hr
    | finished p =>
      refine ⟨p, ?_⟩
      simpa using reached_finish h hr
  | cons t ps ih =>
    simp only [run] at hr
    split at hr
    · next r' hs =>
      have := ih (reached_step h hs) hr
      simpa using this
    · next reading hs =>
      obtain ⟨f, rfl, -⟩ := step_error hs
      cases hr

end Sound

/-- Reading tokens into a record that has the entries `base` succeeds on the bodies that set no
scalar again, and adds their entries. -/
theorem run_start_iff {k : Kind} {base out : List Entry} {ps : List Placed} {ending : Ending} :
    (start k base).run S ps ending = ⟨out, none⟩ ↔
      ∃ p es, ending = .finished p ∧ Derives S k (ps.map Placed.token) es ∧
        S.Apart k base es ∧ out = base ++ es := by
  constructor
  · intro h
    simpa using reached_run reached_start h
  · rintro ⟨p, es, rfl, ⟨separable, body⟩, apart, rfl⟩
    have ha : S.Apart k (start k base).record.entries es := by
      intro n hn
      simpa [start, hasField_reverse] using apart n hn
    have hrun : (start k base).run S (ps ++ []) (.finished p) = _ :=
      run_body body rfl rfl ha rfl (by simp [NoLiteral]) p
    rw [List.append_nil] at hrun
    rw [hrun]
    simp [run, finish, extend, start, kept]

end Reader

variable {Kind : Type} {S : Schema Kind}

theorem readInto_iff {k : Kind} {base out : List Entry} {text : String} :
    readInto S k base text = ⟨out, none⟩ ↔
      ∃ p es, (scan text).ending = .finished p ∧
        Derives S k ((scan text).tokens.map Placed.token) es ∧ S.Apart k base es ∧
        out = base ++ es :=
  Reader.run_start_iff

end ToolchainRelease.Text
