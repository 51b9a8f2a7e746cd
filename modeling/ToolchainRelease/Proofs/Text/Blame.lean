import ToolchainRelease.Proofs.Text.FailedReading

/-! What a fault of a reading is about: the end of the text, a token, or a field name directly
inside an open record. A field is blamed at the place of its own name and in the record that it
belongs to: no place of a name is kept while a nested record is entered or left. -/
namespace ToolchainRelease.Text

namespace Cause

def isAboutEnd : Cause → Bool
  | unexpected _ none | unclosed _ => true
  | _ => false

end Cause

variable {Kind : Type}

def Need.named? : Need Kind → Option (FieldSchema Kind × Position)
  | .colon f place | .value f place | .moreText f place _ _ => some (f, place)
  | .field _ | .block _ _ _ => none

def Need.first? : Need Kind → Option Position
  | .moreText _ _ first _ => some first
  | _ => none

namespace Reader

/-- The word `n` at this place has the place of a field name directly inside the record `rec`: the
tokens before it lead to where `rec` is the innermost open record. -/
def NameAt (S : Schema Kind) (k : Kind) (base : List Entry) (tokens : List Placed) (n : String)
    (place : Position) (rec : OpenRecord Kind) : Prop :=
  isFieldName n = true ∧ ∃ before after separable outer,
    tokens = before ++ ⟨.word n, place⟩ :: after ∧
      Inside S k base (before.map Placed.token) separable rec outer

inductive Blamed (S : Schema Kind) (k : Kind) (base : List Entry) (tokens : List Placed)
    (ending : Ending) : Fault → Prop
  | unread {start : Position} {f : Fault} (broken : ending = .broken start f) :
      Blamed S k base tokens ending f
  | atEnd {p : Position} {c : Cause} (finished : ending = .finished p)
      (about : c.isAboutEnd = true) : Blamed S k base tokens ending ⟨p, c⟩
  | unexpected {t : Placed} {wanted : Expected} (mem : t ∈ tokens) :
      Blamed S k base tokens ending ⟨t.position, .unexpected wanted (some t.token)⟩
  | badText {bytes : List UInt8} {p : Position} (mem : ⟨.literal bytes, p⟩ ∈ tokens) :
      Blamed S k base tokens ending ⟨p, .invalidUtf8⟩
  | flag {w : String} {p : Position} (mem : ⟨.word w, p⟩ ∈ tokens) :
      Blamed S k base tokens ending ⟨p, .invalidFlag w⟩
  | choice {typeName w : String} {p : Position} (mem : ⟨.word w, p⟩ ∈ tokens) :
      Blamed S k base tokens ending ⟨p, .unknownChoice typeName w⟩
  | unknownField {n : String} {p : Position} {rec : OpenRecord Kind}
      (name : NameAt S k base tokens n p rec) (none : S.field? rec.kind n = none) :
      Blamed S k base tokens ending ⟨p, .unknownField n (S.fullName rec.kind)⟩
  | repeatedField {n : String} {p : Position} {rec : OpenRecord Kind}
      (name : NameAt S k base tokens n p rec) (scalar : S.isScalar rec.kind n = true)
      (set : hasField n rec.entries = true) :
      Blamed S k base tokens ending ⟨p, .repeatedField n⟩

section Blame

variable {S : Schema Kind} {k : Kind} {base : List Entry} {tokens : List Placed}
  {ending : Ending} {r r' : Reader Kind} {t : Placed}

lemma NameAt.append {n : String} {place : Position} {rec : OpenRecord Kind}
    (h : NameAt S k base tokens n place rec) (more : List Placed) :
    NameAt S k base (tokens ++ more) n place rec := by
  obtain ⟨hname, before, after, separable, outer, rfl, inside⟩ := h
  exact ⟨hname, before, after ++ more, separable, outer, by simp, inside⟩

lemma NameAt.mem {n : String} {place : Position} {rec : OpenRecord Kind}
    (h : NameAt S k base tokens n place rec) : ⟨.word n, place⟩ ∈ tokens := by
  obtain ⟨-, before, after, -, -, rfl, -⟩ := h
  exact List.mem_append_right _ List.mem_cons_self

lemma Blamed.append {f : Fault} (h : Blamed S k base tokens ending f) (more : List Placed) :
    Blamed S k base (tokens ++ more) ending f := by
  cases h with
  | unread broken => exact .unread broken
  | atEnd finished about => exact .atEnd finished about
  | unexpected mem => exact .unexpected (List.mem_append_left more mem)
  | badText mem => exact .badText (List.mem_append_left more mem)
  | flag mem => exact .flag (List.mem_append_left more mem)
  | choice mem => exact .choice (List.mem_append_left more mem)
  | unknownField name none => exact .unknownField (name.append more) none
  | repeatedField name scalar set => exact .repeatedField (name.append more) scalar set

/-- The tokens have brought the reader to where it is, and the places that it keeps are those of
the name and of the first literal of the field under way. -/
structure Passed (S : Schema Kind) (k : Kind) (base : List Entry) (tokens : List Placed)
    (r : Reader Kind) : Prop where
  reached : Reached S k base r (tokens.map Placed.token)
  named : ∀ f place, r.need.named? = some (f, place) →
    S.Names r.record.kind f ∧ NameAt S k base tokens f.name place r.record
  first : ∀ p, r.need.first? = some p → ∃ bytes, ⟨.literal bytes, p⟩ ∈ tokens

lemma passed_start : Passed S k base [] (start k base) := ⟨reached_start, nofun, nofun⟩

lemma inside_of_reached {separable : Bool} {ts : List Token} (h : Reached S k base r ts)
    (hr : r.need = .field separable) : Inside S k base ts separable r.record r.outer := by
  simpa only [Reached, hr] using h

lemma passed_field {separable : Bool} (hr : r.need = .field separable)
    (h : Reached S k base r (tokens.map Placed.token)) : Passed S k base tokens r := by
  refine ⟨h, fun f place hf => ?_, fun p hp => ?_⟩
  · rw [hr] at hf
    cases hf
  · rw [hr] at hp
    cases hp

/-- What a token makes a reader keep: nothing, its own place as that of a name, or what it kept,
together with the place of a first literal. -/
inductive Keeps (S : Schema Kind) (r : Reader Kind) (t : Placed) : Reader Kind → Prop
  | nothing {r' : Reader Kind} (named : r'.need.named? = none) (first : r'.need.first? = none) :
      Keeps S r t r'
  | name {f : FieldSchema Kind} {separable : Bool} (between : r.need = .field separable)
      (named : S.Names r.record.kind f) (word : t.token = .word f.name) :
      Keeps S r t { r with need := .colon f t.position }
  | same {need : Need Kind} (named : need.named? = r.need.named?)
      (first : ∀ p, need.first? = some p →
        r.need.first? = some p ∨ ∃ bytes, t = ⟨.literal bytes, p⟩) :
      Keeps S r t { r with need := need }

lemma atField_keeps {separable : Bool} (hr : r.need = .field separable)
    (h : r.atField S separable t = .ok r') : Keeps S r t r' := by
  unfold atField at h
  split at h
  · next w hw =>
    split at h
    · next hname =>
      unfold beginField at h
      split at h
      · cases h
      · next f hf =>
        obtain ⟨rfl, named⟩ := Schema.names_of_field? hf hname
        split at h
        · cases h
          exact .nothing rfl rfl
        · cases h
          exact .name hr named hw
    · cases h
  · split at h
    · split at h
      · cases h
        exact .nothing rfl rfl
      · cases h
    · cases h
  · split at h
    · cases h
      exact .nothing rfl rfl
    · cases h
  · cases h

lemma takeValue_keeps {f : FieldSchema Kind} {place : Position} (hr : r.need = .value f place)
    (h : r.takeValue f place t = .ok r') : Keeps S r t r' := by
  have text {bs : List UInt8} (ht : t.token = .literal bs) :
      Keeps S r t { r with need := .moreText f place t.position bs } := by
    refine .same (by rw [hr]; rfl) fun p hp => .inr ⟨bs, ?_⟩
    cases hp
    rw [← ht]
  unfold takeValue at h
  split at h
  · next ht =>
    cases h
    exact text ht
  · next ht =>
    cases h
    exact text ht
  · split at h
    · obtain ⟨-, rfl⟩ := storeOnce_eq_ok h
      exact .nothing rfl rfl
    · cases h
  · split at h
    · obtain ⟨-, rfl⟩ := storeOnce_eq_ok h
      exact .nothing rfl rfl
    · cases h
  · cases h

lemma step_keeps (h : r.step S t = .ok r') : Keeps S (r.ahead t) t r' := by
  obtain ⟨rec, outer, need⟩ := r
  cases need with
  | field separable =>
    rw [ahead_of_settle _ rfl t]
    exact atField_keeps rfl (orStop_eq_ok h)
  | value f place =>
    rw [ahead_of_settle _ rfl t]
    exact takeValue_keeps rfl (orStop_eq_ok h)
  | colon f place =>
    rw [ahead_of_settle _ rfl t]
    simp only [step] at h
    split at h
    · cases h
      refine .same rfl fun p hp => ?_
      cases hp
    · cases h
  | block f k colon =>
    rw [ahead_of_settle _ rfl t]
    simp only [step] at h
    split at h
    · split at h
      · cases h
        exact .nothing rfl rfl
      · cases h
    · cases h
      exact .nothing rfl rfl
    · cases h
  | moreText f place first bytes =>
    rcases moreText_cases (r := ⟨rec, outer, .moreText f place first bytes⟩) S rfl t with
      ⟨more, -, hahead, hstep⟩ | ⟨fault, -, -, hstep⟩ | ⟨v, -, hahead, hstep⟩
    · rw [hstep] at h
      rw [hahead]
      cases h
      exact .same rfl fun p hp => .inl hp
    · rw [hstep] at h
      cases h
    · rw [hstep] at h
      rw [hahead]
      exact atField_keeps rfl (orStop_eq_ok h)

lemma Passed.ahead (h : Passed S k base tokens r) (t : Placed) :
    Passed S k base tokens (r.ahead t) := by
  rcases r.ahead_cases t with heq | ⟨hs, e, heq⟩
  · rwa [heq]
  · have hreached := reached_settle h.reached hs
    rw [heq] at hreached ⊢
    exact passed_field rfl hreached

/-- One token takes the reader to where the places that it keeps are right again. -/
theorem Passed.step (h : Passed S k base tokens r) (hs : r.step S t = .ok r') :
    Passed S k base (tokens ++ [t]) r' := by
  have hreached : Reached S k base r' ((tokens ++ [t]).map Placed.token) := by
    have := reached_step h.reached hs
    simpa using this
  have hahead := h.ahead t
  have hkeeps := step_keeps hs
  refine ⟨hreached, ?_, ?_⟩
  · intro f place hf
    cases hkeeps with
    | nothing named => rw [named] at hf; cases hf
    | name between named word =>
      cases hf
      have inside := inside_of_reached hahead.reached between
      refine ⟨named, named.2, tokens, [], _, _, ?_, inside⟩
      rw [← word]
    | same named =>
      rw [named] at hf
      obtain ⟨hnames, hname⟩ := hahead.named f place hf
      exact ⟨hnames, hname.append [t]⟩
  · intro p hp
    cases hkeeps with
    | nothing _ first => rw [first] at hp; cases hp
    | name => cases hp
    | same _ first =>
      rcases first p hp with hp | ⟨bytes, rfl⟩
      · obtain ⟨bytes, hmem⟩ := hahead.first p hp
        exact ⟨bytes, List.mem_append_left _ hmem⟩
      · exact ⟨bytes, by simp⟩

lemma storeOnce_blamed {e : Entry} {place : Position} {f : Fault}
    (hf : r.storeOnce e place = .error f) (scalar : S.isScalar r.record.kind e.name = true)
    (name : NameAt S k base tokens e.name place r.record) : Blamed S k base tokens ending f := by
  unfold storeOnce at hf
  split at hf
  · next hset =>
    cases hf
    exact .repeatedField name scalar hset
  · cases hf

lemma storeText_blamed {field : FieldSchema Kind} {place first : Position} {bytes : List UInt8}
    {f : Fault} (h : Passed S k base tokens r) (hr : r.need = .moreText field place first bytes)
    (hf : r.storeText field place first bytes = .error f) : Blamed S k base tokens ending f := by
  unfold storeText at hf
  split at hf
  · cases hf
    obtain ⟨bs, hmem⟩ := h.first first (by rw [hr]; rfl)
    exact .badText hmem
  · split at hf
    · next hscalar =>
      obtain ⟨named, name⟩ := h.named field place (by rw [hr]; rfl)
      exact storeOnce_blamed hf (named.isScalar_eq.trans hscalar) name
    · cases hf

lemma blamed_here {wanted : Expected} : Blamed S k base (tokens ++ [t]) ending
    ⟨t.position, .unexpected wanted (some t.token)⟩ :=
  .unexpected (List.mem_append_right _ List.mem_cons_self)

lemma atField_blamed {separable : Bool} {f : Fault} (h : Passed S k base tokens r)
    (hr : r.need = .field separable) (hf : r.atField S separable t = .error f) :
    Blamed S k base (tokens ++ [t]) ending f := by
  have inside := inside_of_reached h.reached hr
  unfold atField at hf
  split at hf
  · next w hw =>
    split at hf
    · next hname =>
      unfold beginField at hf
      split at hf
      · next hnone =>
        cases hf
        refine .unknownField ⟨hname, tokens, [], _, _, ?_, inside⟩ hnone
        rw [← hw]
      · split at hf <;> cases hf
    · cases hf
      exact blamed_here
  · split at hf
    · split at hf <;> cases hf
      exact blamed_here
    · cases hf
      exact blamed_here
  · split at hf <;> cases hf
    exact blamed_here
  · cases hf
    exact blamed_here

lemma takeValue_blamed {field : FieldSchema Kind} {place : Position} {f : Fault}
    (h : Passed S k base tokens r) (hr : r.need = .value field place)
    (hf : r.takeValue field place t = .error f) : Blamed S k base (tokens ++ [t]) ending f := by
  obtain ⟨named, name⟩ := h.named field place (by rw [hr]; rfl)
  have name' := name.append [t]
  have hmem {w : String} (ht : t.token = .word w) : ⟨.word w, t.position⟩ ∈ tokens ++ [t] := by
    rw [← ht]
    exact List.mem_append_right _ List.mem_cons_self
  unfold takeValue at hf
  split at hf
  · cases hf
  · cases hf
  · next w shape ht =>
    split at hf
    · exact storeOnce_blamed hf (named.isScalar_eq.trans (by rw [shape]; rfl)) name'
    · cases hf
      exact .flag (hmem ht)
  · next c w shape ht =>
    split at hf
    · exact storeOnce_blamed hf (named.isScalar_eq.trans (by rw [shape]; rfl)) name'
    · cases hf
      exact .choice (hmem ht)
  · cases hf
    exact blamed_here

/-- A token at which the reader stops is blamed, or the name or the literals of its field. -/
theorem Passed.step_blamed {reading : Reading} (h : Passed S k base tokens r)
    (hs : r.step S t = .error reading) (ending : Ending) :
    ∃ f, reading.fault = some f ∧ Blamed S k base (tokens ++ [t]) ending f := by
  obtain ⟨rec, outer, need⟩ := r
  cases need with
  | field separable =>
    obtain ⟨f, rfl, hf⟩ := orStop_eq_error hs
    exact ⟨f, rfl, atField_blamed h rfl hf⟩
  | value field place =>
    obtain ⟨f, rfl, hf⟩ := orStop_eq_error hs
    exact ⟨f, rfl, takeValue_blamed h rfl hf⟩
  | colon f place =>
    simp only [Reader.step] at hs
    split at hs <;> cases hs
    exact ⟨_, rfl, blamed_here⟩
  | block f k colon =>
    simp only [Reader.step] at hs
    split at hs
    · split at hs <;> cases hs
      exact ⟨_, rfl, blamed_here⟩
    · cases hs
    · cases hs
      exact ⟨_, rfl, blamed_here⟩
  | moreText field place first bytes =>
    rcases moreText_cases (r := ⟨rec, outer, .moreText field place first bytes⟩) S rfl t with
      ⟨more, -, -, hstep⟩ | ⟨fault, hsettle, -, hstep⟩ | ⟨v, hsettle, -, hstep⟩
    · rw [hstep] at hs
      cases hs
    · rw [hstep] at hs
      cases hs
      exact ⟨fault, rfl, (storeText_blamed h rfl hsettle).append [t]⟩
    · -- The text is stored, and `t` is refused where another field might begin.
      rw [hstep] at hs
      obtain ⟨f, rfl, hf⟩ := orStop_eq_error hs
      have hstored := passed_field rfl (reached_settle h.reached hsettle)
      exact ⟨f, rfl, atField_blamed hstored rfl hf⟩

lemma Passed.finish_blamed {p : Position} {f : Fault} (h : Passed S k base tokens r)
    (hf : (r.finish S p).fault = some f) : Blamed S k base tokens (.finished p) f := by
  have field {r : Reader Kind} {separable : Bool} (hr : r.need = .field separable)
      (hf : (r.finish S p).fault = some f) : Blamed S k base tokens (.finished p) f := by
    obtain ⟨rec, outer, need⟩ := r
    cases hr
    cases outer <;> cases hf
    exact .atEnd rfl rfl
  obtain ⟨rec, outer, need⟩ := r
  cases need with
  | field separable => exact field rfl hf
  | moreText f place first bytes =>
    cases hs : settle ⟨rec, outer, .moreText f place first bytes⟩ with
    | ok stored =>
      rw [finish_settle hs] at hf
      obtain ⟨v, -, -, rfl⟩ := storeText_eq_ok hs
      exact field rfl hf
    | error fault =>
      have hs' : storeText _ f place first bytes = .error fault := hs
      simp only [finish, hs'] at hf
      cases hf
      exact storeText_blamed h rfl hs
  | colon | value | block =>
    cases hf
    exact .atEnd rfl rfl

/-- A fault of a reading is one that its tokens or its ending are to blame for. -/
theorem Passed.run_blamed {ts : List Placed} {f : Fault} (h : Passed S k base tokens r)
    (hf : (r.run S ts ending).fault = some f) : Blamed S k base (tokens ++ ts) ending f := by
  induction ts generalizing r tokens with
  | nil =>
    rw [List.append_nil]
    cases ending with
    | finished p => exact h.finish_blamed hf
    | broken start g =>
      cases hf
      exact .unread rfl
  | cons t ts ih =>
    rw [← List.singleton_append, ← List.append_assoc]
    simp only [run] at hf
    split at hf
    · next r' hs => exact ih (h.step hs) hf
    · next reading hs =>
      obtain ⟨g, hg, blamed⟩ := h.step_blamed hs ending
      cases hg.symm.trans hf
      exact blamed.append ts

end Blame

end Reader

end ToolchainRelease.Text
