import Mathlib.Data.List.Induction
import ToolchainRelease.Proofs.Text.Arrangement
import ToolchainRelease.Proofs.Text.Literal

/-! What is printed of entries that fit a schema spells a body that derives these entries. -/
namespace ToolchainRelease.Text

variable {Kind : Type} {S : Schema Kind}

mutual

def Entry.tokens : Entry → List Token
  | .text n v => [.word n, .colon, .literal (utf8 v)]
  | .flag n v => [.word n, .colon, .word (if v then "true" else "false")]
  | .choice n v => [.word n, .colon, .word v]
  | .record n fields => .word n :: .opening .brace :: (tokensOf fields ++ [.closing .brace])

def tokensOf : List Entry → List Token
  | [] => []
  | e :: es => e.tokens ++ tokensOf es

end

lemma tokensOf_append (as bs : List Entry) : tokensOf (as ++ bs) = tokensOf as ++ tokensOf bs := by
  induction as with
  | nil => rfl
  | cons e as ih => simp [tokensOf, ih]

def Shape.choiceNames : Shape Kind → List String
  | .choice c => c.names
  | _ => []

def Schema.ChoicesSpelled (S : Schema Kind) : Prop :=
  ∀ k, ∀ f ∈ S.fields k, ∀ w ∈ f.shape.choiceNames, IsWord w

instance : DecidablePred IsWord := fun w =>
  inferInstanceAs (Decidable (utf8 w ≠ [] ∧ ∀ b ∈ utf8 w, isWordByte b = true))

lemma isWord_of_isFieldName {w : String} (h : isFieldName w = true) : IsWord w := by
  unfold isFieldName at h
  unfold IsWord
  split at h
  · cases h
  · next b bs hw =>
    rw [hw]
    simp only [Bool.and_eq_true, Bool.or_eq_true, List.all_eq_true, decide_eq_true_eq] at h
    refine ⟨by simp, fun c hc => ?_⟩
    rcases List.mem_cons.1 hc with rfl | hc
    · rcases h.1 with hl | hl <;> simp [isWordByte, hl]
    · rcases h.2 c hc with (hl | hl) | hl <;> simp [isWordByte, hl]

lemma forall_byte {p : UInt8 → Bool} (h : (List.range 256).all (p ∘ UInt8.ofNat) = true)
    (b : UInt8) : p b = true := by
  rw [← UInt8.ofNat_toNat (x := b)]
  exact List.all_eq_true.1 h _ (List.mem_range.2 b.toNat_lt)

lemma isPrintable_of_isWordByte {b : UInt8} (h : isWordByte b = true) : isPrintable b = true := by
  have hall := forall_byte (p := fun b => !isWordByte b || isPrintable b) (by decide +kernel) b
  simpa [h] using hall

lemma isPrintable_escapeByte {b c : UInt8} (h : c ∈ escapeByte b) : isPrintable c = true :=
  List.all_eq_true.1 (forall_byte (p := fun b => (escapeByte b).all isPrintable)
    (by decide +kernel) b) c h

lemma toNat_lt_of_isPrintable {b : UInt8} (h : isPrintable b = true) : b.toNat < 128 := by
  simp only [isPrintable, Bool.and_eq_true, decide_eq_true_eq, UInt8.le_iff_toNat_le] at h
  exact Nat.lt_of_le_of_lt h.2 (by decide)

lemma utf8_escape (v : String) : utf8 (escape v) = (utf8 v).flatMap escapeByte :=
  utf8_ofAscii fun c hc => by
    obtain ⟨b, -, hc⟩ := List.mem_flatMap.1 hc
    exact toNat_lt_of_isPrintable (isPrintable_escapeByte hc)

lemma utf8_indentation (depth : Nat) :
    utf8 (indentation depth) = List.replicate (2 * depth) 32 := by
  have hspaces : indentation depth = ofAscii (List.replicate (2 * depth) 32) := by
    simp [indentation, ofAscii]
    rfl
  rw [hspaces, utf8_ofAscii]
  intro b hb
  rw [List.eq_of_mem_replicate hb]
  decide

lemma spells_indentation (depth : Nat) : Spells (utf8 (indentation depth)) [] := by
  rw [utf8_indentation]
  induction 2 * depth with
  | zero => exact .nil
  | succ n ih => exact (Spells.space rfl).append ih

lemma spells_named {n value : String} {xs : List Token} (hn : IsWord n)
    (h : Spells (utf8 value) xs) :
    SpellsAt (utf8 (n ++ (": " ++ value))) (.word n) (.colon :: xs) := by
  rw [utf8_append, utf8_append]
  exact .word hn rfl (Spells.colon.append ((Spells.space rfl).append h))

lemma spells_word_line {w : String} (h : IsWord w) : Spells (utf8 (w ++ "\n")) [.word w] := by
  rw [utf8_append]
  exact .word h rfl (.space rfl)

lemma spells_text_line (v : String) :
    Spells (utf8 ("\"" ++ (escape v ++ "\"\n"))) [.literal (utf8 v)] := by
  have hv : Spells ((34 :: ((utf8 v).flatMap escapeByte ++ [34])) ++ [10]) _ :=
    (Spells.literal (utf8 v)).append (.space rfl)
  have hquote : utf8 "\"" = [34] := rfl
  have hend : utf8 "\"\n" = [34, 10] := rfl
  rw [utf8_append, utf8_append, utf8_escape, hquote, hend]
  simpa using hv

lemma ValueOf.literal {f : FieldSchema Kind} {v : String}
    (shape : f.shape = .text ∨ f.shape = .texts) :
    ValueOf f [.literal (utf8 v)] (.text f.name v) :=
  .text shape (List.cons_ne_nil (utf8 v) []) (by simp)

lemma ValueOf.printedFlag {f : FieldSchema Kind} {v : Bool} (shape : f.shape = .flag) :
    ValueOf f [.word (if v then "true" else "false")] (.flag f.name v) :=
  .flag shape (by cases v <;> decide)

/-- How an entry is printed that has a value: on one line, as the name of its field, a colon, and
the spelling of the value and of the end of the line. -/
structure Entry.Line (f : FieldSchema Kind) (e : Entry) (value : String) (vs : List Token) :
    Prop where
  valued : ValueOf f vs e
  spelled : Spells (utf8 value) vs
  tokens : e.tokens = .word f.name :: .colon :: vs
  printed : ∀ depth,
    String.join (e.pieces depth) = indentation depth ++ (f.name ++ (": " ++ value))

namespace Entry.Line

variable {k : Kind} {f : FieldSchema Kind}

lemma text {v : String} (shape : f.shape = .text ∨ f.shape = .texts) :
    Line f (.text f.name v) ("\"" ++ (escape v ++ "\"\n")) [.literal (utf8 v)] where
  valued := .literal shape
  spelled := spells_text_line v
  tokens := rfl
  printed depth := by
    have hquote (rest : String) : ": \"" ++ rest = ": " ++ ("\"" ++ rest) := by
      rw [← String.append_assoc]
      rfl
    simp [pieces, hquote]

lemma flag {v : Bool} (shape : f.shape = .flag) :
    Line f (.flag f.name v) ((if v then "true" else "false") ++ "\n")
      [.word (if v then "true" else "false")] where
  valued := .printedFlag shape
  spelled := spells_word_line (by cases v <;> decide +kernel)
  tokens := rfl
  printed depth := by
    simp [pieces]

lemma choice {c : Choices} {v : String} (spelled : S.ChoicesSpelled) (named : S.Names k f)
    (shape : f.shape = .choice c) (listed : v ∈ c.names) :
    Line f (.choice f.name v) (v ++ "\n") [.word v] where
  valued := .choice shape listed
  spelled := spells_word_line
    (spelled k f (Schema.mem_of_field? named.1) v (by rwa [shape]))
  tokens := rfl
  printed depth := by
    simp [pieces]

lemma spells {e : Entry} {value : String} {vs : List Token} (h : e.Line f value vs)
    (named : S.Names k f) (depth : Nat) : Spells ((e.pieces depth).flatMap utf8) e.tokens := by
  rw [← utf8_join, h.printed, utf8_append, h.tokens]
  exact (spells_indentation depth).append
    (spells_named (isWord_of_isFieldName named.2) h.spelled).spells

end Entry.Line

lemma Entry.Fits.line {k : Kind} {f : FieldSchema Kind} {e : Entry} (h : e.Fits S k)
    (spelled : S.ChoicesSpelled) (named : S.Names k f) (hn : e.name = f.name)
    (hs : f.shape.isScalar = true) : ∃ value vs, e.Line f value vs := by
  cases hshape : f.shape with
  | text =>
    obtain ⟨v, rfl⟩ := h.eq_text named hn (.inl hshape)
    exact ⟨_, _, .text (.inl hshape)⟩
  | flag =>
    obtain ⟨v, rfl⟩ := h.eq_flag named hn hshape
    exact ⟨_, _, .flag hshape⟩
  | choice c =>
    obtain ⟨v, listed, rfl⟩ := h.eq_choice named hn hshape
    exact ⟨_, _, .choice spelled named hshape listed⟩
  | texts | records => simp [hshape, Shape.isScalar] at hs

lemma utf8_beforeBlock : utf8 " \x7b\n" = [32, 123, 10] := rfl

lemma utf8_afterBlock : utf8 "\x7d\n" = [125, 10] := rfl

lemma spells_pieces {es : List Entry} {depth : Nat}
    (h : ∀ e ∈ es, Spells ((e.pieces depth).flatMap utf8) e.tokens) :
    Spells ((piecesAll depth es).flatMap utf8) (tokensOf es) := by
  induction es with
  | nil => exact .nil
  | cons e es ih =>
    rw [piecesAll, tokensOf, List.flatMap_append]
    exact (h e (by simp)).append (ih fun d hd => h d (by simp [hd]))

/-- The pieces of an entry that fits the schema spell its tokens. -/
theorem Entry.Fits.spells {k : Kind} {e : Entry} (spelled : S.ChoicesSpelled) (h : e.Fits S k)
    (depth : Nat) : Spells ((e.pieces depth).flatMap utf8) e.tokens := by
  induction h generalizing depth with
  | text named shape => exact (Line.text shape).spells named depth
  | flag named shape => exact (Line.flag shape).spells named depth
  | choice named shape listed => exact (Line.choice spelled named shape listed).spells named depth
  | @record k k' f fields named shape inside once ih =>
    have hopen : Spells (utf8 f.name ++ [32, 123, 10]) [.word f.name, .opening .brace] :=
      .word (isWord_of_isFieldName named.2) rfl
        ((Spells.space rfl).append (Spells.opening.append (.space rfl)))
    have hbody := spells_pieces fun e he => ih e he (depth + 1)
    have hclose : Spells [125, 10] [.closing .brace] := Spells.closing.append (.space rfl)
    have hindent := spells_indentation depth
    have hblock := (hindent.append hopen).append (hbody.append (hindent.append hclose))
    simpa [pieces, tokens, utf8_beforeBlock, utf8_afterBlock] using hblock

lemma Schema.Once.of_snoc {k : Kind} {es : List Entry} {e : Entry} (h : S.Once k (es ++ [e])) :
    S.Once k es ∧ (S.isScalar k e.name = true → hasField e.name es = false) := by
  refine ⟨h.of_append, fun hs => ?_⟩
  have hle := h e.name hs
  rw [entriesNamed_append, List.length_append] at hle
  have hself : (entriesNamed e.name [e]).length = 1 := by simp [entriesNamed]
  have hnone : entriesNamed e.name es = [] := List.length_eq_zero_iff.1 (by omega)
  simpa [entriesNamed, hasField] using hnone

def Continues (S : Schema Kind) (k : Kind) (e : Entry) : Prop :=
  ∀ {separable : Bool} {ts : List Token} {es : List Entry}, Body S k separable ts es →
    (S.isScalar k e.name = true → hasField e.name es = false) →
    Body S k true (ts ++ e.tokens) (es ++ [e])

lemma derives_tokensOf {k : Kind} {es : List Entry} (h : ∀ e ∈ es, Continues S k e)
    (once : S.Once k es) : Derives S k (tokensOf es) es := by
  induction es using List.reverseRecOn with
  | nil => exact ⟨false, .empty⟩
  | append_singleton es e ih =>
    obtain ⟨hes, he⟩ := once.of_snoc
    obtain ⟨separable, body⟩ := ih (fun d hd => h d (by simp [hd])) hes
    refine ⟨true, ?_⟩
    have hlast := h e (by simp) body he
    simpa [tokensOf_append, tokensOf] using hlast

theorem Entry.Fits.continues {k : Kind} {e : Entry} (h : e.Fits S k) : Continues S k e := by
  induction h with
  | text named shape =>
    intro separable ts es before once
    exact before.value named (.literal shape) fun hs => once (named.isScalar_eq.trans hs)
  | flag named shape =>
    intro separable ts es before once
    exact before.value named (.printedFlag shape) fun hs => once (named.isScalar_eq.trans hs)
  | choice named shape listed =>
    intro separable ts es before once
    exact before.value named (.choice shape listed) fun hs => once (named.isScalar_eq.trans hs)
  | record named shape inside once ih =>
    intro separable ts es before _
    obtain ⟨_, body⟩ := derives_tokensOf ih once
    exact before.block named shape (.inl rfl) body

lemma spells_render {k : Kind} {es : List Entry} (spelled : S.ChoicesSpelled)
    (h : ∀ e ∈ es, e.Fits S k) : Spells (utf8 (render es)) (tokensOf es) := by
  rw [render, utf8_join]
  exact spells_pieces fun e he => (h e he).spells spelled 0

/-- Printed entries are a text that tokenizes to a body of these entries. -/
theorem scan_render {k : Kind} {es : List Entry} (spelled : S.ChoicesSpelled) (h : S.Fits k es) :
    ∃ p, (scan (render es)).ending = .finished p ∧
      Derives S k ((scan (render es)).tokens.map Placed.token) es := by
  obtain ⟨p, ps, hps, hscan⟩ := (spells_render spelled h.1).scan_eq
  rw [hscan, hps]
  exact ⟨p, rfl, derives_tokensOf (fun e he => (h.1 e he).continues) h.2⟩

end ToolchainRelease.Text
