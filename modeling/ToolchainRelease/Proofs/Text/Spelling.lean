import Mathlib.Tactic.Common
import ToolchainRelease.Text.Scanner
import ToolchainRelease.Text.Writer

/-! Bytes that spell tokens wherever they stand between two tokens. -/
namespace ToolchainRelease.Text

/-- From a place between tokens, the scanner reads these tokens and is between tokens again. -/
def Spells (bs : List UInt8) (tokens : List Token) : Prop :=
  ∀ (p : Position) (ts : List Placed), ∃ ps : List Placed, ps.map Placed.token = tokens ∧
    (Scanner.mk .blank p ts).feedAll bs = ⟨.blank, p.advanceAll bs, ps.reverse ++ ts⟩

/-- So read, the first of the tokens stands at the place where the bytes begin. -/
def SpellsAt (bs : List UInt8) (t : Token) (tokens : List Token) : Prop :=
  ∀ (p : Position) (ts : List Placed), ∃ ps : List Placed, ps.map Placed.token = tokens ∧
    (Scanner.mk .blank p ts).feedAll bs =
      ⟨.blank, p.advanceAll bs, ps.reverse ++ ⟨t, p⟩ :: ts⟩

lemma SpellsAt.spells {bs : List UInt8} {t : Token} {xs : List Token} (h : SpellsAt bs t xs) :
    Spells bs (t :: xs) := by
  intro p ts
  obtain ⟨ps, hps, hfeed⟩ := h p ts
  exact ⟨⟨t, p⟩ :: ps, by rw [List.map_cons, hps], by simp [hfeed]⟩

lemma SpellsAt.append {as bs : List UInt8} {t : Token} {xs ys : List Token}
    (ha : SpellsAt as t xs) (hb : Spells bs ys) : SpellsAt (as ++ bs) t (xs ++ ys) := by
  intro p ts
  obtain ⟨ps, hps, has⟩ := ha p ts
  obtain ⟨qs, hqs, hbs⟩ := hb (p.advanceAll as) (ps.reverse ++ ⟨t, p⟩ :: ts)
  refine ⟨ps ++ qs, by rw [List.map_append, hps, hqs], ?_⟩
  rw [Scanner.feedAll_append, has, hbs, Position.advanceAll_append, List.reverse_append,
    List.append_assoc]

namespace Spells

variable {as bs : List UInt8} {xs ys : List Token}

lemma nil : Spells [] [] := fun _ _ => ⟨[], rfl, rfl⟩

lemma append (ha : Spells as xs) (hb : Spells bs ys) : Spells (as ++ bs) (xs ++ ys) := by
  intro p ts
  obtain ⟨ps, hps, has⟩ := ha p ts
  obtain ⟨qs, hqs, hbs⟩ := hb (p.advanceAll as) (ps.reverse ++ ts)
  refine ⟨ps ++ qs, by rw [List.map_append, hps, hqs], ?_⟩
  rw [Scanner.feedAll_append, has, hbs, Position.advanceAll_append, List.reverse_append,
    List.append_assoc]

lemma flatMap {α : Type} {f : α → List UInt8} {g : α → List Token} {l : List α}
    (h : ∀ a ∈ l, Spells (f a) (g a)) : Spells (l.flatMap f) (l.flatMap g) := by
  induction l with
  | nil => exact nil
  | cons a l ih =>
    rw [List.flatMap_cons, List.flatMap_cons]
    exact (h a (by simp)).append (ih fun b hb => h b (by simp [hb]))

lemma close_blank (p : Position) (ts : List Placed) :
    (Scanner.mk .blank p ts).close = ⟨ts.reverse, .finished p⟩ := by
  simp [Scanner.close, Mode.close]

lemma scan_eq {text : String} (h : Spells (utf8 text) xs) :
    ∃ (p : Position) (ps : List Placed),
      ps.map Placed.token = xs ∧ scan text = ⟨ps, .finished p⟩ := by
  obtain ⟨ps, hps, hscan⟩ := h .start []
  refine ⟨Position.start.advanceAll (utf8 text), ps, hps, ?_⟩
  rw [scan, Scanner.start, hscan, close_blank]
  simp

lemma single {b : UInt8} {x : List Token}
    (h : ∀ p, ∃ ps : List Placed, ps.map Placed.token = x ∧ Mode.begin p b = (ps, .blank)) :
    Spells [b] x := by
  intro p ts
  obtain ⟨ps, hps, hb⟩ := h p
  refine ⟨ps, hps, ?_⟩
  simp only [Scanner.feedAll_cons, Scanner.feedAll_nil, Scanner.feed, Mode.step, hb]
  rfl

lemma space {b : UInt8} (h : isSpace b = true) : Spells [b] [] :=
  single fun _ => ⟨[], rfl, by simp [Mode.begin, h]⟩

lemma colon : Spells [58] [.colon] := single fun p => ⟨[⟨.colon, p⟩], rfl, rfl⟩

lemma opening : Spells [123] [.opening .brace] := single fun p => ⟨[⟨.opening .brace, p⟩], rfl, rfl⟩

lemma closing : Spells [125] [.closing .brace] := single fun p => ⟨[⟨.closing .brace, p⟩], rfl, rfl⟩

end Spells

def IsWord (w : String) : Prop := utf8 w ≠ [] ∧ ∀ b ∈ utf8 w, isWordByte b = true

lemma begin_word {b : UInt8} (h : isWordByte b = true) (p : Position) :
    Mode.begin p b = ([], .word p [b]) := by
  have hne (c : UInt8) (hc : isWordByte c = false) : b ≠ c := by
    rintro rfl
    exact Bool.noConfusion (h.symm.trans hc)
  simp only [Mode.begin, isSpace, hne 32 rfl, hne 9 rfl, hne 13 rfl, hne 10 rfl, hne 35 rfl,
    hne 58 rfl, hne 44 rfl, hne 59 rfl, hne 123 rfl, hne 125 rfl, hne 60 rfl, hne 62 rfl,
    hne 34 rfl, hne 39 rfl, h, decide_false, Bool.or_self, if_true, if_false]
  rfl

lemma feedAll_inWord {bs : List UInt8} (h : ∀ b ∈ bs, isWordByte b = true) (start p : Position)
    (read : List UInt8) (ts : List Placed) :
    (Scanner.mk (.word start read) p ts).feedAll bs =
      ⟨.word start (bs.reverse ++ read), p.advanceAll bs, ts⟩ := by
  induction bs generalizing p read with
  | nil => rfl
  | cons b bs ih =>
    have hb : (Scanner.mk (.word start read) p ts).feed b =
        ⟨.word start (b :: read), p.advance b, ts⟩ := by
      simp [Scanner.feed, Mode.step, h b (by simp)]
    rw [Scanner.feedAll_cons, hb, ih fun c hc => h c (by simp [hc])]
    simp [Position.advanceAll_cons]

lemma feedAll_word {w : String} (h : IsWord w) (p : Position) (ts : List Placed) :
    (Scanner.mk .blank p ts).feedAll (utf8 w) =
      ⟨.word p (utf8 w).reverse, p.advanceAll (utf8 w), ts⟩ := by
  obtain ⟨hne, hword⟩ := h
  obtain ⟨b, bs, hbs⟩ := List.exists_cons_of_ne_nil hne
  rw [hbs] at hword ⊢
  have hb : (Scanner.mk .blank p ts).feed b = ⟨.word p [b], p.advance b, ts⟩ := by
    simp [Scanner.feed, Mode.step, begin_word (hword b (by simp))]
  rw [Scanner.feedAll_cons, hb, feedAll_inWord fun c hc => hword c (by simp [hc])]
  simp [Position.advanceAll_cons]

lemma wordToken_utf8 {w : String} (h : IsWord w) (p : Position) :
    wordToken p (utf8 w).reverse = ⟨.word w, p⟩ := by
  rw [wordToken, List.reverse_reverse, ofAscii_utf8 fun b hb => isWordByte_lt (h.2 b hb)]

/-- The byte after a word is read as if the word had been complete before it. -/
lemma feed_after_word {b : UInt8} (h : isWordByte b = false) (start p : Position)
    (read : List UInt8) (ts : List Placed) :
    (Scanner.mk (.word start read) p ts).feed b =
      (Scanner.mk .blank p (wordToken start read :: ts)).feed b := by
  simp [Scanner.feed, Mode.step, h]

lemma SpellsAt.word {w : String} {b : UInt8} {bs : List UInt8} {xs : List Token} (hw : IsWord w)
    (hb : isWordByte b = false) (h : Spells (b :: bs) xs) :
    SpellsAt (utf8 w ++ b :: bs) (.word w) xs := by
  intro p ts
  obtain ⟨ps, hps, hrest⟩ := h (p.advanceAll (utf8 w)) (⟨.word w, p⟩ :: ts)
  refine ⟨ps, hps, ?_⟩
  rw [Scanner.feedAll_append, feedAll_word hw, Scanner.feedAll_cons, feed_after_word hb,
    wordToken_utf8 hw, ← Scanner.feedAll_cons, hrest, Position.advanceAll_append]

lemma Spells.word {w : String} {b : UInt8} {bs : List UInt8} {xs : List Token} (hw : IsWord w)
    (hb : isWordByte b = false) (h : Spells (b :: bs) xs) :
    Spells (utf8 w ++ b :: bs) (.word w :: xs) :=
  (SpellsAt.word hw hb h).spells

end ToolchainRelease.Text
