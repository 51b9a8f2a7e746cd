import ToolchainRelease.Proofs.Text.Lowering

/-! Blank space and comments, which hold no tokens. Comments that stand on lines of their own are a
break: they may follow any text. -/
namespace ToolchainRelease.Text

/-- Blank space and comments, in bytes. A comment reaches to the end of its line, or of the text. -/
inductive Trivia : List UInt8 → Prop
  | nil : Trivia []
  | space {b : UInt8} {bs : List UInt8} (blank : isSpace b = true) (rest : Trivia bs) :
      Trivia (b :: bs)
  | comment {line bs : List UInt8} (oneLine : 10 ∉ line) (rest : Trivia bs) :
      Trivia (35 :: (line ++ 10 :: bs))
  | lastComment {line : List UInt8} (oneLine : 10 ∉ line) : Trivia (35 :: line)

lemma feedAll_inComment {line : List UInt8} (h : 10 ∉ line) (p : Position) (ts : List Placed) :
    (Scanner.mk .comment p ts).feedAll line = ⟨.comment, p.advanceAll line, ts⟩ := by
  induction line generalizing p with
  | nil => rfl
  | cons b line ih =>
    have hb : b ≠ 10 := fun hb => h (by simp [hb])
    have hline : 10 ∉ line := fun hline => h (by simp [hline])
    have hfeed : (Scanner.mk .comment p ts).feed b = ⟨.comment, p.advance b, ts⟩ := by
      simp [Scanner.feed, Mode.step, hb]
    rw [Scanner.feedAll_cons, hfeed, ih hline, Position.advanceAll_cons]

lemma feedAll_comment {line : List UInt8} (h : 10 ∉ line) (p : Position) (ts : List Placed) :
    (Scanner.mk .blank p ts).feedAll (35 :: line) = ⟨.comment, p.advanceAll (35 :: line), ts⟩ :=
  feedAll_inComment h (p.advance 35) ts

lemma Spells.comment {line : List UInt8} (h : 10 ∉ line) : Spells (35 :: (line ++ [10])) [] := by
  intro p ts
  refine ⟨[], rfl, ?_⟩
  rw [← List.cons_append, Scanner.feedAll_append, feedAll_comment h, Position.advanceAll_append]
  rfl

/-- Comment lines with an empty line after them are a break. -/
lemma break_of_comments {first : List UInt8} {lines : List (List UInt8)}
    (h : ∀ line ∈ first :: lines, 10 ∉ line) :
    Break ((first :: lines).flatMap (fun line => 35 :: (line ++ [10])) ++ [10]) := by
  refine ⟨.inr rfl, ?_, List.getLast?_concat⟩
  have hlines := Spells.flatMap (f := fun line => 35 :: (line ++ [10])) (g := fun _ => [])
    fun line hline => Spells.comment (h line hline)
  have hall := hlines.append (Spells.space (b := 10) rfl)
  rwa [List.flatMap_eq_nil_iff.2 fun _ _ => rfl] at hall

namespace Trivia

lemma feedAll {bs : List UInt8} (h : Trivia bs) (p : Position) (ts : List Placed) :
    ∃ m, (m = .blank ∨ m = .comment) ∧
      (Scanner.mk .blank p ts).feedAll bs = ⟨m, p.advanceAll bs, ts⟩ := by
  induction h generalizing p with
  | nil => exact ⟨.blank, .inl rfl, rfl⟩
  | @space b bs blank rest ih =>
    obtain ⟨m, hm, hrest⟩ := ih (p.advanceAll [b])
    refine ⟨m, hm, ?_⟩
    rw [← List.singleton_append, Scanner.feedAll_append, (Spells.space blank).feedAll_nil, hrest,
      Position.advanceAll_append]
  | @comment line bs oneLine rest ih =>
    obtain ⟨m, hm, hrest⟩ := ih (p.advanceAll (35 :: (line ++ [10])))
    refine ⟨m, hm, ?_⟩
    have hbs : 35 :: (line ++ 10 :: bs) = 35 :: (line ++ [10]) ++ bs := by simp
    rw [hbs, Scanner.feedAll_append, (Spells.comment oneLine).feedAll_nil, hrest,
      Position.advanceAll_append]
  | lastComment oneLine => exact ⟨.comment, .inr rfl, feedAll_comment oneLine p ts⟩

theorem scan_eq {text : String} (h : Trivia (utf8 text)) :
    ∃ p, scan text = ⟨[], .finished p⟩ := by
  obtain ⟨m, hm, hfeed⟩ := h.feedAll .start []
  refine ⟨Position.start.advanceAll (utf8 text), ?_⟩
  rw [scan, Scanner.start, hfeed]
  rcases hm with rfl | rfl <;> rfl

end Trivia

end ToolchainRelease.Text
