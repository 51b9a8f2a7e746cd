import ToolchainRelease.Proofs.LiteralValues

/-! Texts that are laid out from tokens, with trivia around them. The scanner reads just such texts
to their end, and reads the tokens that they are laid out from. -/
namespace ToolchainRelease.Text

/-- The line and the column after these bytes, where they begin a text. -/
def placeAfter (bs : List UInt8) : Position :=
  ⟨1 + bs.count 10, 1 + (bs.rtakeWhile (· ≠ 10)).length⟩

lemma start_advanceAll (bs : List UInt8) : Position.start.advanceAll bs = placeAfter bs := by
  have hline := Position.advanceAll_line .start bs
  have hcolumn := Position.column_of_start bs
  rw [placeAfter, ← hcolumn]
  cases hp : Position.start.advanceAll bs with
  | mk line column =>
    rw [hp] at hline
    exact congrArg (Position.mk · column) hline

lemma placeAfter_append (as bs : List UInt8) :
    placeAfter (as ++ bs) = (placeAfter as).advanceAll bs := by
  rw [← start_advanceAll, ← start_advanceAll, Position.advanceAll_append]

def marks : List (UInt8 × Token) :=
  [(58, .colon), (44, .separator), (59, .separator), (123, .opening .brace),
    (125, .closing .brace), (60, .opening .angle), (62, .closing .angle)]

inductive Token.WrittenAs : Token → List UInt8 → Prop
  | word {w : String} (word : IsWord w) : WrittenAs (.word w) (utf8 w)
  | literal {quote : UInt8} {body value : List UInt8} (mark : IsQuote quote)
      (spelled : Spelled quote body value) : WrittenAs (.literal value) (quote :: (body ++ [quote]))
  | mark {b : UInt8} {t : Token} (listed : (b, t) ∈ marks) : WrittenAs t [b]

def Token.isWord : Token → Bool
  | .word _ => true
  | _ => false

/-- These bytes come after the bytes `before` of a text and are laid out from these tokens: trivia
stand around the tokens, and each token is placed where its first byte stands. Between a word and
another word after it there is some trivia; `afterWord` tells whether `before` ends with a word. -/
inductive LaidOut : (afterWord : Bool) → (before bs : List UInt8) → List Placed → Prop
  | last {afterWord : Bool} {before bs : List UInt8} (trivia : Trivia bs) :
      LaidOut afterWord before bs []
  | token {afterWord : Bool} {before gap piece bs : List UInt8} {t : Token} {ts : List Placed}
      (between : Gap gap) (written : t.WrittenAs piece)
      (apart : afterWord = true → t.isWord = true → gap ≠ [])
      (rest : LaidOut t.isWord (before ++ gap ++ piece) bs ts) :
      LaidOut afterWord before (gap ++ (piece ++ bs)) (⟨t, placeAfter (before ++ gap)⟩ :: ts)

lemma isWordByte_of_isSpace {b : UInt8} (h : isSpace b = true) : isWordByte b = false := by
  simp only [isSpace, Bool.or_eq_true, decide_eq_true_eq] at h
  rcases h with ((rfl | rfl) | rfl) | rfl <;> rfl

lemma isWordByte_of_mark {b : UInt8} {t : Token} (h : (b, t) ∈ marks) : isWordByte b = false := by
  have all : ∀ mark ∈ marks, isWordByte mark.1 = false := by decide
  exact all (b, t) h

lemma begin_mark {b : UInt8} {t : Token} (h : (b, t) ∈ marks) (p : Position) :
    Mode.begin p b = ([⟨t, p⟩], .blank) := by
  simp only [marks, List.mem_cons, Prod.mk.injEq, List.not_mem_nil, or_false] at h
  rcases h with ⟨rfl, rfl⟩ | ⟨rfl, rfl⟩ | ⟨rfl, rfl⟩ | ⟨rfl, rfl⟩ | ⟨rfl, rfl⟩ | ⟨rfl, rfl⟩ |
    ⟨rfl, rfl⟩ <;> rfl

/-- A byte between two tokens is trivia, begins trivia or a token, or is at fault. -/
lemma begin_cases (b : UInt8) (p : Position) :
    isSpace b = true ∨ b = 35 ∨ (∃ t, (b, t) ∈ marks) ∨ IsQuote b ∨ isWordByte b = true ∨
      Mode.begin p b = ([], .failed p ⟨p, .unexpectedCharacter b⟩) := by
  by_cases hspace : isSpace b = true
  · exact .inl hspace
  by_cases hcomment : b = 35
  · exact .inr (.inl hcomment)
  by_cases hmark : ∃ t, (b, t) ∈ marks
  · exact .inr (.inr (.inl hmark))
  by_cases hquote : IsQuote b
  · exact .inr (.inr (.inr (.inl hquote)))
  by_cases hword : isWordByte b = true
  · exact .inr (.inr (.inr (.inr (.inl hword))))
  simp only [marks, List.mem_cons, Prod.mk.injEq, List.not_mem_nil, or_false, not_exists,
    not_or, not_and] at hmark
  have hne : b ≠ 58 ∧ b ≠ 44 ∧ b ≠ 59 ∧ b ≠ 123 ∧ b ≠ 125 ∧ b ≠ 60 ∧ b ≠ 62 := by
    refine ⟨?_, ?_, ?_, ?_, ?_, ?_, ?_⟩
    all_goals
      rintro rfl
      simp at hmark
  refine .inr (.inr (.inr (.inr (.inr ?_))))
  simp only [IsQuote, not_or] at hquote
  simp [Mode.begin, hspace, hcomment, hne, hquote, hword]

lemma close_after_word {bs : List UInt8} (h : ∀ b ∈ bs.head?, isWordByte b = false)
    (start p : Position) (read : List UInt8) (ts : List Placed) :
    ((Scanner.mk (.word start read) p ts).feedAll bs).close =
      ((Scanner.mk .blank p (wordToken start read :: ts)).feedAll bs).close := by
  cases bs with
  | nil => simp [Scanner.feedAll_nil, Scanner.close, Mode.close]
  | cons b bs => rw [Scanner.feedAll_cons, feed_after_word (h b rfl), Scanner.feedAll_cons]

lemma Token.WrittenAs.close_feedAll {t : Token} {piece bs : List UInt8} (h : t.WrittenAs piece)
    (ends : t.isWord = true → ∀ b ∈ bs.head?, isWordByte b = false) (p : Position)
    (ts : List Placed) :
    ((Scanner.mk .blank p ts).feedAll (piece ++ bs)).close =
      ((Scanner.mk .blank (p.advanceAll piece) (⟨t, p⟩ :: ts)).feedAll bs).close := by
  rw [Scanner.feedAll_append]
  cases h with
  | word word =>
    rw [feedAll_word word, close_after_word (ends rfl), wordToken_utf8 word]
  | literal mark spelled =>
    obtain ⟨ps, hps, hfeed⟩ := SpellsAt.literal mark spelled p ts
    obtain rfl := List.map_eq_nil_iff.1 hps
    rw [hfeed]
    rfl
  | mark listed =>
    rw [Scanner.feedAll_cons, Scanner.feedAll_nil, Scanner.feed, Mode.step, begin_mark listed]
    rfl

/-- What comes after a word is not taken for a part of it. -/
lemma LaidOut.head_after_word {before bs : List UInt8} {ts : List Placed}
    (h : LaidOut true before bs ts) : ∀ b ∈ bs.head?, isWordByte b = false := by
  intro b hb
  cases h with
  | last trivia =>
    cases trivia with
    | nil => cases hb
    | space blank =>
      cases hb
      exact isWordByte_of_isSpace blank
    | comment =>
      cases hb
      rfl
    | lastComment =>
      cases hb
      rfl
  | @token _ _ gap piece bs t ts between written apart rest =>
    cases between with
    | nil =>
      cases written with
      | word => exact absurd rfl (apart rfl rfl)
      | literal mark =>
        cases hb
        rcases mark with rfl | rfl <;> rfl
      | mark listed =>
        cases hb
        exact isWordByte_of_mark listed
    | space blank =>
      cases hb
      exact isWordByte_of_isSpace blank
    | comment =>
      cases hb
      rfl

/-- What is laid out from tokens is read to its end as these tokens, each at its place. -/
theorem LaidOut.close_feedAll {afterWord : Bool} {before bs : List UInt8} {ts : List Placed}
    (h : LaidOut afterWord before bs ts) (read : List Placed) :
    ((Scanner.mk .blank (placeAfter before) read).feedAll bs).close =
      ⟨read.reverse ++ ts, .finished (placeAfter (before ++ bs))⟩ := by
  induction h generalizing read with
  | @last _ before bs trivia =>
    obtain ⟨m, hm, hfeed⟩ := trivia.feedAll (placeAfter before) read
    rw [hfeed, placeAfter_append]
    rcases hm with rfl | rfl <;> simp [Scanner.close, Mode.close]
  | @token _ before gap piece bs t ts between written apart rest ih =>
    have ends : t.isWord = true → ∀ b ∈ bs.head?, isWordByte b = false := by
      intro hword
      rw [hword] at rest
      exact rest.head_after_word
    have hrest := ih (⟨t, placeAfter (before ++ gap)⟩ :: read)
    rw [Scanner.feedAll_append, between.spells.feedAll_nil, ← placeAfter_append,
      written.close_feedAll ends, ← placeAfter_append, hrest]
    simp

/-- A word stands where it is placed, and the byte after it is not one for words. -/
lemma LaidOut.longest_word {afterWord : Bool} {before bs : List UInt8} {ts : List Placed}
    (h : LaidOut afterWord before bs ts) {w : String} {p : Position} (hmem : ⟨.word w, p⟩ ∈ ts) :
    ∃ left right, before ++ bs = left ++ (utf8 w ++ right) ∧ p = placeAfter left ∧
      ∀ b ∈ right.head?, isWordByte b = false := by
  induction h with
  | last => cases hmem
  | @token _ before gap piece bs t ts between written apart rest ih =>
    rcases List.mem_cons.1 hmem with hfirst | hlater
    · cases hfirst
      cases written with
      | word => exact ⟨before ++ gap, bs, by simp, rfl, rest.head_after_word⟩
      | mark listed =>
        have all : ∀ mark ∈ marks, mark.2.isWord = false := by decide
        cases all _ listed
    · obtain ⟨left, right, hsplit, hplace, hend⟩ := ih hlater
      exact ⟨left, right, by simpa using hsplit, hplace, hend⟩

lemma Gap.append {as bs : List UInt8} (has : Gap as) (hbs : Gap bs) : Gap (as ++ bs) := by
  induction has with
  | nil => exact hbs
  | space blank _ ih => exact .space blank ih
  | comment oneLine _ ih =>
    rw [List.append_assoc]
    exact .comment oneLine ih

lemma Gap.trivia_append {as bs : List UInt8} (has : Gap as) (hbs : Trivia bs) :
    Trivia (as ++ bs) := by
  induction has with
  | nil => exact hbs
  | space blank _ ih => exact .space blank ih
  | comment oneLine _ ih =>
    have hline := Trivia.comment oneLine ih
    simpa using hline

/-- Trivia may be put before what is laid out, and keep it apart from a word. -/
lemma LaidOut.after_gap {afterWord : Bool} {before as bs : List UInt8} {ts : List Placed}
    (has : Gap as) (hne : as ≠ []) (h : LaidOut false (before ++ as) bs ts) :
    LaidOut afterWord before (as ++ bs) ts := by
  cases h with
  | last trivia => exact .last (has.trivia_append trivia)
  | @token _ _ gap piece bs t ts between written apart rest =>
    have hbefore : before ++ as ++ gap = before ++ (as ++ gap) := List.append_assoc ..
    rw [hbefore] at rest ⊢
    rw [← List.append_assoc]
    refine .token (has.append between) written (fun _ _ hnil => hne ?_) rest
    exact (List.append_eq_nil_iff.1 hnil).1

lemma Scanner.close_feedAll_tokens (p : Position) (ts : List Placed) (bs : List UInt8) :
    ((Scanner.mk .blank p ts).feedAll bs).close =
      ⟨ts.reverse ++ ((Scanner.mk .blank p []).feedAll bs).close.tokens,
        ((Scanner.mk .blank p []).feedAll bs).close.ending⟩ := by
  have hposition := Scanner.feedAll_position (Scanner.mk .blank p []) bs
  rw [Scanner.feedAll_tokens]
  simp [Scanner.close, hposition]

lemma exists_word {b : UInt8} (h : isWordByte b = true) (bs : List UInt8) :
    ∃ w rest, IsWord w ∧ b :: bs = utf8 w ++ rest ∧ ∀ c ∈ rest.head?, isWordByte c = false := by
  let piece := (b :: bs).takeWhile isWordByte
  have hpiece : ∀ c ∈ piece, isWordByte c = true := fun c hc => List.mem_takeWhile_imp hc
  have hutf8 : utf8 (ofAscii piece) = piece := utf8_ofAscii fun c hc => isWordByte_lt (hpiece c hc)
  refine ⟨ofAscii piece, (b :: bs).dropWhile isWordByte, ?_, ?_, fun c hc => ?_⟩
  · rw [IsWord, hutf8]
    exact ⟨by simp [piece, h], hpiece⟩
  · rw [hutf8, List.takeWhile_append_dropWhile]
  · have hhead := List.head?_dropWhile_not isWordByte (b :: bs)
    rw [hc] at hhead
    simpa using hhead

section Converse

variable {afterWord : Bool} {before bs : List UInt8} {ts : List Placed} {q : Position}

def ReadsTo (before bs : List UInt8) (ts : List Placed) (q : Position) : Prop :=
  ((Scanner.mk .blank (placeAfter before) []).feedAll bs).close = ⟨ts, .finished q⟩

/-- All shorter texts that are read to their end are laid out from their tokens. -/
def LaidOutBelow (n : Nat) : Prop :=
  ∀ (afterWord : Bool) (before bs : List UInt8) (ts : List Placed) (q : Position), bs.length < n →
    (afterWord = true → ∀ b ∈ bs.head?, isWordByte b = false) → ReadsTo before bs ts q →
    LaidOut afterWord before bs ts

lemma laidOut_of_gap (as : List UInt8) (below : LaidOutBelow (as ++ bs).length) (has : Gap as)
    (hne : as ≠ []) (h : ReadsTo before (as ++ bs) ts q) :
    LaidOut afterWord before (as ++ bs) ts := by
  have hlength : bs.length < (as ++ bs).length := by
    have := List.length_pos_iff.2 hne
    rw [List.length_append]
    omega
  have hrest : ReadsTo (before ++ as) bs ts q := by
    rw [ReadsTo, Scanner.feedAll_append, has.spells.feedAll_nil, ← placeAfter_append] at h
    exact h
  exact .after_gap has hne (below false _ bs ts q hlength (by simp) hrest)

lemma laidOut_of_token {t : Token} (piece : List UInt8) (below : LaidOutBelow (piece ++ bs).length)
    (written : t.WrittenAs piece) (ends : t.isWord = true → ∀ b ∈ bs.head?, isWordByte b = false)
    (apart : afterWord = true → t.isWord = false) (h : ReadsTo before (piece ++ bs) ts q) :
    LaidOut afterWord before (piece ++ bs) ts := by
  have hne : piece ≠ [] := by
    cases written with
    | word word => exact word.1
    | literal => exact List.cons_ne_nil _ _
    | mark => exact List.cons_ne_nil _ _
  have hlength : bs.length < (piece ++ bs).length := by
    have := List.length_pos_iff.2 hne
    rw [List.length_append]
    omega
  rw [ReadsTo, written.close_feedAll ends, ← placeAfter_append,
    Scanner.close_feedAll_tokens] at h
  have htokens := congrArg Scan.tokens h
  have hending := congrArg Scan.ending h
  simp only at htokens hending
  have hrest := below t.isWord (before ++ piece) bs _ q hlength ends
    (congrArg (Scan.mk _) hending)
  have hfirst : LaidOut afterWord before ([] ++ (piece ++ bs)) _ :=
    .token .nil written (fun haw hword => ?_) (by simpa using hrest)
  · rw [← htokens]
    rw [List.append_nil] at hfirst
    exact hfirst
  · rw [apart haw] at hword
    cases hword

/-- What is read to its end is laid out from the tokens that were read. -/
theorem laidOut_of_reads (afterWord : Bool) (before bs : List UInt8) (ts : List Placed)
    (q : Position) (ends : afterWord = true → ∀ b ∈ bs.head?, isWordByte b = false)
    (h : ReadsTo before bs ts q) : LaidOut afterWord before bs ts := by
  -- On the length, since a comment, a word or a literal is read as a whole.
  induction hn : bs.length using Nat.strong_induction_on generalizing afterWord before bs ts q with
  | h n ih =>
    have below : LaidOutBelow bs.length := by
      intro afterWord' before' bs' ts' q' hlt ends' h'
      exact ih _ (hn ▸ hlt) afterWord' before' bs' ts' q' ends' h' rfl
    clear ih hn
    cases bs with
    | nil =>
      obtain rfl : ts = [] := (congrArg Scan.tokens h).symm
      exact .last .nil
    | cons b bs =>
      rcases begin_cases b (placeAfter before) with hspace | rfl | ⟨t, hmark⟩ | hquote | hword |
        hfailed
      · exact laidOut_of_gap [b] below (.space hspace .nil) (List.cons_ne_nil b []) h
      · by_cases hline : 10 ∈ bs
        · obtain ⟨line, rest, rfl, honeLine⟩ := List.eq_append_cons_of_mem hline
          have hgap : Gap (35 :: (line ++ [10]) ++ []) := .comment honeLine .nil
          have hsplit : 35 :: (line ++ 10 :: rest) = 35 :: (line ++ [10]) ++ [] ++ rest := by simp
          rw [hsplit] at below h ⊢
          exact laidOut_of_gap _ below hgap (by simp) h
        · rw [ReadsTo, feedAll_comment hline] at h
          obtain rfl : ts = [] := (congrArg Scan.tokens h).symm
          exact .last (.lastComment hline)
      · have hother : t.isWord = false := by
          have all : ∀ mark ∈ marks, mark.2.isWord = false := by decide
          exact all (b, t) hmark
        have written : t.WrittenAs [b] := .mark hmark
        exact laidOut_of_token [b] below written (by simp [hother]) (fun _ => hother) h
      · rcases Scanner.exists_literal_or_fault b (placeAfter before) bs with
          ⟨body, value, after, rfl, spelled⟩ | ⟨f, hfault⟩
        · have hsplit : b :: (body ++ b :: after) = b :: (body ++ [b]) ++ after := by simp
          have written : (Token.literal value).WrittenAs (b :: (body ++ [b])) :=
            .literal hquote spelled
          rw [hsplit] at below h ⊢
          exact laidOut_of_token _ below written (by simp [Token.isWord]) (fun _ => rfl) h
        · rw [ReadsTo, hfault.broken hquote] at h
          cases congrArg Scan.ending h
      · obtain ⟨w, rest, isWord, hsplit, hrest⟩ := exists_word hword bs
        have apart : afterWord = true → (Token.word w).isWord = false := by
          intro haw
          rw [ends haw b rfl] at hword
          cases hword
        rw [hsplit] at below h ⊢
        exact laidOut_of_token _ below (.word isWord) (fun _ => hrest) apart h
      · have hfirst : ∀ c ∈ (b :: bs).head?, Mode.blank.step (placeAfter before) c = ([],
            .failed (placeAfter before) ⟨placeAfter before, .unexpectedCharacter b⟩) := by
          intro c hc
          cases hc
          exact hfailed
        have hbroken : ((Scanner.mk .blank (placeAfter before) []).feedAll (b :: bs)).close =
            ⟨[], .broken (placeAfter before) ⟨placeAfter before, .unexpectedCharacter b⟩⟩ :=
          close_feedAll_broken hfirst nofun
        rw [ReadsTo, hbroken] at h
        cases congrArg Scan.ending h

end Converse

/-- A text is scanned to its end exactly if it is laid out from tokens, and then these are its
tokens. -/
theorem scan_eq_iff_laidOut {text : String} {ts : List Placed} {q : Position} :
    scan text = ⟨ts, .finished q⟩ ↔
      LaidOut false [] (utf8 text) ts ∧ q = placeAfter (utf8 text) := by
  have hstart : placeAfter [] = Position.start := rfl
  constructor
  · intro h
    have hreads : ReadsTo [] (utf8 text) ts q := h
    have hlaid : LaidOut false [] (utf8 text) ts :=
      laidOut_of_reads false [] (utf8 text) ts q (by simp) hreads
    refine ⟨hlaid, ?_⟩
    have hclose := hlaid.close_feedAll []
    rw [hreads] at hclose
    cases congrArg Scan.ending hclose
    rfl
  · rintro ⟨hlaid, rfl⟩
    exact hlaid.close_feedAll []

end ToolchainRelease.Text
