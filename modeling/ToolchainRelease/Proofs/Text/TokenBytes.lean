import Mathlib.Data.List.DropRight
import ToolchainRelease.Proofs.Text.Literal
import ToolchainRelease.Proofs.Text.TokenStarts

/-! The bytes that stand at the place of a token, and at the place of what cannot be read as one. A
place tells how many newlines are before it, and how many bytes are between it and the last. -/
namespace ToolchainRelease.Text

namespace Position

/-- A column counts the bytes since the last newline. -/
theorem column_of_start (bs : List UInt8) :
    (start.advanceAll bs).column = 1 + (bs.rtakeWhile (· ≠ 10)).length := by
  induction bs using List.reverseRecOn with
  | nil => rfl
  | append_singleton bs b ih =>
    rw [advanceAll_append, advanceAll_cons, advanceAll_nil]
    by_cases hb : b = 10
    · subst hb
      simp [advance]
    · have hcolumn : ((start.advanceAll bs).advance b).column =
          (start.advanceAll bs).column + 1 := by simp [advance, hb]
      rw [List.rtakeWhile_concat_pos _ _ _ (by simpa using hb), List.length_append, hcolumn, ih,
        List.length_singleton, Nat.add_assoc]

end Position

def isEscapeLetter (b : UInt8) : Bool :=
  (namedEscape? b).isSome || (octalDigit? b).isSome || b = 120 || b = 88

/-- What may stand between the quotes of a literal. A newline may not, and a quote like the first
one only in an escape. -/
inductive Unclosed (quote : UInt8) : List UInt8 → Prop
  | nil : Unclosed quote []
  | plain {bs : List UInt8} {b : UInt8} (before : Unclosed quote bs) (newline : b ≠ 10)
      (backslash : b ≠ 92) (other : b ≠ quote) : Unclosed quote (bs ++ [b])
  | escape {bs : List UInt8} {b : UInt8} (before : Unclosed quote bs)
      (letter : isEscapeLetter b = true) : Unclosed quote (bs ++ [92, b])

inductive Token.Spelling : Token → List UInt8 → Prop
  | word {w : String} (word : IsWord w) : Spelling (.word w) (utf8 w)
  | literal {quote : UInt8} {body bytes : List UInt8} (mark : IsQuote quote)
      (inside : Unclosed quote body) : Spelling (.literal bytes) (quote :: (body ++ [quote]))
  | colon : Spelling .colon [58]
  | comma : Spelling .separator [44]
  | semicolon : Spelling .separator [59]
  | openingBrace : Spelling (.opening .brace) [123]
  | openingAngle : Spelling (.opening .angle) [60]
  | closingBrace : Spelling (.closing .brace) [125]
  | closingAngle : Spelling (.closing .angle) [62]

def BeginsToken (b : UInt8) : Prop := ∃ (t : Token) (rest : List UInt8), t.Spelling (b :: rest)

/-- What follows a backslash, and why it is no escape. -/
inductive BadEscape : List UInt8 → Cause → Prop
  | octal {digits after : List UInt8} (octal : ∀ d ∈ digits, (octalDigit? d).isSome = true)
      (few : digits.length ≤ 3) (large : 256 ≤ octalValue digits) :
      BadEscape (digits ++ after) .octalOutOfRange
  | hex {b : UInt8} {after : List UInt8} (letter : b = 120 ∨ b = 88)
      (digitless : ∀ d ∈ after.head?, hexDigit? d = none) :
      BadEscape (b :: after) .hexWithoutDigits
  | unknown {b : UInt8} {after : List UInt8} (letter : isEscapeLetter b = false) :
      BadEscape (b :: after) (.invalidEscape b)

/-- What stands after `before` where a token cannot be read that begins at `start`: a byte that no
token begins with, the quote of a literal that a newline or the end of the text cuts short, or an
escape inside a literal. -/
inductive Unreadable (start : Position) (before : List UInt8) : List UInt8 → Cause → Prop
  | character {b : UInt8} {after : List UInt8} (here : Position.start.advanceAll before = start)
      (none : ¬BeginsToken b) (space : isSpace b = false) (comment : b ≠ 35) :
      Unreadable start before (b :: after) (.unexpectedCharacter b)
  | literal {quote : UInt8} {body after : List UInt8}
      (here : Position.start.advanceAll before = start) (mark : IsQuote quote)
      (inside : Unclosed quote body)
      (cut : after = [] ∨ after = [92] ∨ ∃ more, after = 10 :: more) :
      Unreadable start before (quote :: (body ++ after)) .unterminatedLiteral
  | escape {outside body after : List UInt8} {quote : UInt8} {c : Cause}
      (here : Position.start.advanceAll outside = start) (mark : IsQuote quote)
      (inside : Unclosed quote body) (split : before = outside ++ quote :: body)
      (bad : BadEscape after c) : Unreadable start before (92 :: after) c

/-- A token stands at its place in the bytes. -/
def Stands (bs : List UInt8) (t : Placed) : Prop :=
  ∃ before piece after, bs = before ++ (piece ++ after) ∧
    Position.start.advanceAll before = t.position ∧ t.token.Spelling piece

lemma Stands.append {bs : List UInt8} {t : Placed} (h : Stands bs t) (more : List UInt8) :
    Stands (bs ++ more) t := by
  obtain ⟨before, piece, after, rfl, hplace, hpiece⟩ := h
  exact ⟨before, piece, after ++ more, by simp, hplace, hpiece⟩

/-- A token cannot be read that begins at `start`, for what stands at the place of the fault. -/
def FaultyAt (bs : List UInt8) (start : Position) (f : Fault) : Prop :=
  ∃ before after, bs = before ++ after ∧ Position.start.advanceAll before = f.position ∧
    Unreadable start before after f.cause

def Fails (bs : List UInt8) (start : Position) (f : Fault) : Prop :=
  ∀ more, FaultyAt (bs ++ more) start f

lemma Fails.append {bs : List UInt8} {start : Position} {f : Fault} (h : Fails bs start f)
    (more : List UInt8) : Fails (bs ++ more) start f := by
  intro further
  rw [List.append_assoc]
  exact h (more ++ further)

def Within (l : OpenLiteral) (bs : List UInt8) : Prop :=
  IsQuote l.quote ∧ ∃ outside body, bs = outside ++ l.quote :: body ∧
    Position.start.advanceAll outside = l.start ∧ Unclosed l.quote body

/-- An escape of the literal begins at `start`, and the bytes `escape` of it have been read. -/
def EscapeAt (l : OpenLiteral) (start : Position) (bs : List UInt8) (escape : List UInt8) : Prop :=
  ∃ before, Within l before ∧ Position.start.advanceAll before = start ∧ bs = before ++ escape

namespace Within

variable {bs : List UInt8} {b : UInt8} {l : OpenLiteral}

lemma plain (h : Within l bs) (newline : b ≠ 10) (backslash : b ≠ 92) (other : b ≠ l.quote) :
    Within l (bs ++ [b]) := by
  obtain ⟨mark, outside, body, rfl, here, inside⟩ := h
  exact ⟨mark, outside, body ++ [b], by simp, here, inside.plain newline backslash other⟩

lemma escape (h : Within l bs) (letter : isEscapeLetter b = true) :
    Within l (bs ++ [92] ++ [b]) := by
  obtain ⟨mark, outside, body, rfl, here, inside⟩ := h
  exact ⟨mark, outside, body ++ [92, b], by simp, here, inside.escape letter⟩

lemma token_stands (h : Within l bs) : Stands (bs ++ [l.quote]) l.token := by
  obtain ⟨mark, outside, body, rfl, here, inside⟩ := h
  exact ⟨outside, _, [], by simp, here, .literal mark inside⟩

lemma unterminated {after : List UInt8} (h : Within l bs)
    (cut : after = [] ∨ after = [92] ∨ ∃ more, after = 10 :: more) :
    FaultyAt (bs ++ after) l.start ⟨l.start, .unterminatedLiteral⟩ := by
  obtain ⟨mark, outside, body, rfl, here, inside⟩ := h
  exact ⟨outside, _, by simp, here, .literal here mark inside cut⟩

lemma fails_newline (h : Within l bs) :
    Fails (bs ++ [10]) l.start ⟨l.start, .unterminatedLiteral⟩ := by
  intro more
  rw [List.append_assoc]
  exact h.unterminated (.inr (.inr ⟨more, rfl⟩))

end Within

namespace EscapeAt

variable {bs escape : List UInt8} {l : OpenLiteral} {start : Position}

lemma snoc (h : EscapeAt l start bs escape) (b : UInt8) :
    EscapeAt l start (bs ++ [b]) (escape ++ [b]) := by
  obtain ⟨before, within, here, rfl⟩ := h
  exact ⟨before, within, here, List.append_assoc ..⟩

lemma faulty {c : Cause} (h : EscapeAt l start bs (92 :: escape)) {more : List UInt8}
    (bad : BadEscape (escape ++ more) c) : FaultyAt (bs ++ more) l.start ⟨start, c⟩ := by
  obtain ⟨before, ⟨mark, outside, body, hsplit, houtside, inside⟩, here, rfl⟩ := h
  exact ⟨before, _, by simp, here, .escape houtside mark inside hsplit bad⟩

lemma fails {c : Cause} (h : EscapeAt l start bs (92 :: escape))
    (bad : ∀ more, BadEscape (escape ++ more) c) : Fails bs l.start ⟨start, c⟩ :=
  fun more => h.faulty (bad more)

end EscapeAt

lemma plain_of_hexDigit {b : UInt8} (h : (hexDigit? b).isSome = true) {quote : UInt8}
    (mark : IsQuote quote) : b ≠ 10 ∧ b ≠ 92 ∧ b ≠ quote := by
  have hne (c : UInt8) (hc : (hexDigit? c).isSome = false) : b ≠ c := by
    rintro rfl
    exact Bool.noConfusion (h.symm.trans hc)
  rcases mark with rfl | rfl
  · exact ⟨hne 10 rfl, hne 92 rfl, hne 34 rfl⟩
  · exact ⟨hne 10 rfl, hne 92 rfl, hne 39 rfl⟩

def Ending.Of (bs : List UInt8) : Ending → Prop
  | .finished p => p = Position.start.advanceAll bs
  | .broken start f => FaultyAt bs start f

namespace Mode

/-- What the bytes have begun when they end in this mode. -/
def EndOf (bs : List UInt8) : Mode → Prop
  | blank | comment => True
  | word start bytes => bytes ≠ [] ∧ (∀ b ∈ bytes, isWordByte b = true) ∧
      ∃ before, bs = before ++ bytes.reverse ∧ Position.start.advanceAll before = start
  | literal l => Within l bs
  | escape l start => EscapeAt l start bs [92]
  | octal l start more value => Within l bs ∧ ∃ digits : List UInt8,
      (∀ d ∈ digits, (octalDigit? d).isSome = true) ∧ digits.length + more = 3 ∧
      octalValue digits = value ∧ EscapeAt l start bs (92 :: digits)
  | hex l start digits _ => Within l bs ∧ ∃ (b : UInt8) (read : List UInt8),
      (b = 120 ∨ b = 88) ∧ read.length = digits ∧ EscapeAt l start bs (92 :: b :: read)
  | failed start f => Fails bs start f

/-- What a byte yields: tokens that stand in the bytes up to it, and the mode they end in. -/
def Yields (bs : List UInt8) (out : List Placed × Mode) : Prop :=
  (∀ t ∈ out.1, Stands bs t) ∧ out.2.EndOf bs

lemma yields_nothing {bs : List UInt8} {m : Mode} (h : m.EndOf bs) : Yields bs ([], m) :=
  ⟨nofun, h⟩

variable {bs : List UInt8} {b : UInt8} {l : OpenLiteral} {start : Position}

lemma yields_mark {t : Token} (h : t.Spelling [b]) :
    Yields (bs ++ [b]) ([⟨t, Position.start.advanceAll bs⟩], blank) := by
  refine ⟨fun placed hplaced => ?_, trivial⟩
  obtain rfl := List.mem_singleton.1 hplaced
  exact ⟨bs, [b], [], by simp, rfl, h⟩

lemma begin_yields (bs : List UInt8) (b : UInt8) :
    Yields (bs ++ [b]) (begin (Position.start.advanceAll bs) b) := by
  -- one test after the other: `split_ifs` would go through the whole chain at each of them
  unfold begin
  by_cases hspace : isSpace b = true
  · rw [if_pos hspace]
    exact yields_nothing trivial
  rw [if_neg hspace]
  by_cases hcomment : b = 35
  · rw [if_pos hcomment]
    exact yields_nothing trivial
  rw [if_neg hcomment]
  by_cases hcolon : b = 58
  · rw [if_pos hcolon, hcolon]
    exact yields_mark .colon
  rw [if_neg hcolon]
  by_cases hseparator : (b = 44 || b = 59) = true
  · rw [if_pos hseparator]
    simp only [Bool.or_eq_true, decide_eq_true_eq] at hseparator
    rcases hseparator with rfl | rfl
    · exact yields_mark .comma
    · exact yields_mark .semicolon
  rw [if_neg hseparator]
  by_cases hbrace : b = 123
  · rw [if_pos hbrace, hbrace]
    exact yields_mark .openingBrace
  rw [if_neg hbrace]
  by_cases hbrace' : b = 125
  · rw [if_pos hbrace', hbrace']
    exact yields_mark .closingBrace
  rw [if_neg hbrace']
  by_cases hangle : b = 60
  · rw [if_pos hangle, hangle]
    exact yields_mark .openingAngle
  rw [if_neg hangle]
  by_cases hangle' : b = 62
  · rw [if_pos hangle', hangle']
    exact yields_mark .closingAngle
  rw [if_neg hangle']
  by_cases hquote : (b = 34 || b = 39) = true
  · rw [if_pos hquote]
    have hmark : IsQuote b := by simpa [IsQuote] using hquote
    exact yields_nothing ⟨hmark, bs, [], rfl, rfl, .nil⟩
  rw [if_neg hquote]
  by_cases hword : isWordByte b = true
  · rw [if_pos hword]
    exact yields_nothing ⟨by simp, by simpa using hword, bs, rfl, rfl⟩
  rw [if_neg hword]
  refine yields_nothing fun more => ⟨bs, b :: more, by simp, rfl, .character rfl ?_ ?_ hcomment⟩
  · rintro ⟨t, rest, hspelling⟩
    generalize hpiece : b :: rest = piece at hspelling
    cases hspelling with
    | word h => exact hword (h.2 b (by rw [← hpiece]; exact List.mem_cons_self))
    | literal mark =>
      obtain ⟨rfl, -⟩ := List.cons.inj hpiece
      exact hquote (by simpa [IsQuote] using mark)
    | _ => simp_all
  · simpa using hspace

lemma inLiteral_yields (h : Within l bs) (b : UInt8) :
    Yields (bs ++ [b]) (inLiteral l (Position.start.advanceAll bs) b) := by
  unfold inLiteral
  split_ifs with hnewline hbackslash hquote
  · subst hnewline
    exact yields_nothing h.fails_newline
  · subst hbackslash
    exact yields_nothing ⟨bs, h, rfl, rfl⟩
  · subst hquote
    refine ⟨fun t ht => ?_, trivial⟩
    obtain rfl := List.mem_singleton.1 ht
    exact h.token_stands
  · exact yields_nothing (h.plain hnewline hbackslash hquote)

lemma afterEscape_yields (h : Within l bs) {closed : Except Fault OpenLiteral}
    (hclosed : Closes l start closed)
    (herror : ∀ f, closed = .error f → Fails (bs ++ [b]) l.start f) :
    Yields (bs ++ [b]) (afterEscape l closed (Position.start.advanceAll bs) b) := by
  rcases hclosed with ⟨c, rfl⟩ | ⟨f, rfl, -⟩
  · exact inLiteral_yields (l := l.push c) h b
  · exact yields_nothing (herror f rfl)

lemma inEscape_endOf (h : EscapeAt l start bs [92]) (b : UInt8) :
    (inEscape l start b).EndOf (bs ++ [b]) := by
  have hescape := h.snoc b
  have hwithin (letter : isEscapeLetter b = true) : Within l (bs ++ [b]) := by
    obtain ⟨before, within, -, rfl⟩ := h
    exact within.escape letter
  unfold inEscape
  split
  · next c hc => exact hwithin (by simp [isEscapeLetter, hc])
  · next d _ hd =>
    have hsome : (octalDigit? b).isSome = true := by simp [hd]
    refine ⟨hwithin (by simp [isEscapeLetter, hsome]), [b], by simpa using hsome, rfl, ?_, hescape⟩
    simp [octalValue, hd]
  · next hnamed hoctal =>
    split_ifs with hletter
    · have hletter' : b = 120 ∨ b = 88 := by simpa using hletter
      have hx : isEscapeLetter b = true := by
        rcases hletter' with rfl | rfl <;> rfl
      exact ⟨hwithin hx, b, [], hletter', rfl, hescape⟩
    · have hbad : isEscapeLetter b = false := by
        simp_all [isEscapeLetter]
      exact hescape.fails fun more => .unknown hbad

/-- Three octal digits may be too many; fewer of them never are. -/
lemma closeOctal_error {more value : Nat} {f : Fault} (h : (octal l start more value).EndOf bs)
    (hf : closeOctal l start value = .error f) : Fails bs l.start f := by
  obtain ⟨-, digits, hdigits, hlength, rfl, hescape⟩ := h
  unfold closeOctal at hf
  split_ifs at hf with hvalue
  cases hf
  exact hescape.fails fun after => .octal hdigits (by omega) (by omega)

lemma closeHex_error {digits value : Nat} {f : Fault} (h : (hex l start digits value).EndOf bs)
    (hf : closeHex l start digits value = .error f) {after : List UInt8}
    (hafter : ∀ d ∈ after.head?, hexDigit? d = none) : FaultyAt (bs ++ after) l.start f := by
  obtain ⟨-, c, read, hletter, hlength, hescape⟩ := h
  unfold closeHex at hf
  split_ifs at hf with hdigits
  cases hf
  obtain rfl : read = [] := List.length_eq_zero_iff.1 (hlength.trans hdigits)
  exact hescape.faulty (.hex hletter hafter)

lemma octal_yields {more value : Nat} (h : (octal l start more value).EndOf bs) (b : UInt8) :
    Yields (bs ++ [b]) ((octal l start more value).step (Position.start.advanceAll bs) b) := by
  simp only [step]
  split
  · next n d hd =>
    obtain ⟨within, digits, hdigits, hlength, rfl, hescape⟩ := h
    have hsome : (octalDigit? b).isSome = true := by simp [hd]
    obtain ⟨h10, h92, hquote⟩ := plain_of_hexDigit (hexDigit_of_octalDigit hsome) within.1
    refine yields_nothing ⟨within.plain h10 h92 hquote, digits ++ [b], ?_, ?_, ?_, hescape.snoc b⟩
    · intro e he
      rcases List.mem_append.1 he with he | he
      · exact hdigits e he
      · obtain rfl := List.mem_singleton.1 he
        exact hsome
    · simp only [List.length_append, List.length_singleton]
      omega
    · simp [octalValue, hd]
  · exact afterEscape_yields h.1 (closeOctal_closes l start value)
      fun f hf => (closeOctal_error h hf).append [b]

lemma hex_yields {digits value : Nat} (h : (hex l start digits value).EndOf bs) (b : UInt8) :
    Yields (bs ++ [b]) ((hex l start digits value).step (Position.start.advanceAll bs) b) := by
  simp only [step]
  split
  · next d hd =>
    split_ifs with hfew
    · obtain ⟨within, c, read, hletter, hlength, hescape⟩ := h
      obtain ⟨h10, h92, hquote⟩ := plain_of_hexDigit (b := b) (by simp [hd]) within.1
      refine yields_nothing ⟨within.plain h10 h92 hquote, c, read ++ [b], hletter, ?_, ?_⟩
      · simp [hlength]
      · exact hescape.snoc b
    · refine afterEscape_yields h.1 (closeHex_closes l start digits value) fun f hf => ?_
      unfold closeHex at hf
      split_ifs at hf with hdigits
      omega
  · next hd =>
    refine afterEscape_yields h.1 (closeHex_closes l start digits value) fun f hf more => ?_
    rw [List.append_assoc]
    exact closeHex_error h hf (by simpa using hd)

lemma word_stands {bytes : List UInt8} (h : (word start bytes).EndOf bs) :
    Stands bs (wordToken start bytes) := by
  obtain ⟨hne, hword, before, rfl, here⟩ := h
  have hbytes : utf8 (ofAscii bytes.reverse) = bytes.reverse :=
    utf8_ofAscii fun b hb => isWordByte_lt (hword b (List.mem_reverse.1 hb))
  have hisWord : IsWord (ofAscii bytes.reverse) := by
    rw [IsWord, hbytes]
    exact ⟨by simpa using hne, fun b hb => hword b (List.mem_reverse.1 hb)⟩
  exact ⟨before, utf8 (ofAscii bytes.reverse), [], by simp [hbytes], here, .word hisWord⟩

lemma word_yields {bytes : List UInt8} (h : (word start bytes).EndOf bs) (b : UInt8) :
    Yields (bs ++ [b]) ((word start bytes).step (Position.start.advanceAll bs) b) := by
  simp only [step]
  split_ifs with hb
  · obtain ⟨-, hword, before, rfl, here⟩ := h
    refine yields_nothing ⟨by simp, fun c hc => ?_, before, by simp, here⟩
    rcases List.mem_cons.1 hc with rfl | hc
    · exact hb
    · exact hword c hc
  · obtain ⟨htokens, hmode⟩ := begin_yields bs b
    refine ⟨fun t ht => ?_, hmode⟩
    rcases List.mem_cons.1 ht with rfl | ht
    · exact (word_stands h).append [b]
    · exact htokens t ht

/-- One byte takes the scanner from what the bytes before it have begun to what they have begun
together with it. -/
theorem step_yields {m : Mode} (h : m.EndOf bs) (b : UInt8) :
    Yields (bs ++ [b]) (m.step (Position.start.advanceAll bs) b) := by
  cases m with
  | blank => exact begin_yields bs b
  | comment =>
    simp only [step]
    split_ifs <;> exact yields_nothing trivial
  | word start bytes => exact word_yields h b
  | literal l => exact inLiteral_yields h b
  | escape l start => exact yields_nothing (inEscape_endOf h b)
  | octal l start more value => exact octal_yields h b
  | hex l start digits value => exact hex_yields h b
  | failed start f => exact yields_nothing (h.append [b])

lemma close_tokens {m : Mode} (h : m.EndOf bs) (p : Position) :
    ∀ t ∈ (m.close p).tokens, Stands bs t := by
  cases m with
  | word start bytes =>
    intro t ht
    obtain rfl := List.mem_singleton.1 ht
    exact word_stands h
  | _ => exact nofun

lemma unended_faulty (h : Within l bs) {closed : Except Fault OpenLiteral}
    (hclosed : Closes l start closed)
    (herror : ∀ f, closed = .error f → FaultyAt (bs ++ []) l.start f) :
    FaultyAt (bs ++ []) l.start (close.unended closed) := by
  rcases hclosed with ⟨c, rfl⟩ | ⟨f, rfl, -⟩
  · exact h.unterminated (.inl rfl)
  · exact herror f rfl

lemma close_ending {m : Mode} (h : m.EndOf bs) :
    (m.close (Position.start.advanceAll bs)).ending.Of bs := by
  have broken {start : Position} {f : Fault} (hf : FaultyAt (bs ++ []) start f) :
      (Ending.broken start f).Of bs := by
    rwa [List.append_nil] at hf
  cases m with
  | blank | comment | word => rfl
  | literal l => exact broken (h.unterminated (.inl rfl))
  | escape l start =>
    obtain ⟨before, within, -, rfl⟩ := h
    exact within.unterminated (.inr (.inl rfl))
  | octal l start more value =>
    refine broken (unended_faulty h.1 (closeOctal_closes l start value) fun f hf => ?_)
    exact closeOctal_error h hf []
  | hex l start digits value =>
    refine broken (unended_faulty h.1 (closeHex_closes l start digits value) fun f hf => ?_)
    exact closeHex_error h hf nofun
  | failed start f => exact broken (h [])

end Mode

structure Scanner.Reads (s : Scanner) (bs : List UInt8) : Prop where
  position : s.position = Position.start.advanceAll bs
  tokens : ∀ t ∈ s.tokens, Stands bs t
  mode : s.mode.EndOf bs

lemma reads_feedAll (bs : List UInt8) : (Scanner.start.feedAll bs).Reads bs := by
  induction bs using List.reverseRecOn with
  | nil => exact ⟨rfl, nofun, trivial⟩
  | append_singleton bs b ih =>
    rw [Scanner.feedAll_append, Scanner.feedAll_cons, Scanner.feedAll_nil]
    generalize Scanner.start.feedAll bs = s at ih ⊢
    obtain ⟨m, p, ts⟩ := s
    obtain ⟨hposition, htokens, hmode⟩ := ih
    have hposition' : p = Position.start.advanceAll bs := hposition
    subst hposition'
    obtain ⟨hnew, hnext⟩ := Mode.step_yields hmode b
    refine ⟨?_, fun t ht => ?_, hnext⟩
    · rw [Scanner.feed_position, Position.advanceAll_append]
      rfl
    · rcases List.mem_append.1 ht with ht | ht
      · exact hnew t (List.mem_reverse.1 ht)
      · exact (htokens t ht).append [b]

/-- Each token of a text stands at its place, and a token that cannot be read is at fault for what
stands at the place of the fault. -/
theorem scan_stands (text : String) :
    (∀ t ∈ (scan text).tokens, Stands (utf8 text) t) ∧ (scan text).ending.Of (utf8 text) := by
  obtain ⟨hposition, htokens, hmode⟩ := reads_feedAll (utf8 text)
  unfold scan Scanner.close
  rw [hposition]
  refine ⟨fun t ht => ?_, Mode.close_ending hmode⟩
  rcases List.mem_append.1 ht with ht | ht
  · exact htokens t (List.mem_reverse.1 ht)
  · exact Mode.close_tokens hmode _ t ht

end ToolchainRelease.Text
