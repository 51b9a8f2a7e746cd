import ToolchainRelease.Proofs.Text.Spelling

/-! Scanning one text after another. A break between two texts, such as a newline or a block of
comments, ends what the first leaves under way; the tokens of the second are then those that it
has by itself, with all places as many lines further down as the first text and the break have. -/
namespace ToolchainRelease.Text

namespace Position

def lower (n : Nat) (p : Position) : Position := ⟨p.line + n, p.column⟩

lemma lower_advance (n : Nat) (p : Position) (b : UInt8) :
    (p.lower n).advance b = (p.advance b).lower n := by
  unfold advance
  split
  · simp only [lower, Nat.add_right_comm]
  · rfl

/-- After the end of a line, a place is the start of a later line. -/
lemma advanceAll_start {bs : List UInt8} (h : bs.getLast? = some 10) :
    start.advanceAll bs = start.lower (bs.count 10) := by
  obtain ⟨init, rfl⟩ := List.getLast?_eq_some_iff.1 h
  have hline := start.advanceAll_line (init ++ [10])
  have hcolumn : (start.advanceAll (init ++ [10])).column = 1 := by
    rw [advanceAll_append, advanceAll_cons, advanceAll_nil]
    simp [advance]
  cases hp : start.advanceAll (init ++ [10]) with
  | mk line column =>
    rw [hp] at hline hcolumn
    simp only at hline hcolumn
    rw [hline, hcolumn]
    rfl

end Position

def Fault.lower (n : Nat) (f : Fault) : Fault := ⟨f.position.lower n, f.cause⟩

def Placed.lower (n : Nat) (t : Placed) : Placed := ⟨t.token, t.position.lower n⟩

def Ending.lower (n : Nat) : Ending → Ending
  | finished p => finished (p.lower n)
  | broken start f => broken (start.lower n) (f.lower n)

def OpenLiteral.lower (n : Nat) (l : OpenLiteral) : OpenLiteral :=
  { l with start := l.start.lower n }

namespace Mode

def lower (n : Nat) : Mode → Mode
  | blank => blank
  | comment => comment
  | word start bytes => word (start.lower n) bytes
  | literal l => literal (l.lower n)
  | escape l start => escape (l.lower n) (start.lower n)
  | octal l start more value => octal (l.lower n) (start.lower n) more value
  | hex l start digits value => hex (l.lower n) (start.lower n) digits value
  | failed start f => failed (start.lower n) (f.lower n)

def lowerStep (n : Nat) (x : List Placed × Mode) : List Placed × Mode :=
  (x.1.map (Placed.lower n), x.2.lower n)

variable (n : Nat) (p : Position) (b : UInt8)

lemma begin_lower : begin (p.lower n) b = lowerStep n (begin p b) := by
  simp only [begin, apply_ite (lowerStep n)]
  rfl

lemma inLiteral_lower (l : OpenLiteral) :
    inLiteral (l.lower n) (p.lower n) b = lowerStep n (inLiteral l p b) := by
  simp only [inLiteral, apply_ite (lowerStep n)]
  rfl

lemma inEscape_lower (l : OpenLiteral) (start : Position) :
    inEscape (l.lower n) (start.lower n) b = (inEscape l start b).lower n := by
  unfold inEscape
  split
  · rfl
  · rfl
  · split <;> rfl

def lowerClosed (n : Nat) : Except Fault OpenLiteral → Except Fault OpenLiteral
  | .ok l => .ok (l.lower n)
  | .error f => .error (f.lower n)

lemma closeOctal_lower (l : OpenLiteral) (start : Position) (value : Nat) :
    closeOctal (l.lower n) (start.lower n) value = lowerClosed n (closeOctal l start value) := by
  unfold closeOctal
  split <;> rfl

lemma closeHex_lower (l : OpenLiteral) (start : Position) (digits value : Nat) :
    closeHex (l.lower n) (start.lower n) digits value =
      lowerClosed n (closeHex l start digits value) := by
  unfold closeHex
  split <;> rfl

lemma afterEscape_lower (l : OpenLiteral) (closed : Except Fault OpenLiteral) :
    afterEscape (l.lower n) (lowerClosed n closed) (p.lower n) b =
      lowerStep n (afterEscape l closed p b) := by
  cases closed with
  | ok l => exact inLiteral_lower n p b l
  | error f => rfl

theorem step_lower (m : Mode) :
    (m.lower n).step (p.lower n) b = lowerStep n (m.step p b) := by
  cases m with
  | blank => exact begin_lower n p b
  | comment =>
    simp only [step, lower]
    split <;> rfl
  | word start bytes =>
    simp only [step, lower, begin_lower]
    split <;> rfl
  | literal l => exact inLiteral_lower n p b l
  | escape l start =>
    simp only [step, lower, inEscape_lower]
    rfl
  | octal l start more value =>
    simp only [step, lower]
    split
    · rfl
    · rw [closeOctal_lower, afterEscape_lower]
  | hex l start digits value =>
    simp only [step, lower]
    split
    · split
      · rfl
      · rw [closeHex_lower, afterEscape_lower]
    · rw [closeHex_lower, afterEscape_lower]
  | failed start f => rfl

end Mode

namespace Scan

def after (older : List Placed) (n : Nat) (s : Scan) : Scan :=
  ⟨older ++ s.tokens.map (Placed.lower n), s.ending.lower n⟩

end Scan

namespace Mode

lemma unended_lower (n : Nat) (closed : Except Fault OpenLiteral) :
    close.unended (lowerClosed n closed) = (close.unended closed).lower n := by
  cases closed <;> rfl

lemma close_lower (m : Mode) (p : Position) (n : Nat) :
    (m.lower n).close (p.lower n) = (m.close p).after [] n := by
  cases m with
  | octal l start more value =>
    simp only [lower, close, closeOctal_lower, unended_lower]
    rfl
  | hex l start digits value =>
    simp only [lower, close, closeHex_lower, unended_lower]
    rfl
  | _ => rfl

end Mode

namespace Scanner

/-- The scanner `n` lines further down, with the tokens `older` before those that it has read. -/
def lower (older : List Placed) (n : Nat) (s : Scanner) : Scanner :=
  ⟨s.mode.lower n, s.position.lower n, s.tokens.map (Placed.lower n) ++ older⟩

variable (older : List Placed) (n : Nat)

lemma feed_lower (s : Scanner) (b : UInt8) :
    (s.lower older n).feed b = (s.feed b).lower older n := by
  simp only [feed, lower, Mode.step_lower, Mode.lowerStep, Position.lower_advance]
  simp

theorem feedAll_lower (s : Scanner) (bs : List UInt8) :
    (s.lower older n).feedAll bs = (s.feedAll bs).lower older n := by
  induction bs generalizing s with
  | nil => rfl
  | cons b bs ih => rw [feedAll_cons, feedAll_cons, feed_lower, ih]

lemma close_lower (s : Scanner) : (s.lower older n).close = s.close.after older.reverse n := by
  simp [close, lower, Mode.close_lower, Scan.after]

end Scanner

/-- A text scans as by itself after bytes that leave the scanner as at the start. -/
lemma scan_append_of_lower {top : String} {older : List Placed} {n : Nat}
    (h : Scanner.start.feedAll (utf8 top) = Scanner.start.lower older n) (text : String) :
    scan (top ++ text) = (scan text).after older.reverse n := by
  rw [scan, utf8_append, Scanner.feedAll_append, h, Scanner.feedAll_lower, Scanner.close_lower]
  rfl

lemma Spells.feedAll_nil {bs : List UInt8} (h : Spells bs []) (p : Position) (ts : List Placed) :
    (Scanner.mk .blank p ts).feedAll bs = ⟨.blank, p.advanceAll bs, ts⟩ := by
  obtain ⟨ps, hps, hfeed⟩ := h p ts
  obtain rfl := List.map_eq_nil_iff.1 hps
  exact hfeed

/-- Blank lines and comments, in bytes: the first byte ends a word or goes on with a comment, and
the last ends a line. -/
structure Break (bs : List UInt8) : Prop where
  first : bs.head? = some 10 ∨ bs.head? = some 35
  blank : Spells bs []
  last : bs.getLast? = some 10

lemma newline_break : Break (utf8 "\n") := ⟨.inl rfl, .space rfl, rfl⟩

/-- The first byte of a break is read as if what is under way had been complete before it. -/
lemma feed_after_whole {m : Mode} {p q : Position} {last : List Placed}
    (h : m.close p = ⟨last, .finished q⟩) (ts : List Placed) {b : UInt8} (hb : b = 10 ∨ b = 35) :
    (Scanner.mk m p ts).feed b = (Scanner.mk .blank p (last.reverse ++ ts)).feed b := by
  cases m with
  | blank =>
    cases h
    rfl
  | comment =>
    cases h
    rcases hb with rfl | rfl <;> rfl
  | word start bytes =>
    cases h
    rcases hb with rfl | rfl <;> exact feed_after_word rfl start p bytes ts
  | literal l | escape l start | octal l start more value | hex l start digits value
  | failed start f => cases h

lemma Break.feedAll {bs : List UInt8} (hbs : Break bs) {m : Mode} {p q : Position}
    {last : List Placed} (h : m.close p = ⟨last, .finished q⟩) (ts : List Placed) :
    (Scanner.mk m p ts).feedAll bs = ⟨.blank, p.advanceAll bs, last.reverse ++ ts⟩ := by
  obtain ⟨hfirst, hblank, -⟩ := hbs
  cases bs with
  | nil => simp at hfirst
  | cons b bs =>
    have hb : b = 10 ∨ b = 35 := by simpa using hfirst
    rw [Scanner.feedAll_cons, feed_after_whole h ts hb]
    exact hblank.feedAll_nil p (last.reverse ++ ts)

/-- After a text and a break the scanner is where it starts, only further down. -/
lemma feedAll_start_break {top gap : String} {p : Position} (hgap : Break (utf8 gap))
    (h : (scan top).ending = .finished p) :
    Scanner.start.feedAll (utf8 (top ++ gap)) =
      Scanner.start.lower (scan top).tokens.reverse ((utf8 (top ++ gap)).count 10) := by
  have hlast : (utf8 (top ++ gap)).getLast? = some 10 := by
    rw [utf8_append, List.getLast?_append, hgap.last]
    rfl
  have hplace := Position.advanceAll_start hlast
  have hposition := Scanner.start.feedAll_position (utf8 top)
  rw [utf8_append] at hplace ⊢
  rw [Scanner.feedAll_append]
  unfold scan at h ⊢
  generalize Scanner.start.feedAll (utf8 top) = s at h hposition ⊢
  obtain ⟨m, q, ts⟩ := s
  cases hclose : m.close q with
  | mk last ending =>
    simp only [Scanner.close, hclose] at h
    subst h
    have hgapped : q.advanceAll (utf8 gap) =
        Position.start.lower ((utf8 top ++ utf8 gap).count 10) := by
      rw [← hplace, Position.advanceAll_append]
      exact congrArg (Position.advanceAll · (utf8 gap)) hposition
    rw [hgap.feedAll hclose, hgapped]
    simp [Scanner.close, hclose, Scanner.lower, Scanner.start, Mode.lower]

/-- A text after a break scans as it does by itself, after the tokens of the text before the break
and as many lines further down. -/
theorem scan_append {top gap : String} {p : Position} (hgap : Break (utf8 gap))
    (h : (scan top).ending = .finished p) (text : String) :
    scan (top ++ gap ++ text) =
      (scan text).after (scan top).tokens ((utf8 (top ++ gap)).count 10) := by
  rw [scan_append_of_lower (feedAll_start_break hgap h), List.reverse_reverse]

lemma Mode.step_newline (m : Mode) (p : Position) :
    (m.step p 10).2 = .blank ∨ ∃ start f, (m.step p 10).2 = .failed start f := by
  have hafter (l : OpenLiteral) (closed : Except Fault OpenLiteral) :
      ∃ start f, (afterEscape l closed p 10).2 = .failed start f := by
    cases closed with
    | ok l => exact ⟨_, _, rfl⟩
    | error f => exact ⟨_, _, rfl⟩
  cases m with
  | blank | comment | word start bytes => exact .inl rfl
  | literal l | escape l start | failed start f => exact .inr ⟨_, _, rfl⟩
  | octal l start more value =>
    cases more with
    | zero => exact .inr (hafter l _)
    | succ more => exact .inr (hafter l _)
  | hex l start digits value => exact .inr (hafter l _)

lemma Scanner.mode_feedAll_line (s : Scanner) {bs : List UInt8} (hline : bs.getLast? = some 10) :
    (s.feedAll bs).mode = .blank ∨ ∃ start f, (s.feedAll bs).mode = .failed start f := by
  obtain ⟨init, rfl⟩ := List.getLast?_eq_some_iff.1 hline
  rw [feedAll_append]
  exact (s.feedAll init).mode.step_newline _

lemma feedAll_start_line {top : String} {p : Position} (h : (scan top).ending = .finished p)
    (hline : (utf8 top).getLast? = some 10) :
    Scanner.start.feedAll (utf8 top) =
      Scanner.start.lower (scan top).tokens.reverse ((utf8 top).count 10) := by
  have hmode := Scanner.start.mode_feedAll_line hline
  have hposition := (Scanner.start.feedAll_position (utf8 top)).trans
    (Position.advanceAll_start hline)
  unfold scan at h ⊢
  generalize Scanner.start.feedAll (utf8 top) = s at h hmode hposition ⊢
  obtain ⟨m, q, ts⟩ := s
  subst hposition
  rcases hmode with rfl | ⟨start, f, rfl⟩
  · simp [Scanner.close, Scanner.lower, Scanner.start, Mode.lower, Mode.close]
  · cases h

theorem scan_append_line {top : String} {p : Position} (h : (scan top).ending = .finished p)
    (hline : (utf8 top).getLast? = some 10) (text : String) :
    scan (top ++ text) = (scan text).after (scan top).tokens ((utf8 top).count 10) := by
  rw [scan_append_of_lower (feedAll_start_line h hline), List.reverse_reverse]

end ToolchainRelease.Text
