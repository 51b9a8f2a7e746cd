import Mathlib.Data.List.Induction
import Mathlib.Tactic.Common
import ToolchainRelease.Text.Scanner

/-! Where tokens begin. A text may be cut at the first byte of any token: what stands before it
scans to the tokens before. -/
namespace ToolchainRelease.Text

namespace Position

instance : LE Position := ⟨fun p q => p.line < q.line ∨ p.line = q.line ∧ p.column ≤ q.column⟩

lemma le_def {p q : Position} : p ≤ q ↔ p.line < q.line ∨ p.line = q.line ∧ p.column ≤ q.column :=
  Iff.rfl

lemma le_refl (p : Position) : p ≤ p := .inr ⟨rfl, Nat.le_refl _⟩

lemma le_trans {p q r : Position} (hpq : p ≤ q) (hqr : q ≤ r) : p ≤ r := by
  rw [le_def] at *
  omega

lemma le_advance (p : Position) (b : UInt8) : p ≤ p.advance b := by
  unfold advance
  split
  · exact .inl (Nat.lt_succ_self _)
  · exact .inr ⟨rfl, Nat.le_succ _⟩

lemma le_advanceAll (p : Position) (bs : List UInt8) : p ≤ p.advanceAll bs := by
  induction bs generalizing p with
  | nil => exact p.le_refl
  | cons b bs ih => exact le_trans (p.le_advance b) (ih _)

end Position

def EndsInAscii (bs : List UInt8) : Prop := ∀ b, bs.getLast? = some b → b.toNat < 128

lemma endsInAscii_snoc {bs : List UInt8} {b : UInt8} (h : b.toNat < 128) :
    EndsInAscii (bs ++ [b]) := by
  intro c hc
  simp only [List.getLast?_append, List.getLast?_singleton, Option.some_or, Option.some.injEq] at hc
  rwa [← hc]

/-- The bytes can be cut at this place, and those before it scan to these tokens. -/
def CutAt (bs : List UInt8) (ts : List Placed) (p : Position) : Prop :=
  ∃ pre post, bs = pre ++ post ∧ EndsInAscii pre ∧ Position.start.advanceAll pre = p ∧
    (Scanner.start.feedAll pre).close = ⟨ts, .finished p⟩

lemma CutAt.append {bs : List UInt8} {ts : List Placed} {p : Position} (h : CutAt bs ts p)
    (more : List UInt8) : CutAt (bs ++ more) ts p := by
  obtain ⟨pre, post, rfl, hend, hp, hscan⟩ := h
  exact ⟨pre, post ++ more, List.append_assoc .., hend, hp, hscan⟩

/-- The tokens, the newest first, begin at cuts, and none of them begins after a later one. -/
def Marked (bs : List UInt8) : Position → List Placed → Prop
  | _, [] => True
  | last, t :: ts => t.position ≤ last ∧ CutAt bs ts.reverse t.position ∧ Marked bs t.position ts

namespace Marked

variable {bs : List UInt8} {p q : Position} {ts : List Placed}

lemma append (h : Marked bs p ts) (more : List UInt8) : Marked (bs ++ more) p ts := by
  induction ts generalizing p with
  | nil => trivial
  | cons t ts ih => exact ⟨h.1, h.2.1.append more, ih h.2.2⟩

lemma mono (h : Marked bs p ts) (hpq : p ≤ q) : Marked bs q ts := by
  cases ts with
  | nil => trivial
  | cons t ts => exact ⟨Position.le_trans h.1 hpq, h.2⟩

end Marked

namespace Mode

def begun? : Mode → Option Position
  | blank | comment => none
  | word start _ | failed start _ => some start
  | literal l | escape l _ | octal l _ _ _ | hex l _ _ _ => some l.start

def openLiteral? : Mode → Option OpenLiteral
  | literal l | escape l _ | octal l _ _ _ | hex l _ _ _ => some l
  | blank | comment | word _ _ | failed _ _ => none

lemma begun?_of_openLiteral? {m : Mode} {l : OpenLiteral} (h : m.openLiteral? = some l) :
    m.begun? = some l.start := by
  cases m <;> simp_all [openLiteral?, begun?]

/-- What a byte does. It is ASCII where a new token may begin after it. -/
inductive Moves (p : Position) (b : UInt8) : Mode → List Placed → Mode → Prop
  | skip (ascii : b.toNat < 128) : Moves p b blank [] blank
  | openComment : Moves p b blank [] comment
  | mark {token : Token} (ascii : b.toNat < 128) : Moves p b blank [⟨token, p⟩] blank
  | openLiteral (ascii : b.toNat < 128) : Moves p b blank [] (literal ⟨p, b, []⟩)
  | openWord (ascii : b.toNat < 128) : Moves p b blank [] (word p [b])
  | unexpected {f : Fault} (here : f.position = p) : Moves p b blank [] (failed p f)
  | inComment : Moves p b comment [] comment
  | endComment (ascii : b.toNat < 128) : Moves p b comment [] blank
  | inWord {start : Position} {bytes : List UInt8} (ascii : b.toNat < 128) :
      Moves p b (word start bytes) [] (word start (b :: bytes))
  | endWord {start : Position} {bytes : List UInt8} {ts : List Placed} {m : Mode}
      (after : Moves p b blank ts m) :
      Moves p b (word start bytes) (wordToken start bytes :: ts) m
  | inLiteral {m m' : Mode} {l l' : OpenLiteral} (before : m.openLiteral? = some l)
      (after : m'.openLiteral? = some l') (start : l'.start = l.start)
      (quote : l'.quote = l.quote) : Moves p b m [] m'
  | endLiteral {m : Mode} {l l' : OpenLiteral} (before : m.openLiteral? = some l)
      (start : l'.start = l.start) (quote : b = l.quote) : Moves p b m [l'.token] blank
  | failLiteral {m : Mode} {l : OpenLiteral} {f : Fault} (before : m.openLiteral? = some l) :
      Moves p b m [] (failed l.start f)
  | failed {start : Position} {f : Fault} : Moves p b (failed start f) [] (failed start f)

lemma begin_moves (p : Position) (b : UInt8) :
    Moves p b blank (begin p b).1 (begin p b).2 := by
  -- one test after the other: `split_ifs` would go through the whole chain at each of them
  unfold begin
  by_cases hspace : isSpace b = true
  · rw [if_pos hspace]
    simp only [isSpace, Bool.or_eq_true, decide_eq_true_eq] at hspace
    rcases hspace with ((rfl | rfl) | rfl) | rfl <;> exact .skip (by decide)
  rw [if_neg hspace]
  by_cases hcomment : b = 35
  · rw [if_pos hcomment]
    exact .openComment
  rw [if_neg hcomment]
  by_cases hcolon : b = 58
  · rw [if_pos hcolon]
    exact .mark (by rw [hcolon]; decide)
  rw [if_neg hcolon]
  by_cases hseparator : (b = 44 || b = 59) = true
  · rw [if_pos hseparator]
    simp only [Bool.or_eq_true, decide_eq_true_eq] at hseparator
    rcases hseparator with rfl | rfl <;> exact .mark (by decide)
  rw [if_neg hseparator]
  by_cases hbrace : b = 123
  · rw [if_pos hbrace]
    exact .mark (by rw [hbrace]; decide)
  rw [if_neg hbrace]
  by_cases hbrace' : b = 125
  · rw [if_pos hbrace']
    exact .mark (by rw [hbrace']; decide)
  rw [if_neg hbrace']
  by_cases hangle : b = 60
  · rw [if_pos hangle]
    exact .mark (by rw [hangle]; decide)
  rw [if_neg hangle]
  by_cases hangle' : b = 62
  · rw [if_pos hangle']
    exact .mark (by rw [hangle']; decide)
  rw [if_neg hangle']
  by_cases hquote : (b = 34 || b = 39) = true
  · rw [if_pos hquote]
    simp only [Bool.or_eq_true, decide_eq_true_eq] at hquote
    rcases hquote with rfl | rfl <;> exact .openLiteral (by decide)
  rw [if_neg hquote]
  by_cases hword : isWordByte b = true
  · rw [if_pos hword]
    exact .openWord (isWordByte_lt hword)
  · rw [if_neg hword]
    exact .unexpected rfl

lemma inLiteral_moves {m : Mode} {l l' : OpenLiteral} (hm : m.openLiteral? = some l)
    (hstart : l'.start = l.start) (hquote : l'.quote = l.quote) (p : Position) (b : UInt8) :
    Moves p b m (inLiteral l' p b).1 (inLiteral l' p b).2 := by
  unfold inLiteral
  split_ifs with h1 h2 h3
  · rw [hstart]
    exact .failLiteral hm
  · exact .inLiteral hm rfl hstart hquote
  · exact .endLiteral hm hstart (h3.trans hquote)
  · exact .inLiteral hm rfl hstart hquote

/-- An escape that began at `start` has added a byte to the literal, or is at fault. -/
def Closes (l : OpenLiteral) (start : Position) (closed : Except Fault OpenLiteral) : Prop :=
  (∃ b, closed = .ok (l.push b)) ∨ ∃ f, closed = .error f ∧ f.position = start

lemma closeOctal_closes (l : OpenLiteral) (start : Position) (value : Nat) :
    Closes l start (closeOctal l start value) := by
  unfold closeOctal
  split_ifs
  · exact .inl ⟨_, rfl⟩
  · exact .inr ⟨_, rfl, rfl⟩

lemma closeHex_closes (l : OpenLiteral) (start : Position) (digits value : Nat) :
    Closes l start (closeHex l start digits value) := by
  unfold closeHex
  split_ifs
  · exact .inr ⟨_, rfl, rfl⟩
  · exact .inl ⟨_, rfl⟩

lemma afterEscape_moves {m : Mode} {l : OpenLiteral} (hm : m.openLiteral? = some l)
    {start : Position} {closed : Except Fault OpenLiteral} (h : Closes l start closed)
    (p : Position) (b : UInt8) :
    Moves p b m (afterEscape l closed p b).1 (afterEscape l closed p b).2 := by
  rcases h with ⟨c, rfl⟩ | ⟨f, rfl, -⟩
  · have hsame : (l.push c).start = l.start := rfl
    exact inLiteral_moves hm hsame rfl p b
  · exact .failLiteral hm

theorem step_moves (m : Mode) (p : Position) (b : UInt8) :
    Moves p b m (m.step p b).1 (m.step p b).2 := by
  cases m with
  | blank => exact begin_moves p b
  | comment =>
    by_cases hb : b = 10
    · subst hb
      exact .endComment (by decide)
    · simp only [step, hb]
      exact .inComment
  | word start bytes =>
    simp only [step]
    split_ifs with hb
    · exact .inWord (isWordByte_lt hb)
    · exact .endWord (begin_moves p b)
  | literal l => exact inLiteral_moves rfl rfl rfl p b
  | escape l start =>
    simp only [step, inEscape]
    split
    · exact .inLiteral rfl rfl rfl rfl
    · exact .inLiteral rfl rfl rfl rfl
    · split_ifs
      · exact .inLiteral rfl rfl rfl rfl
      · exact .failLiteral rfl
  | octal l start more value =>
    simp only [step]
    split
    · exact .inLiteral rfl rfl rfl rfl
    · exact afterEscape_moves rfl (closeOctal_closes l start value) p b
  | hex l start digits value =>
    simp only [step]
    split
    · split_ifs
      · exact .inLiteral rfl rfl rfl rfl
      · exact afterEscape_moves rfl (closeHex_closes l start digits value) p b
    · exact afterEscape_moves rfl (closeHex_closes l start digits value) p b
  | failed start f => exact .failed

end Mode

/-- What the scanner, after the bytes `bs`, knows of the tokens that it has read and of the one
under way. -/
structure Tracks (bs : List UInt8) (p : Position) (ts : List Placed) (m : Mode) : Prop where
  marked : Marked bs (m.begun?.getD p) ts
  begun : ∀ start, m.begun? = some start → start ≤ p ∧ CutAt bs ts.reverse start
  ascii : m = .blank ∨ (∃ start bytes, m = .word start bytes) → EndsInAscii bs
  quote : ∀ l, m.openLiteral? = some l → l.quote.toNat < 128

lemma tracks_blank {bs : List UInt8} {p : Position} {b : UInt8} {ts es : List Placed} {m m' : Mode}
    (marked : Marked bs p ts) (cut : CutAt bs ts.reverse p) (h : Mode.Moves p b m es m')
    (hm : m = .blank) : Tracks (bs ++ [b]) (p.advance b) (es.reverse ++ ts) m' := by
  have hle := p.le_advance b
  have hmarked := marked.append [b]
  have hcut := cut.append [b]
  have hbegun (start : Position) (hs : some p = some start) :
      start ≤ p.advance b ∧ CutAt (bs ++ [b]) ts.reverse start := by
    cases hs
    exact ⟨hle, hcut⟩
  cases h with
  | skip ascii => exact ⟨hmarked.mono hle, nofun, fun _ => endsInAscii_snoc ascii, nofun⟩
  | openComment => exact ⟨hmarked.mono hle, nofun, nofun, nofun⟩
  | mark ascii => exact ⟨⟨hle, hcut, hmarked⟩, nofun, fun _ => endsInAscii_snoc ascii, nofun⟩
  | openLiteral ascii =>
    refine ⟨hmarked, hbegun, nofun, fun l hl => ?_⟩
    cases hl
    exact ascii
  | openWord ascii => exact ⟨hmarked, hbegun, fun _ => endsInAscii_snoc ascii, nofun⟩
  | unexpected => exact ⟨hmarked, hbegun, nofun, nofun⟩
  | inLiteral before | endLiteral before | failLiteral before => rw [hm] at before; cases before
  | _ => cases hm

/-- A token may begin where only a finished word, or nothing, is under way. -/
lemma cutAt_here {bs : List UInt8} {p : Position} {ts last : List Placed} {m : Mode}
    (hscan : Scanner.start.feedAll bs = ⟨m, p, ts⟩) (ascii : EndsInAscii bs)
    (hclose : m.close p = ⟨last, .finished p⟩) : CutAt bs (ts.reverse ++ last) p := by
  have hp := Scanner.start.feedAll_position bs
  rw [hscan] at hp
  refine ⟨bs, [], (List.append_nil bs).symm, ascii, hp.symm, ?_⟩
  rw [hscan, Scanner.close, hclose]

theorem Tracks.step {bs : List UInt8} {p : Position} {b : UInt8} {ts es : List Placed}
    {m m' : Mode} (h : Tracks bs p ts m) (hscan : Scanner.start.feedAll bs = ⟨m, p, ts⟩)
    (moves : Mode.Moves p b m es m') : Tracks (bs ++ [b]) (p.advance b) (es.reverse ++ ts) m' := by
  have hle := p.le_advance b
  have hbegun (start : Position) (hs : m.begun? = some start) :
      start ≤ p.advance b ∧ CutAt (bs ++ [b]) ts.reverse start :=
    ⟨Position.le_trans (h.begun start hs).1 hle, (h.begun start hs).2.append [b]⟩
  have hmarked := h.marked.append [b]
  by_cases hm : m = .blank
  · subst hm
    have hcut := cutAt_here hscan (h.ascii (.inl rfl)) rfl
    rw [List.append_nil] at hcut
    exact tracks_blank h.marked hcut moves rfl
  cases moves with
  | skip | openComment | mark | openLiteral | openWord | unexpected => exact (hm rfl).elim
  | inComment => exact ⟨hmarked.mono hle, nofun, nofun, nofun⟩
  | endComment ascii => exact ⟨hmarked.mono hle, nofun, fun _ => endsInAscii_snoc ascii, nofun⟩
  | inWord ascii => exact ⟨hmarked, hbegun, fun _ => endsInAscii_snoc ascii, nofun⟩
  | @endWord start bytes es m' after =>
    obtain ⟨hstart, hcut⟩ := h.begun start rfl
    have hnext := cutAt_here hscan (h.ascii (.inr ⟨start, bytes, rfl⟩)) rfl
    have hword : Marked bs p (wordToken start bytes :: ts) := ⟨hstart, hcut, h.marked⟩
    have := tracks_blank hword (by simpa using hnext) after rfl
    simpa using this
  | @inLiteral _ _ l l' before after start quote =>
    have hb := Mode.begun?_of_openLiteral? before
    have hb' : m'.begun? = m.begun? := by
      rw [hb, Mode.begun?_of_openLiteral? after, start]
    refine ⟨?_, fun s hs => hbegun s (hb' ▸ hs), ?_, fun l₁ h₁ => ?_⟩
    · rw [hb', hb]
      rwa [hb] at hmarked
    · rintro (rfl | ⟨start, bytes, rfl⟩) <;> cases after
    · cases after.symm.trans h₁
      rw [quote]
      exact h.quote l before
  | @endLiteral _ l l' before start quote =>
    have hb := Mode.begun?_of_openLiteral? before
    rw [hb] at hmarked
    obtain ⟨hstart, hcut⟩ := hbegun _ hb
    have hq : b.toNat < 128 := quote ▸ h.quote l before
    rw [← start] at hmarked hstart hcut
    exact ⟨⟨hstart, hcut, hmarked⟩, nofun, fun _ => endsInAscii_snoc hq, nofun⟩
  | @failLiteral _ l f before =>
    have hb := Mode.begun?_of_openLiteral? before
    rw [hb] at hmarked
    exact ⟨hmarked, fun s hs => hbegun s (hb.trans hs), nofun, nofun⟩
  | failed => exact ⟨hmarked, hbegun, nofun, nofun⟩

theorem tracks_feedAll (bs : List UInt8) :
    Tracks bs (Scanner.start.feedAll bs).position (Scanner.start.feedAll bs).tokens
      (Scanner.start.feedAll bs).mode := by
  induction bs using List.reverseRecOn with
  | nil => exact ⟨trivial, nofun, fun _ => nofun, nofun⟩
  | append_singleton bs b ih =>
    rw [Scanner.feedAll_append, Scanner.feedAll_cons, Scanner.feedAll_nil]
    exact ih.step rfl (Mode.step_moves _ _ b)

namespace Mode

/-- The places that a mode keeps are in the order in which they were passed. -/
def InOrder (p : Position) : Mode → Prop
  | blank | comment => True
  | word start _ => start ≤ p
  | literal l => l.start ≤ p
  | escape l start | octal l start _ _ | hex l start _ _ => l.start ≤ start ∧ start ≤ p
  | failed start f => start ≤ f.position

lemma begin_inOrder (p : Position) (b : UInt8) : (begin p b).2.InOrder (p.advance b) := by
  have hle := p.le_advance b
  have hmoves := begin_moves p b
  generalize (begin p b).2 = m at hmoves ⊢
  generalize (begin p b).1 = es at hmoves
  cases hmoves with
  | skip | openComment | mark => trivial
  | openLiteral | openWord => exact hle
  | unexpected here =>
    show p ≤ _
    rw [here]
    exact p.le_refl
  | inLiteral before | failLiteral before => cases before
  | endLiteral => trivial

lemma inLiteral_inOrder {l : OpenLiteral} {p : Position} (h : l.start ≤ p) (b : UInt8) :
    (inLiteral l p b).2.InOrder (p.advance b) := by
  have hle := Position.le_trans h (p.le_advance b)
  unfold inLiteral
  split_ifs
  · exact l.start.le_refl
  · exact ⟨h, p.le_advance b⟩
  · trivial
  · exact hle

lemma afterEscape_inOrder {l : OpenLiteral} {start p : Position} (hl : l.start ≤ start)
    (hp : start ≤ p) {closed : Except Fault OpenLiteral} (h : Closes l start closed) (b : UInt8) :
    (afterEscape l closed p b).2.InOrder (p.advance b) := by
  rcases h with ⟨c, rfl⟩ | ⟨f, rfl, hf⟩
  · exact inLiteral_inOrder (l := l.push c) (Position.le_trans hl hp) b
  · show l.start ≤ f.position
    rwa [hf]

lemma step_inOrder {m : Mode} {p : Position} (h : m.InOrder p) (b : UInt8) :
    (m.step p b).2.InOrder (p.advance b) := by
  have hle := p.le_advance b
  cases m with
  | blank => exact begin_inOrder p b
  | comment =>
    simp only [step]
    split_ifs <;> trivial
  | word start bytes =>
    simp only [step]
    split_ifs
    · exact Position.le_trans h hle
    · exact begin_inOrder p b
  | literal l => exact inLiteral_inOrder h b
  | escape l start =>
    have hlong : l.start ≤ p.advance b := Position.le_trans (Position.le_trans h.1 h.2) hle
    simp only [step, inEscape]
    split
    · exact hlong
    · exact ⟨h.1, Position.le_trans h.2 hle⟩
    · split_ifs
      · exact ⟨h.1, Position.le_trans h.2 hle⟩
      · exact h.1
  | octal l start more value =>
    simp only [step]
    split
    · exact ⟨h.1, Position.le_trans h.2 hle⟩
    · exact afterEscape_inOrder h.1 h.2 (closeOctal_closes l start value) b
  | hex l start digits value =>
    simp only [step]
    split
    · split_ifs
      · exact ⟨h.1, Position.le_trans h.2 hle⟩
      · exact afterEscape_inOrder h.1 h.2 (closeHex_closes l start digits value) b
    · exact afterEscape_inOrder h.1 h.2 (closeHex_closes l start digits value) b
  | failed start f => exact h

lemma unended_inOrder {l : OpenLiteral} {start : Position} (hl : l.start ≤ start)
    {closed : Except Fault OpenLiteral} (h : Closes l start closed) :
    l.start ≤ (close.unended closed).position := by
  rcases h with ⟨c, rfl⟩ | ⟨f, rfl, hf⟩
  · exact l.start.le_refl
  · show l.start ≤ f.position
    rwa [hf]

/-- How a text ends in a mode that is at a token: with the last word, or within a token that
cannot be read, and whose fault is not before it. -/
lemma close_cases {m : Mode} {p : Position} (h : m.InOrder p) :
    (m.begun? = none ∧ m.close p = ⟨[], .finished p⟩) ∨
      (∃ start bytes, m = .word start bytes ∧ m.close p = ⟨[wordToken start bytes], .finished p⟩) ∨
      ∃ start f, m.begun? = some start ∧ start ≤ f.position ∧
        m.close p = ⟨[], .broken start f⟩ := by
  cases m with
  | blank | comment => exact .inl ⟨rfl, rfl⟩
  | word start bytes => exact .inr (.inl ⟨start, bytes, rfl, rfl⟩)
  | literal l | escape l => exact .inr (.inr ⟨l.start, _, rfl, l.start.le_refl, rfl⟩)
  | octal l start more value =>
    exact .inr (.inr ⟨l.start, _, rfl, unended_inOrder h.1 (closeOctal_closes l start value), rfl⟩)
  | hex l start digits value =>
    exact .inr (.inr
      ⟨l.start, _, rfl, unended_inOrder h.1 (closeHex_closes l start digits value), rfl⟩)
  | failed start f => exact .inr (.inr ⟨start, f, rfl, h, rfl⟩)

end Mode

lemma inOrder_feedAll (bs : List UInt8) :
    (Scanner.start.feedAll bs).mode.InOrder (Scanner.start.feedAll bs).position := by
  induction bs using List.reverseRecOn with
  | nil => trivial
  | append_singleton bs b ih =>
    rw [Scanner.feedAll_append, Scanner.feedAll_cons, Scanner.feedAll_nil]
    exact Mode.step_inOrder ih b

/-- The tokens and the ending stand in the order of the text, and a fault is not before the token
that cannot be read. -/
def Ordered (mark : Position) : List Placed → Ending → Prop
  | [], .finished p => mark ≤ p
  | [], .broken start f => mark ≤ start ∧ start ≤ f.position
  | t :: ts, ending => mark ≤ t.position ∧ Ordered t.position ts ending

lemma Ordered.mono {p q : Position} {ts : List Placed} {ending : Ending} (h : Ordered q ts ending)
    (hpq : p ≤ q) : Ordered p ts ending := by
  cases ts with
  | nil =>
    cases ending with
    | finished => exact Position.le_trans hpq h
    | broken => exact ⟨Position.le_trans hpq h.1, h.2⟩
  | cons t ts => exact ⟨Position.le_trans hpq h.1, h.2⟩

lemma CutAt.start_le {bs : List UInt8} {ts : List Placed} {p : Position} (h : CutAt bs ts p) :
    Position.start ≤ p := by
  obtain ⟨pre, post, -, -, rfl, -⟩ := h
  exact Position.start.le_advanceAll pre

lemma Marked.ordered {bs : List UInt8} {last : Position} {ts post : List Placed} {ending : Ending}
    (h : Marked bs last ts) (hlast : Position.start ≤ last) (hpost : Ordered last post ending) :
    Ordered .start (ts.reverse ++ post) ending := by
  induction ts generalizing last post with
  | nil => exact hpost.mono hlast
  | cons t ts ih =>
    obtain ⟨hle, hcut, hts⟩ := h
    rw [List.reverse_cons, List.append_assoc]
    exact ih hts hcut.start_le ⟨t.position.le_refl, hpost.mono hle⟩

lemma Marked.cutAt {bs : List UInt8} {last : Position} {ts newer older : List Placed} {t : Placed}
    (h : Marked bs last ts) (hts : ts = newer ++ t :: older) :
    CutAt bs older.reverse t.position := by
  induction newer generalizing ts last with
  | nil =>
    subst hts
    exact h.2.1
  | cons s newer ih =>
    subst hts
    exact ih h.2.2 rfl

/-- The first token of `rest`, or the token that cannot be read after it, begins at `p`. -/
def BeginsAt (p : Position) : List Placed → Ending → Prop
  | t :: _, _ => t.position = p
  | [], .broken start _ => start = p
  | [], .finished _ => False

lemma scan_marked (text : String) :
    ∃ last, Position.start ≤ last ∧ Marked (utf8 text) last (scan text).tokens.reverse ∧
      Ordered last [] (scan text).ending ∧
      ∀ start f, (scan text).ending = .broken start f →
        CutAt (utf8 text) (scan text).tokens start := by
  have h := tracks_feedAll (utf8 text)
  have horder := inOrder_feedAll (utf8 text)
  have hstart : Position.start ≤ (Scanner.start.feedAll (utf8 text)).position := by
    rw [Scanner.feedAll_position]
    exact Position.start.le_advanceAll (utf8 text)
  unfold scan
  generalize Scanner.start.feedAll (utf8 text) = s at h horder hstart ⊢
  obtain ⟨m, p, ts⟩ := s
  unfold Scanner.close
  rcases Mode.close_cases horder with ⟨hm, hclose⟩ | ⟨start, bytes, hm, hclose⟩ |
    ⟨start, f, hm, hf, hclose⟩
  · have hmarked := h.marked
    rw [hm] at hmarked
    rw [hclose]
    refine ⟨p, hstart, by simpa using hmarked, p.le_refl, nofun⟩
  · cases hm
    obtain ⟨hle, hcut⟩ := h.begun start rfl
    have hmarked : Marked (utf8 text) p (wordToken start bytes :: ts) := ⟨hle, hcut, h.marked⟩
    rw [hclose]
    refine ⟨p, hstart, by simpa using hmarked, p.le_refl, nofun⟩
  · have hmarked := h.marked
    obtain ⟨-, hcut⟩ := h.begun start hm
    rw [hm] at hmarked
    rw [hclose]
    refine ⟨start, hcut.start_le, by simpa using hmarked, ⟨start.le_refl, hf⟩, ?_⟩
    rintro _ _ heq
    cases heq
    simpa using hcut

theorem scan_ordered (text : String) : Ordered .start (scan text).tokens (scan text).ending := by
  obtain ⟨last, hlast, hmarked, hend, -⟩ := scan_marked text
  have := hmarked.ordered hlast hend
  simpa using this

/-- A text may be cut where one of its tokens begins, or the one that cannot be read. -/
theorem cutAt_of_beginsAt {text : String} {before rest : List Placed} {p : Position}
    (h : (scan text).tokens = before ++ rest) (hp : BeginsAt p rest (scan text).ending) :
    CutAt (utf8 text) before p := by
  obtain ⟨last, -, hmarked, -, hbroken⟩ := scan_marked text
  cases rest with
  | nil =>
    cases hend : (scan text).ending with
    | finished => rw [hend] at hp; cases hp
    | broken start f =>
      rw [hend] at hp
      cases hp
      rw [List.append_nil] at h
      rw [← h]
      exact hbroken _ f hend
  | cons t rest =>
    cases hp
    have hreverse : (scan text).tokens.reverse = rest.reverse ++ t :: before.reverse := by
      simp [h]
    have hcut := hmarked.cutAt hreverse
    rwa [List.reverse_reverse] at hcut

lemma utf8_ofList (cs : List Char) :
    utf8 (String.ofList cs) = cs.flatMap String.utf8EncodeChar := by
  simp [utf8, List.utf8Encode]

lemma utf8EncodeChar_ge {c : Char} (h : ¬ c.val.toNat ≤ 127) {b : UInt8}
    (hb : b ∈ String.utf8EncodeChar c) : 128 ≤ b.toNat := by
  have large (n : Nat) (hn : 128 ≤ n) (hlt : n < 256) (hb : b = UInt8.ofNat n) :
      128 ≤ b.toNat := by
    rw [hb, UInt8.toNat_ofNat']
    omega
  unfold String.utf8EncodeChar at hb
  simp only [h, if_false] at hb
  split_ifs at hb
  all_goals simp only [List.mem_cons, List.not_mem_nil, or_false] at hb
  · rcases hb with hb | hb <;> exact large _ (by omega) (by omega) hb
  · rcases hb with hb | hb | hb <;> exact large _ (by omega) (by omega) hb
  · rcases hb with hb | hb | hb | hb <;> exact large _ (by omega) (by omega) hb

/-- The bytes of one character cannot be cut after an ASCII one, but at their end. -/
lemma utf8EncodeChar_of_append {c : Char} {pre post : List UInt8} {b : UInt8}
    (h : String.utf8EncodeChar c = pre ++ post) (hlast : pre.getLast? = some b)
    (hb : b.toNat < 128) : pre = String.utf8EncodeChar c := by
  have hmem : b ∈ pre := List.mem_of_getLast? hlast
  by_cases hc : c.val.toNat ≤ 127
  · have hone : String.utf8EncodeChar c = [UInt8.ofNat c.val.toNat] := by
      simp only [String.utf8EncodeChar, hc, if_true]
    rw [hone] at h ⊢
    rcases List.append_eq_singleton_iff.1 h.symm with ⟨rfl, -⟩ | ⟨rfl, -⟩
    · cases hmem
    · rfl
  · have := utf8EncodeChar_ge hc (b := b) (by rw [h]; exact List.mem_append_left _ hmem)
    omega

lemma exists_chars {cs : List Char} {pre post : List UInt8}
    (h : cs.flatMap String.utf8EncodeChar = pre ++ post) (hend : EndsInAscii pre) :
    ∃ as bs, cs = as ++ bs ∧ as.flatMap String.utf8EncodeChar = pre := by
  induction cs generalizing pre with
  | nil =>
    obtain ⟨hpre, -⟩ := List.append_eq_nil_iff.1 h.symm
    exact ⟨[], [], rfl, hpre.symm⟩
  | cons c cs ih =>
    rw [List.flatMap_cons] at h
    rcases List.append_eq_append_iff.1 h with ⟨more, rfl, hrest⟩ | ⟨more, hchar, rfl⟩
    · have hmore : EndsInAscii more := by
        intro b hb
        exact hend b (by rw [List.getLast?_append, hb, Option.some_or])
      obtain ⟨as, bs, rfl, has⟩ := ih hrest hmore
      exact ⟨c :: as, bs, rfl, by rw [List.flatMap_cons, has]⟩
    · cases hlast : pre.getLast? with
      | none =>
        rw [List.getLast?_eq_none_iff] at hlast
        exact ⟨[], c :: cs, rfl, hlast.symm⟩
      | some b =>
        have hpre := utf8EncodeChar_of_append hchar hlast (hend b hlast)
        exact ⟨[c], cs, rfl, by rw [List.flatMap_singleton, hpre]⟩

/-- What stands before a cut of a text is a text. -/
theorem CutAt.exists_text {text : String} {ts : List Placed} {p : Position}
    (h : CutAt (utf8 text) ts p) :
    ∃ a b, text = a ++ b ∧ Position.start.advanceAll (utf8 a) = p ∧ scan a = ⟨ts, .finished p⟩ := by
  obtain ⟨pre, post, hbytes, hend, hp, hscan⟩ := h
  have htext : String.ofList text.toList = text := by simp
  rw [← htext, utf8_ofList] at hbytes
  obtain ⟨as, bs, hcs, has⟩ := exists_chars hbytes hend
  refine ⟨String.ofList as, String.ofList bs, ?_, ?_, ?_⟩
  · rw [← htext, hcs, String.ofList_append]
  · rw [utf8_ofList, has, hp]
  · rw [scan, utf8_ofList, has, hscan]

end ToolchainRelease.Text
