import Mathlib.Algebra.Group.Nat.Defs
import ToolchainRelease.Proofs.Text.TokenBytes

/-! Scanning any text at a quote. Either a body and the same quote stand there, which are read as
the literal that the body spells, or the text after the quote is cut short or has an escape that is
none. -/
namespace ToolchainRelease.Text

lemma exists_takesDigits (most : Nat) (digit? : UInt8 → Option Nat) (bs : List UInt8) :
    ∃ digits rest, bs = digits ++ rest ∧ TakesDigits most digit? digits rest := by
  induction bs generalizing most with
  | nil => exact ⟨[], [], rfl, nofun, Nat.zero_le most, .inr nofun⟩
  | cons b bs ih =>
    cases hb : digit? b with
    | none => exact ⟨[], b :: bs, rfl, nofun, Nat.zero_le most, .inr (by simpa using hb)⟩
    | some n =>
      cases most with
      | zero => exact ⟨[], b :: bs, rfl, nofun, Nat.le_refl 0, .inl rfl⟩
      | succ most =>
        obtain ⟨digits, rest, rfl, digit, few, greedy⟩ := ih most
        refine ⟨b :: digits, rest, rfl, ?_, Nat.succ_le_succ few, greedy.imp_left fun h => ?_⟩
        · simpa [hb] using digit
        · rw [List.length_cons, h]

lemma toNat_le_of_range {a b d : UInt8} (h : (decide (a ≤ d) && decide (d ≤ b)) = true) :
    d.toNat ≤ b.toNat :=
  UInt8.le_iff_toNat_le.1 (of_decide_eq_true (Bool.and_eq_true_iff.1 h).2)

lemma octalDigit?_lt {d : UInt8} {n : Nat} (h : octalDigit? d = some n) : n < 8 := by
  unfold octalDigit? at h
  split_ifs at h with hd
  have hle : d.toNat ≤ 55 := toNat_le_of_range hd
  cases h
  omega

lemma hexDigit?_lt {d : UInt8} {n : Nat} (h : hexDigit? d = some n) : n < 16 := by
  unfold hexDigit? isDigit at h
  split_ifs at h with hdigit hlower hupper
  · have hle : d.toNat ≤ 57 := toNat_le_of_range hdigit
    cases h
    omega
  · have hle : d.toNat ≤ 102 := toNat_le_of_range hlower
    cases h
    omega
  · have hle : d.toNat ≤ 70 := toNat_le_of_range hupper
    cases h
    omega

lemma foldl_digits_lt {base : Nat} {digit? : UInt8 → Option Nat} (pos : 0 < base)
    (below : ∀ d n, digit? d = some n → n < base) (digits : List UInt8) (value : Nat) :
    digits.foldl (fun value d => value * base + (digit? d).getD 0) value <
      (value + 1) * base ^ digits.length := by
  induction digits generalizing value with
  | nil => simp
  | cons d digits ih =>
    have hd : (digit? d).getD 0 < base := by
      cases h : digit? d with
      | none => exact pos
      | some n => exact below d n h
    have hstep : value * base + (digit? d).getD 0 + 1 ≤ (value + 1) * base := by
      rw [Nat.succ_mul]
      omega
    calc _ < (value * base + (digit? d).getD 0 + 1) * base ^ digits.length := ih _
      _ ≤ (value + 1) * base * base ^ digits.length := Nat.mul_le_mul_right _ hstep
      _ = (value + 1) * base ^ (d :: digits).length := by
        rw [List.length_cons, Nat.pow_succ, Nat.mul_assoc, Nat.mul_comm base]

lemma octalValue_lt (digits : List UInt8) : octalValue digits < 8 ^ digits.length := by
  have h : octalValue digits < (0 + 1) * 8 ^ digits.length :=
    foldl_digits_lt (by decide) (fun _ _ => octalDigit?_lt) digits 0
  rwa [Nat.zero_add, Nat.one_mul] at h

lemma hexValue_lt (digits : List UInt8) : hexValue digits < 16 ^ digits.length := by
  have h : hexValue digits < (0 + 1) * 16 ^ digits.length :=
    foldl_digits_lt (by decide) (fun _ _ => hexDigit?_lt) digits 0
  rwa [Nat.zero_add, Nat.one_mul] at h

/-- What may come after a body: the quote that ends the literal, or what cuts it short. -/
inductive Stops (quote : UInt8) : List UInt8 → Prop
  | closed {after : List UInt8} : Stops quote (quote :: after)
  | cut {tail : List UInt8} (cut : tail = [] ∨ tail = [92] ∨ ∃ more, tail = 10 :: more) :
      Stops quote tail
  | bad {after : List UInt8} {c : Cause} (bad : BadEscape after c) : Stops quote (92 :: after)

lemma TakesDigits.of_append {most : Nat} {digit? : UInt8 → Option Nat}
    {digits rest tail : List UInt8} (h : TakesDigits most digit? digits (rest ++ tail)) :
    TakesDigits most digit? digits rest := by
  refine ⟨h.digit, h.few, h.greedy.imp_right fun hnext d hd => hnext d ?_⟩
  cases rest with
  | nil => cases hd
  | cons c rest => exact hd

lemma Item.of_append {quote b : UInt8} {item rest tail : List UInt8}
    (h : Item quote item (rest ++ tail) b) : Item quote item rest b := by
  cases h with
  | raw newline backslash other => exact .raw newline backslash other
  | named listed => exact .named listed
  | octal found taken value => exact .octal found taken.of_append value
  | hex letter found taken value => exact .hex letter found taken.of_append value

lemma octalEscape_cases (quote : UInt8) {c : UInt8} (hc : (octalDigit? c).isSome = true)
    (bs : List UInt8) :
    Stops quote (92 :: c :: bs) ∨ ∃ item rest b, 92 :: c :: bs = item ++ rest ∧ item ≠ [] ∧
      Item quote item rest b := by
  obtain ⟨digits, rest, hsplit, taken⟩ := exists_takesDigits 3 octalDigit? (c :: bs)
  have found : digits ≠ [] := by
    rintro rfl
    obtain rfl : c :: bs = rest := hsplit
    rcases taken.greedy with h | h
    · cases h
    · simp [h c rfl] at hc
  rw [hsplit]
  by_cases hsmall : octalValue digits < 256
  · refine .inr ⟨92 :: digits, rest, UInt8.ofNat (octalValue digits), rfl, by simp, ?_⟩
    exact .octal found taken (UInt8.toNat_ofNat_of_lt' hsmall).symm
  · exact .inl (.bad (.octal taken.digit taken.few (by omega)))

lemma hexEscape_cases (quote : UInt8) {x : UInt8} (letter : x = 120 ∨ x = 88) (bs : List UInt8) :
    Stops quote (92 :: x :: bs) ∨ ∃ item rest b, 92 :: x :: bs = item ++ rest ∧ item ≠ [] ∧
      Item quote item rest b := by
  obtain ⟨digits, rest, rfl, taken⟩ := exists_takesDigits 2 hexDigit? bs
  by_cases found : digits = []
  · subst found
    exact .inl (.bad (.hex letter (taken.greedy.resolve_left (by simp))))
  · have hsmall : hexValue digits < 256 :=
      (hexValue_lt digits).trans_le (Nat.pow_le_pow_right (by decide) taken.few)
    refine .inr ⟨92 :: x :: digits, rest, UInt8.ofNat (hexValue digits), rfl, by simp, ?_⟩
    exact .hex letter found taken (UInt8.toNat_ofNat_of_lt' hsmall).symm

/-- After a backslash stands the rest of an item, or the text is cut short, or no escape is
there. -/
lemma escape_cases (quote : UInt8) (bs : List UInt8) :
    Stops quote (92 :: bs) ∨ ∃ item rest b, 92 :: bs = item ++ rest ∧ item ≠ [] ∧
      Item quote item rest b := by
  cases bs with
  | nil => exact .inl (.cut (.inr (.inl rfl)))
  | cons c bs =>
    cases hnamed : namedEscape? c with
    | some b =>
      exact .inr ⟨[92, c], bs, b, rfl, by simp, .named (namedEscape?_eq_some_iff.1 hnamed)⟩
    | none =>
      by_cases hoctal : (octalDigit? c).isSome = true
      · exact octalEscape_cases quote hoctal bs
      by_cases hletter : c = 120 ∨ c = 88
      · exact hexEscape_cases quote hletter bs
      · exact .inl (.bad (.unknown (by simp_all [isEscapeLetter])))

/-- Some bytes of any text are the body of a literal, and what comes after them ends it. -/
theorem exists_spelled (quote : UInt8) (bs : List UInt8) :
    ∃ body value tail, bs = body ++ tail ∧ Spelled quote body value ∧ Stops quote tail := by
  -- On the length, since an escape is up to four bytes long.
  induction hn : bs.length using Nat.strong_induction_on generalizing bs with
  | h n ih =>
    have hfirst : Stops quote bs ∨ ∃ item rest b, bs = item ++ rest ∧ item ≠ [] ∧
        Item quote item rest b := by
      cases bs with
      | nil => exact .inl (.cut (.inl rfl))
      | cons b bs =>
        by_cases hnewline : b = 10
        · exact .inl (.cut (.inr (.inr ⟨bs, by rw [hnewline]⟩)))
        by_cases hbackslash : b = 92
        · rw [hbackslash]
          exact escape_cases quote bs
        by_cases hquote : b = quote
        · rw [hquote]
          exact .inl .closed
        exact .inr ⟨[b], bs, b, rfl, by simp, .raw hnewline hbackslash hquote⟩
    rcases hfirst with hstops | ⟨item, rest, b, rfl, hitem, first⟩
    · exact ⟨[], [], bs, rfl, .nil, hstops⟩
    · have hlt : rest.length < n := by
        have := List.length_pos_iff.2 hitem
        simp at hn
        omega
      obtain ⟨body, value, tail, rfl, spelled, hstops⟩ := ih _ hlt rest rfl
      exact ⟨item ++ body, b :: value, tail, by simp, .cons first.of_append spelled, hstops⟩

section Broken

variable {l : OpenLiteral} {p q start : Position} {ts : List Placed} {f : Fault}

lemma feedAll_failed (bs : List UInt8) :
    (Scanner.mk (.failed start f) p ts).feedAll bs = ⟨.failed start f, p.advanceAll bs, ts⟩ := by
  induction bs generalizing p with
  | nil => rfl
  | cons b bs ih => exact ih

/-- A text is broken where it ends and where it goes on. -/
lemma close_feedAll_broken {m : Mode} {bs : List UInt8}
    (step : ∀ b ∈ bs.head?, m.step p b = ([], .failed start f))
    (close : bs = [] → m.close p = ⟨[], .broken start f⟩) :
    ((Scanner.mk m p ts).feedAll bs).close = ⟨ts.reverse, .broken start f⟩ := by
  cases bs with
  | nil => simp [Scanner.feedAll_nil, Scanner.close, close rfl]
  | cons b bs =>
    have hfeed : (Scanner.mk m p ts).feed b = ⟨.failed start f, p.advance b, ts⟩ := by
      simp [Scanner.feed, step b rfl]
    rw [Scanner.feedAll_cons, hfeed, feedAll_failed]
    simp [Scanner.close, Mode.close]

lemma BadEscape.broken {bs : List UInt8} {c : Cause} (h : BadEscape bs c) :
    ((Scanner.mk (.escape l q) p ts).feedAll bs).close =
      ⟨ts.reverse, .broken l.start ⟨q, c⟩⟩ := by
  cases h with
  | @octal digits after octal few large =>
    have hlength : digits.length = 3 := by
      by_contra hne
      have hpow : 8 ^ digits.length ≤ 8 ^ 2 := Nat.pow_le_pow_right (by decide) (by omega)
      have := octalValue_lt digits
      omega
    have hclosed : Mode.closeOctal l q (octalValue digits) = .error ⟨q, .octalOutOfRange⟩ :=
      if_neg (by omega)
    rw [Scanner.feedAll_append, feedAll_octalEscape (by rintro rfl; cases hlength) octal few,
      hlength]
    refine close_feedAll_broken (fun b _ => ?_) fun _ => ?_
    · rw [step_octal (.inl rfl), hclosed]
      rfl
    · simp only [Mode.close, hclosed]
      rfl
  | @hex x after letter digitless =>
    rw [Scanner.feedAll_cons, feed_hexLetter letter]
    refine close_feedAll_broken (fun b hb => ?_) fun _ => rfl
    rw [step_hex (.inr (digitless b hb))]
    rfl
  | @unknown b after letter =>
    refine close_feedAll_broken (fun c hc => ?_) fun h => absurd h (List.cons_ne_nil b after)
    obtain rfl : b = c := by simpa using hc
    simp only [isEscapeLetter, Bool.or_eq_false_iff, decide_eq_false_iff_not] at letter
    simp_all [Mode.step, Mode.inEscape]

lemma GoesOn.broken_of_cut {m : Mode} {bs : List UInt8} (h : GoesOn m l bs)
    (cut : bs = [] ∨ bs = [92] ∨ ∃ more, bs = 10 :: more) :
    ((Scanner.mk m p ts).feedAll bs).close =
      ⟨ts.reverse, .broken l.start ⟨l.start, .unterminatedLiteral⟩⟩ := by
  rcases cut with rfl | rfl | ⟨more, rfl⟩
  · exact close_feedAll_broken nofun fun _ => h.close p
  · rw [Scanner.feedAll_cons, feed_backslash h]
    exact close_feedAll_broken nofun fun _ => rfl
  · refine close_feedAll_broken (fun b hb => ?_) nofun
    rw [h.step b hb p]
    obtain rfl : 10 = b := by simpa using hb
    rfl

end Broken

/-- Why the bytes after the quote at `place` do not go on to a quote that ends the literal. -/
inductive LiteralFault (quote : UInt8) (place : Position) : List UInt8 → Fault → Prop
  | unterminated {body value tail : List UInt8} (spelled : Spelled quote body value)
      (cut : tail = [] ∨ tail = [92] ∨ ∃ more, tail = 10 :: more) :
      LiteralFault quote place (body ++ tail) ⟨place, .unterminatedLiteral⟩
  | escape {body value after : List UInt8} {c : Cause} (spelled : Spelled quote body value)
      (bad : BadEscape after c) :
      LiteralFault quote place (body ++ 92 :: after) ⟨place.advanceAll (quote :: body), c⟩

lemma feedAll_opening {quote : UInt8} (mark : IsQuote quote) (p : Position) (ts : List Placed)
    (bs : List UInt8) : (Scanner.mk .blank p ts).feedAll (quote :: bs) =
      (Scanner.mk (.literal ⟨p, quote, []⟩) (p.advance quote) ts).feedAll bs := by
  rw [Scanner.feedAll_cons]
  simp [Scanner.feed, Mode.step, mark.begin]

lemma LiteralFault.broken {quote : UInt8} {place : Position} {bs : List UInt8} {f : Fault}
    (h : LiteralFault quote place bs f) (mark : IsQuote quote) (ts : List Placed) :
    ((Scanner.mk .blank place ts).feedAll (quote :: bs)).close =
      ⟨ts.reverse, .broken place f⟩ := by
  rw [feedAll_opening mark]
  cases h with
  | @unterminated body value tail spelled cut =>
    have ends : Ends tail := by
      rcases cut with rfl | rfl | ⟨more, rfl⟩ <;> simp [Ends] <;> rfl
    obtain ⟨m, hm, hbody⟩ := Spelled.feedAll (l := ⟨place, quote, []⟩) spelled ends
      (goesOn_literal _ _) (place.advance quote) ts
    rw [Scanner.feedAll_append, hbody]
    exact hm.broken_of_cut cut
  | @escape body value after c spelled bad =>
    have ends : Ends (92 :: after) := by simp [Ends]; rfl
    obtain ⟨m, hm, hbody⟩ := Spelled.feedAll (l := ⟨place, quote, []⟩) spelled ends
      (goesOn_literal _ _) (place.advance quote) ts
    rw [Scanner.feedAll_append, hbody, Scanner.feedAll_cons, feed_backslash hm]
    exact bad.broken

namespace Scanner

/-- The next byte may begin a token: the scanner is between tokens, or in a word, which ends at a
byte that cannot be part of it. -/
def AtToken (s : Scanner) : Prop := s.mode = .blank ∨ ∃ start bytes, s.mode = .word start bytes

/-- With the quote and these bytes, and no sooner, the scanner has read one more token than it had
with the bytes before the quote: the literal of this value. -/
structure ReadsLiteral (s : Scanner) (quote : UInt8) (piece value : List UInt8) : Prop where
  whole : s.feedAll (quote :: piece) = ⟨.blank, s.position.advanceAll (quote :: piece),
    ⟨.literal value, s.position⟩ :: s.close.tokens.reverse⟩
  before : ∀ init, init <+: piece → init ≠ piece →
    (s.feedAll (quote :: init)).tokens = s.close.tokens.reverse

variable {s : Scanner} {quote : UInt8}

lemma AtToken.feedAll_quote (h : s.AtToken) (mark : IsQuote quote) (bs : List UInt8) :
    s.feedAll (quote :: bs) =
      (Scanner.mk .blank s.position s.close.tokens.reverse).feedAll (quote :: bs) := by
  obtain ⟨m, p, ts⟩ := s
  rcases h with h | ⟨start, bytes, h⟩
  · cases h
    simp [close, Mode.close]
  · cases h
    have hend : isWordByte quote = false := by
      rcases mark with rfl | rfl <;> rfl
    rw [feedAll_cons, feed_after_word hend]
    simp [close, Mode.close, feedAll_cons]

lemma tokens_suffix (s : Scanner) (bs : List UInt8) : s.tokens <:+ (s.feedAll bs).tokens := by
  induction bs generalizing s with
  | nil => exact List.suffix_rfl
  | cons b bs ih => exact (List.suffix_append _ _).trans (ih (s.feed b))

lemma tokens_of_append {as bs : List UInt8} (h : (s.feedAll (as ++ bs)).tokens = s.tokens) :
    (s.feedAll as).tokens = s.tokens := by
  have hlast := (s.feedAll as).tokens_suffix bs
  rw [← feedAll_append, h] at hlast
  exact hlast.eq_of_length (Nat.le_antisymm hlast.length_le (s.tokens_suffix as).length_le)

lemma readsLiteral_of_spelled (hs : s.AtToken) (mark : IsQuote quote) {body value : List UInt8}
    (h : Spelled quote body value) : s.ReadsLiteral quote (body ++ [quote]) value := by
  constructor
  · obtain ⟨ps, hps, hfeed⟩ := SpellsAt.literal mark h s.position s.close.tokens.reverse
    obtain rfl := List.map_eq_nil_iff.1 hps
    rw [hs.feedAll_quote mark]
    exact hfeed
  · intro init hinit hne
    obtain ⟨more, rfl⟩ := (List.prefix_concat_iff.1 hinit).resolve_left hne
    obtain ⟨m, -, hbody⟩ := Spelled.feedAll (l := ⟨s.position, quote, []⟩) h (mark.ends [])
      (goesOn_literal _ _) (s.position.advance quote) s.close.tokens.reverse
    rw [hs.feedAll_quote mark, feedAll_opening mark]
    exact tokens_of_append (by rw [hbody])

lemma exists_literal_or_fault (quote : UInt8) (place : Position) (bs : List UInt8) :
    (∃ body value after, bs = body ++ quote :: after ∧ Spelled quote body value) ∨
      ∃ f, LiteralFault quote place bs f := by
  obtain ⟨body, value, tail, rfl, spelled, stops⟩ := exists_spelled quote bs
  cases stops with
  | @closed after => exact .inl ⟨body, value, after, rfl, spelled⟩
  | cut cut => exact .inr ⟨_, .unterminated spelled cut⟩
  | bad bad => exact .inr ⟨_, .escape spelled bad⟩

/-- What is read as a literal is a body with the same quote after it, and holds what the body
spells. -/
theorem readsLiteral_iff_spelled (hs : s.AtToken) (mark : IsQuote quote)
    {piece value : List UInt8} : s.ReadsLiteral quote piece value ↔
      ∃ body, piece = body ++ [quote] ∧ Spelled quote body value := by
  constructor
  · intro h
    rcases exists_literal_or_fault quote s.position piece with ⟨body, v, after, rfl, spelled⟩ |
      ⟨f, hfault⟩
    · have hread := readsLiteral_of_spelled hs mark spelled
      have hafter : after = [] := by
        by_contra hne
        have hprefix : body ++ [quote] <+: body ++ quote :: after := ⟨after, by simp⟩
        have hnone := h.before _ hprefix (by simpa using hne)
        simp [hread.whole] at hnone
      subst hafter
      have hsame := h.whole.symm.trans hread.whole
      simp only [Scanner.mk.injEq, List.cons.injEq, Placed.mk.injEq, Token.literal.injEq] at hsame
      exact ⟨body, rfl, hsame.2.2.1.1 ▸ spelled⟩
    · have hbroken := hfault.broken mark s.close.tokens.reverse
      rw [← hs.feedAll_quote mark, h.whole, Spells.close_blank] at hbroken
      cases congrArg Scan.ending hbroken
  · rintro ⟨body, rfl, h⟩
    exact readsLiteral_of_spelled hs mark h

/-- Where no literal is read, the text is broken from the quote on, for what stands after it. -/
theorem not_readsLiteral_iff (hs : s.AtToken) (mark : IsQuote quote) {bs : List UInt8} :
    (¬∃ piece value, piece <+: bs ∧ s.ReadsLiteral quote piece value) ↔
      ∃ f, (s.feedAll (quote :: bs)).close = ⟨s.close.tokens, .broken s.position f⟩ ∧
        LiteralFault quote s.position bs f := by
  constructor
  · intro h
    rcases exists_literal_or_fault quote s.position bs with ⟨body, v, after, rfl, spelled⟩ |
      ⟨f, hfault⟩
    · exact absurd ⟨_, v, ⟨after, by simp⟩, readsLiteral_of_spelled hs mark spelled⟩ h
    · refine ⟨f, ?_, hfault⟩
      rw [hs.feedAll_quote mark, hfault.broken mark, List.reverse_reverse]
  · rintro ⟨f, hbroken, -⟩ ⟨piece, value, ⟨more, rfl⟩, h⟩
    have htokens := congrArg Scan.tokens hbroken
    have hsuffix := (s.feedAll (quote :: piece)).tokens_suffix more
    rw [← feedAll_append, List.cons_append, h.whole] at hsuffix
    have hlength := hsuffix.length_le
    replace htokens := congrArg List.length htokens
    simp only [close, List.length_append, List.length_reverse, List.length_cons] at htokens hlength
    omega

end Scanner

namespace Mode

/-- The number of an escape under way is below what its digits can spell. -/
def Bounded : Mode → Prop
  | octal _ _ more value => more ≤ 2 ∧ value < 8 ^ (3 - more)
  | hex _ _ digits value => digits ≤ 2 ∧ value < 16 ^ digits
  | _ => True

lemma begin_bounded (p : Position) (b : UInt8) : (begin p b).2.Bounded := by
  have h := begin_moves p b
  generalize (begin p b).1 = tokens, (begin p b).2 = next at h
  cases h with
  | inLiteral before => cases before
  | _ => trivial

lemma inLiteral_bounded (l : OpenLiteral) (p : Position) (b : UInt8) :
    (inLiteral l p b).2.Bounded := by
  unfold inLiteral
  split_ifs <;> trivial

lemma afterEscape_bounded (l : OpenLiteral) (closed : Except Fault OpenLiteral) (p : Position)
    (b : UInt8) : (afterEscape l closed p b).2.Bounded := by
  cases closed with
  | ok l' => exact inLiteral_bounded l' p b
  | error f => trivial

theorem step_bounded {m : Mode} (h : m.Bounded) (p : Position) (b : UInt8) :
    (m.step p b).2.Bounded := by
  cases m with
  | blank => exact begin_bounded p b
  | comment =>
    simp only [step]
    split_ifs <;> trivial
  | word start bytes =>
    simp only [step]
    split_ifs
    · trivial
    · exact begin_bounded p b
  | literal l => exact inLiteral_bounded l p b
  | escape l start =>
    simp only [step, inEscape]
    split
    · trivial
    · next d _ hd => exact ⟨Nat.le_refl 2, octalDigit?_lt hd⟩
    · split_ifs
      · exact ⟨Nat.zero_le 2, Nat.zero_lt_one⟩
      · trivial
  | octal l start more value =>
    simp only [step]
    split
    · next n d hd =>
      have hmore : n + 1 ≤ 2 := h.1
      have hvalue : value < 8 ^ (3 - (n + 1)) := h.2
      have hlt := octalDigit?_lt hd
      have hpow : 8 ^ (3 - n) = 8 ^ (3 - (n + 1)) * 8 := by
        rw [← Nat.pow_succ]
        congr 1
        omega
      refine ⟨by omega, ?_⟩
      rw [hpow]
      omega
    · exact afterEscape_bounded l _ p b
  | hex l start digits value =>
    simp only [step]
    split
    · next d hd =>
      split_ifs with hfew
      · have hlt := hexDigit?_lt hd
        refine ⟨hfew, ?_⟩
        rw [Nat.pow_succ]
        have := h.2
        omega
      · exact afterEscape_bounded l _ p b
    · exact afterEscape_bounded l _ p b
  | failed start f => trivial

theorem feedAll_bounded {s : Scanner} (h : s.mode.Bounded) (bs : List UInt8) :
    (s.feedAll bs).mode.Bounded := by
  induction bs generalizing s with
  | nil => exact h
  | cons b bs ih => exact ih (step_bounded h s.position b)

/-- The number of an escape fits the type that holds it: 32 bits for octal digits, 8 bits for
hexadecimal ones. -/
def Fits : Mode → Prop
  | octal _ _ _ value => value < 2 ^ 32
  | hex _ _ _ value => value < 2 ^ 8
  | _ => True

lemma Bounded.fits {m : Mode} (h : m.Bounded) : m.Fits := by
  cases m with
  | octal l start more value =>
    have hpow : 8 ^ (3 - more) ≤ 8 ^ 3 := Nat.pow_le_pow_right (by decide) (by omega)
    have hvalue := h.2
    show value < 2 ^ 32
    omega
  | hex l start digits value =>
    have hpow : 16 ^ digits ≤ 16 ^ 2 := Nat.pow_le_pow_right (by decide) h.1
    have hvalue := h.2
    show value < 2 ^ 8
    omega
  | _ => trivial

end Mode

end ToolchainRelease.Text
