import ToolchainRelease.Proofs.Text.Spelling

/-! What a literal spells. Its body is a list of items, one for each byte of the value: the byte
itself, a named escape, or as many digits of an octal or hexadecimal escape as there are. Which
digits belong to an escape depends on the byte after them. -/
namespace ToolchainRelease.Text

def IsQuote (b : UInt8) : Prop := b = 34 ∨ b = 39

def octalValue (digits : List UInt8) : Nat :=
  digits.foldl (fun value d => value * 8 + (octalDigit? d).getD 0) 0

def hexValue (digits : List UInt8) : Nat :=
  digits.foldl (fun value d => value * 16 + (hexDigit? d).getD 0) 0

/-- The letters n, r, t, a, b, f and v, the backslash, both quotes and the question mark, each with
the byte that it stands for after a backslash. -/
def namedEscapes : List (UInt8 × UInt8) :=
  [(110, 10), (114, 13), (116, 9), (97, 7), (98, 8), (102, 12), (118, 11), (92, 92), (39, 39),
    (34, 34), (63, 63)]

lemma namedEscape?_eq_some_iff {c b : UInt8} :
    namedEscape? c = some b ↔ (c, b) ∈ namedEscapes := by
  constructor
  · intro h
    unfold namedEscape? at h
    split_ifs at h with h1 h2 h3 h4 h5 h6 h7 h8
    on_goal 8 => simp only [Bool.or_eq_true, decide_eq_true_eq] at h8
    all_goals cases h
    all_goals simp_all [namedEscapes, or_assoc]
  · intro h
    simp only [namedEscapes, List.mem_cons, Prod.mk.injEq, List.not_mem_nil, or_false] at h
    rcases h with ⟨rfl, rfl⟩ | ⟨rfl, rfl⟩ | ⟨rfl, rfl⟩ | ⟨rfl, rfl⟩ | ⟨rfl, rfl⟩ | ⟨rfl, rfl⟩ |
      ⟨rfl, rfl⟩ | ⟨rfl, rfl⟩ | ⟨rfl, rfl⟩ | ⟨rfl, rfl⟩ | ⟨rfl, rfl⟩ <;> rfl

/-- Of the bytes `digits ++ rest`, these are the digits at the start, but no more than `most`. -/
structure TakesDigits (most : Nat) (digit? : UInt8 → Option Nat) (digits rest : List UInt8) :
    Prop where
  digit : ∀ d ∈ digits, (digit? d).isSome = true
  few : digits.length ≤ most
  greedy : digits.length = most ∨ ∀ d ∈ rest.head?, digit? d = none

/-- The bytes that spell one byte of a value, where `rest` comes after them. -/
inductive Item (quote : UInt8) : (item rest : List UInt8) → UInt8 → Prop
  | raw {b : UInt8} {rest : List UInt8} (newline : b ≠ 10) (backslash : b ≠ 92)
      (other : b ≠ quote) : Item quote [b] rest b
  | named {c b : UInt8} {rest : List UInt8} (listed : (c, b) ∈ namedEscapes) :
      Item quote [92, c] rest b
  | octal {digits rest : List UInt8} {b : UInt8} (found : digits ≠ [])
      (taken : TakesDigits 3 octalDigit? digits rest) (value : octalValue digits = b.toNat) :
      Item quote (92 :: digits) rest b
  | hex {x b : UInt8} {digits rest : List UInt8} (letter : x = 120 ∨ x = 88) (found : digits ≠ [])
      (taken : TakesDigits 2 hexDigit? digits rest) (value : hexValue digits = b.toNat) :
      Item quote (92 :: x :: digits) rest b

/-- The body of a literal between these quotes, and the bytes that it stands for. -/
inductive Spelled (quote : UInt8) : (body value : List UInt8) → Prop
  | nil : Spelled quote [] []
  | cons {item body value : List UInt8} {b : UInt8} (first : Item quote item body b)
      (rest : Spelled quote body value) : Spelled quote (item ++ body) (b :: value)

lemma hexDigit_of_octalDigit {b : UInt8} (h : (octalDigit? b).isSome = true) :
    (hexDigit? b).isSome = true := by
  unfold octalDigit? at h
  split_ifs at h with hb
  · simp only [Bool.and_eq_true, decide_eq_true_eq] at hb
    have hnine : (55 : UInt8) ≤ 57 := by decide
    have hdigit : isDigit b = true := by simp [isDigit, hb.1, UInt8.le_trans hb.2 hnine]
    simp [hexDigit?, hdigit]
  · cases h

def Ends (tail : List UInt8) : Prop := ∀ d ∈ tail.head?, hexDigit? d = none

/-- In mode `m` and with these bytes ahead, the scanner goes on as in the literal `l`: an escape
under way is complete before them. -/
structure GoesOn (m : Mode) (l : OpenLiteral) (bs : List UInt8) : Prop where
  step : ∀ b ∈ bs.head?, ∀ p, m.step p b = Mode.inLiteral l p b
  close : ∀ p, m.close p = (Mode.literal l).close p

lemma goesOn_literal (l : OpenLiteral) (bs : List UInt8) : GoesOn (.literal l) l bs :=
  ⟨fun _ _ _ => rfl, fun _ => rfl⟩

lemma TakesDigits.append {most : Nat} {digit? : UInt8 → Option Nat} {digits rest tail : List UInt8}
    (h : TakesDigits most digit? digits rest) (ends : ∀ d ∈ tail.head?, digit? d = none) :
    TakesDigits most digit? digits (rest ++ tail) := by
  refine ⟨h.digit, h.few, h.greedy.imp_right fun hrest => ?_⟩
  cases rest with
  | nil => exact ends
  | cons d rest => exact hrest

lemma Ends.octal {tail : List UInt8} (h : Ends tail) : ∀ d ∈ tail.head?, octalDigit? d = none := by
  intro d hd
  by_contra hsome
  have := hexDigit_of_octalDigit (Option.isSome_iff_ne_none.2 hsome)
  simp [h d hd] at this

section Escape

variable {l : OpenLiteral} {q p : Position} {ts : List Placed}

lemma feed_backslash {m : Mode} {bs : List UInt8} (h : GoesOn m l (92 :: bs)) :
    (Scanner.mk m p ts).feed 92 = ⟨.escape l p, p.advance 92, ts⟩ := by
  simp [Scanner.feed, h.step 92 rfl p, Mode.inLiteral]

lemma feedAll_octalDigits {digits : List UInt8} (h : ∀ d ∈ digits, (octalDigit? d).isSome = true)
    {more value : Nat} (few : digits.length ≤ more) :
    (Scanner.mk (.octal l q more value) p ts).feedAll digits =
      ⟨.octal l q (more - digits.length)
        (digits.foldl (fun value d => value * 8 + (octalDigit? d).getD 0) value),
        p.advanceAll digits, ts⟩ := by
  induction digits generalizing more value p with
  | nil => rfl
  | cons d digits ih =>
    obtain ⟨n, hn⟩ := Option.isSome_iff_exists.1 (h d (by simp))
    obtain ⟨more, rfl⟩ : ∃ m, more = m + 1 := ⟨more - 1, by simp at few; omega⟩
    have hfeed : (Scanner.mk (.octal l q (more + 1) value) p ts).feed d =
        ⟨.octal l q more (value * 8 + n), p.advance d, ts⟩ := by
      simp [Scanner.feed, Mode.step, hn]
    rw [Scanner.feedAll_cons, hfeed, ih (fun e he => h e (by simp [he]))
      (Nat.le_of_succ_le_succ few)]
    simp [hn, Position.advanceAll_cons]

lemma namedEscape?_of_octalDigit {d : UInt8} (h : (octalDigit? d).isSome = true) :
    namedEscape? d = none := by
  have hlisted : ∀ e ∈ namedEscapes, octalDigit? e.1 = none := by simp [namedEscapes, octalDigit?]
  by_contra hnamed
  obtain ⟨b, hb⟩ := Option.ne_none_iff_exists'.1 hnamed
  simp [hlisted _ (namedEscape?_eq_some_iff.1 hb)] at h

lemma feedAll_octalEscape {digits : List UInt8} (found : digits ≠ [])
    (h : ∀ d ∈ digits, (octalDigit? d).isSome = true) (few : digits.length ≤ 3) :
    (Scanner.mk (.escape l q) p ts).feedAll digits =
      ⟨.octal l q (3 - digits.length) (octalValue digits), p.advanceAll digits, ts⟩ := by
  obtain ⟨d, digits, rfl⟩ := List.exists_cons_of_ne_nil found
  obtain ⟨n, hn⟩ := Option.isSome_iff_exists.1 (h d (by simp))
  have hfeed : (Scanner.mk (.escape l q) p ts).feed d = ⟨.octal l q 2 n, p.advance d, ts⟩ := by
    have hnamed : namedEscape? d = none := namedEscape?_of_octalDigit (by simp [hn])
    simp [Scanner.feed, Mode.step, Mode.inEscape, hn, hnamed]
  rw [Scanner.feedAll_cons, hfeed, feedAll_octalDigits (fun e he => h e (by simp [he]))
    (Nat.le_of_succ_le_succ few)]
  simp [octalValue, hn, Position.advanceAll_cons]

lemma feedAll_hexDigits {digits : List UInt8} (h : ∀ d ∈ digits, (hexDigit? d).isSome = true)
    {read value : Nat} (few : read + digits.length ≤ 2) :
    (Scanner.mk (.hex l q read value) p ts).feedAll digits =
      ⟨.hex l q (read + digits.length)
        (digits.foldl (fun value d => value * 16 + (hexDigit? d).getD 0) value),
        p.advanceAll digits, ts⟩ := by
  induction digits generalizing read value p with
  | nil => rfl
  | cons d digits ih =>
    obtain ⟨n, hn⟩ := Option.isSome_iff_exists.1 (h d (by simp))
    rw [List.length_cons] at few
    have hread : read < 2 := by omega
    have hfeed : (Scanner.mk (.hex l q read value) p ts).feed d =
        ⟨.hex l q (read + 1) (value * 16 + n), p.advance d, ts⟩ := by
      simp [Scanner.feed, Mode.step, hn, hread]
    rw [Scanner.feedAll_cons, hfeed, ih (fun e he => h e (by simp [he])) (by omega)]
    simp [hn, Position.advanceAll_cons, Nat.add_comm, Nat.add_left_comm]

lemma feed_hexLetter {x : UInt8} (letter : x = 120 ∨ x = 88) :
    (Scanner.mk (.escape l q) p ts).feed x = ⟨.hex l q 0 0, p.advance x, ts⟩ := by
  rcases letter with rfl | rfl <;> rfl

lemma feedAll_hexEscape {x : UInt8} {digits : List UInt8} (letter : x = 120 ∨ x = 88)
    (h : ∀ d ∈ digits, (hexDigit? d).isSome = true) (few : digits.length ≤ 2) :
    (Scanner.mk (.escape l q) p ts).feedAll (x :: digits) =
      ⟨.hex l q digits.length (hexValue digits), p.advanceAll (x :: digits), ts⟩ := by
  rw [Scanner.feedAll_cons, feed_hexLetter letter, feedAll_hexDigits h (by omega), Nat.zero_add]
  rfl

/-- An octal escape is over before a byte that it cannot take. -/
lemma step_octal {more value : Nat} {b : UInt8} (h : more = 0 ∨ octalDigit? b = none) :
    (Mode.octal l q more value).step p b =
      Mode.afterEscape l (Mode.closeOctal l q value) p b := by
  rcases h with rfl | h
  · rfl
  · simp [Mode.step, h]

lemma step_hex {read value : Nat} {b : UInt8} (h : 2 ≤ read ∨ hexDigit? b = none) :
    (Mode.hex l q read value).step p b =
      Mode.afterEscape l (Mode.closeHex l q read value) p b := by
  rcases h with h | h
  · have hread : ¬read < 2 := by omega
    cases hb : hexDigit? b <;> simp [Mode.step, hb, hread]
  · simp [Mode.step, h]

end Escape

lemma Item.feedAll {l : OpenLiteral} {item rest tail : List UInt8} {b : UInt8}
    (h : Item l.quote item rest b) (ends : Ends tail) {m : Mode}
    (hm : GoesOn m l (item ++ (rest ++ tail))) (p : Position) (ts : List Placed) :
    ∃ m', GoesOn m' (l.push b) (rest ++ tail) ∧
      (Scanner.mk m p ts).feedAll item = ⟨m', p.advanceAll item, ts⟩ := by
  cases h with
  | raw newline backslash other =>
    refine ⟨.literal (l.push b), goesOn_literal _ _, ?_⟩
    simp [Scanner.feedAll, Scanner.feed, hm.step b rfl p, Mode.inLiteral, newline, backslash, other,
      Position.advanceAll]
  | @named c _ _ listed =>
    refine ⟨.literal (l.push b), goesOn_literal _ _, ?_⟩
    rw [Scanner.feedAll_cons, feed_backslash hm]
    simp only [Scanner.feedAll_cons, Scanner.feedAll_nil, Scanner.feed, Mode.step, Mode.inEscape,
      namedEscape?_eq_some_iff.2 listed]
    rfl
  | @octal digits _ _ found taken value =>
    have htaken := taken.append ends.octal
    have hclosed : Mode.closeOctal l p (octalValue digits) = .ok (l.push b) := by
      rw [value, Mode.closeOctal, if_pos b.toNat_lt, UInt8.ofNat_toNat]
    refine ⟨.octal l p (3 - digits.length) (octalValue digits), ⟨fun c hc p' => ?_, fun p' => ?_⟩,
      ?_⟩
    · have hdone : 3 - digits.length = 0 ∨ octalDigit? c = none :=
        htaken.greedy.imp (fun hall => by omega) fun hnone => hnone c hc
      rw [step_octal hdone, hclosed]
      rfl
    · simp only [Mode.close, hclosed]
      rfl
    · rw [Scanner.feedAll_cons, feed_backslash hm, feedAll_octalEscape found taken.digit taken.few]
      rfl
  | @hex x _ digits _ letter found taken value =>
    have htaken := taken.append ends
    have hread : digits.length ≠ 0 := by simpa using found
    have hclosed : Mode.closeHex l p digits.length (hexValue digits) = .ok (l.push b) := by
      rw [value, Mode.closeHex, if_neg hread, UInt8.ofNat_toNat]
    refine ⟨.hex l p digits.length (hexValue digits), ⟨fun c hc p' => ?_, fun p' => ?_⟩, ?_⟩
    · have hdone : 2 ≤ digits.length ∨ hexDigit? c = none :=
        htaken.greedy.imp (fun hall => by omega) fun hnone => hnone c hc
      rw [step_hex hdone, hclosed]
      rfl
    · simp only [Mode.close, hclosed]
      rfl
    · rw [Scanner.feedAll_cons, feed_backslash hm, feedAll_hexEscape letter taken.digit taken.few]
      rfl

/-- A body adds to the literal what it spells, whatever comes after that ends its last escape. -/
theorem Spelled.feedAll {l : OpenLiteral} {body value tail : List UInt8}
    (h : Spelled l.quote body value) (ends : Ends tail) {m : Mode} (hm : GoesOn m l (body ++ tail))
    (p : Position) (ts : List Placed) :
    ∃ m', GoesOn m' { l with bytes := value.reverse ++ l.bytes } tail ∧
      (Scanner.mk m p ts).feedAll body = ⟨m', p.advanceAll body, ts⟩ := by
  generalize hquote : l.quote = quote at h
  induction h generalizing l m p with
  | nil =>
    subst hquote
    exact ⟨m, hm, rfl⟩
  | @cons item body value b first rest ih =>
    subst hquote
    rw [List.append_assoc] at hm
    obtain ⟨m₁, hm₁, hfirst⟩ := first.feedAll ends hm p ts
    obtain ⟨m₂, hm₂, hrest⟩ := ih hm₁ (p.advanceAll item) rfl
    refine ⟨m₂, ?_, ?_⟩
    · simpa [OpenLiteral.push] using hm₂
    · rw [Scanner.feedAll_append, hfirst, hrest, Position.advanceAll_append]

lemma IsQuote.ends {quote : UInt8} (mark : IsQuote quote) (bs : List UInt8) :
    Ends (quote :: bs) := by
  intro d hd
  obtain rfl : quote = d := by simpa using hd
  rcases mark with rfl | rfl <;> rfl

lemma IsQuote.begin {quote : UInt8} (mark : IsQuote quote) (p : Position) :
    Mode.begin p quote = ([], .literal ⟨p, quote, []⟩) := by
  rcases mark with rfl | rfl <;> rfl

/-- A body between its quotes is one literal, which holds the bytes that the body spells. -/
theorem SpellsAt.literal {quote : UInt8} {body value : List UInt8} (mark : IsQuote quote)
    (h : Spelled quote body value) :
    SpellsAt (quote :: (body ++ [quote])) (.literal value) [] := by
  intro p ts
  have hopen : (Scanner.mk .blank p ts).feed quote =
      ⟨.literal ⟨p, quote, []⟩, p.advance quote, ts⟩ := by
    simp [Scanner.feed, Mode.step, mark.begin]
  obtain ⟨m, hm, hbody⟩ := Spelled.feedAll (l := ⟨p, quote, []⟩) h (mark.ends [])
    (goesOn_literal _ _) (p.advance quote) ts
  have hclose : (Scanner.mk m ((p.advance quote).advanceAll body) ts).feed quote =
      ⟨.blank, ((p.advance quote).advanceAll body).advance quote, ⟨.literal value, p⟩ :: ts⟩ := by
    have hplain : quote ≠ 10 ∧ quote ≠ 92 := by
      rcases mark with rfl | rfl <;> decide
    simp [Scanner.feed, hm.step quote rfl, Mode.inLiteral, hplain.1, hplain.2, OpenLiteral.token]
  refine ⟨[], rfl, ?_⟩
  rw [Scanner.feedAll_cons, hopen, Scanner.feedAll_append, hbody, Scanner.feedAll_cons, hclose,
    Position.advanceAll_cons, Position.advanceAll_append]
  rfl

lemma octalDigit?_digitByte : ∀ n < 8, octalDigit? (digitByte n) = some n := by decide

lemma item_escapeByte (b : UInt8) (rest : List UInt8) : Item 34 (escapeByte b) rest b := by
  unfold escapeByte
  split_ifs with h1 h2 h3 h4 h5 h6
  · exact .named (by simp [h1, namedEscapes])
  · exact .named (by simp [h2, namedEscapes])
  · exact .named (by simp [h3, namedEscapes])
  · exact .named (by simp [h4, namedEscapes])
  · exact .named (by simp [h5, namedEscapes])
  · exact .raw h1 h5 h4
  · have hb := b.toNat_lt
    have hi := octalDigit?_digitByte (b.toNat / 64) (by omega)
    have hj := octalDigit?_digitByte (b.toNat / 8 % 8) (by omega)
    have hk := octalDigit?_digitByte (b.toNat % 8) (by omega)
    have hvalue : octalValue [digitByte (b.toNat / 64), digitByte (b.toNat / 8 % 8),
        digitByte (b.toNat % 8)] = b.toNat := by
      simp [octalValue, hi, hj, hk]
      omega
    exact .octal (by simp) ⟨by simp [hi, hj, hk], by simp, .inl rfl⟩ hvalue

lemma spelled_escape (bs : List UInt8) : Spelled 34 (bs.flatMap escapeByte) bs := by
  induction bs with
  | nil => exact .nil
  | cons b bs ih =>
    rw [List.flatMap_cons]
    exact .cons (item_escapeByte b _) ih

theorem Spells.literal (bs : List UInt8) :
    Spells (34 :: (bs.flatMap escapeByte ++ [34])) [.literal bs] :=
  (SpellsAt.literal (.inl rfl) (spelled_escape bs)).spells

end ToolchainRelease.Text
