import ToolchainRelease.Proofs.Text.LiteralScan
import ToolchainRelease.Proofs.Text.Reading
import ToolchainRelease.Proofs.Text.Trivia
import ToolchainRelease.Records

/-! The value of a text field. It is spelled by literals that follow each other, and only the bytes
of all of them together have to be UTF-8. -/
namespace ToolchainRelease.Text

/-- Blank space and whole comments, in bytes: what may stand between two tokens. -/
inductive Gap : List UInt8 → Prop
  | nil : Gap []
  | space {b : UInt8} {bs : List UInt8} (blank : isSpace b = true) (rest : Gap bs) : Gap (b :: bs)
  | comment {line bs : List UInt8} (oneLine : 10 ∉ line) (rest : Gap bs) :
      Gap (35 :: (line ++ [10]) ++ bs)

lemma Gap.spells {bs : List UInt8} (h : Gap bs) : Spells bs [] := by
  induction h with
  | nil => exact .nil
  | space blank rest ih => exact (Spells.space blank).append ih
  | comment oneLine rest ih => exact (Spells.comment oneLine).append ih

/-- Literals one after another, in quotes of either sort, and the bytes that each of them holds. -/
inductive Literals : List UInt8 → List (List UInt8) → Prop
  | last {quote : UInt8} {body value : List UInt8} (mark : IsQuote quote)
      (spelled : Spelled quote body value) : Literals (quote :: (body ++ [quote])) [value]
  | cons {quote : UInt8} {body value gap bs : List UInt8} {values : List (List UInt8)}
      (mark : IsQuote quote) (spelled : Spelled quote body value) (apart : Gap gap)
      (rest : Literals bs values) :
      Literals (quote :: (body ++ [quote]) ++ (gap ++ bs)) (value :: values)

lemma Literals.spellsAt {bs : List UInt8} {values : List (List UInt8)} (h : Literals bs values) :
    ∃ value more, values = value :: more ∧
      SpellsAt bs (.literal value) (more.map .literal) := by
  induction h with
  | last mark spelled => exact ⟨_, [], rfl, .literal mark spelled⟩
  | cons mark spelled apart rest ih =>
    obtain ⟨value, more, rfl, hrest⟩ := ih
    refine ⟨_, _, rfl, ?_⟩
    simpa using (SpellsAt.literal mark spelled).append (apart.spells.append hrest.spells)

/-- The tokens that have been read before do not matter to those that follow. -/
lemma Scanner.feedAll_tokens (m : Mode) (p : Position) (ts : List Placed) (bs : List UInt8) :
    (Scanner.mk m p ts).feedAll bs =
      ⟨((Scanner.mk m p []).feedAll bs).mode, p.advanceAll bs,
        ((Scanner.mk m p []).feedAll bs).tokens ++ ts⟩ := by
  induction bs generalizing m p ts with
  | nil => rfl
  | cons b bs ih =>
    simp only [feedAll_cons, feed]
    rw [ih _ _ (_ ++ ts), ih _ _ (_ ++ [])]
    simp [Position.advanceAll_cons]

namespace Reader

variable {Kind : Type} {S : Schema Kind} {r : Reader Kind} {p : Position}

/-- What the reader makes of these bytes, which begin at this place between two tokens. -/
def readAt (S : Schema Kind) (r : Reader Kind) (p : Position) (bs : List UInt8) : Reading :=
  let rest := ((Scanner.mk .blank p []).feedAll bs).close
  r.run S rest.tokens rest.ending

/-- The bytes can be read to their end, or a token can be read first that is no literal. -/
def FollowsAt (p : Position) (bs : List UInt8) : Prop :=
  let rest := ((Scanner.mk .blank p []).feedAll bs).close
  Follows rest.tokens rest.ending

lemma readAt_append {as : List UInt8} {p' : Position} {ps : List Placed}
    (h : (Scanner.mk .blank p []).feedAll as = ⟨.blank, p', ps.reverse⟩) (bs : List UInt8) :
    r.readAt S p (as ++ bs) =
      let rest := ((Scanner.mk .blank p' []).feedAll bs).close
      r.run S (ps ++ rest.tokens) rest.ending := by
  unfold readAt
  rw [Scanner.feedAll_append, h, Scanner.feedAll_tokens]
  have hposition := Scanner.feedAll_position (Scanner.mk .blank p' []) bs
  simp only [Scanner.close, hposition, List.reverse_append, List.reverse_reverse, List.append_assoc]

/-- A colon and literals, with gaps before and between them, are scanned as the colon and the
literals; the first literal stands where it begins. -/
lemma feedAll_value {before gap bs : List UInt8} {value : List UInt8} {more : List (List UInt8)}
    (hbefore : Gap before) (hgap : Gap gap)
    (hbs : SpellsAt bs (.literal value) (more.map .literal)) (p : Position) :
    ∃ (c : Position) (ps : List Placed), ps.map Placed.token = more.map .literal ∧
      (Scanner.mk .blank p []).feedAll (before ++ 58 :: (gap ++ bs)) =
        ⟨.blank, p.advanceAll (before ++ 58 :: (gap ++ bs)),
          (⟨.colon, c⟩ :: ⟨.literal value, p.advanceAll (before ++ 58 :: gap)⟩ :: ps).reverse⟩ := by
  have hhead : (Scanner.mk .blank p []).feedAll (before ++ 58 :: gap) =
      ⟨.blank, p.advanceAll (before ++ 58 :: gap), [⟨.colon, p.advanceAll before⟩]⟩ := by
    rw [Scanner.feedAll_append, hbefore.spells.feedAll_nil, Scanner.feedAll_cons,
      Position.advanceAll_append]
    exact hgap.spells.feedAll_nil _ _
  obtain ⟨ps, hps, hfeed⟩ :=
    hbs (p.advanceAll (before ++ 58 :: gap)) [⟨.colon, p.advanceAll before⟩]
  have hsplit : before ++ 58 :: (gap ++ bs) = (before ++ 58 :: gap) ++ bs := by simp
  refine ⟨p.advanceAll before, ps, hps, ?_⟩
  rw [hsplit, Scanner.feedAll_append, hhead, hfeed, ← Position.advanceAll_append]
  simp

section Value

variable {f : FieldSchema Kind} {place : Position} (hr : r.need = .colon f place)
  (shape : f.shape = .text ∨ f.shape = .texts) {before gap bs after : List UInt8}
  {values : List (List UInt8)} (hbefore : Gap before) (hgap : Gap gap) (hbs : Literals bs values)
  (follows : FollowsAt (p.advanceAll (before ++ 58 :: (gap ++ bs))) after)
include hr shape hbefore hgap hbs follows

/-- The literals of a field are stored as one text before what follows them is read. -/
lemma readAt_literals : r.readAt S p (before ++ 58 :: (gap ++ bs) ++ after) =
    let rest := ((Scanner.mk .blank (p.advanceAll (before ++ 58 :: (gap ++ bs))) []).feedAll
      after).close
    r.resume S (r.storeText f place (p.advanceAll (before ++ 58 :: gap)) values.flatten)
      rest.tokens rest.ending := by
  obtain ⟨value, more, rfl, hspells⟩ := hbs.spellsAt
  obtain ⟨c, ps, hps, hfeed⟩ := feedAll_value hbefore hgap hspells p
  have hcolon : r.step S ⟨.colon, c⟩ = .ok { r with need := .value f place } := by
    simp only [step, hr]
  have htokens : (⟨.literal value, p.advanceAll (before ++ 58 :: gap)⟩ :: ps).map Placed.token =
      (value :: more).map .literal := by
    simp [hps]
  rw [readAt_append hfeed]
  exact (run_cons hcolon _ _).trans (run_text shape place htokens follows)

lemma readAt_literals_valid {v : String} (hv : utf8 v = values.flatten) :
    r.readAt S p (before ++ 58 :: (gap ++ bs) ++ after) =
      match r.storeValue f (.text f.name v) place with
      | .ok stored => stored.readAt S (p.advanceAll (before ++ 58 :: (gap ++ bs))) after
      | .error fault => ⟨r.kept, some fault⟩ := by
  rw [readAt_literals hr shape hbefore hgap hbs follows, ← hv, storeText_utf8]
  cases r.storeValue f (.text f.name v) place <;> rfl

lemma readAt_literals_invalid (hv : ¬∃ v, utf8 v = values.flatten) :
    r.readAt S p (before ++ 58 :: (gap ++ bs) ++ after) =
      ⟨r.kept, some ⟨p.advanceAll (before ++ 58 :: gap), .invalidUtf8⟩⟩ := by
  have hnone : ofUtf8? values.flatten = none := by
    by_contra hsome
    obtain ⟨v, h⟩ := Option.ne_none_iff_exists'.1 hsome
    exact hv ⟨v, ofUtf8?_eq_some_iff.1 h⟩
  rw [readAt_literals hr shape hbefore hgap hbs follows]
  simp only [storeText, hnone, resume]

end Value

end Reader

/-- At a quote that may begin a token, the scanner reads a literal exactly where a body and the same
quote stand, up to this quote, and the literal holds what the body spells. Otherwise the text is
broken from the quote on: either the literal is cut short, which is reported at the quote, or what
follows a backslash in it is no escape, which is reported at the backslash. The numbers of escapes
fit their types. The literals of one value are stored as one text if their bytes together are UTF-8,
whatever each of them holds; if not, this is reported at the first of them. -/
theorem literals_exact :
    (∀ (s : Scanner) (quote : UInt8), s.AtToken → IsQuote quote →
      (∀ piece value, s.ReadsLiteral quote piece value ↔
        ∃ body, piece = body ++ [quote] ∧ Spelled quote body value) ∧
      (∀ bs, (¬∃ piece value, piece <+: bs ∧ s.ReadsLiteral quote piece value) ↔
        ∃ f, (s.feedAll (quote :: bs)).close = ⟨s.close.tokens, .broken s.position f⟩ ∧
          LiteralFault quote s.position bs f) ∧
      ∀ bs, (s.feedAll (quote :: bs)).mode.Fits) ∧
    ∀ {Kind : Type} (S : Schema Kind) (r : Reader Kind) (f : FieldSchema Kind) (place p : Position)
      (before gap bs after : List UInt8) (values : List (List UInt8)),
      r.need = .colon f place → (f.shape = .text ∨ f.shape = .texts) → Gap before → Gap gap →
      Literals bs values →
      Reader.FollowsAt (p.advanceAll (before ++ 58 :: (gap ++ bs))) after →
      (∀ v, utf8 v = values.flatten → r.readAt S p (before ++ 58 :: (gap ++ bs) ++ after) =
        match r.storeValue f (.text f.name v) place with
        | .ok stored => stored.readAt S (p.advanceAll (before ++ 58 :: (gap ++ bs))) after
        | .error fault => ⟨r.kept, some fault⟩) ∧
      ((¬∃ v, utf8 v = values.flatten) →
        r.readAt S p (before ++ 58 :: (gap ++ bs) ++ after) =
          ⟨r.kept, some ⟨p.advanceAll (before ++ 58 :: gap), .invalidUtf8⟩⟩) := by
  refine ⟨fun s quote hs mark => ⟨fun _ _ => Scanner.readsLiteral_iff_spelled hs mark,
    fun _ => Scanner.not_readsLiteral_iff hs mark, fun bs => ?_⟩, ?_⟩
  · have hbounded : (Scanner.mk .blank s.position s.close.tokens.reverse).mode.Bounded := trivial
    rw [hs.feedAll_quote mark]
    exact (Mode.feedAll_bounded hbounded _).fits
  · intro Kind S r f place p before gap bs after values hr shape hbefore hgap hbs follows
    exact ⟨fun v => Reader.readAt_literals_valid hr shape hbefore hgap hbs follows,
      Reader.readAt_literals_invalid hr shape hbefore hgap hbs follows⟩

/-- Three digits of the octal escape are taken and one of the hexadecimal escape. An octal escape
that is too large makes no literal. One character may be spelled by two literals, neither of which
is UTF-8 by itself. -/
theorem literals_exact_of_escapes :
    let r : Reader RecordKind :=
      ⟨⟨.release, []⟩, [], .colon ⟨"major_version", .text⟩ ⟨1, 1⟩⟩
    Scanner.start.ReadsLiteral 34 (utf8 "\\1012\\x4G\"") [65, 50, 4, 71] ∧
      (¬∃ piece value, piece <+: utf8 "a\\400\"" ∧
        Scanner.start.ReadsLiteral 34 piece value) ∧
      r.readAt RecordKind.schema ⟨1, 14⟩ (utf8 ": \"\\303\" # first\n'\\xA9'") =
        ⟨[.text "major_version" "é"], none⟩ ∧
      r.readAt RecordKind.schema ⟨1, 14⟩ (utf8 ": \"\\303\"") =
        ⟨[], some ⟨⟨1, 16⟩, .invalidUtf8⟩⟩ := by
  intro r
  obtain ⟨hscan, hvalue⟩ := literals_exact
  obtain ⟨hreads, hfails, -⟩ := hscan Scanner.start 34 (.inl rfl) (.inl rfl)
  have hbody : Spelled 34 ([92, 49, 48, 49] ++ ([50] ++ ([92, 120, 52] ++ ([71] ++ []))))
      [65, 50, 4, 71] :=
    .cons (.octal (by decide) ⟨by simp [octalDigit?], by decide, .inl rfl⟩ rfl) <|
      .cons (.raw (by decide) (by decide) (by decide)) <|
        .cons (.hex (.inl rfl) (by decide)
          ⟨by simp [hexDigit?, isDigit], by decide, .inr (by simp [hexDigit?, isDigit])⟩ rfl) <|
          .cons (.raw (by decide) (by decide) (by decide)) .nil
  have hfault : LiteralFault 34 ⟨1, 1⟩ (([97] ++ []) ++ 92 :: ([52, 48, 48] ++ [34]))
      ⟨⟨1, 3⟩, .octalOutOfRange⟩ :=
    .escape (.cons (.raw (by decide) (by decide) (by decide)) .nil)
      (.octal (by simp [octalDigit?]) (by decide) (by decide))
  have hfirst : Spelled 34 ([92, 51, 48, 51] ++ []) [195] :=
    .cons (.octal (by decide) ⟨by simp [octalDigit?], by decide, .inl rfl⟩ rfl) .nil
  have hsecond : Spelled 39 ([92, 120, 65, 57] ++ []) [169] :=
    .cons (.hex (.inl rfl) (by decide) ⟨by simp [hexDigit?, isDigit], by decide, .inl rfl⟩ rfl) .nil
  have hspace : Gap [32] := .space rfl .nil
  have hgap : Gap ([32] ++ (35 :: (utf8 " first" ++ [10]) ++ [])) :=
    .space rfl (.comment (by decide +kernel) .nil)
  have hboth := Literals.cons (.inl rfl) hfirst hgap (.last (.inr rfl) hsecond)
  have hone := Literals.last (.inl rfl) hfirst
  have hempty : Reader.NoLiteral [] := by simp [Reader.NoLiteral]
  have hend (p : Position) : Reader.FollowsAt p [] := hempty.follows p
  refine ⟨(hreads _ _).2 ⟨_, ?_, hbody⟩, (hfails _).2 ⟨_, ?_, hfault⟩, ?_, ?_⟩
  · decide +kernel
  · rfl
  · exact (hvalue RecordKind.schema r ⟨"major_version", .text⟩ ⟨1, 1⟩ ⟨1, 14⟩ [] [32] _ [] _ rfl
      (.inl rfl) .nil hspace hboth (hend _)).1 "é" rfl
  · refine (hvalue RecordKind.schema r ⟨"major_version", .text⟩ ⟨1, 1⟩ ⟨1, 14⟩ [] [32] _ [] _ rfl
      (.inl rfl) .nil hspace hone (hend _)).2 ?_
    rintro ⟨v, hv⟩
    have hnone : ofUtf8? [195] = none := by decide +kernel
    cases hnone.symm.trans (ofUtf8?_eq_some_iff.2 hv)

end ToolchainRelease.Text
