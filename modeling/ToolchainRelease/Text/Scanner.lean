import ToolchainRelease.Text.Fault

/-! Tokens from bytes. The scanner takes one byte at a time, so scanning a text in two parts
is scanning it whole, and the place of each token is the place its first byte advanced to. -/
namespace ToolchainRelease.Text

/-- The part of a literal read so far, its newest byte first. -/
structure OpenLiteral where
  start : Position
  quote : UInt8
  bytes : List UInt8

namespace OpenLiteral

def push (l : OpenLiteral) (b : UInt8) : OpenLiteral := { l with bytes := b :: l.bytes }

def token (l : OpenLiteral) : Placed := ⟨.literal l.bytes.reverse, l.start⟩

end OpenLiteral

/-- What the bytes before the next one have begun. An escape keeps the place of its backslash;
an octal escape counts the digits that it may still take. A token that cannot be read keeps the
place where it begins. -/
inductive Mode
  | blank
  | comment
  | word (start : Position) (bytes : List UInt8)
  | literal (l : OpenLiteral)
  | escape (l : OpenLiteral) (start : Position)
  | octal (l : OpenLiteral) (start : Position) (more value : Nat)
  | hex (l : OpenLiteral) (start : Position) (digits value : Nat)
  | failed (start : Position) (fault : Fault)

def wordToken (start : Position) (bytes : List UInt8) : Placed :=
  ⟨.word (ofAscii bytes.reverse), start⟩

/-- The byte that a letter or mark after a backslash stands for. -/
def namedEscape? (b : UInt8) : Option UInt8 :=
  if b = 110 then some 10
  else if b = 114 then some 13
  else if b = 116 then some 9
  else if b = 97 then some 7
  else if b = 98 then some 8
  else if b = 102 then some 12
  else if b = 118 then some 11
  else if b = 92 || b = 39 || b = 34 || b = 63 then some b
  else none

namespace Mode

/-- The first byte after trivia or after a finished token. -/
def begin (p : Position) (b : UInt8) : List Placed × Mode :=
  if isSpace b then ([], blank)
  else if b = 35 then ([], comment)
  else if b = 58 then ([⟨.colon, p⟩], blank)
  else if b = 44 || b = 59 then ([⟨.separator, p⟩], blank)
  else if b = 123 then ([⟨.opening .brace, p⟩], blank)
  else if b = 125 then ([⟨.closing .brace, p⟩], blank)
  else if b = 60 then ([⟨.opening .angle, p⟩], blank)
  else if b = 62 then ([⟨.closing .angle, p⟩], blank)
  else if b = 34 || b = 39 then ([], literal ⟨p, b, []⟩)
  else if isWordByte b then ([], word p [b])
  else ([], failed p ⟨p, .unexpectedCharacter b⟩)

/-- The next byte of a literal, outside an escape. -/
def inLiteral (l : OpenLiteral) (p : Position) (b : UInt8) : List Placed × Mode :=
  if b = 10 then ([], failed l.start ⟨l.start, .unterminatedLiteral⟩)
  else if b = 92 then ([], escape l p)
  else if b = l.quote then ([l.token], blank)
  else ([], literal (l.push b))

/-- The byte after a backslash. -/
def inEscape (l : OpenLiteral) (start : Position) (b : UInt8) : Mode :=
  match namedEscape? b, octalDigit? b with
  | some c, _ => literal (l.push c)
  | none, some d => octal l start 2 d
  | none, none =>
    if b = 120 || b = 88 then hex l start 0 0
    else failed l.start ⟨start, .invalidEscape b⟩

/-- The literal after an octal escape that ends here. -/
def closeOctal (l : OpenLiteral) (start : Position) (value : Nat) : Except Fault OpenLiteral :=
  if value < 256 then .ok (l.push (UInt8.ofNat value)) else .error ⟨start, .octalOutOfRange⟩

def closeHex (l : OpenLiteral) (start : Position) (digits value : Nat) : Except Fault OpenLiteral :=
  if digits = 0 then .error ⟨start, .hexWithoutDigits⟩ else .ok (l.push (UInt8.ofNat value))

/-- Goes on with `b` in the literal `l`, whose last escape has just ended. -/
def afterEscape (l : OpenLiteral) (closed : Except Fault OpenLiteral) (p : Position) (b : UInt8) :
    List Placed × Mode :=
  match closed with
  | .ok l => inLiteral l p b
  | .error f => ([], failed l.start f)

/-- The tokens that byte `b` at place `p` completes, and what it leaves begun. -/
def step (m : Mode) (p : Position) (b : UInt8) : List Placed × Mode :=
  match m with
  | blank => begin p b
  | comment => ([], if b = 10 then blank else comment)
  | word start bytes =>
    if isWordByte b then ([], word start (b :: bytes))
    else
      let (tokens, next) := begin p b
      (wordToken start bytes :: tokens, next)
  | literal l => inLiteral l p b
  | escape l start => ([], inEscape l start b)
  | octal l start more value =>
    match more, octalDigit? b with
    | more + 1, some d => ([], octal l start more (value * 8 + d))
    | _, _ => afterEscape l (closeOctal l start value) p b
  | hex l start digits value =>
    match hexDigit? b with
    | some d =>
      if digits < 2 then ([], hex l start (digits + 1) (value * 16 + d))
      else afterEscape l (closeHex l start digits value) p b
    | none => afterEscape l (closeHex l start digits value) p b
  | failed start f => ([], failed start f)

end Mode

/-- How the tokens of a text end: with the text, or at a token that cannot be read, which begins
at `start`. -/
inductive Ending
  | finished (position : Position)
  | broken (start : Position) (fault : Fault)
deriving DecidableEq

structure Scan where
  tokens : List Placed
  ending : Ending

namespace Mode

/-- What a text leaves that ends in this mode. -/
def close (m : Mode) (p : Position) : Scan :=
  match m with
  | blank | comment => ⟨[], .finished p⟩
  | word start bytes => ⟨[wordToken start bytes], .finished p⟩
  | literal l | escape l _ => ⟨[], .broken l.start ⟨l.start, .unterminatedLiteral⟩⟩
  | octal l start _ value => ⟨[], .broken l.start (unended (closeOctal l start value))⟩
  | hex l start digits value => ⟨[], .broken l.start (unended (closeHex l start digits value))⟩
  | failed start f => ⟨[], .broken start f⟩
where
  unended : Except Fault OpenLiteral → Fault
    | .ok l => ⟨l.start, .unterminatedLiteral⟩
    | .error f => f

end Mode

/-- A scan under way; the newest token comes first. -/
structure Scanner where
  mode : Mode
  position : Position
  tokens : List Placed

namespace Scanner

def start : Scanner := ⟨.blank, .start, []⟩

def feed (s : Scanner) (b : UInt8) : Scanner :=
  let (tokens, mode) := s.mode.step s.position b
  ⟨mode, s.position.advance b, tokens.reverse ++ s.tokens⟩

def feedAll (s : Scanner) (bs : List UInt8) : Scanner := bs.foldl feed s

def close (s : Scanner) : Scan :=
  let last := s.mode.close s.position
  ⟨s.tokens.reverse ++ last.tokens, last.ending⟩

theorem feedAll_nil (s : Scanner) : s.feedAll [] = s := rfl

theorem feedAll_cons (s : Scanner) (b : UInt8) (bs : List UInt8) :
    s.feedAll (b :: bs) = (s.feed b).feedAll bs := rfl

theorem feedAll_append (s : Scanner) (as bs : List UInt8) :
    s.feedAll (as ++ bs) = (s.feedAll as).feedAll bs :=
  List.foldl_append

theorem feed_position (s : Scanner) (b : UInt8) : (s.feed b).position = s.position.advance b := rfl

theorem feedAll_position (s : Scanner) (bs : List UInt8) :
    (s.feedAll bs).position = s.position.advanceAll bs := by
  induction bs generalizing s with
  | nil => rfl
  | cons b bs ih => exact (ih (s.feed b)).trans rfl

end Scanner

def scan (text : String) : Scan := (Scanner.start.feedAll (utf8 text)).close

end ToolchainRelease.Text
