import ToolchainRelease.Decimal.Double
import ToolchainRelease.Toml.Text
import ToolchainRelease.Toml.Value

/-! Numbers, dates and times. An integer has 64 bits; a float may be too large only below zero. -/
namespace ToolchainRelease.Toml

def isDecimal (c : Char) : Bool := '0' ≤ c && c ≤ '9'

/-- Digits, without the single underscores that may stand between them. -/
def digitsOf (isDigit : Char → Bool) : List Char → Option (List Char × List Char)
  | [] => none
  | c :: cs => if isDigit c then some (rest [c] cs) else none
where
  rest (read : List Char) : List Char → List Char × List Char
    | '_' :: d :: cs => if isDigit d then rest (d :: read) cs else (read.reverse, '_' :: d :: cs)
    | d :: cs => if isDigit d then rest (d :: read) cs else (read.reverse, d :: cs)
    | [] => (read.reverse, [])

def numeral (base : Nat) (ds : List Char) : Nat :=
  ds.foldl (fun n d => n * base + (hexValue? d).getD 0) 0

def sign? : List Char → Bool × List Char
  | '-' :: cs => (true, cs)
  | '+' :: cs => (false, cs)
  | cs => (false, cs)

/-- A decimal integer without its sign: no zero comes before another digit. -/
def decimal? : List Char → Option (List Char × List Char)
  | '0' :: cs => some (['0'], cs)
  | cs => digitsOf isDecimal cs

def inRange (i : Int) : Bool := -0x8000000000000000 ≤ i && i < 0x8000000000000000

def boundedInteger? (i : Int) (cs : List Char) : Option (Value × List Char) :=
  if inRange i then some (.integer i, cs) else none

def based? (base : Nat) (isDigit : Char → Bool) (cs : List Char) : Option (Value × List Char) := do
  let (ds, cs) ← digitsOf isDigit cs
  boundedInteger? (numeral base ds) cs

/-- The digits after a decimal point, if there is one. A point without digits is refused. -/
def fraction? : List Char → Option (List Char × List Char)
  | '.' :: cs => digitsOf isDecimal cs
  | cs => some ([], cs)

/-- The power of ten after an `e`, if there is one. -/
def power? : List Char → Option (Option Int × List Char)
  | 'e' :: cs | 'E' :: cs => do
    let (negative, cs) := sign? cs
    let (ds, cs) ← digitsOf isDecimal cs
    let n : Int := numeral 10 ds
    return (some (if negative then -n else n), cs)
  | cs => some (none, cs)

def negate (negative : Bool) (x : Float) : Float := if negative then -x else x

def infinity : Float := Float.ofBits 0x7ff0000000000000

def notANumber : Float := Float.ofBits 0x7ff8000000000000

/-- An integer or a float, at its sign or first digit. -/
def number? (cs : List Char) : Option (Value × List Char) :=
  match cs with
  | '0' :: 'x' :: cs => based? 16 (fun c => (hexValue? c).isSome) cs
  | '0' :: 'o' :: cs => based? 8 (fun c => '0' ≤ c && c ≤ '7') cs
  | '0' :: 'b' :: cs => based? 2 (fun c => c = '0' || c = '1') cs
  | _ => do
    let (negative, cs) := sign? cs
    match cs with
    | 'i' :: 'n' :: 'f' :: cs => return (.float (negate negative infinity), cs)
    | 'n' :: 'a' :: 'n' :: cs => return (.float notANumber, cs)
    | _ =>
      let (whole, cs) ← decimal? cs
      let (decimals, afterPoint) ← fraction? cs
      let (power, cs) ← power? afterPoint
      if decimals.isEmpty ∧ power.isNone then
        let n : Int := numeral 10 whole
        boundedInteger? (if negative then -n else n) cs
      else
        let exponent := power.getD 0 - decimals.length
        let x := Decimal.toDouble (numeral 10 (whole ++ decimals)) exponent
        if x.isInf ∧ ¬ negative then none
        else return (.float (negate negative x), cs)

/-- A number of exactly so many digits within bounds. -/
def fixed? (digits low high : Nat) (cs : List Char) : Option (Nat × List Char) :=
  let ds := cs.take digits
  let n := numeral 10 ds
  if ds.length = digits ∧ ds.all isDecimal ∧ low ≤ n ∧ n ≤ high then some (n, cs.drop digits)
  else none

def char? (c : Char) : List Char → Option (List Char)
  | d :: cs => if d = c then some cs else none
  | [] => none

def daysIn (year month : Nat) : Nat :=
  if month = 2 then
    if year % 4 = 0 ∧ (year % 100 ≠ 0 ∨ year % 400 = 0) then 29 else 28
  else if month ∈ [4, 6, 9, 11] then 30
  else 31

/-- A date; what is left of the text comes back. -/
def date? (cs : List Char) : Option (List Char) := do
  let (year, cs) ← fixed? 4 0 9999 cs
  let cs ← char? '-' cs
  let (month, cs) ← fixed? 2 1 12 cs
  let cs ← char? '-' cs
  let (_, cs) ← fixed? 2 1 (daysIn year month) cs
  return cs

/-- A time of day. The second may be a leap second, and decimals may follow it. -/
def time? (cs : List Char) : Option (List Char) := do
  let (_, cs) ← fixed? 2 0 23 cs
  let cs ← char? ':' cs
  let (_, cs) ← fixed? 2 0 59 cs
  let cs ← char? ':' cs
  let (_, cs) ← fixed? 2 0 60 cs
  match cs with
  | '.' :: d :: ds => return if isDecimal d then ds.dropWhile isDecimal else cs
  | _ => return cs

/-- The distance from universal time, if it is given. -/
def offset? (cs : List Char) : Option (List Char) :=
  match cs with
  | 'Z' :: cs | 'z' :: cs => some cs
  | '+' :: rest | '-' :: rest => do
    let (_, rest) ← fixed? 2 0 23 rest
    let rest ← char? ':' rest
    let (_, rest) ← fixed? 2 0 59 rest
    return rest
  | _ => some cs

/-- A date, a date with a time, or a time. -/
def moment? (cs : List Char) : Option (Value × List Char) :=
  let upTo (rest : List Char) : Option (Value × List Char) :=
    some (.moment (String.ofList (cs.take (cs.length - rest.length))), rest)
  match date? cs with
  | some rest =>
    match rest with
    | d :: after =>
      if d ∈ ['T', 't', ' '] then
        match time? after with
        | some after => (offset? after).bind upTo
        | none => upTo rest
      else upTo rest
    | [] => upTo rest
  | none => (time? cs).bind upTo

end ToolchainRelease.Toml
