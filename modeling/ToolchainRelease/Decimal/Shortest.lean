/-! The fewest decimal digits that read back as a binary floating-point number. A number is
taken as `m * 2 ^ q`, and all arithmetic is exact. -/
namespace ToolchainRelease.Decimal

/-- A number `digits * 10 ^ exponent`. -/
structure Digits where
  digits : Nat
  exponent : Int
deriving DecidableEq

/-- A positive number `m * 2 ^ q`. Below a power of two the next smaller number is nearer. -/
structure Binary where
  m : Nat
  q : Int
  closerBelow : Bool
deriving DecidableEq

/-- A positive fraction. -/
structure Ratio where
  num : Nat
  den : Nat

namespace Ratio

/-- The number `n * 2 ^ q * 10 ^ -k`. -/
def scaled (n : Nat) (q k : Int) : Ratio :=
  ⟨n * Nat.pow 2 q.toNat * Nat.pow 10 (-k).toNat, Nat.pow 2 (-q).toNat * Nat.pow 10 k.toNat⟩

def floor (r : Ratio) : Nat := r.num / r.den

end Ratio

namespace Binary

/-- Whether `d * 10 ^ k` is nearer to the number than to any other one; the bounds of that
interval belong to numbers with an even `m`. -/
def owns (b : Binary) (d : Nat) (k : Int) : Bool :=
  let below := if b.closerBelow then 4 * b.m - 1 else 4 * b.m - 2
  let low := Ratio.scaled below (b.q - 2) k
  let high := Ratio.scaled (4 * b.m + 2) (b.q - 2) k
  if b.m % 2 = 0 then low.num ≤ d * low.den && d * high.den ≤ high.num
  else low.num < d * low.den && d * high.den < high.num

/-- The neighbours of the number among the multiples of `10 ^ k`: the nearer one that reads
back, the larger one on a tie. -/
def onGrid (b : Binary) (k : Int) : Option Nat :=
  let v := Ratio.scaled b.m b.q k
  let lower := v.floor
  let nearerUp := v.den ≤ 2 * (v.num - lower * v.den)
  match b.owns lower k, b.owns (lower + 1) k with
  | true, true => some (if nearerUp then lower + 1 else lower)
  | true, false => some lower
  | false, true => some (lower + 1)
  | false, false => none

/-- The first grid with a hit, from coarse to fine. -/
def search (b : Binary) (k : Int) : Nat → Digits
  | 0 => ⟨(Ratio.scaled b.m b.q k).floor, k⟩
  | steps + 1 =>
    match b.onGrid k with
    | some d => ⟨d, k⟩
    | none => b.search (k - 1) steps

/-- The first grid is coarser than the number, and no number of double precision needs one
finer than `10 ^ -345`. -/
def shortest (b : Binary) : Digits :=
  let top := (Nat.log2 b.m + b.q.toNat) / 3 + 2
  b.search top (top + 345)

end Binary

/-- The digits of a number as text: a point only where there are decimals. -/
def positional (d : Digits) : String :=
  let body := (Nat.toDigits 10 d.digits)
  if 0 ≤ d.exponent then String.ofList (body ++ List.replicate d.exponent.toNat '0')
  else
    let places := d.exponent.natAbs
    let padded := List.replicate (places + 1 - body.length) '0' ++ body
    let whole := padded.length - places
    String.ofList (padded.take whole ++ '.' :: padded.drop whole)

end ToolchainRelease.Decimal
