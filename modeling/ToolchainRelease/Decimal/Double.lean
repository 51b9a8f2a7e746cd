import ToolchainRelease.Decimal.Shortest

/-! Numbers of double precision as decimal text and from decimal text. -/
namespace ToolchainRelease.Decimal

/-- The magnitude of a finite number other than zero. -/
def Binary.ofBits (bits : UInt64) : Binary :=
  let exponent := (bits >>> 52 &&& 0x7ff).toNat
  let fraction := (bits &&& 0xfffffffffffff).toNat
  if exponent = 0 then ⟨fraction, -1074, false⟩
  else ⟨fraction + 0x10000000000000, exponent - 1075, fraction = 0 && exponent ≠ 1⟩

/-- A number is written out in full, without an exponent and with at least one decimal. -/
def showDouble (x : Float) : String :=
  if x.isNaN then "NaN"
  else if x.isInf then if x < 0 then "-inf" else "inf"
  else
    let bits := x.toBits
    let sign := if bits >>> 63 = 1 then "-" else ""
    let magnitude := bits &&& 0x7fffffffffffffff
    if magnitude = 0 then sign ++ "0.0"
    else
      let d := (Binary.ofBits magnitude).shortest
      sign ++ positional d ++ if 0 ≤ d.exponent then ".0" else ""

/-- The number nearest to `digits * 10 ^ exponent`. Beyond the range of the format the result is
infinite or zero, whatever the exponent. -/
def toDouble (digits : Nat) (exponent : Int) : Float :=
  let size := (Nat.toDigits 10 digits).length + exponent
  if digits = 0 then 0
  else if 400 < size then Float.ofBits 0x7ff0000000000000
  else if size < -400 then 0
  else Float.ofScientific digits (exponent < 0) exponent.natAbs

end ToolchainRelease.Decimal
