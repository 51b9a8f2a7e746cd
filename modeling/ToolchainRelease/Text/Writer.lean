import ToolchainRelease.Text.Bytes
import ToolchainRelease.Text.Entry

/-! The printed form of entries: one line for a scalar, a block of lines for a record. It is
made of small pieces, each handed to the output on its own. -/
namespace ToolchainRelease.Text

/-- The spelling of a byte in a printed literal: three octal digits unless it is printable. -/
def escapeByte (b : UInt8) : List UInt8 :=
  if b = 10 then [92, 110]
  else if b = 13 then [92, 114]
  else if b = 9 then [92, 116]
  else if b = 34 then [92, 34]
  else if b = 92 then [92, 92]
  else if isPrintable b then [b]
  else [92, digitByte (b.toNat / 64), digitByte (b.toNat / 8 % 8), digitByte (b.toNat % 8)]

def escape (s : String) : String := ofAscii ((utf8 s).flatMap escapeByte)

def indentation (depth : Nat) : String := String.ofList (List.replicate (2 * depth) ' ')

mutual

def Entry.pieces (depth : Nat) : Entry → List String
  | .text n v => [indentation depth, n, ": \"", escape v, "\"\n"]
  | .flag n v => [indentation depth, n, ": ", if v then "true" else "false", "\n"]
  | .choice n v => [indentation depth, n, ": ", v, "\n"]
  | .record n fs =>
    [indentation depth, n, " \x7b\n"] ++ piecesAll (depth + 1) fs ++
      [indentation depth, "\x7d\n"]

def piecesAll (depth : Nat) : List Entry → List String
  | [] => []
  | e :: es => e.pieces depth ++ piecesAll depth es

end

def render (es : List Entry) : String := String.join (piecesAll 0 es)

theorem piecesAll_append (depth : Nat) (as bs : List Entry) :
    piecesAll depth (as ++ bs) = piecesAll depth as ++ piecesAll depth bs := by
  induction as with
  | nil => simp [piecesAll]
  | cons a as ih => simp [piecesAll, ih]

end ToolchainRelease.Text
