/-! Places in a text. Lines and columns are counted from one, and a column counts
the bytes of the encoded text, so that the place after a piece depends on its bytes alone. -/
namespace ToolchainRelease.Text

structure Position where
  line : Nat
  column : Nat
deriving DecidableEq, Inhabited

namespace Position

def start : Position := ⟨1, 1⟩

def advance (p : Position) (b : UInt8) : Position :=
  if b = 10 then ⟨p.line + 1, 1⟩ else ⟨p.line, p.column + 1⟩

def advanceAll (p : Position) (bs : List UInt8) : Position :=
  bs.foldl advance p

theorem advanceAll_nil (p : Position) : p.advanceAll [] = p := rfl

theorem advanceAll_cons (p : Position) (b : UInt8) (bs : List UInt8) :
    p.advanceAll (b :: bs) = (p.advance b).advanceAll bs := rfl

theorem advanceAll_append (p : Position) (as bs : List UInt8) :
    p.advanceAll (as ++ bs) = (p.advanceAll as).advanceAll bs :=
  List.foldl_append

theorem advance_line (p : Position) (b : UInt8) :
    (p.advance b).line = p.line + if b = 10 then 1 else 0 := by
  unfold advance
  split <;> simp [*]

theorem advanceAll_line (p : Position) (bs : List UInt8) :
    (p.advanceAll bs).line = p.line + bs.count 10 := by
  induction bs generalizing p with
  | nil => simp [advanceAll_nil]
  | cons b bs ih =>
    rw [advanceAll_cons, ih, advance_line, List.count_cons]
    by_cases h : b = 10
    · simp [h]
      omega
    · simp [h]

end Position

end ToolchainRelease.Text
