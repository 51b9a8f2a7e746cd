/-! The characters that Unicode calls white space. -/
namespace ToolchainRelease.Text

def isBlankChar (c : Char) : Bool :=
  (9 ≤ c.toNat && c.toNat ≤ 13) || (0x2000 ≤ c.toNat && c.toNat ≤ 0x200a) ||
    c.toNat ∈ [0x20, 0x85, 0xa0, 0x1680, 0x2028, 0x2029, 0x202f, 0x205f, 0x3000]

/-- Whether a text has nothing but white space. -/
def isBlank (s : String) : Bool := s.toList.all isBlankChar

end ToolchainRelease.Text
