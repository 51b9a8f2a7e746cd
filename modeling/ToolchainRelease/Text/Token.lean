import ToolchainRelease.Text.Position

/-! The tokens of the text format. A literal token holds the bytes that its spelling stands for. -/
namespace ToolchainRelease.Text

/-- The two pairs of brackets that can hold a nested record. -/
inductive Delimiter
  | brace
  | angle
deriving DecidableEq

inductive Token
  | word (text : String)
  | literal (bytes : List UInt8)
  | colon
  | separator
  | opening (delimiter : Delimiter)
  | closing (delimiter : Delimiter)
deriving DecidableEq

structure Placed where
  token : Token
  position : Position
deriving DecidableEq

namespace Token

def describe : Token → String
  | word w => s!"'{w}'"
  | literal _ => "string literal"
  | colon => "':'"
  | separator => "separator"
  | opening .brace => "'\x7b'"
  | opening .angle => "'<'"
  | closing .brace => "'\x7d'"
  | closing .angle => "'>'"

end Token

end ToolchainRelease.Text
