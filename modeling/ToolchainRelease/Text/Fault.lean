import ToolchainRelease.Text.Bytes
import ToolchainRelease.Text.Token

/-! What can be wrong with a text, where, and the message that says so. -/
namespace ToolchainRelease.Text

inductive Expected
  | fieldName
  | colon
  | text
  | flag
  | choice
  | block
deriving DecidableEq

namespace Expected

def describe : Expected → String
  | fieldName => "a field name"
  | colon => "':'"
  | text => "a string literal"
  | flag => "a bool value"
  | choice => "an enum value"
  | block => "'\x7b' or '<'"

end Expected

inductive Cause
  | unexpectedCharacter (byte : UInt8)
  | unterminatedLiteral
  | octalOutOfRange
  | hexWithoutDigits
  | invalidEscape (byte : UInt8)
  | invalidUtf8
  /-- No token found means the end of the text. -/
  | unexpected (wanted : Expected) (found : Option Token)
  | unclosed (recordName : String)
  | invalidFlag (word : String)
  | unknownChoice (typeName word : String)
  | unknownField (name recordName : String)
  | repeatedField (name : String)
deriving DecidableEq

/-- A byte as it is shown in a message: printable characters stand for themselves, except
quotes and the backslash. -/
def shownByte (b : UInt8) : String :=
  if b = 9 then "\\t"
  else if b = 13 then "\\r"
  else if b = 10 then "\\n"
  else if b = 39 then "\\'"
  else if b = 34 then "\\\""
  else if b = 92 then "\\\\"
  else if isPrintable b then ofAscii [b]
  else "\\x" ++ ofAscii [digitByte (b.toNat / 16), digitByte (b.toNat % 16)]

namespace Cause

def message : Cause → String
  | unexpectedCharacter b => s!"unexpected character '{shownByte b}'"
  | unterminatedLiteral => "unterminated string literal"
  | octalOutOfRange => "octal escape out of range"
  | hexWithoutDigits => "\\x escape without hex digits"
  | invalidEscape b => "invalid escape '\\" ++ shownByte b ++ "'"
  | invalidUtf8 => "string literal is not valid UTF-8"
  | unexpected wanted found =>
    "expected " ++ wanted.describe ++ ", found " ++ (found.map Token.describe).getD "end of input"
  | unclosed name => s!"unexpected end of input inside {name}"
  | invalidFlag w => s!"invalid bool value '{w}'"
  | unknownChoice typeName w => s!"unknown {typeName} value '{w}'"
  | unknownField name recordName => s!"unknown field '{name}' in {recordName}"
  | repeatedField name => s!"non-repeated field '{name}' specified multiple times"

end Cause

structure Fault where
  position : Position
  cause : Cause
deriving DecidableEq

namespace Fault

def message (f : Fault) : String :=
  s!"line {f.position.line}, column {f.position.column}: " ++ f.cause.message

end Fault

end ToolchainRelease.Text
