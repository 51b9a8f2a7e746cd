/-! What may stand between the parts of a document: spaces and tabs, newlines, comments.
A rule takes characters from the front and leaves the rest, or fails. -/
namespace ToolchainRelease.Toml

/-- The characters that may stand in comments and, quotes and backslashes apart, in strings. -/
def isPlain (c : Char) : Bool := c = '\t' || (32 ≤ c.toNat && c.toNat ≠ 127)

def isSpace (c : Char) : Bool := c = ' ' || c = '\t'

def skipSpaces (cs : List Char) : List Char := cs.dropWhile isSpace

/-- A newline is a line feed, alone or after a carriage return. -/
def newline? : List Char → Option (List Char)
  | '\n' :: cs => some cs
  | '\r' :: '\n' :: cs => some cs
  | _ => none

/-- A comment without its newline. -/
def skipComment : List Char → List Char
  | '#' :: cs => cs.dropWhile isPlain
  | cs => cs

/-- The rest of a line after a header or a value. -/
def lineEnd? (cs : List Char) : Option (List Char) :=
  match skipComment (skipSpaces cs) with
  | [] => some []
  | cs => newline? cs

/-- The rest after a gap in an array, within a comment or outside one. -/
def gapRest (comment : Bool) : List Char → Option (List Char)
  | [] => if comment then none else some []
  | '\n' :: cs => gapRest false cs
  | '\r' :: '\n' :: cs => gapRest false cs
  | c :: cs =>
    if comment then if isPlain c then gapRest true cs else none
    else if isSpace c then gapRest false cs
    else if c = '#' then gapRest true cs
    else some (c :: cs)

/-- The gaps in an array: spaces, newlines and comments, each of which ends with a newline. -/
def gap? (cs : List Char) : Option (List Char) := gapRest false cs

end ToolchainRelease.Toml
