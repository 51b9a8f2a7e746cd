import ToolchainRelease.Toml.Blank

/-! The four kinds of string: basic and literal ones, on one line or on several. -/
namespace ToolchainRelease.Toml

def hexValue? (c : Char) : Option Nat :=
  if '0' ≤ c ∧ c ≤ '9' then some (c.toNat - 48)
  else if 'a' ≤ c ∧ c ≤ 'f' then some (c.toNat - 87)
  else if 'A' ≤ c ∧ c ≤ 'F' then some (c.toNat - 55)
  else none

/-- A code point of exactly so many digits that belongs to a character. -/
def codePoint? (digits : Nat) (cs : List Char) : Option (Char × List Char) := do
  let ds ← (cs.take digits).mapM hexValue?
  let n := ds.foldl (fun n d => n * 16 + d) 0
  if ds.length = digits ∧ n.isValidChar then return (Char.ofNat n, cs.drop digits)
  else none

/-- The character that an escape stands for, after its backslash. -/
def escaped? : List Char → Option (Char × List Char)
  | 'b' :: cs => some ('\x08', cs)
  | 't' :: cs => some ('\t', cs)
  | 'n' :: cs => some ('\n', cs)
  | 'f' :: cs => some ('\x0c', cs)
  | 'r' :: cs => some ('\r', cs)
  | '"' :: cs => some ('"', cs)
  | '\\' :: cs => some ('\\', cs)
  | 'u' :: cs => codePoint? 4 cs
  | 'U' :: cs => codePoint? 8 cs
  | _ => none

/-- A basic string after its opening quote; the characters read so far come newest first. -/
def basicRest (steps : Nat) (read : List Char) (cs : List Char) : Option (String × List Char) :=
  match steps, cs with
  | 0, _ => none
  | _, '"' :: cs => some (String.ofList read.reverse, cs)
  | steps + 1, '\\' :: cs => do
    let (c, cs) ← escaped? cs
    basicRest steps (c :: read) cs
  | steps + 1, c :: cs => if isPlain c then basicRest steps (c :: read) cs else none
  | _, [] => none

def literalRest (cs : List Char) : Option (String × List Char) :=
  let body := cs.takeWhile fun c => isPlain c && c ≠ '\''
  match cs.drop body.length with
  | '\'' :: cs => some (String.ofList body, cs)
  | _ => none

/-- After a backslash at the end of a line: all blanks and newlines, up to the next character. -/
def continuedLine? (cs : List Char) : Option (List Char) :=
  let rec skip : List Char → List Char
    | '\n' :: cs => skip cs
    | '\r' :: '\n' :: cs => skip cs
    | ' ' :: cs => skip cs
    | '\t' :: cs => skip cs
    | cs => cs
  (newline? (skipSpaces cs)).map skip

/-- A run of quotes in a string of several lines: one or two belong to the text, the last
three of a run of up to five close it. -/
def quoteRun (quote : Char) (cs : List Char) : Nat := (cs.takeWhile (· = quote)).length

/-- A string of several lines after its opening quotes. Basic strings have escapes. -/
def linesRest (quote : Char) (steps : Nat) (read : List Char) (cs : List Char) :
    Option (String × List Char) :=
  match steps with
  | 0 => none
  | steps + 1 =>
    match newline? cs with
    | some cs => linesRest quote steps ('\n' :: read) cs
    | none =>
      match cs with
      | [] => none
      | c :: rest =>
        if c = quote then
          let run := quoteRun quote cs
          if run < 3 then
            linesRest quote steps (List.replicate run quote ++ read) (cs.drop run)
          else
            let kept := min (run - 3) 2
            some (String.ofList (List.replicate kept quote ++ read).reverse, cs.drop (kept + 3))
        else if c = '\\' ∧ quote = '"' then
          match continuedLine? rest with
          | some rest => linesRest quote steps read rest
          | none => do
            let (c, rest) ← escaped? rest
            linesRest quote steps (c :: read) rest
        else if isPlain c then linesRest quote steps (c :: read) rest
        else none

/-- A newline right after the opening quotes is not part of the text. -/
def linesText (quote : Char) (cs : List Char) : Option (String × List Char) :=
  linesRest quote (cs.length + 1) [] ((newline? cs).getD cs)

/-- Any string, at its opening quote. -/
def text? : List Char → Option (String × List Char)
  | '"' :: '"' :: '"' :: cs => linesText '"' cs
  | '"' :: cs => basicRest (cs.length + 1) [] cs
  | '\'' :: '\'' :: '\'' :: cs => linesText '\'' cs
  | '\'' :: cs => literalRest cs
  | _ => none

end ToolchainRelease.Toml
