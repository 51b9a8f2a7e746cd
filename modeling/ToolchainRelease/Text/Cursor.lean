import ToolchainRelease.Text.Scanner

/-! Tokens one at a time. A cursor reads just the bytes that it needs to tell the next token, and
keeps a token that was looked at until it is taken. After a fault it goes on with the bytes that
have not been read. -/
namespace ToolchainRelease.Text

/-- What comes next: a token, or the end of the text and its place. -/
inductive Next
  | token (t : Placed)
  | finished (position : Position)
deriving DecidableEq

/-- The bytes that are still to be read, and the place of the first of them. -/
structure Unread where
  bytes : List UInt8
  position : Position

/-- The byte that shows a fault has been read, or is the next to be read. -/
def Cause.passesByte : Cause → Bool
  | .unterminatedLiteral | .invalidEscape _ => true
  | _ => false

namespace Mode

/-- A word under way is complete before a byte that cannot be part of it. -/
def wordBefore? (m : Mode) (b : UInt8) : Option Placed :=
  match m with
  | word start bytes => if isWordByte b then none else some (wordToken start bytes)
  | _ => none

/-- Reads from this mode on, up to the end of a token or of the text, or to a fault. -/
def next (m : Mode) (p : Position) : List UInt8 → Except Fault Next × Unread
  | [] =>
    match m.close p with
    | ⟨t :: _, _⟩ => (.ok (.token t), ⟨[], p⟩)
    | ⟨[], .finished q⟩ => (.ok (.finished q), ⟨[], p⟩)
    | ⟨[], .broken _ f⟩ => (.error f, ⟨[], p⟩)
  | b :: bs =>
    match m.wordBefore? b with
    | some t => (.ok (.token t), ⟨b :: bs, p⟩)
    | none =>
      match m.step p b with
      | (t :: _, _) => (.ok (.token t), ⟨bs, p.advance b⟩)
      | ([], failed _ f) =>
        (.error f, if f.cause.passesByte then ⟨bs, p.advance b⟩ else ⟨b :: bs, p⟩)
      | ([], m) => m.next (p.advance b) bs

end Mode

namespace Unread

def start (text : String) : Unread := ⟨utf8 text, .start⟩

def next (u : Unread) : Except Fault Next × Unread := Mode.blank.next u.position u.bytes

end Unread

structure Cursor where
  unread : Unread
  peeked : Option Next

namespace Cursor

def start (text : String) : Cursor := ⟨.start text, none⟩

/-- Takes what comes next. -/
def next (c : Cursor) : Except Fault Next × Cursor :=
  match c.peeked with
  | some n => (.ok n, ⟨c.unread, none⟩)
  | none =>
    let (answer, rest) := c.unread.next
    (answer, ⟨rest, none⟩)

/-- Looks at what comes next, and keeps it unless it is a fault. -/
def peek (c : Cursor) : Except Fault Next × Cursor :=
  match c.peeked with
  | some n => (.ok n, c)
  | none =>
    match c.unread.next with
    | (.ok n, rest) => (.ok n, ⟨rest, some n⟩)
    | (.error f, rest) => (.error f, ⟨rest, none⟩)

/-- One use of a cursor. -/
inductive Call
  | next
  | peek
deriving DecidableEq

/-- What the calls take, one after the other: what `next` tells, and the faults that `peek` comes
upon. -/
def taken (c : Cursor) : List Call → List (Except Fault Next)
  | [] => []
  | .next :: calls =>
    let (answer, c) := c.next
    answer :: c.taken calls
  | .peek :: calls =>
    match c.peek with
    | (.ok _, c) => c.taken calls
    | (.error f, c) => .error f :: c.taken calls

end Cursor

end ToolchainRelease.Text
