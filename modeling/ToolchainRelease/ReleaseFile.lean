import ToolchainRelease.Build
import ToolchainRelease.Files.FileSystem
import ToolchainRelease.Output.Sink

/-! The file of a release: the bytes of the boilerplate, a comment that says what follows,
and the printed release. -/
namespace ToolchainRelease.ReleaseFile

def generator : String := "generate_crosstool"

def headerMarker : String := "# DO NOT EDIT"

def header : String :=
  headerMarker ++ "\n# This file contains the text format encoding of a\n# " ++
    Text.Record.fullName Release ++ "\n# protocol buffer generated by " ++ generator ++ ".\n\n"

/-- A file to copy to the top, as it was opened. -/
structure Boilerplate where
  path : String
  source : Except IoFault FileSystem.Opened

/-- The boilerplate is read in pieces of this many bytes. -/
def chunkSize : Nat := 8192

/-- The bytes in pieces of `n + 1`, the last of which may be shorter. -/
def chunks (n : Nat) (bs : List UInt8) : List (List UInt8) :=
  if h : bs = [] then []
  else bs.take (n + 1) :: chunks n (bs.drop (n + 1))
termination_by bs.length
decreasing_by
  have : 0 < bs.length := List.length_pos_iff.2 h
  simp only [List.length_drop]
  omega

theorem chunks_flatten (n : Nat) (bs : List UInt8) : (chunks n bs).flatten = bs := by
  fun_induction chunks n bs with
  | case1 => rfl
  | case2 bs h ih => rw [List.flatten_cons, ih, List.take_append_drop]

/-- What writing leaves: the sink, how many bytes of boilerplate were copied, and the failure. -/
structure Written (σ : Type) where
  sink : σ
  copied : Option Nat := none
  failure : Option Failure := none

variable {σ : Type} [Sink σ]

/-- Copies the boilerplate to the sink. -/
def copy (out : σ) (b : Boilerplate) : Written σ :=
  match b.source with
  | .error f => { sink := out, failure := some (.openBoilerplate b.path f) }
  | .ok opened =>
    match sendAll out (chunks (chunkSize - 1) opened.bytes) with
    | (out, some f) => { sink := out, failure := some (.copyBoilerplate b.path f) }
    | (out, none) =>
      match opened.fault with
      | some f => { sink := out, failure := some (.copyBoilerplate b.path f) }
      | none => { sink := out, copied := some opened.bytes.length }

def pieces (r : Release) : List (List UInt8) :=
  (header :: Text.printPieces r).map Text.utf8

/-- Sends the header and the printed release, and flushes the sink. -/
def writeBody (out : σ) (r : Release) : σ × Option IoFault :=
  match sendAll out (pieces r) with
  | (out, some f) => (out, some f)
  | (out, none) => Sink.flush out

def write (out : σ) (r : Release) (b : Option Boilerplate) : Written σ :=
  let top : Written σ :=
    match b with
    | none => { sink := out }
    | some b => copy out b
  match top.failure with
  | some _ => top
  | none =>
    let (out, fault) := writeBody top.sink r
    { top with sink := out, failure := fault.map Failure.io }

/-- The device behind an output file. -/
def deviceFor : Option Item → Device
  | some .fullDevice => { room := some 0 }
  | _ => {}

/-- What writing to a file leaves. -/
structure Saved where
  files : FileSystem
  copied : Option Nat := none
  failure : Option Failure := none

/-- Writes a release to the file that a path names. The file is made, and emptied, before the
boilerplate is opened. -/
def save (fs : FileSystem) (r : Release) (path : String) (boilerplate : Option String) : Saved :=
  match fs.create path with
  | .error f => { files := fs, failure := some (.create path f) }
  | .ok (fs, l) =>
    let item := fs.get? l
    let written := write ({ device := deviceFor item } : Buffered) r
      (boilerplate.map fun p => ⟨p, fs.openFile p⟩)
    let files :=
      match item with
      | some (.file _) => fs.put l (.file written.sink.close.contents)
      | _ => fs
    { files := files, copied := written.copied, failure := written.failure }

end ToolchainRelease.ReleaseFile
