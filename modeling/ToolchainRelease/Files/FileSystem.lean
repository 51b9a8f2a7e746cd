import ToolchainRelease.Output.IoFault
import ToolchainRelease.Text.Bytes

/-! Files, directories and two devices, found by paths. A path is walked name by name from the
root or from the working directory, and each name but the last has to lead to a directory that may
be entered. -/
namespace ToolchainRelease

inductive Item
  | file (bytes : List UInt8)
  | readOnlyFile (bytes : List UInt8)
  /-- A file that may be neither read nor written. -/
  | closedFile
  | directory
  /-- A directory that no file may be made in. -/
  | readOnlyDirectory
  /-- A directory that may not be entered. -/
  | closedDirectory
  /-- Takes all that is written to it and keeps nothing. -/
  | nullDevice
  /-- Takes nothing that is written to it. It may not be read, since its bytes have no end. -/
  | fullDevice
deriving DecidableEq

namespace Item

def isDirectory : Item → Bool
  | directory | readOnlyDirectory | closedDirectory => true
  | _ => false

/-- The bytes of a file that may be read. -/
def bytes? : Item → Option (List UInt8)
  | file bytes | readOnlyFile bytes => some bytes
  | _ => none

end Item

/-- The names on the way from the root. -/
abbrev Location := List String

structure FileSystem where
  items : List (Location × Item)
  workingDirectory : Location

namespace FileSystem

def get? (fs : FileSystem) (l : Location) : Option Item :=
  if l = [] then some .directory else fs.items.lookup l

/-- Puts an item at a location, in the place of the one that is there. -/
def put (fs : FileSystem) (l : Location) (item : Item) : FileSystem :=
  { fs with items := (l, item) :: fs.items.filter fun i => i.1 ≠ l }

theorem get?_put (fs : FileSystem) (l : Location) (item : Item) (h : l ≠ []) :
    (fs.put l item).get? l = some item := by
  simp [get?, put, h]

private theorem lookup_filter_of_ne {l m : Location} (h : m ≠ l) (items : List (Location × Item)) :
    (items.filter fun i => i.1 ≠ l).lookup m = items.lookup m := by
  induction items with
  | nil => rfl
  | cons i is ih =>
    by_cases hi : i.1 = l
    · have hne : (m == i.1) = false := by simpa [hi] using h
      rw [List.filter_cons_of_neg (by simpa using hi), ih, List.lookup_cons, hne]
    · rw [List.filter_cons_of_pos (by simpa using hi), List.lookup_cons, List.lookup_cons, ih]

theorem get?_put_of_ne (fs : FileSystem) {l m : Location} (item : Item) (h : m ≠ l) :
    (fs.put l item).get? m = fs.get? m := by
  have hne : (m == l) = false := by simpa using h
  have := lookup_filter_of_ne h fs.items
  by_cases hm : m = []
  · simp [get?, hm]
  · simpa [get?, put, hm, List.lookup_cons, hne] using this

end FileSystem

/-- A path as it is written: where it starts, its names, and whether a slash ends it. -/
structure Path where
  absolute : Bool
  names : List String
  slashAtEnd : Bool

namespace Path

/-- A path of this many bytes or more is refused. -/
def lengthLimit : Nat := 4096

def nameLimit : Nat := 255

/-- The names between slashes; there is one more of them than there are slashes. -/
def split : List Char → List (List Char)
  | [] => [[]]
  | c :: cs =>
    match split cs with
    | [] => [[c]]
    | name :: names => if c = '/' then [] :: name :: names else (c :: name) :: names

def ofText (text : String) : Except IoFault Path :=
  if '\x00' ∈ text.toList then .error .nulInName
  else if text.isEmpty then .error .notFound
  else if lengthLimit ≤ text.utf8ByteSize then .error .nameTooLong
  else
    let names := (split text.toList).map String.ofList
    .ok ⟨names.head? = some "", names.filter (· ≠ ""), names.getLast? = some ""⟩

end Path

namespace FileSystem

/-- Names are looked up in a directory only, and only in one that may be entered. -/
def mayEnter (fs : FileSystem) (l : Location) : Except IoFault Unit :=
  match fs.get? l with
  | none => .error .notFound
  | some .directory | some .readOnlyDirectory => .ok ()
  | some .closedDirectory => .error .permissionDenied
  | some _ => .error .notADirectory

/-- One name on the way. -/
def enter (fs : FileSystem) (l : Location) (name : String) : Except IoFault Location := do
  fs.mayEnter l
  if Path.nameLimit < name.utf8ByteSize then .error .nameTooLong
  else if name = "." then return l
  else if name = ".." then return l.dropLast
  else return l ++ [name]

def walk (fs : FileSystem) (l : Location) (names : List String) : Except IoFault Location :=
  names.foldlM fs.enter l

def origin (fs : FileSystem) (p : Path) : Location :=
  if p.absolute then [] else fs.workingDirectory

/-- The item that a path leads to. -/
def find (fs : FileSystem) (path : String) : Except IoFault Item := do
  let p ← Path.ofText path
  let l ← fs.walk (fs.origin p) p.names
  match fs.get? l with
  | none => .error .notFound
  | some item =>
    if p.slashAtEnd && !item.isDirectory then .error .notADirectory else return item

/-- An open file: its bytes, and what happens when it is read. -/
structure Opened where
  bytes : List UInt8
  fault : Option IoFault := none

/-- Opens a file to read it. A directory can be opened, but reading it fails. -/
def openFile (fs : FileSystem) (path : String) : Except IoFault Opened := do
  match ← fs.find path with
  | .file bytes | .readOnlyFile bytes => return ⟨bytes, none⟩
  | .directory | .readOnlyDirectory => return ⟨[], some .isADirectory⟩
  | .nullDevice => return ⟨[], none⟩
  | .closedFile | .closedDirectory | .fullDevice => .error .permissionDenied

/-- The whole text of a file. -/
def readText (fs : FileSystem) (path : String) : Except IoFault String := do
  let opened ← fs.openFile path
  match opened.fault with
  | some f => .error f
  | none =>
    match Text.ofUtf8? opened.bytes with
    | some text => return text
    | none => .error .invalidUtf8

/-- Where a file is written that a path names: a slash at its end would make it a directory. -/
def outputLocation (fs : FileSystem) (path : String) : Except IoFault Location := do
  let p ← Path.ofText path
  match p.names.getLast? with
  | none => .error .isADirectory
  | some last =>
    let parent ← fs.walk (fs.origin p) p.names.dropLast
    fs.mayEnter parent
    if p.slashAtEnd then .error .isADirectory else fs.enter parent last

/-- Makes an empty file, or empties the one that is there. Devices stay as they are. -/
def create (fs : FileSystem) (path : String) : Except IoFault (FileSystem × Location) := do
  let l ← fs.outputLocation path
  match fs.get? l with
  | some .directory | some .readOnlyDirectory | some .closedDirectory => .error .isADirectory
  | some (.readOnlyFile _) | some .closedFile => .error .permissionDenied
  | some .nullDevice | some .fullDevice => return (fs, l)
  | some (.file _) => return (fs.put l (.file []), l)
  | none =>
    if fs.get? l.dropLast = some .readOnlyDirectory then .error .permissionDenied
    else return (fs.put l (.file []), l)

end FileSystem

end ToolchainRelease
