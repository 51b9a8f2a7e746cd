import ToolchainRelease.Program

/-! The command line. The files that the arguments name are looked up before the run, and those
that the run has made or changed are written after it. -/
open ToolchainRelease

namespace ToolchainRelease.Main

def textOf (l : Location) : String := "/" ++ "/".intercalate l

def locationOf (path : String) : Location := (path.splitOn "/").filter (· ≠ "")

/-- What a file holds, and whether it may be written. -/
def fileAt (l : Location) : IO Item := do
  let contents : Option ByteArray ← try
      pure (some (← IO.FS.readBinFile (textOf l)))
    catch _ => pure none
  let some bytes := contents | return .closedFile
  try
    discard (IO.FS.Handle.mk (textOf l) .readWrite)
    return .file bytes.data.toList
  catch _ => return .readOnlyFile bytes.data.toList

def lookUp (l : Location) : IO (Option Item) := do
  if l = ["dev", "null"] then return some .nullDevice
  if l = ["dev", "full"] then return some .fullDevice
  try
    let found ← IO.FS.realPath (textOf l)
    if ← found.isDir then return some .directory
    if ← found.pathExists then return some (← fileAt l)
    return none
  catch _ => return none

/-- The locations that walking a path comes by. -/
def stops (workingDirectory : Location) (path : String) : List Location :=
  match Path.ofText path with
  | .error _ => []
  | .ok p =>
    let start := if p.absolute then [] else workingDirectory
    let step (ls : List Location) (name : String) : List Location :=
      let l := ls.headD []
      (if name = "." then l else if name = ".." then l.dropLast else l ++ [name]) :: ls
    p.names.foldl step [start]

def pathsOf (args : List String) : List String :=
  match CommandLine.parse args with
  | .generate o => o.targets.toList ++ o.boilerplate.toList ++ [o.out]
  | _ => []

def snapshot (workingDirectory : Location) (paths : List String) : IO FileSystem := do
  let mut fs : FileSystem := ⟨[], workingDirectory⟩
  for l in workingDirectory :: paths.flatMap (stops workingDirectory) do
    if (fs.get? l).isNone then
      if let some item ← lookUp l then fs := fs.put l item
  return fs

/-- Writes the files that are not as they were. -/
def save (before after : FileSystem) : IO Unit := do
  for (l, item) in after.items do
    if before.get? l ≠ some item then
      if let .file bytes := item then
        IO.FS.writeBinFile (textOf l) ⟨bytes.toArray⟩

end ToolchainRelease.Main

open ToolchainRelease.Main in
def main (args : List String) : IO UInt32 := do
  let verbosity := Verbosity.ofName (← IO.getEnv "RUST_LOG")
  let before ← snapshot (locationOf (← IO.currentDir).toString) (pathsOf args)
  let outcome := Program.run before verbosity args
  try
    save before outcome.files
  catch e =>
    IO.eprintln s!"error: {e}"
    return 1
  IO.print outcome.stdout
  for line in outcome.log do IO.eprintln line
  IO.eprint outcome.stderr
  return outcome.exit.toUInt32
