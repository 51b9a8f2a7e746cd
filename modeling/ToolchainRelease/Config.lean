import ToolchainRelease.Target
import ToolchainRelease.Text.Blank
import ToolchainRelease.Toml.Decode
import ToolchainRelease.Toml.Reader

/-! What to generate: the labels of the release and its targets, in order. It is read from a
document, and checked before it is used. -/
namespace ToolchainRelease

structure Config where
  labels : Labels := {}
  targets : List Target := Target.defaults
deriving DecidableEq

namespace Labels

/-- The labels that have been found so far in a table. -/
structure Found where
  majorVersion : Option String := none
  minorVersion : Option String := none

def Found.visit (f : Found) (key : String) (v : Toml.Value) : Except Toml.Mismatch Found :=
  if key = "major-version" then do return { f with majorVersion := some (← v.asText) }
  else if key = "minor-version" then do return { f with minorVersion := some (← v.asText) }
  else .ok f

/-- A label that is missing has its default. -/
def Found.labels (f : Found) : Labels :=
  let default : Labels := {}
  ⟨f.majorVersion.getD default.majorVersion, f.minorVersion.getD default.minorVersion⟩

def ofValue (v : Toml.Value) : Except Toml.Mismatch Labels := do
  match ← v.layout "ReleaseLabels" with
  | .keys fields =>
    let found ← fields.foldlM (fun f kv => f.visit kv.1 kv.2) ({} : Found)
    return found.labels
  | .places items =>
    let texts ← (items.take 2).mapM Toml.Value.asText
    return Found.labels ⟨texts[0]?, texts[1]?⟩

end Labels

namespace Target

/-- The fields that have been found so far in a table. -/
structure Found where
  cpu : Option String := none
  libc : Option String := none
  cross : Option Bool := none

def Found.visit (f : Found) (key : String) (v : Toml.Value) : Except Toml.Mismatch Found :=
  if key = "cpu" then do return { f with cpu := some (← v.asText) }
  else if key = "libc" then do return { f with libc := some (← v.asText) }
  else if key = "cross" then do return { f with cross := some (← v.asBoolean) }
  else .ok f

def Found.target (f : Found) : Except Toml.Mismatch Target := do
  return ⟨← Toml.required "cpu" f.cpu, ← Toml.required "libc" f.libc, f.cross.getD false⟩

/-- The first three items of an array; the last of them may be missing. -/
def ofItems (items : List Toml.Value) : Except Toml.Mismatch Target :=
  let short (n : Nat) := Except.error (.invalidLength n "struct TargetDescriptor with 3 elements")
  match items with
  | [] => short 0
  | cpu :: items => do
    let cpu ← cpu.asText
    match items with
    | [] => short 1
    | libc :: items => do
      let libc ← libc.asText
      match items with
      | [] => return ⟨cpu, libc, false⟩
      | cross :: _ => return ⟨cpu, libc, ← cross.asBoolean⟩

def ofValue (v : Toml.Value) : Except Toml.Mismatch Target := do
  match ← v.layout "TargetDescriptor" with
  | .keys fields =>
    let found ← fields.foldlM (fun f kv => f.visit kv.1 kv.2) ({} : Found)
    found.target
  | .places items => ofItems items

end Target

namespace Config

structure Found where
  labels : Option Labels := none
  targets : Option (List Target) := none

def Found.visit (f : Found) (key : String) (v : Toml.Value) : Except Toml.Mismatch Found :=
  if key = "release" then do return { f with labels := some (← Labels.ofValue v) }
  else if key = "target" then do
    return { f with targets := some (← (← v.asSequence).mapM Target.ofValue) }
  else .ok f

/-- The configuration that a table describes. The labels may be left out, the targets may not. -/
def ofFields (fields : Toml.Fields) : Except Toml.Mismatch Config := do
  let found ← fields.foldlM (fun f kv => f.visit kv.1 kv.2) ({} : Found)
  return ⟨found.labels.getD {}, ← Toml.required "target" found.targets⟩

/-- What makes a configuration unusable. Targets are numbered from one. -/
inductive Defect
  | noTargets
  | emptyCpu (number : Nat)
  | emptyLibc (number : Nat) (cpu : String)
  | duplicate (identifier : String)
deriving DecidableEq

/-- The first defect of targets numbered from `number`, after targets with the names `seen`. -/
def firstDefect (number : Nat) (seen : List String) : List Target → Option Defect
  | [] => none
  | t :: ts =>
    if Text.isBlank t.cpu then some (.emptyCpu number)
    else if Text.isBlank t.libc then some (.emptyLibc number t.cpu)
    else if t.systemName ∈ seen then some (.duplicate t.systemName)
    else firstDefect (number + 1) (t.systemName :: seen) ts

def defect? (c : Config) : Option Defect :=
  if c.targets.isEmpty then some .noTargets else firstDefect 1 [] c.targets

end Config

end ToolchainRelease
