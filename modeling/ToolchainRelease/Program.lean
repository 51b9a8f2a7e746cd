import ToolchainRelease.CommandLine
import ToolchainRelease.Log
import ToolchainRelease.ReleaseFile

/-! A run of the program as a function: from the arguments and the files before it to the files
after it, what is printed and the exit status. -/
namespace ToolchainRelease

/-- The configuration in a file. -/
def Config.load (fs : FileSystem) (path : String) : Except Failure Config :=
  match fs.find path with
  | .error _ => .error (.targetsNotFound path)
  | .ok _ =>
    match fs.readText path with
    | .error f => .error (.io f)
    | .ok text => Config.parse text

namespace Program

/-- What a run has done when it stops: at the end, or at a failure. -/
structure Progress where
  files : FileSystem
  events : List Event := []
  /-- What was being done when the run failed, and why it failed. -/
  failure : Option (Option String × Failure) := none

def configuration (fs : FileSystem) (o : Options) :
    Except (String × Failure) (Config × List Event) :=
  match o.targets with
  | none => .ok ({}, [])
  | some path =>
    match Config.load fs path with
    | .ok c => .ok (c, [.loadedTargets path c.targets.length])
    | .error f => .error (s!"loading targets from {path}", f)

/-- The toolchains that are built before a target whose name is among those `seen`. -/
def builtEvents (seen : List String) : List Target → List Event
  | [] => []
  | t :: ts =>
    if t.systemName ∈ seen then []
    else .builtToolchain t :: builtEvents (t.systemName :: seen) ts

/-- Loads the configuration, builds the release and writes its file, in this order. -/
def generate (fs : FileSystem) (o : Options) : Progress :=
  match configuration fs o with
  | .error (stage, f) => { files := fs, failure := some (some stage, f) }
  | .ok (config, loaded) =>
    let events := loaded ++ builtEvents [] config.targets
    match Release.build config.labels config.targets with
    | .error f => { files := fs, events := events, failure := some (some "building toolchains", f) }
    | .ok release =>
      let boilerplate := o.boilerplatePath?
      let saved := ReleaseFile.save fs release o.out boilerplate
      let copied := match boilerplate, saved.copied with
        | some path, some n => [Event.copiedBoilerplate path n]
        | _, _ => []
      match saved.failure with
      | some f =>
        { files := saved.files, events := events ++ copied, failure := some (none, f) }
      | none =>
        { files := saved.files
          events := events ++ copied ++ [.wroteRelease o.out release.toolchains.length] }

def name : String := "generate-crosstool"

def versionText : String := name ++ " 0.1.0\n"

def helpText : String :=
  "Generate the CROSSTOOL text proto for host and cross GCC toolchains\n\n" ++
  "Usage: " ++ name ++ " [OPTIONS] --out <OUT>\n\n" ++
  "Options:\n" ++
  "      --out <OUT>                  Filename for the CROSSTOOL text proto to write\n" ++
  "      --boilerplate <BOILERPLATE>  File containing a boilerplate header, copied verbatim to " ++
  "the top of the output\n" ++
  "      --targets <TARGETS>          TOML file listing the targets to generate (default: " ++
  "built-in target set)\n" ++
  "  -h, --help                       Print help\n" ++
  "  -V, --version                    Print version\n"

/-- The line that says why a run failed: what was being done, and each cause in turn. -/
def failureLine (failure : Option String × Failure) : String :=
  let (stage, f) := failure
  "error: " ++ ": ".intercalate (stage.toList ++ [f.message] ++ f.causes) ++ "\n"

structure Outcome where
  exit : Nat
  files : FileSystem
  stdout : String := ""
  /-- The lines of the log that are shown, without the time. -/
  log : List String := []
  /-- What follows the log where faults are told. -/
  stderr : String := ""

def run (fs : FileSystem) (verbosity : Verbosity) (args : List String) : Outcome :=
  match CommandLine.parse args with
  | .help => { exit := 0, files := fs, stdout := helpText }
  | .version => { exit := 0, files := fs, stdout := versionText }
  | .misuse reason =>
    { exit := 2
      files := fs
      stderr := s!"error: {reason}\n\nFor more information, try '--help'.\n" }
  | .generate o =>
    let p := generate fs o
    let log := (p.events.filter fun e => verbosity.shows e.level).map Event.line
    match p.failure with
    | none => { exit := 0, files := p.files, log := log }
    | some failure => { exit := 1, files := p.files, log := log, stderr := failureLine failure }

end Program

end ToolchainRelease
