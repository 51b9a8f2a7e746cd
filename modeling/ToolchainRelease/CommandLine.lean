/-! The options of the program. Arguments are taken one after the other, and the first that
settles the matter, be it a fault or a request for help, is the answer. -/
namespace ToolchainRelease

structure Options where
  out : String
  boilerplate : Option String := none
  targets : Option String := none
deriving DecidableEq

/-- Only a boilerplate with a name is copied. -/
def Options.boilerplatePath? (o : Options) : Option String :=
  o.boilerplate.filter fun p => ! p.isEmpty

inductive Request
  | help
  | version
  | generate (options : Options)
  /-- The arguments are not understood. -/
  | misuse (reason : String)
deriving DecidableEq

namespace CommandLine

/-- The options given so far. -/
structure Given where
  out : Option String := none
  boilerplate : Option String := none
  targets : Option String := none

inductive OptionName
  | out
  | boilerplate
  | targets
deriving DecidableEq

def OptionName.ofText? : String → Option OptionName
  | "out" => some out
  | "boilerplate" => some boilerplate
  | "targets" => some targets
  | _ => none

/-- Sets an option. None may be given twice, and only the boilerplate may be empty. -/
def Given.set (g : Given) (name : OptionName) (value : String) : Except String Given :=
  let once (old : Option String) (g : Given) :=
    if old.isSome then .error "an option is given twice" else .ok g
  match name with
  | .out =>
    if value.isEmpty then .error "--out needs a value" else once g.out { g with out := some value }
  | .targets =>
    if value.isEmpty then .error "--targets needs a value"
    else once g.targets { g with targets := some value }
  | .boilerplate => once g.boilerplate { g with boilerplate := some value }

def Given.request (g : Given) : Request :=
  match g.out with
  | some out => .generate ⟨out, g.boilerplate, g.targets⟩
  | none => .misuse "--out is required"

inductive Argument
  | long (name : String) (value : Option String)
  | short (letters : List Char)
  | escape
  | plain (text : String)

def Argument.ofText (s : String) : Argument :=
  match s.toList with
  | ['-', '-'] => escape
  | '-' :: '-' :: cs =>
    let name := cs.takeWhile (· ≠ '=')
    match cs.drop name.length with
    | _ :: value => long (String.ofList name) (some (String.ofList value))
    | [] => long (String.ofList name) none
  | '-' :: c :: cs => short (c :: cs)
  | _ => plain s

/-- The request of the arguments after those that `g` was given by. -/
def parseFrom (g : Given) : List String → Request
  | [] => g.request
  | a :: rest =>
    match Argument.ofText a with
    | .plain _ => .misuse "unexpected argument"
    | .escape => if rest.isEmpty then g.request else .misuse "unexpected argument"
    | .short letters =>
      match letters with
      | 'h' :: _ => .help
      | 'V' :: _ => .version
      | _ => .misuse "unknown option"
    | .long "help" none => .help
    | .long "version" none => .version
    | .long name value =>
      match OptionName.ofText? name, value with
      | none, _ => .misuse "unknown option"
      | some name, some value =>
        match g.set name value with
        | .ok g => parseFrom g rest
        | .error reason => .misuse reason
      | some name, none =>
        match rest with
        | [] => .misuse "a value is missing"
        | v :: rest =>
          match Argument.ofText v with
          | .plain value =>
            match g.set name value with
            | .ok g => parseFrom g rest
            | .error reason => .misuse reason
          | _ => .misuse "a value is missing"

def parse (args : List String) : Request := parseFrom {} args

end CommandLine

end ToolchainRelease
