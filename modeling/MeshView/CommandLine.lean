/-
# The command line

Options that begin with two hyphens take a value, as the next argument or behind an equals sign, and
may be given once.  The options of the program come first, then the name of what to do, then its own
options.  Arguments are read from left to right, and the first one that is wrong, or that asks for
help or for the version, decides.
-/

namespace MeshView
namespace CommandLine

/-- How differences are printed. -/
inductive Format where
  /-- Readable, with hexadecimal identities. -/
  | json
  /-- The byte frame. -/
  | wire
  /-- Not at all. -/
  | quiet
deriving DecidableEq

def Format.ofText? : String → Option Format
  | "json" => some .json
  | "wire" => some .wire
  | "quiet" => some .quiet
  | _ => none

/-- What to do. -/
inductive Command where
  /-- Play the scenario in a file. -/
  | run (scenario : String)
  /-- Watch a random mesh. -/
  | random (nodes extraLinks seed : Nat)
deriving DecidableEq

/-- Everything that the arguments say. -/
structure Request where
  command : Command
  /-- The file with the settings. -/
  config : Option String
  format : Format
  /-- How long an answer of the mesh takes, in milliseconds. -/
  latency : Nat
deriving DecidableEq

/-- How much help is given. -/
inductive Extent where
  | brief
  | full
deriving DecidableEq

/-- Why there is nothing to do. -/
inductive Stop where
  /-- Help was asked for, perhaps with a certain command. -/
  | help (command : Option String) (extent : Extent)
  | version
  | misuse (message : String)
deriving DecidableEq

/-! ## Options -/

/-- An option that was given, and its value. -/
abbrev Given := List (String × String)

/-- Options by name, and the values that they take. -/
abbrev Options := List (String × (String → Bool))

/-- The value of a number below 2 ^ 64 in decimal, perhaps with a plus sign. -/
def number? (text : String) : Option Nat :=
  let digits := match text.toList with
    | '+' :: cs => cs
    | cs => cs
  if digits.isEmpty || !digits.all Char.isDigit then none
  else
    let n := digits.foldl (fun n c => 10 * n + (c.toNat - 48)) 0
    if n < UInt64.size then some n else none

def isNumber (text : String) : Bool := (number? text).isSome

/-- The name and the value of an option with an equals sign. -/
def splitValue (cs : List Char) : String × Option String :=
  let name := String.ofList (cs.takeWhile (· ≠ '='))
  match cs.dropWhile (· ≠ '=') with
  | [] => (name, none)
  | _ :: value => (name, some (String.ofList value))

/-- An argument that cannot be the value of an option: one that begins with a hyphen, unless it is
nothing else. -/
def isHyphened (arg : String) : Bool := arg.startsWith "-" && arg ≠ "-"

/-- Notes a value of an option. -/
def note (options : Options) (given : Given) (name value : String) : Except Stop Given :=
  match (options.find? fun o => o.1 == name).map Prod.snd with
  | none => .error (.misuse s!"unexpected argument '--{name}' found")
  | some accepts =>
    if !accepts value then .error (.misuse s!"invalid value '{value}' for '--{name}'")
    else if given.any fun g => g.1 == name then
      .error (.misuse s!"the argument '--{name}' cannot be used multiple times")
    else .ok ((name, value) :: given)

/-- Reads options up to the first argument that is none.  `command` is the command that they belong
to; only the program itself tells its version. -/
def readOptions (options : Options) (command : Option String) :
    Given → List String → Except Stop (Given × List String)
  | given, [] => .ok (given, [])
  | given, arg :: rest =>
    match arg.toList with
    | ['-', '-'] => .ok (given, arg :: rest)
    | '-' :: '-' :: cs =>
      match splitValue cs with
      | ("help", none) => .error (.help command .full)
      | (name, some value) => do readOptions options command (← note options given name value) rest
      | (name, none) =>
        if name = "version" ∧ command = none then .error .version
        else match rest with
          | value :: rest =>
            if isHyphened value then
              .error (.misuse s!"a value is required for '--{name}'")
            else do readOptions options command (← note options given name value) rest
          | [] => .error (.misuse s!"a value is required for '--{name}'")
    | '-' :: c :: _ =>
      if c = 'h' then .error (.help command .brief)
      else if c = 'V' ∧ command = none then .error .version
      else .error (.misuse s!"unexpected argument '{arg}' found")
    | _ => .ok (given, arg :: rest)

def value? (given : Given) (name : String) : Option String :=
  (given.find? fun g => g.1 == name).map Prod.snd

/-- The value of an option that is a number. -/
def numberOr (given : Given) (name : String) (standard : Nat) : Nat :=
  ((value? given name).bind number?).getD standard

/-! ## Commands -/

def isPath (text : String) : Bool := !text.isEmpty

/-- The options of the program. -/
def globalOptions : Options := [
  ("log-level", fun _ => true),
  ("config", isPath),
  ("format", fun text => (Format.ofText? text).isSome),
  ("rpc-latency-ms", isNumber),
  ("settle-ms", isNumber)]

def runOptions : Options := [("scenario", isPath)]

def randomOptions : Options := [("nodes", isNumber), ("extra-links", isNumber), ("seed", isNumber)]

/-- The options of a command, after which nothing may follow but the mark of their end. -/
def lastOptions (options : Options) (command : String) (args : List String) :
    Except Stop Given := do
  let (given, rest) ← readOptions options (some command) [] args
  match rest with
  | [] | ["--"] => return given
  | "--" :: arg :: _ | arg :: _ => .error (.misuse s!"unexpected argument '{arg}' found")

def readCommand : List String → Except Stop Command
  | [] => .error (.misuse "'linkstate-sim' requires a subcommand but one was not provided")
  | "run" :: args => do
    match value? (← lastOptions runOptions "run" args) "scenario" with
    | some path => return .run path
    | none => .error (.misuse "the required argument '--scenario' was not provided")
  | "random" :: args => do
    let given ← lastOptions randomOptions "random" args
    return .random (numberOr given "nodes" 16) (numberOr given "extra-links" 8)
      (numberOr given "seed" 1)
  | ["help"] => .error (.help none .full)
  | ["help", name] =>
    if name = "run" ∨ name = "random" ∨ name = "help" then .error (.help (some name) .full)
    else .error (.misuse s!"unrecognized subcommand '{name}'")
  | name :: _ => .error (.misuse s!"unrecognized subcommand '{name}'")

/-- What the arguments ask for. -/
def read (args : List String) : Except Stop Request := do
  let (given, rest) ← readOptions globalOptions none [] args
  let command ← readCommand rest
  return {
    command
    config := value? given "config"
    format := ((value? given "format").bind Format.ofText?).getD .json
    latency := numberOr given "rpc-latency-ms" 0 }

end CommandLine
end MeshView
