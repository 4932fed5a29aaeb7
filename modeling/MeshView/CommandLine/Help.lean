/-
# Help

Brief help gives each option one line of description, full help sets off the standard value and the
possible values by blank lines.  The commands have so few options that their help has one extent.
-/

import MeshView.CommandLine

namespace MeshView
namespace CommandLine

/-- What help says about an option of the program. -/
structure OptionHelp where
  flags : String
  about : String
  /-- The value that it has if it is not given. -/
  standard : Option String
  /-- Its possible values, if these are few, and what they mean. -/
  values : List (String × String)

namespace OptionHelp

def indent : String := "          "

/-- The standard value in brackets. -/
def standardNote (o : OptionHelp) : List String := o.standard.toList.map fun v => s!"[default: {v}]"

/-- The possible values in brackets. -/
def valuesNote (o : OptionHelp) : List String :=
  if o.values.isEmpty then []
  else ["[possible values: " ++ ", ".intercalate (o.values.map Prod.fst) ++ "]"]

/-- The description, or nothing for an empty one. -/
def aboutNote (o : OptionHelp) : List String := if o.about.isEmpty then [] else [o.about]

/-- The flags, and the description with all notes in one line. -/
def brief (o : OptionHelp) : List String :=
  [o.flags, indent ++ " ".intercalate (o.aboutNote ++ o.standardNote ++ o.valuesNote)]

/-- A possible value and its meaning, which begins in the same column for all. -/
def valueLine (o : OptionHelp) (v : String × String) : String :=
  let width := o.values.foldl (fun w v => max w v.1.length) 0
  s!"{indent}- {v.1}: " ++ "".pushn ' ' (width - v.1.length) ++ v.2

/-- The flags, then the description and the notes, with blank lines between. -/
def full (o : OptionHelp) : List String :=
  o.flags :: (((o.aboutNote ++ o.standardNote).map fun note => indent ++ note).intersperse indent ++
    if o.values.isEmpty then []
    else ["", indent ++ "Possible values:"] ++ o.values.map o.valueLine)

end OptionHelp

/-- The options of the program; only the help on help depends on the extent. -/
def programOptions (extent : Extent) : List OptionHelp := [
  ⟨"      --log-level <LOG_LEVEL>", "", some "info", []⟩,
  ⟨"      --config <CONFIG>", "Engine configuration (YAML)", none, []⟩,
  ⟨"      --format <FORMAT>", "How diffs are printed", some "json", [
    ("json", "Readable JSON with hex node ids"),
    ("wire", "The byte-level wire frame as JSON"),
    ("quiet", "Print nothing per diff, only the final summary")]⟩,
  ⟨"      --rpc-latency-ms <RPC_LATENCY_MS>",
    "Simulated neighbor-list RPC latency in milliseconds", some "0", []⟩,
  ⟨"      --settle-ms <SETTLE_MS>",
    "Time to let backfill settle after each step, in milliseconds", some "200", []⟩,
  ⟨"  -h, --help",
    match extent with
    | .brief => "Print help (see more with '--help')"
    | .full => "Print help (see a summary with '-h')", none, []⟩,
  ⟨"  -V, --version", "Print version", none, []⟩]

/-- The help on the options of the program. -/
def optionLines : Extent → List String
  | .brief => (programOptions .brief).flatMap OptionHelp.brief
  | .full => [""].intercalate ((programOptions .full).map OptionHelp.full)

/-- Help on the program, or on one of its commands. -/
def helpLines : Option String → Extent → List String
  | some "run", _ => [
    "Play a scenario file",
    "",
    "Usage: linkstate-sim run --scenario <SCENARIO>",
    "",
    "Options:",
    "      --scenario <SCENARIO>  ",
    "  -h, --help                 Print help"]
  | some "random", _ => [
    "Generate a random connected mesh and let the view converge",
    "",
    "Usage: linkstate-sim random [OPTIONS]",
    "",
    "Options:",
    "      --nodes <NODES>              [default: 16]",
    "      --extra-links <EXTRA_LINKS>  [default: 8]",
    "      --seed <SEED>                [default: 1]",
    "  -h, --help                       Print help"]
  | some _, _ => [
    "Print this message or the help of the given subcommand(s)",
    "",
    "Usage: linkstate-sim help [COMMAND]...",
    "",
    "Arguments:",
    "  [COMMAND]...  Print help for the subcommand(s)"]
  | none, extent => [
    "Emulate a mesh and watch the local link-state view converge",
    "",
    "Usage: linkstate-sim [OPTIONS] <COMMAND>",
    "",
    "Commands:",
    "  run     Play a scenario file",
    "  random  Generate a random connected mesh and let the view converge",
    "  help    Print this message or the help of the given subcommand(s)",
    "",
    "Options:"] ++ optionLines extent

end CommandLine
end MeshView
