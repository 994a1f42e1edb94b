import BuildPlan.Log

namespace BuildPlan

inductive Output where
  | text
  | json
  deriving DecidableEq, Repr

namespace Output

def all : List Output := [text, json]

def word : Output → String
  | text => "text"
  | json => "json"

def ofWord? (text : String) : Option Output := all.find? fun output => output.word = text

end Output

structure Invocation where
  tasks : List Name := []
  catalog : Option String := none
  assumed : List Name := []
  output : Output := .text
  check : Bool := false
  list : Bool := false
  quiet : Bool := false
  level : Log.Level := .warn
  logFormat : Log.Format := .compact
  json : Bool := false
  deriving DecidableEq, Repr

namespace Invocation

-- The layout of log lines; asking for JSON lines counts more than asking for a format.
def lineFormat (i : Invocation) : Log.Format := if i.json then .json else i.logFormat

inductive Stop where
  | unknownArgument
  | invalidValue
  | argumentConflict
  | tooManyValues
  | help
  | version
  deriving DecidableEq, Repr

namespace Stop

-- Being asked for information is no mistake.
def isMistake : Stop → Bool
  | unknownArgument | invalidValue | argumentConflict | tooManyValues => true
  | help | version => false

def exitCode (stop : Stop) : Nat := if stop.isMistake then 2 else 0

end Stop
end Invocation
end BuildPlan

namespace BuildPlan.Usage

def name : String := "taskplan"

def version : String := "0.3.0"

def versionText : String := name ++ " " ++ version ++ "\n"

def helpText : String :=
  "Print a dependency-respecting build order for release pipeline tasks\n\n" ++
  "Usage: " ++ name ++ " [OPTIONS] [TASK]...\n\n" ++
  "Arguments:\n" ++
  "  [TASK]...  Tasks to build; all tasks when empty\n\n" ++
  "Options:\n" ++
  "  -c, --catalog <PATH>          Catalog to use instead of the built-in release catalog [env: TASKPLAN_CATALOG]\n" ++
  "  -a, --assume-provided <NAME>  Additional names that are provided outside the pipeline\n" ++
  "  -o, --output <OUTPUT>         Output format for the build order [default: text]\n" ++
  "      --check                   Validate the whole catalog instead of resolving\n" ++
  "      --list                    List catalog tasks in registration order\n" ++
  "  -q, --quiet                   Suppress the collected-count diagnostic\n" ++
  "  -L, --level <LEVEL>           Set logging level [default: warn]\n" ++
  "      --log-format <FORMAT>     Format of log lines on stderr [default: compact]\n" ++
  "      --json                    Emit log lines as JSON\n" ++
  "  -h, --help                    Print help\n" ++
  "  -V, --version                 Print version\n"

def text : Invocation.Stop → String
  | .unknownArgument => "error: unexpected argument\n"
  | .invalidValue => "error: invalid or missing value\n"
  | .argumentConflict => "error: arguments cannot be used together\n"
  | .tooManyValues => "error: unexpected value\n"
  | .help => helpText
  | .version => versionText

end BuildPlan.Usage
