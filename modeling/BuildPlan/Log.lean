import BuildPlan.Catalog
import BuildPlan.Json
import BuildPlan.Text.Visible

namespace BuildPlan.Log

inductive Level where
  | error
  | warn
  | info
  | debug
  | trace
  deriving DecidableEq, Repr

namespace Level

def all : List Level := [error, warn, info, debug, trace]

def rank : Level → Nat
  | error => 1
  | warn => 2
  | info => 3
  | debug => 4
  | trace => 5

-- As it stands in a log line.
def label : Level → String
  | error => "ERROR"
  | warn => "WARN"
  | info => "INFO"
  | debug => "DEBUG"
  | trace => "TRACE"

-- As it is asked for on a command line.
def word : Level → String
  | error => "error"
  | warn => "warn"
  | info => "info"
  | debug => "debug"
  | trace => "trace"

def ofWord? (text : String) : Option Level := all.find? fun level => level.word = text

def covers (level other : Level) : Bool := other.rank ≤ level.rank

end Level

inductive Format where
  | pretty
  | compact
  | json
  deriving DecidableEq, Repr

namespace Format

def all : List Format := [pretty, compact, json]

def word : Format → String
  | pretty => "pretty"
  | compact => "compact"
  | json => "json"

def label : Format → String
  | pretty => "Pretty"
  | compact => "Compact"
  | json => "Json"

def ofWord? (text : String) : Option Format := all.find? fun format => format.word = text

end Format

structure Record where
  level : Level
  target : String
  message : String
  values : List (String × Json)
  deriving Repr

-- The parts of the program that tell events; every name begins with the first.
def programTarget : String := "taskplan"

def commandTarget : String := "taskplan::commands"

def loggingTarget : String := "taskplan::tracing"

def blueprintTarget : String := "taskplan_catalog::spec"

def familyTarget : String := "taskplan_catalog::multitarget"

def catalogTarget : String := "taskplan_task_graph::catalog"

def collectorTarget : String := "taskplan_task_graph::resolver"

def graphTarget : String := "taskplan_task_graph::graph"

def Record.ofEvent : Event → Record
  | .started version format =>
    ⟨.info, loggingTarget, "Tracing initialized for taskplan",
      [("version", .string version), ("format", .string format)]⟩
  | .registering task needs =>
    ⟨.trace, catalogTarget, "Registering task",
      [("task", .string task), ("deps", .string (Text.quotedList needs))]⟩
  | .registeringVariant family variant =>
    ⟨.trace, familyTarget, "Registering target variant",
      [("task", .string family), ("expanded", .string variant)]⟩
  | .catalogBuilt tasks assumed =>
    ⟨.debug, catalogTarget, "Task catalog built",
      [("tasks", .number tasks), ("assume_provided", .number assumed)]⟩
  | .blueprintLoaded path entries =>
    ⟨.info, blueprintTarget, "Loaded catalog specification",
      [("path", .string path), ("entries", .number entries)]⟩
  | .blueprintExpanded entries tasks =>
    ⟨.debug, blueprintTarget, "Expanded catalog specification",
      [("entries", .number entries), ("tasks", .number tasks)]⟩
  | .releaseChosen => ⟨.debug, commandTarget, "Using built-in release catalog", []⟩
  | .catalogReady tasks assumed =>
    ⟨.info, commandTarget, "Catalog ready",
      [("tasks", .number tasks), ("assume_provided", .number assumed)]⟩
  | .skipped task =>
    ⟨.trace, collectorTarget, "Skipping assume-provided task", [("task", .string task)]⟩
  | .visited task depth =>
    ⟨.trace, collectorTarget, "Visiting task", [("task", .string task), ("depth", .number depth)]⟩
  | .collected task position =>
    ⟨.trace, collectorTarget, "Task collected",
      [("task", .string task), ("position", .number position)]⟩
  | .rootFailed root fault =>
    ⟨.debug, collectorTarget, "Resolution failed",
      [("root", .string root), ("error", .string fault.message)]⟩
  | .collectingFinished collected total =>
    ⟨.debug, collectorTarget, "Resolution finished",
      [("collected", .number collected), ("total", .number total)]⟩
  | .graphBuilt nodes edges missing =>
    ⟨.debug, graphTarget, "Built dependency graph",
      [("nodes", .number nodes), ("edges", .number edges), ("missing", .number missing)]⟩
  | .commandFailed message =>
    ⟨.debug, programTarget, "Command failed", [("error", .string message)]⟩

namespace Record

def fields (r : Record) : List (String × Json) := ("message", .string r.message) :: r.values

def jsonLine (r : Record) : String :=
  (Json.object
    [("level", .string r.level.label), ("fields", .object r.fields),
      ("target", .string r.target)]).line

def valueText : Json → String
  | .string text => Text.quoted text
  | value => value.render

def compactLine (r : Record) : String :=
  " ".intercalate
    (r.level.label :: r.message :: r.values.map fun (name, value) => name ++ "=" ++ valueText value)
    ++ "\n"

def prettyLines (r : Record) : String :=
  "  " ++ r.level.label ++ " " ++ r.target ++ ": " ++
    ", ".intercalate
      (r.message :: r.values.map fun (name, value) => name ++ ": " ++ valueText value) ++ "\n\n"

def render (format : Format) : Record → String :=
  match format with
  | .pretty => prettyLines
  | .compact => compactLine
  | .json => jsonLine

end Record

structure Directive where
  -- Without one, the directive is for every target.
  target : Option String
  -- Without one, nothing is told.
  level : Option Level
  deriving DecidableEq, Repr

namespace Directive

def fits (d : Directive) (target : String) : Bool :=
  match d.target with
  | none => true
  | some start => start.toList.isPrefixOf target.toList

-- How much of a target a directive speaks of; one for every target speaks of less than any other.
def reach (d : Directive) : Nat :=
  match d.target with
  | none => 0
  | some start => start.utf8ByteSize + 1

def lowered (text : String) : String := text.map Char.toLower

-- A number as a level: 0 is none at all, 1 only errors, and so on.
def numbered? (text : String) : Option (Option Level) := do
  let digits := match text.toList with
    | '+' :: rest => rest
    | cs => cs
  if digits.isEmpty || !digits.all Char.isDigit then none
  else
    match Nat.ofDigitChars 10 digits 0 with
    | 0 => some none
    | n => (Level.all.find? fun level => level.rank = n).map some

def level? (text : String) : Option (Option Level) :=
  (numbered? text).orElse fun _ =>
    if lowered text = "off" then some none else (Level.ofWord? (lowered text)).map some

def opensDirective (c : Char) : Bool := c.isAlphanum || c = '-' || c = ':' || c = '_' || c.toNat ≥ 0x80

def ofChars? (cs : List Char) : Option Directive :=
  match cs with
  | [] => some ⟨none, some .trace⟩
  | c :: _ =>
    if !opensDirective c then none
    else
      let target := String.ofList (cs.takeWhile (· ≠ '='))
      match cs.dropWhile (· ≠ '=') with
      | [] =>
        match level? target with
        | some level => some ⟨none, level⟩
        | none => some ⟨some target, some .trace⟩
      | [_] => some ⟨some target, some .trace⟩
      | _ :: level => (level? (String.ofList level)).map fun level => ⟨some target, level⟩

def ofText? (text : String) : Option Directive :=
  ofChars? ((text.toList.dropWhile Char.isWhitespace).reverse.dropWhile Char.isWhitespace).reverse

end Directive

-- Each directive sets the level for the targets that begin with its own; of those that fit, the longest counts.
structure Filter where
  directives : List Directive
  deriving DecidableEq, Repr

namespace Filter

def ofLevel (level : Level) : Filter := ⟨[⟨some programTarget, some level⟩]⟩

-- Directives between commas; a text without any lets only errors through.
def ofText? (text : String) : Option Filter :=
  match (text.splitOn ",").filter (· ≠ "") with
  | [] => some ⟨[⟨none, some .error⟩]⟩
  | pieces => (pieces.mapM Directive.ofText?).map Filter.mk

-- Of two directives that reach equally far, the later counts.
def further (best : Option Directive) (d : Directive) : Option Directive :=
  match best with
  | none => some d
  | some old => if old.reach ≤ d.reach then some d else some old

def directive? (f : Filter) (target : String) : Option Directive :=
  (f.directives.filter (·.fits target)).foldl further none

def admits (f : Filter) (r : Record) : Bool :=
  match (f.directive? r.target).bind Directive.level with
  | none => false
  | some level => level.covers r.level

def choose (wish : Option String) (level : Level) : Filter :=
  (wish.bind ofText?).getD (ofLevel level)

end Filter
end BuildPlan.Log
