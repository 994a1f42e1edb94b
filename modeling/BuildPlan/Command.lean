import BuildPlan.Blueprint.Schema
import BuildPlan.Collector
import BuildPlan.Failure
import BuildPlan.Files
import BuildPlan.Graph
import BuildPlan.Invocation
import BuildPlan.Release

namespace BuildPlan

-- Work that may fail; what happened until then stays told.
abbrev Command := ExceptT Failure (StateM (Array Event))

-- A command finds out everything that it has to say before any of it is said.
structure Report where
  remark : String
  result : String
  deriving DecidableEq, Repr

namespace Command

def tell (event : Event) : Command Unit := modify (·.push event)

def fail (cause : Failure.Cause) : Command α := throw (.ofCause cause)

def ofPair (cause : ε → Failure.Cause) (work : Except ε α × Array Event) : Command α := do
  modify (· ++ work.2)
  match work.1 with
  | .ok value => pure value
  | .error error => fail (cause error)

def readBlueprint (files : Files) (path : String) : Command Blueprint :=
  match files path with
  | .error fault => fail (.loading (.unreadable path fault.message))
  | .ok text =>
    match Blueprint.ofText text path with
    | .error error => fail (.loading error)
    | .ok blueprint => do
      tell (.blueprintLoaded path blueprint.entries.length)
      pure blueprint

def chooseBlueprint (files : Files) : Option String → Command Blueprint
  | some path => readBlueprint files path
  | none => do
    tell .releaseChosen
    match Blueprint.ofText Release.text "<builtin>" with
    | .error error => fail (.loading error)
    | .ok blueprint => pure blueprint

def extend (c : Catalog) (assumed : List Name) : Command Catalog :=
  if assumed.isEmpty then pure c
  else do
    let (catalog, events) := (Draft.ofCatalog (c.assumeAll assumed)).build
    modify (· ++ events)
    pure catalog

def load (files : Files) (path : Option String) (assumed : List Name) : Command Catalog := do
  let blueprint ← chooseBlueprint files path
  let catalog ← ofPair .loading blueprint.expand
  extend catalog assumed

def lines (names : List Name) : String := String.join (names.map (· ++ "\n"))

def okLine (data : Json) : String := (Json.object [("status", .string "ok"), ("data", data)]).line

def errorLine (words : Blueprint.Wording) (f : Failure) : String :=
  (Json.object
    [("status", .string "error"),
      ("error", .object [("code", .string f.kind.word), ("message", .string (f.message words))])]).line

def checkResult (c : Catalog) : Output → String
  | .text => "ok\n"
  | .json => okLine (.object [("valid", .boolean true), ("tasks", .number c.size)])

def check (c : Catalog) (output : Output) : Command Report := do
  let graph := Graph.ofCatalog c
  tell graph.built
  match graph.faults with
  | [] => pure { remark := "", result := checkResult c output }
  | faults => fail (.invalid faults)

def listResult (c : Catalog) : Output → String
  | .text => lines c.names
  | .json =>
    okLine (.object [("tasks", .strings c.names), ("assume_provided", .strings c.assumed.toList)])

def list (c : Catalog) (output : Output) : Command Report :=
  pure { remark := "", result := listResult c output }

def collectedRemark (collected total : Nat) : List Name → String
  | [] => "Collected all " ++ toString total ++ " tasks\n"
  | roots =>
    "Collected " ++ toString collected ++ "/" ++ toString total ++ " tasks for [" ++
      ", ".intercalate roots ++ "]\n"

def scheduleResult (s : Schedule) (total : Nat) : Output → String
  | .text => lines s.names
  | .json =>
    okLine (.object
      [("tasks", .strings s.names), ("collected", .number s.size), ("total", .number total)])

def schedule (c : Catalog) (i : Invocation) : Command Report := do
  let schedule ← ofPair .scheduling (c.collect i.tasks)
  let total := c.buildable.length
  pure
    { remark := if i.quiet then "" else collectedRemark schedule.size total i.tasks
      result := scheduleResult schedule total i.output }

def report (files : Files) (i : Invocation) : Command Report := do
  let catalog ← load files i.catalog i.assumed
  tell (.catalogReady catalog.size catalog.assumed.size)
  if i.check then check catalog i.output
  else if i.list then list catalog i.output
  else schedule catalog i

end Command

def Invocation.report (files : Files) (i : Invocation) : Except Failure Report × Array Event :=
  (Command.report files i).run.run #[]

end BuildPlan
