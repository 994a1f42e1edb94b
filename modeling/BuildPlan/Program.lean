import BuildPlan.Command
import BuildPlan.Invocation.Arguments

namespace BuildPlan

-- How much two streams take, in bytes, and whether the result can be flushed.
structure Streams where
  remarkRoom : Option Nat
  resultRoom : Option Nat
  flushes : Bool
  deriving DecidableEq, Repr

namespace Streams

def working : Streams := ⟨none, none, true⟩

-- What a stream takes of a text, and whether that is all.
def take (room : Option Nat) (text : String) : ByteArray × Bool :=
  match room with
  | none => (text.toUTF8, true)
  | some room => (text.toUTF8.extract 0 room, decide (text.utf8ByteSize ≤ room))

end Streams

structure Delivery where
  outcome : Except Failure Unit
  remark : ByteArray
  result : ByteArray

namespace Delivery

def refused (reason : String) : Except Failure Unit := .error (.ofCause (.output reason))

def ofReport (streams : Streams) (report : Report) : Delivery :=
  let (remark, remarked) := Streams.take streams.remarkRoom report.remark
  if !remarked then ⟨refused "closed", remark, .empty⟩
  else
    let (result, complete) := Streams.take streams.resultRoom report.result
    if !complete then ⟨refused "closed", remark, result⟩
    else if !streams.flushes then ⟨refused "flush failed", remark, result⟩
    else ⟨.ok (), remark, result⟩

end Delivery

def Invocation.execute (files : Files) (streams : Streams) (i : Invocation) : Delivery × Array Event :=
  match i.report files with
  | (.error failure, events) => (⟨.error failure, .empty, .empty⟩, events)
  | (.ok report, events) => (.ofReport streams report, events)

structure Environment where
  catalogPath : Option String
  logFilter : Option String
  deriving DecidableEq, Repr

namespace Program

structure Outcome where
  exitCode : Nat
  output : String
  remark : String
  failure : Option Failure
  records : List Log.Record

def records (env : Environment) (i : Invocation) (events : List Event) : List Log.Record :=
  let filter := Log.Filter.choose env.logFilter i.level
  let started := Event.started Usage.version i.lineFormat.label
  ((started :: events).map Log.Record.ofEvent).filter filter.admits

def failureOutput (words : Blueprint.Wording) (f : Failure) : Output → String
  | .text => ""
  | .json => Command.errorLine words f

def perform (words : Blueprint.Wording) (files : Files) (env : Environment) (i : Invocation) : Outcome :=
  match i.report files with
  | (.ok report, events) =>
    { exitCode := 0
      output := report.result
      remark := report.remark
      failure := none
      records := records env i events.toList }
  | (.error failure, events) =>
    { exitCode := failure.exitCode
      output := failureOutput words failure i.output
      remark := ""
      failure := some failure
      records := records env i (events.toList ++ [.commandFailed (failure.message words)]) }

def run (words : Blueprint.Wording) (files : Files) (env : Environment) (arguments : List String) :
    Except Invocation.Stop Outcome :=
  (Invocation.ofArguments arguments env.catalogPath).map (perform words files env)

end Program
end BuildPlan
