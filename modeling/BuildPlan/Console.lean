import BuildPlan.Program

namespace BuildPlan

structure Stream where
  taken : ByteArray
  -- How many more bytes it takes, if there is an end to them.
  room : Option Nat

def Stream.write (s : Stream) (text : String) : Stream × Bool :=
  let (part, complete) := Streams.take s.room text
  ({ taken := s.taken ++ part, room := s.room.map (· - text.utf8ByteSize) }, complete)

structure Console where
  remark : Stream
  result : Stream
  flushes : Bool
  events : Array Event

-- Work at a console: what was written before a failure stays written.
abbrev Speaking := ExceptT Failure (StateM Console)

namespace Console

def start (streams : Streams) : Console :=
  { remark := ⟨.empty, streams.remarkRoom⟩, result := ⟨.empty, streams.resultRoom⟩
    flushes := streams.flushes, events := #[] }

def quietly (work : Command α) : Speaking α := ExceptT.mk fun console =>
  let (answer, events) := work.run.run console.events
  (answer, { console with events })

def cannot (reason : String) : Speaking α := throw (.ofCause (.output reason))

def sayRemark (text : String) : Speaking Unit := do
  let console ← get
  let (remark, complete) := console.remark.write text
  set { console with remark }
  if complete then pure () else cannot "closed"

def sayResult (text : String) : Speaking Unit := do
  let console ← get
  let (result, complete) := console.result.write text
  set { console with result }
  if complete then pure () else cannot "closed"

def flush : Speaking Unit := do
  if (← get).flushes then pure () else cannot "flush failed"

def sayNames (names : List Name) : Speaking Unit := names.forM fun name => sayResult (name ++ "\n")

def check (c : Catalog) (output : Output) : Speaking Unit := do
  let graph := Graph.ofCatalog c
  quietly (Command.tell graph.built)
  match graph.faults with
  | [] => sayResult (Command.checkResult c output)
  | faults => quietly (Command.fail (.invalid faults))

def list (c : Catalog) : Output → Speaking Unit
  | .text => sayNames c.names
  | .json => sayResult (Command.listResult c .json)

def remarkUnless (quiet : Bool) (text : String) : Speaking Unit :=
  if quiet then pure () else sayRemark text

def saySchedule (s : Schedule) (total : Nat) : Output → Speaking Unit
  | .text => sayNames s.names
  | .json => sayResult (Command.scheduleResult s total .json)

def schedule (c : Catalog) (i : Invocation) : Speaking Unit := do
  let schedule ← quietly (Command.ofPair .scheduling (c.collect i.tasks))
  let total := c.buildable.length
  remarkUnless i.quiet (Command.collectedRemark schedule.size total i.tasks)
  saySchedule schedule total i.output

def perform (c : Catalog) (i : Invocation) : Speaking Unit :=
  if i.check then check c i.output
  else if i.list then list c i.output
  else schedule c i

def carryOut (files : Files) (i : Invocation) : Speaking Unit := do
  let catalog ← quietly (Command.load files i.catalog i.assumed)
  quietly (Command.tell (.catalogReady catalog.size catalog.assumed.size))
  perform catalog i
  flush

def delivery (ended : Except Failure Unit × Console) : Delivery :=
  ⟨ended.1, ended.2.remark.taken, ended.2.result.taken⟩

end Console

-- The same as `Invocation.execute`, written line by line.
def Invocation.carryOut (files : Files) (streams : Streams) (i : Invocation) : Delivery × Array Event :=
  let ended := (Console.carryOut files i).run.run (.start streams)
  (Console.delivery ended, ended.2.events)

end BuildPlan
