import BuildPlan.Invocation

namespace BuildPlan.Invocation

inductive Switch where
  | check
  | list
  | quiet
  | json
  deriving DecidableEq, Repr

inductive Setting where
  | catalog
  | assume
  | output
  | level
  | logFormat
  deriving DecidableEq, Repr

inductive Meaning where
  | switch (switch : Switch)
  | setting (setting : Setting)
  | question (stop : Stop)
  deriving DecidableEq, Repr

def ofLetter? : Char → Option Meaning
  | 'c' => some (.setting .catalog)
  | 'a' => some (.setting .assume)
  | 'o' => some (.setting .output)
  | 'L' => some (.setting .level)
  | 'q' => some (.switch .quiet)
  | 'h' => some (.question .help)
  | 'V' => some (.question .version)
  | _ => none

-- The options by the names after two hyphens; no name may be shortened.
def ofName? : String → Option Meaning
  | "catalog" => some (.setting .catalog)
  | "assume-provided" => some (.setting .assume)
  | "output" => some (.setting .output)
  | "level" => some (.setting .level)
  | "log-format" => some (.setting .logFormat)
  | "check" => some (.switch .check)
  | "list" => some (.switch .list)
  | "quiet" => some (.switch .quiet)
  | "json" => some (.switch .json)
  | "help" => some (.question .help)
  | "version" => some (.question .version)
  | _ => none

-- An argument says by itself what it is, with two exceptions: behind an option without its value the next one
-- is the value, if it does not look like an option; and behind `--` every argument is a task.
inductive Word where
  | switch (switch : Switch)
  | attached (setting : Setting) (value : String)
  -- An option with its value in the next argument, if that is there.
  | separate (setting : Setting) (value : Option String)
  | task (name : Name)
  | question (stop : Stop)
  | stray (stop : Stop)
  deriving DecidableEq, Repr

-- The words of one argument, and the option that waits for its value behind them.
abbrev Words := List Word × Option Setting

def letterWords : List Char → Words
  | [] => ([], none)
  | letter :: rest =>
    match ofLetter? letter with
    | some (.switch switch) => let (words, waiting) := letterWords rest; (.switch switch :: words, waiting)
    | some (.question stop) => ([.question stop], none)
    | some (.setting setting) =>
      match rest with
      | [] => ([], some setting)
      | '=' :: value => ([.attached setting (String.ofList value)], none)
      | value => ([.attached setting (String.ofList value)], none)
    | none => ([.stray .unknownArgument], none)

def nameWords (cs : List Char) : Words :=
  match ofName? (String.ofList (cs.takeWhile (· ≠ '='))), cs.dropWhile (· ≠ '=') with
  | none, _ => ([.stray .unknownArgument], none)
  | some (.switch switch), [] => ([.switch switch], none)
  | some (.question stop), [] => ([.question stop], none)
  | some (.setting setting), [] => ([], some setting)
  | some (.setting setting), _ :: value => ([.attached setting (String.ofList value)], none)
  | some (.switch _), _ :: _ | some (.question _), _ :: _ => ([.stray .tooManyValues], none)

def isPlain (argument : String) : Bool :=
  match argument.toList with
  | '-' :: _ :: _ => false
  | _ => true

def argumentWords (argument : String) : Words :=
  match argument.toList with
  | '-' :: '-' :: cs => nameWords cs
  | '-' :: c :: cs => letterWords (c :: cs)
  | _ => ([.task argument], none)

def words (waiting : Option Setting) : List String → List Word
  | [] => waiting.toList.map (.separate · none)
  | argument :: rest =>
    match waiting, isPlain argument with
    | some setting, true => .separate setting (some argument) :: words none rest
    | _, _ =>
      let unmet := waiting.toList.map (.separate · none)
      if argument = "--" then unmet ++ rest.map .task
      else
        let (found, waiting) := argumentWords argument
        unmet ++ found ++ words waiting rest

structure Said where
  tasks : List Name := []
  catalog : Option String := none
  assumed : List Name := []
  output : Option Output := none
  check : Bool := false
  list : Bool := false
  quiet : Bool := false
  level : Option Log.Level := none
  logFormat : Option Log.Format := none
  json : Bool := false
  deriving DecidableEq, Repr

namespace Said

def turnOn (s : Said) : Switch → Except Stop Said
  | .check => if s.check then .error .argumentConflict else .ok { s with check := true }
  | .list => if s.list then .error .argumentConflict else .ok { s with list := true }
  | .quiet => if s.quiet then .error .argumentConflict else .ok { s with quiet := true }
  | .json => if s.json then .error .argumentConflict else .ok { s with json := true }

def path? (text : String) : Option String := if text = "" then none else some text

def once (old : Option α) (new : Option α) : Except Stop (Option α) :=
  match old, new with
  | some _, _ => .error .argumentConflict
  | none, none => .error .invalidValue
  | none, some value => .ok (some value)

def assign (s : Said) (setting : Setting) (text : String) : Except Stop Said :=
  match setting with
  | .assume => .ok { s with assumed := s.assumed ++ [text] }
  | .catalog => (once s.catalog (path? text)).map fun catalog => { s with catalog }
  | .output => (once s.output (Output.ofWord? text)).map fun output => { s with output }
  | .level => (once s.level (Log.Level.ofWord? text)).map fun level => { s with level }
  | .logFormat => (once s.logFormat (Log.Format.ofWord? text)).map fun logFormat => { s with logFormat }

def take (s : Said) : Word → Except Stop Said
  | .switch switch => s.turnOn switch
  | .attached setting value => s.assign setting value
  | .separate _ none => .error .invalidValue
  | .separate setting (some value) => s.assign setting value
  | .task name => .ok { s with tasks := s.tasks ++ [name] }
  | .question stop | .stray stop => .error stop

-- Take words one after the other. Behind an option whose value has an argument of its own, a stray
-- word counts before that value is looked at.
def takeAll (s : Said) : List Word → Except Stop Said
  | [] => .ok s
  | .separate setting value :: rest =>
    match rest with
    | .stray stop :: _ => .error stop
    | _ => (s.take (.separate setting value)).bind (takeAll · rest)
  | word :: rest => (s.take word).bind (takeAll · rest)

-- Tasks, a check and a listing exclude each other.
def contradicts (s : Said) : Bool :=
  (s.check && (!s.tasks.isEmpty || s.list)) || (s.list && !s.tasks.isEmpty)

def withEnvironment (s : Said) (path : Option String) : Except Stop Said :=
  match s.catalog, path with
  | none, some path => (once none (path? path)).map fun catalog => { s with catalog }
  | _, _ => .ok s

def invocation (s : Said) : Invocation :=
  { tasks := s.tasks
    catalog := s.catalog
    assumed := s.assumed
    output := s.output.getD .text
    check := s.check
    list := s.list
    quiet := s.quiet
    level := s.level.getD .warn
    logFormat := s.logFormat.getD .compact
    json := s.json }

end Said

def ofArguments (arguments : List String) (catalogPath : Option String) : Except Stop Invocation := do
  let said ← Said.takeAll {} (words none arguments)
  let said ← said.withEnvironment catalogPath
  if said.contradicts then .error .argumentConflict else .ok said.invocation

end BuildPlan.Invocation
