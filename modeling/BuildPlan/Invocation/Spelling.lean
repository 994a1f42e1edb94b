import BuildPlan.Invocation.Arguments

namespace BuildPlan.Invocation

namespace Switch

def name : Switch → String
  | check => "check"
  | list => "list"
  | quiet => "quiet"
  | json => "json"

def letter? : Switch → Option Char
  | quiet => some 'q'
  | check | list | json => none

end Switch

namespace Setting

def name : Setting → String
  | catalog => "catalog"
  | assume => "assume-provided"
  | output => "output"
  | level => "level"
  | logFormat => "log-format"

def letter? : Setting → Option Char
  | catalog => some 'c'
  | assume => some 'a'
  | output => some 'o'
  | level => some 'L'
  | logFormat => none

end Setting

theorem ofName?_switch (s : Switch) : ofName? s.name = some (.switch s) := by cases s <;> rfl

theorem ofName?_setting (s : Setting) : ofName? s.name = some (.setting s) := by cases s <;> rfl

theorem ofLetter?_switch {s : Switch} {c : Char} (named : s.letter? = some c) :
    ofLetter? c = some (.switch s) := by
  cases s <;> cases named
  rfl

theorem ofLetter?_setting {s : Setting} {c : Char} (named : s.letter? = some c) :
    ofLetter? c = some (.setting s) := by
  cases s <;> cases named <;> rfl

inductive Item where
  | switch (switch : Switch)
  | setting (setting : Setting) (value : String)
  | task (name : Name)
  deriving DecidableEq, Repr

-- Items that are spelled by the letters after one hyphen: switches, and perhaps a last option with
-- its value, which may stand behind an equals sign.
inductive Letters : List Item → List Char → Prop where
  | switch {s c} : s.letter? = some c → Letters [.switch s] [c]
  | cons {s c items cs} : s.letter? = some c → Letters items cs →
      Letters (.switch s :: items) (c :: cs)
  | joined {s c first rest} : s.letter? = some c → first ≠ '=' →
      Letters [.setting s (String.ofList (first :: rest))] (c :: first :: rest)
  | equals {s c value} : s.letter? = some c →
      Letters [.setting s (String.ofList value)] (c :: '=' :: value)

inductive OpenLetters : List Item → Setting → List Char → Prop where
  | setting {s c} : s.letter? = some c → OpenLetters [] s [c]
  | cons {s c items last cs} : s.letter? = some c → OpenLetters items last cs →
      OpenLetters (.switch s :: items) last (c :: cs)

inductive Spells : List Item → List String → Prop where
  | nil : Spells [] []
  -- Behind two hyphens everything is a task.
  | tasks (names : List Name) : Spells (names.map .task) ("--" :: names)
  | task {name items arguments} : isPlain name = true → Spells items arguments →
      Spells (.task name :: items) (name :: arguments)
  | switch {s items arguments} : Spells items arguments →
      Spells (.switch s :: items) (("--" ++ s.name) :: arguments)
  | attached {s value items arguments} : Spells items arguments →
      Spells (.setting s value :: items) (("--" ++ s.name ++ "=" ++ value) :: arguments)
  | separate {s value items arguments} : isPlain value = true → Spells items arguments →
      Spells (.setting s value :: items) (("--" ++ s.name) :: value :: arguments)
  | letters {first cs items arguments} : Letters first cs → Spells items arguments →
      Spells (first ++ items) (String.ofList ('-' :: cs) :: arguments)
  | openLetters {first s cs value items arguments} : OpenLetters first s cs → isPlain value = true →
      Spells items arguments →
      Spells (first ++ .setting s value :: items) (String.ofList ('-' :: cs) :: value :: arguments)

namespace Item

def task? : Item → Option Name
  | task name => some name
  | switch _ | setting _ _ => none

def valuesOf (s : Setting) (items : List Item) : List String :=
  items.filterMap fun
    | setting other value => if other = s then some value else none
    | switch _ | task _ => none

end Item

def isOn (i : Invocation) : Switch → Bool
  | .check => i.check
  | .list => i.list
  | .quiet => i.quiet
  | .json => i.json

-- A value is said once, or not at all when it goes without saying.
def SaidOnce (word default : String) (values : List String) : Prop :=
  values = [word] ∨ (values = [] ∧ word = default)

structure Says (items : List Item) (i : Invocation) : Prop where
  tasks : items.filterMap Item.task? = i.tasks
  assumed : Item.valuesOf .assume items = i.assumed
  catalog : Item.valuesOf .catalog items = i.catalog.toList
  output : SaidOnce i.output.word Output.text.word (Item.valuesOf .output items)
  level : SaidOnce i.level.word Log.Level.warn.word (Item.valuesOf .level items)
  logFormat : SaidOnce i.logFormat.word Log.Format.compact.word (Item.valuesOf .logFormat items)
  switches : ∀ s, items.count (.switch s) = if i.isOn s then 1 else 0

-- At most one of a check, a listing and a schedule for some tasks.
def OneMode (i : Invocation) : Prop :=
  (i.check = true → i.list = false ∧ i.tasks = []) ∧ (i.list = true → i.tasks = [])

def Legal (i : Invocation) : Prop := i.OneMode ∧ i.catalog ≠ some ""

def Renders (i : Invocation) (arguments : List String) : Prop :=
  ∃ items, Says items i ∧ Spells items arguments

end BuildPlan.Invocation
