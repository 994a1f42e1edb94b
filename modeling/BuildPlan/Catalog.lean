import Std.Data.TreeMap
import BuildPlan.NameSet

namespace BuildPlan

inductive Fault where
  | duplicate (task : Name)
  -- A wanted name is neither registered nor provided; the chain of tasks that led to it, outermost first.
  | unknown (task : Name) (requestedBy : List Name)
  -- The task stands on the path of tasks that are waiting for it.
  | circular (path : List Name) (task : Name)
  -- Pairs of a task and a name that it needs and that is nowhere to be found.
  | missing (needs : List (Name × Name))
  | cyclic (members : List Name)
  deriving DecidableEq, Repr

namespace Fault

def chain (names : List Name) : String := " -> ".intercalate names

def missingNeed (need : Name × Name) : String :=
  "'" ++ need.1 ++ "' depends on missing task '" ++ need.2 ++ "'"

def message : Fault → String
  | duplicate task => "duplicate task '" ++ task ++ "'"
  | unknown task [] => "unknown task '" ++ task ++ "'"
  | unknown task requestedBy => "unknown task '" ++ task ++ "', wanted by " ++ chain requestedBy
  | circular path task => "circular dependency: " ++ chain (path ++ [task])
  | missing needs => "missing dependencies: " ++ ", ".intercalate (needs.map missingNeed)
  | cyclic members => "cycle detected between tasks: " ++ ", ".intercalate members

def subject : Fault → Option Name
  | duplicate task | unknown task _ | circular _ task => some task
  | missing _ | cyclic _ => none

def code : Fault → String
  | duplicate _ => "taskplan::graph::duplicate_task"
  | unknown _ _ => "taskplan::graph::unknown_task"
  | circular _ _ => "taskplan::graph::circular_dependency"
  | missing _ => "taskplan::graph::missing_dependencies"
  | cyclic _ => "taskplan::graph::cycle_detected"

def help : Fault → Option String
  | duplicate _ => some "every task in a catalog must have a unique name"
  | unknown _ _ =>
    some "check the task name, or mark it as assume-provided if it is built elsewhere"
  | circular _ _ => some "remove one of the dependency edges along this chain"
  | missing _ | cyclic _ => none

end Fault

structure Task where
  name : Name
  -- What has to be built first, as declared: in order, repetitions included.
  needs : List Name
  deriving DecidableEq, Repr

-- What a task needs is not looked at when it is registered; it only has to be there when a schedule is
-- made.
structure Catalog where
  registered : Array Task
  index : Std.TreeMap Name Task
  index_exact : ∀ name, index[name]? = registered.toList.find? (fun task => task.name == name)
  distinct : (registered.toList.map Task.name).Nodup
  assumed : NameSet

namespace Catalog

-- In the order of registration.
def tasks (c : Catalog) : List Task := c.registered.toList

def names (c : Catalog) : List Name := c.tasks.map Task.name

def size (c : Catalog) : Nat := c.registered.size

def find? (c : Catalog) (name : Name) : Option Task := c.index[name]?

def contains (c : Catalog) (name : Name) : Bool := (c.find? name).isSome

def lookup (c : Catalog) (name : Name) (requestedBy : List Name) : Except Fault Task :=
  match c.find? name with
  | some task => .ok task
  | none => .error (.unknown name requestedBy)

-- Provided from outside: never looked up, never built.
def isAssumed (c : Catalog) (name : Name) : Bool := c.assumed.contains name

theorem find?_eq (c : Catalog) (name : Name) :
    c.find? name = c.tasks.find? (fun task => task.name == name) := c.index_exact name

theorem names_nodup (c : Catalog) : c.names.Nodup := c.distinct

theorem find?_eq_some_iff {c : Catalog} {name : Name} {task : Task} :
    c.find? name = some task ↔ task ∈ c.tasks ∧ task.name = name := by
  rw [find?_eq]
  constructor
  · intro found
    exact ⟨List.mem_of_find?_eq_some found, by simpa using List.find?_some found⟩
  · rintro ⟨member, rfl⟩
    have distinct := c.names_nodup
    unfold names at distinct
    generalize c.tasks = tasks at member distinct
    induction tasks with
    | nil => cases member
    | cons head rest ih =>
      rw [List.map_cons, List.nodup_cons] at distinct
      rcases List.mem_cons.mp member with rfl | later
      · simp
      · have apart : head.name ≠ task.name := fun same =>
          distinct.1 (same ▸ List.mem_map_of_mem later)
        rw [List.find?_cons_of_neg (by simpa using apart)]
        exact ih later distinct.2

theorem find?_eq_none_iff {c : Catalog} {name : Name} : c.find? name = none ↔ name ∉ c.names := by
  simp [find?_eq, names]

theorem contains_iff {c : Catalog} {name : Name} : c.contains name = true ↔ name ∈ c.names := by
  rw [contains, Option.isSome_iff_ne_none, ne_eq, find?_eq_none_iff, Decidable.not_not]

@[simp] theorem isAssumed_iff {c : Catalog} {name : Name} :
    c.isAssumed name = true ↔ name ∈ c.assumed := NameSet.contains_iff

def buildable (c : Catalog) : List Task := c.tasks.filter fun task => !c.isAssumed task.name

def empty : Catalog where
  registered := #[]
  index := ∅
  index_exact := by simp
  distinct := by simp
  assumed := .empty

@[simp] theorem tasks_empty : empty.tasks = [] := rfl
@[simp] theorem assumed_empty : empty.assumed = .empty := rfl

def add (c : Catalog) (task : Task) (free : c.contains task.name = false) : Catalog :=
  { c with
    registered := c.registered.push task
    index := c.index.insert task.name task
    index_exact := by
      intro name
      have absent : c.registered.toList.find? (fun other => other.name == task.name) = none := by
        rw [contains, Option.isSome_eq_false_iff, Option.isNone_iff_eq_none, find?_eq] at free
        exact free
      rw [Std.TreeMap.getElem?_insert, c.index_exact, Array.toList_push, List.find?_append]
      by_cases same : task.name = name
      · subst same
        simp [absent]
      · simp [same]
    distinct := by
      have absent : task.name ∉ c.names := fun known => by simp [contains_iff.mpr known] at free
      rw [Array.toList_push, List.map_append, List.nodup_append]
      refine ⟨c.distinct, by simp, ?_⟩
      intro old known new added same
      simp only [List.map_cons, List.map_nil, List.mem_singleton] at added
      exact absent (added ▸ same ▸ known) }

@[simp] theorem tasks_add (c : Catalog) (task : Task) (free : c.contains task.name = false) :
    (c.add task free).tasks = c.tasks ++ [task] := by simp [add, tasks]

@[simp] theorem assumed_add (c : Catalog) (task : Task) (free : c.contains task.name = false) :
    (c.add task free).assumed = c.assumed := rfl

@[inline] def register (c : Catalog) (task : Task) : Except Fault Catalog :=
  match taken : c.contains task.name with
  | true => .error (.duplicate task.name)
  | false => .ok (c.add task taken)

theorem register_eq_error_iff {c : Catalog} {task : Task} {fault : Fault} :
    c.register task = .error fault ↔ task.name ∈ c.names ∧ fault = .duplicate task.name := by
  unfold register
  split
  · rename_i taken
    simp [contains_iff.mp taken, eq_comm]
  · rename_i free
    have absent : task.name ∉ c.names := fun known => by simp [contains_iff.mpr known] at free
    simp [absent]

theorem tasks_register {c after : Catalog} {task : Task} (accepted : c.register task = .ok after) :
    after.tasks = c.tasks ++ [task] ∧ after.assumed = c.assumed := by
  unfold register at accepted
  split at accepted
  · cases accepted
  · cases accepted
    simp

def assume (c : Catalog) (name : Name) : Catalog := { c with assumed := c.assumed.insert name }

def assumeAll (c : Catalog) (names : List Name) : Catalog := names.foldl assume c

@[simp] theorem tasks_assume (c : Catalog) (name : Name) : (c.assume name).tasks = c.tasks := rfl

@[simp] theorem assumed_assume (c : Catalog) (name : Name) :
    (c.assume name).assumed = c.assumed.insert name := rfl

@[simp] theorem find?_assume (c : Catalog) (name other : Name) :
    (c.assume name).find? other = c.find? other := rfl

@[simp] theorem tasks_assumeAll (c : Catalog) (names : List Name) : (c.assumeAll names).tasks = c.tasks := by
  induction names generalizing c with
  | nil => rfl
  | cons first rest ih => exact (ih (c.assume first)).trans (tasks_assume c first)

@[simp] theorem names_assumeAll (c : Catalog) (names : List Name) : (c.assumeAll names).names = c.names := by
  rw [Catalog.names, tasks_assumeAll, Catalog.names]

@[simp] theorem assumed_assumeAll (c : Catalog) (names : List Name) :
    (c.assumeAll names).assumed = c.assumed.insertAll names := by
  induction names generalizing c with
  | nil => rfl
  | cons first rest ih => exact ih (c.assume first)

end Catalog

inductive Event where
  | started (version format : String)
  | registering (task : Name) (needs : List Name)
  | registeringVariant (family variant : Name)
  | catalogBuilt (tasks assumed : Nat)
  | blueprintLoaded (path : String) (entries : Nat)
  | blueprintExpanded (entries tasks : Nat)
  | releaseChosen
  | catalogReady (tasks assumed : Nat)
  | skipped (task : Name)
  -- A task was opened below `depth` open ones.
  | visited (task : Name) (depth : Nat)
  -- A task was closed as number `position` of the schedule.
  | collected (task : Name) (position : Nat)
  | rootFailed (root : Name) (fault : Fault)
  | collectingFinished (collected total : Nat)
  | graphBuilt (nodes edges missing : Nat)
  | commandFailed (message : String)
  deriving DecidableEq, Repr

end BuildPlan
