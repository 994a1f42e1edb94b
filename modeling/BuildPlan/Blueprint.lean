import BuildPlan.Draft

namespace BuildPlan

inductive Blueprint.Selection where
  | group (name : Name)
  | list (targets : List Name)
  deriving DecidableEq, Repr

structure Blueprint.Entry where
  name : Name
  needs : List Name := []
  targets : Option Blueprint.Selection := none
  exclude : List Name := []
  deriving DecidableEq, Repr

structure Blueprint where
  assumed : List Name := []
  -- Needs of every task that is named by appending its target.
  targetNeeds : List Name := []
  groups : List (Name × List Name) := []
  entries : List Blueprint.Entry := []
  deriving DecidableEq, Repr

namespace Blueprint

def targetsFor (b : Blueprint) (entry : Entry) : Except LoadError (Option (List Name)) :=
  match entry.targets with
  | none => .ok none
  | some (.list targets) => .ok (some targets)
  | some (.group group) =>
    match b.groups.lookup group with
    | some targets => .ok (some targets)
    | none => .error (.unknownGroup entry.name group)

def familyOf (b : Blueprint) (entry : Entry) (targets : List Name) : Family :=
  { name := entry.name, needs := entry.needs, targets, exclude := entry.exclude,
    targetNeeds := b.targetNeeds }

-- What keeps an entry without targets from being a task.
def Entry.defect? (entry : Entry) : Option EntryDefect :=
  if !entry.exclude.isEmpty then some .excludeWithoutTargets
  else if Text.Placeholder.isIn entry.name then some .templateWithoutTargets
  else none

def registerEntry (b : Blueprint) (entry : Entry) : Drafting Unit := do
  match b.targetsFor entry with
  | .error error => throw error
  | .ok (some targets) => Draft.registerFamily (b.familyOf entry targets)
  | .ok none =>
    match entry.defect? with
    | some defect => throw (.invalidEntry entry.name defect)
    | none => Draft.register ⟨entry.name, entry.needs⟩

-- Provided names first, then the entries in the order of the document.
def register (b : Blueprint) : Drafting Unit := do
  Draft.assumeAll b.assumed
  b.entries.forM b.registerEntry

def expand (b : Blueprint) : Except LoadError Catalog × Array Event :=
  match b.register.run.run Draft.empty with
  | (.error error, draft) => (.error error, draft.events)
  | (.ok (), draft) =>
    let (catalog, events) := draft.build
    (.ok catalog, events.push (.blueprintExpanded b.entries.length catalog.size))

def toCatalog (b : Blueprint) : Except LoadError Catalog := b.expand.1

def ofCatalog (c : Catalog) : Blueprint :=
  { assumed := c.assumed.toList, entries := c.tasks.map fun task => { name := task.name, needs := task.needs } }

end Blueprint
end BuildPlan
