import BuildPlan.Catalog

namespace BuildPlan

structure Schedule where
  names : List Name
  deriving DecidableEq, Repr

namespace Schedule

def size (s : Schedule) : Nat := s.names.length

def isEmpty (s : Schedule) : Bool := s.names.isEmpty

def position? (s : Schedule) (name : Name) : Option Nat := s.names.idxOf? name

def contains (s : Schedule) (name : Name) : Bool := (s.position? name).isSome

end Schedule

structure Expansion where
  task : Task
  pending : List Name
  deriving DecidableEq, Repr

-- A depth-first walk below one root, without a call stack. The open tasks stand innermost first, their names
-- in `active` outermost first, so that meeting an open task again is noticed at once. A step looks at one
-- need or closes one task.
structure Walk where
  collected : NameSet
  active : NameSet
  expansions : List Expansion
  -- What happened, oldest first.
  events : Array Event
  fault : Option Fault

namespace Walk

-- A need is tried in this order: provided, closed, open, registered. Only a registered task that
-- is neither closed nor open is opened.
def enter (c : Catalog) (name : Name) (w : Walk) : Walk :=
  if c.isAssumed name then { w with events := w.events.push (.skipped name) }
  else if w.collected.contains name then w
  else if w.active.contains name then
    { w with fault := some (.circular w.active.toList name) }
  else match c.find? name with
    | none => { w with fault := some (.unknown name w.active.toList) }
    | some task =>
      let depth := w.active.size
      { w with
        events := w.events.push (.visited name depth)
        active := w.active.insert name
        expansions := ⟨task, task.needs⟩ :: w.expansions }

-- Close the innermost task; `outer` are the tasks around it.
def close (w : Walk) (task : Task) (outer : List Expansion) : Walk :=
  let position := w.collected.size
  { w with
    events := w.events.push (.collected task.name position)
    active := w.active.pop
    collected := w.collected.insert task.name
    expansions := outer }

def step (c : Catalog) (w : Walk) : Walk :=
  match w.expansions with
  | [] => w
  | ⟨task, []⟩ :: outer => w.close task outer
  | ⟨task, need :: rest⟩ :: outer =>
    let w := { w with expansions := ⟨task, rest⟩ :: outer }
    if w.collected.contains need then w else w.enter c need

def halted (w : Walk) : Bool := w.fault.isSome || w.expansions.isEmpty

-- At most `limit` steps, fewer when the machine halts before.
def run (c : Catalog) : (limit : Nat) → Walk → Walk
  | 0, w => w
  | limit + 1, w => if w.halted then w else run c limit (w.step c)

end Walk

-- Each task is opened at most once, and then takes a step for each need and one to be closed.
def Catalog.walkBound (c : Catalog) : Nat :=
  c.tasks.foldr (fun task total => task.needs.length + 1 + total) 0

-- A collector outlives a visit that fails: what was collected before the fault stays collected, and no task
-- stays open.
structure Collector where
  catalog : Catalog
  collected : NameSet
  -- The open tasks, outermost first; none between two visits.
  active : NameSet
  events : Array Event
  limit : Nat
  limit_exact : limit = catalog.walkBound

namespace Collector

def start (c : Catalog) : Collector :=
  { catalog := c, collected := .empty, active := .empty, events := #[],
    limit := c.walkBound, limit_exact := rfl }

@[inline] def walk (k : Collector) (root : Name) : Walk :=
  let w : Walk :=
    { collected := k.collected, active := k.active, expansions := [], events := k.events,
      fault := none }
  (w.enter k.catalog root).run k.catalog k.limit

def visit (k : Collector) (root : Name) : Except Fault Unit × Collector :=
  let depth := k.active.size
  let w := k.walk root
  match w.fault with
  | none => (.ok (), { k with collected := w.collected, active := w.active, events := w.events })
  | some fault =>
    (.error fault,
      { k with
        collected := w.collected
        active := w.active.truncate depth
        events := w.events.push (.rootFailed root fault) })

-- Visits up to the first that fails.
def visitAll (k : Collector) : List Name → Except Fault Unit × Collector
  | [] => (.ok (), k)
  | root :: rest =>
    match k.visit root with
    | (.ok (), k) => k.visitAll rest
    | failed => failed

def schedule (k : Collector) : Schedule := ⟨k.collected.toList⟩

def finish (k : Collector) : Schedule × Array Event :=
  (k.schedule, k.events.push (.collectingFinished k.collected.size k.catalog.size))

end Collector

namespace Catalog

-- Without roots every registered task is one, in the order of registration.
def rootsOf (c : Catalog) (roots : List Name) : List Name := if roots.isEmpty then c.names else roots

def collect (c : Catalog) (roots : List Name) : Except Fault Schedule × Array Event :=
  match (Collector.start c).visitAll (c.rootsOf roots) with
  | (.ok (), k) => let (schedule, events) := k.finish; (.ok schedule, events)
  | (.error fault, k) => (.error fault, k.events)

def schedule (c : Catalog) (roots : List Name) : Except Fault Schedule := (c.collect roots).1

end Catalog
end BuildPlan
