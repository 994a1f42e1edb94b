import Std.Data.TreeMap
import Std.Data.TreeSet
import BuildPlan.Catalog

namespace BuildPlan

structure Graph.Node where
  name : Name
  -- The nodes that this one needs, one entry for each declared need.
  needs : List Nat
  deriving DecidableEq, Repr

-- Nodes are the tasks that are built, in the order of registration. Every declared need is accounted for
-- once: a provided one is dropped, one that names a node becomes an edge, and any other is missing.
structure Graph where
  nodes : Array Graph.Node
  -- A task and a name that it needs and that is nowhere to be found, in declared order.
  missing : List (Name × Name)

namespace Graph

def numbering (tasks : List Task) : Std.TreeMap Name Nat :=
  tasks.zipIdx.foldl (fun known entry => known.insert entry.1.name entry.2) ∅

inductive Need where
  | provided
  | known (node : Nat)
  | missing
  deriving DecidableEq, Repr

def classify (c : Catalog) (known : Std.TreeMap Name Nat) (need : Name) : Need :=
  if c.isAssumed need then .provided
  else match known[need]? with
    | some node => .known node
    | none => .missing

def Need.node? : Need → Option Nat
  | known node => some node
  | provided | missing => none

def ofCatalog (c : Catalog) : Graph :=
  let known := numbering c.buildable
  { nodes := (c.buildable.map fun task =>
      ⟨task.name, task.needs.filterMap fun need => (classify c known need).node?⟩).toArray
    missing := c.buildable.flatMap fun task =>
      (task.needs.filter fun need => classify c known need == .missing).map (task.name, ·) }

def numbers (g : Graph) : List Nat := List.range g.nodes.size

def needsOf (g : Graph) (node : Nat) : List Nat := (g.nodes[node]?.map Node.needs).getD []

def nameOf (g : Graph) (node : Nat) : Name := (g.nodes[node]?.map Node.name).getD ""

def taskCount (g : Graph) : Nat := g.nodes.size

def edgeCount (g : Graph) : Nat :=
  g.nodes.toList.foldr (fun node total => node.needs.length + total) 0

def number? (g : Graph) (name : Name) : Option Nat := g.nodes.toList.findIdx? (·.name == name)

def contains (g : Graph) (name : Name) : Bool := (g.number? name).isSome

-- The tasks that need a task directly, each once, in the order of registration.
def dependents (g : Graph) (name : Name) : List Name :=
  match g.number? name with
  | none => []
  | some number => (g.nodes.toList.filter (·.needs.contains number)).map Node.name

-- No search of the graph takes more steps: each node is opened and closed once, and each edge is
-- followed once.
def searchBound (g : Graph) : Nat := 2 * g.taskCount + g.edgeCount + 1

def built (g : Graph) : Event := .graphBuilt g.taskCount g.edgeCount g.missing.length

inductive Stage where
  | opening (node : Nat)
  | closing (node : Nat)
  deriving DecidableEq, Repr

-- Closed nodes, youngest first, after at most `limit` stages.
def closingLoop (g : Graph) : (limit : Nat) → List Stage → Std.TreeSet Nat → List Nat → List Nat
  | 0, _, _, closed => closed
  | _ + 1, [], _, closed => closed
  | limit + 1, .closing node :: todo, opened, closed => closingLoop g limit todo opened (node :: closed)
  | limit + 1, .opening node :: todo, opened, closed =>
    if opened.contains node then closingLoop g limit todo opened closed
    else closingLoop g limit ((g.needsOf node).map .opening ++ .closing node :: todo)
      (opened.insert node) closed

def closingOrder (g : Graph) : List Nat :=
  (closingLoop g g.searchBound (g.numbers.map .opening) ∅ []).reverse

def respects (g : Graph) (order : List Nat) : Bool :=
  let place : Std.TreeMap Nat Nat := order.zipIdx.foldl (fun known entry => known.insert entry.1 entry.2) ∅
  order.all fun node => (g.needsOf node).all fun need =>
    match place[need]?, place[node]? with
    | some before, some after => decide (before < after)
    | _, _ => false

-- If the graph can be sorted at all, the order of closing is sorted.
def sorted? (g : Graph) : Option (List Nat) :=
  let order := g.closingOrder
  if g.respects order then some order else none

def topologicalOrder (g : Graph) : Option (List Name) := g.sorted?.map (·.map g.nameOf)

-- Whether a search of at most `limit` stages comes back to a node that it has opened and not closed.
def returnsLoop (g : Graph) : (limit : Nat) → List Stage → (opened closed : Std.TreeSet Nat) → Bool
  | 0, _, _, _ => false
  | _ + 1, [], _, _ => false
  | limit + 1, .closing node :: todo, opened, closed => returnsLoop g limit todo opened (closed.insert node)
  | limit + 1, .opening node :: todo, opened, closed =>
    if opened.contains node then !closed.contains node || returnsLoop g limit todo opened closed
    else returnsLoop g limit ((g.needsOf node).map .opening ++ .closing node :: todo)
      (opened.insert node) closed

def hasCycles (g : Graph) : Bool := g.returnsLoop g.searchBound (g.numbers.map .opening) ∅ ∅

-- Everything that the nodes in `todo` reach by `next` without leaving `inside`.
def reachLoop (next : Nat → List Nat) (inside : Nat → Bool) :
    (limit : Nat) → (todo : List Nat) → Std.TreeSet Nat → Std.TreeSet Nat
  | 0, _, seen => seen
  | _ + 1, [], seen => seen
  | limit + 1, node :: todo, seen =>
    if !inside node || seen.contains node then reachLoop next inside limit todo seen
    else reachLoop next inside limit (next node ++ todo) (seen.insert node)

def usersTable (g : Graph) : Array (List Nat) :=
  g.numbers.foldl
    (fun table node => (g.needsOf node).foldl (fun table need => table.modify need (node :: ·)) table)
    (Array.replicate g.nodes.size [])

-- A group that is found is settled, and later searches stay out of it. That loses nothing: a path between two
-- nodes of a group never leaves the group.
structure Grouping where
  settled : Std.TreeSet Nat
  -- Each group under its first member, members in order.
  groups : Std.TreeMap Nat (List Nat)

def Grouping.add (grouping : Grouping) (group : List Nat) : Grouping :=
  { settled := grouping.settled.insertMany group
    groups := match group with
      | [] => grouping.groups
      | first :: _ => grouping.groups.insert first group }

-- The group of one node among the nodes that are not settled.
def groupOf (g : Graph) (users : Array (List Nat)) (limit : Nat) (settled : Std.TreeSet Nat)
    (node : Nat) : List Nat :=
  let below := reachLoop g.needsOf (fun other => !settled.contains other) limit [node] ∅
  (reachLoop (fun other => users[other]?.getD []) below.contains limit [node] ∅).toList

def groups (g : Graph) : List (List Nat) :=
  let users := g.usersTable
  let limit := g.searchBound
  let grouping : Grouping := g.closingOrder.foldl
    (fun grouping node =>
      if grouping.settled.contains node then grouping
      else grouping.add (g.groupOf users limit grouping.settled node))
    ⟨∅, ∅⟩
  grouping.groups.toList.map Prod.snd

-- A single node goes round in a circle only if it needs itself.
def isCyclic (g : Graph) : List Nat → Bool
  | [] => false
  | [node] => (g.needsOf node).contains node
  | _ => true

-- The cycles by their first members, the members of each in the order of registration.
def cycles (g : Graph) : List (List Name) := (g.groups.filter g.isCyclic).map (·.map g.nameOf)

def faults (g : Graph) : List Fault :=
  (if g.missing.isEmpty then [] else [.missing g.missing]) ++ g.cycles.map .cyclic

end Graph

namespace Catalog

def faults (c : Catalog) : List Fault := (Graph.ofCatalog c).faults

def isValid (c : Catalog) : Bool := c.faults.isEmpty

end Catalog
end BuildPlan
