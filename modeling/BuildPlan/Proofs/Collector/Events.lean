import Mathlib.Data.List.Basic
import Mathlib.Data.List.Induction
import BuildPlan.Proofs.Collector.Visit

namespace BuildPlan.Event

def isBracket : Event → Bool
  | visited .. | collected .. => true
  | _ => false

def closed? : Event → Option (Name × Nat)
  | collected task position => some (task, position)
  | _ => none

-- The names that are open after some events, outermost first, if these were open before. A task can only be
-- opened at the depth that is reached, and only the innermost one can be closed.
def leftOpen : List Name → List Event → Option (List Name)
  | path, [] => some path
  | path, visited task depth :: later =>
    if depth = path.length then leftOpen (path ++ [task]) later else none
  | path, collected task _ :: later =>
    if path.getLast? = some task then leftOpen path.dropLast later else none
  | path, _ :: later => leftOpen path later

-- Brackets that are all closed again, standing inside `depth` others.
inductive Nested : (depth : Nat) → List Event → Prop where
  | nil {depth : Nat} : Nested depth []
  | aside {depth : Nat} {before : List Event} {event : Event} : Nested depth before →
      event.isBracket = false → Nested depth (before ++ [event])
  | task {depth position : Nat} {before inner : List Event} {task : Name} : Nested depth before →
      Nested (depth + 1) inner →
      Nested depth (before ++ visited task depth :: inner ++ [collected task position])

-- Brackets that are closed again, but for these names, outermost first.
inductive Unclosed : List Name → List Event → Prop where
  | nested {events : List Event} : Nested 0 events → Unclosed [] events
  | opened {path : List Name} {before inner : List Event} {task : Name} : Unclosed path before →
      Nested (path.length + 1) inner → Unclosed (path ++ [task]) (before ++ visited task path.length :: inner)

variable {path opened : List Name} {events before later inner : List Event} {event : Event} {task : Name}
  {depth position : Nat}

@[simp] theorem leftOpen_nil (path : List Name) : leftOpen path [] = some path := rfl

@[simp] theorem leftOpen_visited : leftOpen path (visited task depth :: later) =
    if depth = path.length then leftOpen (path ++ [task]) later else none := rfl

@[simp] theorem leftOpen_collected : leftOpen path (collected task position :: later) =
    if path.getLast? = some task then leftOpen path.dropLast later else none := rfl

theorem leftOpen_aside (aside : event.isBracket = false) :
    leftOpen path (event :: later) = leftOpen path later := by
  cases event with
  | visited | collected => cases aside
  | _ => rfl

theorem leftOpen_append (path : List Name) (events later : List Event) :
    leftOpen path (events ++ later) = (leftOpen path events).bind (leftOpen · later) := by
  induction events generalizing path with
  | nil => rfl
  | cons event rest ih =>
    cases event with
    | visited task depth =>
      rw [List.cons_append, leftOpen_visited, leftOpen_visited]
      split
      · exact ih _
      · rfl
    | collected task position =>
      rw [List.cons_append, leftOpen_collected, leftOpen_collected]
      split
      · exact ih _
      · rfl
    | _ => exact ih path

theorem leftOpen_concat (before : List Event) (event : Event) :
    leftOpen path (before ++ [event]) = (leftOpen path before).bind (leftOpen · [event]) :=
  leftOpen_append path before [event]

theorem leftOpen_depth (read : leftOpen path (before ++ visited task depth :: later) = some opened) :
    ∃ around, leftOpen path before = some around ∧ depth = around.length := by
  rw [leftOpen_append, Option.bind_eq_some_iff] at read
  obtain ⟨around, first, read⟩ := read
  rw [leftOpen_visited] at read
  split at read
  · rename_i same
    exact ⟨around, first, same⟩
  · cases read

theorem Nested.leftOpen (nested : Nested depth events) (inside : path.length = depth) :
    leftOpen path events = some path := by
  induction nested generalizing path with
  | nil => rfl
  | aside _ aside ih => rw [leftOpen_concat, ih inside, Option.bind_some, leftOpen_aside aside, leftOpen_nil]
  | @task depth position before inner task _ _ ih ih_inner =>
    have deeper : (path ++ [task]).length = depth + 1 := by simp [inside]
    rw [leftOpen_concat, leftOpen_append, ih inside, Option.bind_some, leftOpen_visited, if_pos inside.symm,
      ih_inner deeper, Option.bind_some]
    simp

namespace Unclosed

theorem leftOpen (unclosed : Unclosed path events) : leftOpen [] events = some path := by
  induction unclosed with
  | nested nested => exact nested.leftOpen rfl
  | opened _ nested ih =>
    rw [leftOpen_append, ih, Option.bind_some, leftOpen_visited, if_pos rfl]
    exact nested.leftOpen (by simp)

theorem aside (unclosed : Unclosed path events) (aside : event.isBracket = false) :
    Unclosed path (events ++ [event]) := by
  cases unclosed with
  | nested nested => exact .nested (nested.aside aside)
  | opened outer nested =>
    rw [List.append_assoc, List.cons_append]
    exact .opened outer (nested.aside aside)

-- Closing the innermost task makes it a part of what stands inside the next one.
theorem close (outer : Unclosed path before) (nested : Nested (path.length + 1) inner) :
    Unclosed path (before ++ visited task path.length :: inner ++ [collected task position]) := by
  cases outer with
  | nested before => exact .nested (before.task nested)
  | @opened around first between opener outer before =>
    rw [List.length_append] at nested ⊢
    have whole : Nested (around.length + 1)
        (between ++ visited task (around.length + 1) :: inner ++ [collected task position]) := before.task nested
    have moved : first ++ visited opener around.length :: between ++
          visited task (around.length + [opener].length) :: inner ++ [collected task position] =
        first ++ visited opener around.length ::
          (between ++ visited task (around.length + 1) :: inner ++ [collected task position]) := by
      simp
    rw [moved]
    exact .opened outer whole

theorem nothing_left (unclosed : Unclosed opened events) (none : opened = []) : Nested 0 events := by
  cases unclosed with
  | nested nested => exact nested
  | opened => simp at none

-- The innermost open task divides the events: what comes behind its opening is closed again.
theorem innermost (unclosed : Unclosed opened events) (split : opened = path ++ [task]) :
    ∃ before inner, events = before ++ visited task path.length :: inner ∧ Unclosed path before ∧
      Nested (path.length + 1) inner := by
  cases unclosed with
  | nested => simp at split
  | opened outer nested =>
    obtain ⟨rfl, same⟩ := List.append_inj' split rfl
    cases List.singleton_inj.mp same
    exact ⟨_, _, rfl, outer, nested⟩

end Unclosed

-- By induction from the last event: the stack says which bracket it belongs to.
theorem unclosed_of_leftOpen (read : leftOpen [] events = some path) : Unclosed path events := by
  induction events using List.reverseRecOn generalizing path with
  | nil =>
    cases read
    exact .nested .nil
  | append_singleton before event ih =>
    rw [leftOpen_concat, Option.bind_eq_some_iff] at read
    obtain ⟨around, first, last⟩ := read
    have outer := ih first
    cases event with
    | visited task depth =>
      rw [leftOpen_visited] at last
      split at last
      · rename_i same
        cases last
        exact same ▸ .opened outer .nil
      · cases last
    | collected task position =>
      rw [leftOpen_collected] at last
      split at last
      · rename_i innermost
        cases last
        have split := List.dropLast_append_getLast? task innermost
        obtain ⟨start, inner, rfl, outer, nested⟩ := outer.innermost split.symm
        exact outer.close nested
      · cases last
    | _ =>
      cases last
      exact outer.aside rfl

theorem leftOpen_iff : leftOpen [] events = some path ↔ Unclosed path events :=
  ⟨unclosed_of_leftOpen, Unclosed.leftOpen⟩

theorem leftOpen_nil_iff : leftOpen [] events = some [] ↔ Nested 0 events := by
  rw [leftOpen_iff]
  exact ⟨fun unclosed => unclosed.nothing_left rfl, .nested⟩

end BuildPlan.Event

namespace BuildPlan

namespace Walk

-- What a walk has told since these events are brackets of its active names, and all that was told of closed
-- tasks are the collected names and their places.
structure Tells (c : Catalog) (earlier : List Event) (w : Walk) : Prop where
  since : ∃ told, w.events.toList = earlier ++ told ∧ Event.leftOpen [] told = some w.active.toList ∧
    ∀ name, .skipped name ∈ told → c.isAssumed name = true
  places : w.events.toList.filterMap Event.closed? = w.collected.toList.zipIdx

variable {c : Catalog} {earlier : List Event} {before : List Name} {root name : Name} {task : Task}
  {outer expansions : List Expansion} {w after : Walk}

theorem Tells.push (tells : Tells c earlier w) {event : Event} {active collected : NameSet}
    (read : Event.leftOpen w.active.toList [event] = some active.toList)
    (skips : ∀ name, .skipped name = event → c.isAssumed name = true)
    (place : collected.toList.zipIdx = w.collected.toList.zipIdx ++ event.closed?.toList)
    (expansions : List Expansion) (fault : Option Fault) :
    Tells c earlier ⟨collected, active, expansions, w.events.push event, fault⟩ := by
  obtain ⟨⟨told, split, opened, skipped⟩, places⟩ := tells
  refine ⟨⟨told ++ [event], ?_, ?_, ?_⟩, ?_⟩
  · rw [Array.toList_push, split, List.append_assoc]
  · rw [Event.leftOpen_concat, opened, Option.bind_some, read]
  · intro name member
    rcases List.mem_append.mp member with old | new
    · exact skipped name old
    · exact skips name (List.mem_singleton.mp new)
  · rw [Array.toList_push, List.filterMap_append, places, place]
    cases event <;> rfl

theorem Entering.tells (entering : Entering c w name after) (tells : Tells c earlier w) :
    Tells c earlier after := by
  cases entering with
  | skipped provided =>
    refine tells.push rfl ?_ (List.append_nil _).symm w.expansions w.fault
    intro name same
    cases same
    exact provided
  | known => exact tells
  | circular => exact ⟨tells.since, tells.places⟩
  | unknown => exact ⟨tells.since, tells.places⟩
  | @opened task _ _ inactive =>
    refine tells.push ?_ ?_ (List.append_nil _).symm _ w.fault
    · rw [Event.leftOpen_visited, if_pos (NameSet.size_eq _), NameSet.toList_insert, if_neg inactive]
      rfl
    · intro name same
      cases same

theorem Step.tells (step : Step c w after) (accounted : Accounted c before root w)
    (tells : Tells c earlier w) : Tells c earlier after := by
  cases step with
  | @close task outer top =>
    have active := accounted.active_toList top
    refine tells.push ?_ ?_ ?_ outer w.fault
    · rw [Event.leftOpen_collected, active, List.getLast?_concat, if_pos rfl, List.dropLast_concat,
        accounted.pop_toList top]
      rfl
    · intro name same
      cases same
    · rw [accounted.insert_toList top, List.zipIdx_append, NameSet.size_eq, Nat.zero_add]
      rfl
  | pass => exact ⟨tells.since, tells.places⟩
  | enter _ _ entering => exact entering.tells ⟨tells.since, tells.places⟩

theorem run_tells (limit : Nat) (coherent : Coherent c before root w) (tells : Tells c earlier w) :
    Tells c earlier (w.run c limit) := by
  refine (@run_keeps c (fun w => Coherent c before root w ∧ Tells c earlier w) w limit ?_ ⟨coherent, tells⟩).2
  rintro w after running step ⟨coherent, tells⟩
  exact ⟨step.coherent (fault_of_running running) coherent, step.tells coherent.toAccounted tells⟩

theorem Coherent.fault_path (coherent : Coherent c before root w) {fault : Fault} (failed : w.fault = some fault) :
    ∃ name, fault = .unknown name w.active.toList ∨ fault = .circular w.active.toList name := by
  have standing := coherent.standing
  rw [coherent.path]
  rw [failed] at standing
  generalize w.expansions = expansions at standing
  cases standing with
  | unknown => exact ⟨_, .inl rfl⟩
  | circular => exact ⟨_, .inr rfl⟩

end Walk

namespace Collector

def Placed (k : Collector) : Prop :=
  k.events.toList.filterMap Event.closed? = k.collected.toList.zipIdx

variable {k : Collector} {root : Name} {fault : Fault}

theorem walk_tells (sound : k.Sound) (placed : k.Placed) (root : Name) :
    Walk.Tells k.catalog k.events.toList (k.walk root) := by
  have idle : Walk.Tells k.catalog k.events.toList ⟨k.collected, k.active, [], k.events, none⟩ := by
    refine ⟨⟨[], (List.append_nil _).symm, ?_, by simp⟩, placed⟩
    rw [sound.idle, Event.leftOpen_nil]
  have entering := Walk.enter_sound k.catalog ⟨k.collected, k.active, [], k.events, none⟩ root
  exact Walk.run_tells k.limit (enter_root_coherent sound root) (entering.tells idle)

theorem visit_placed (sound : k.Sound) (placed : k.Placed) (root : Name) : (k.visit root).2.Placed := by
  have places := (walk_tells sound placed root).places
  rcases walk_cases sound root with ⟨finished, _⟩ | ⟨fault, failed, _⟩
  · rw [visit_of_finished finished]
    exact places
  · rw [visit_of_fault failed]
    change ((k.walk root).events.push _).toList.filterMap Event.closed? = _
    rw [Array.toList_push, List.filterMap_append, places]
    exact List.append_nil _

theorem afterVisits_placed (sound : k.Sound) (placed : k.Placed) (roots : List Name) :
    (k.afterVisits roots).Placed := by
  induction roots generalizing k with
  | nil => exact placed
  | cons root rest ih => exact ih (visit_visited sound root).sound (visit_placed sound placed root)

-- After a success the walk has no task open, and after a failure it has the path of the fault.
theorem visit_tells (sound : k.Sound) (placed : k.Placed) (root : Name) : ∃ told,
    (∃ path, Event.leftOpen [] told = some path ∧ ∀ name, .skipped name ∈ told → k.catalog.isAssumed name = true) ∧
    ((k.visit root).1 = .ok () →
      (k.visit root).2.events.toList = k.events.toList ++ told ∧ Event.leftOpen [] told = some []) ∧
    ∀ fault, (k.visit root).1 = .error fault →
      (k.visit root).2.events.toList = k.events.toList ++ told ++ [.rootFailed root fault] ∧
      ∃ path name, Event.leftOpen [] told = some path ∧
        (fault = .unknown name path ∨ fault = .circular path name) := by
  obtain ⟨told, split, opened, skipped⟩ := (walk_tells sound placed root).since
  have coherent := walk_coherent sound root
  refine ⟨told, ⟨_, opened, skipped⟩, ?_⟩
  rcases walk_cases sound root with ⟨finished, closed, _⟩ | ⟨fault, failed, _⟩
  · rw [visit_of_finished finished]
    rw [coherent.path, closed] at opened
    refine ⟨fun _ => ⟨split, opened⟩, ?_⟩
    intro fault impossible
    cases impossible
  · rw [visit_of_fault failed]
    refine ⟨?_, ?_⟩
    · intro impossible
      cases impossible
    intro other same
    cases same
    obtain ⟨name, path⟩ := coherent.fault_path failed
    refine ⟨?_, _, name, opened, path⟩
    change ((k.walk root).events.push _).toList = _
    rw [Array.toList_push, split]

-- Depths start again with every visit; places go on.
theorem events_tell_visits (c : Catalog) (visited : List Name) :
    let k := (start c).afterVisits visited
    k.events.toList.filterMap Event.closed? = k.collected.toList.zipIdx ∧
    ∀ root, ∃ told,
      (∀ name, .skipped name ∈ told → c.isAssumed name = true) ∧
      (∀ before task depth later, told = before ++ .visited task depth :: later →
        ∃ around, Event.leftOpen [] before = some around ∧ depth = around.length) ∧
      ((k.visit root).1 = .ok () →
        (k.visit root).2.events.toList = k.events.toList ++ told ∧ Event.Nested 0 told) ∧
      ∀ fault, (k.visit root).1 = .error fault →
        (k.visit root).2.events.toList = k.events.toList ++ told ++ [.rootFailed root fault] ∧
        ∃ path name, Event.leftOpen [] told = some path ∧
          (fault = .unknown name path ∨ fault = .circular path name) := by
  intro k
  have earlier := afterVisits_visited (start_sound c) visited
  have catalog : k.catalog = c := earlier.catalog
  have placed : k.Placed := afterVisits_placed (start_sound c) rfl visited
  refine ⟨placed, fun root => ?_⟩
  obtain ⟨told, ⟨path, opened, skipped⟩, succeeds, fails⟩ := visit_tells earlier.sound placed root
  refine ⟨told, ?_, ?_, ?_, fails⟩
  · intro name member
    exact catalog ▸ skipped name member
  · rintro before task depth later rfl
    exact Event.leftOpen_depth opened
  · intro done
    exact ⟨(succeeds done).1, Event.leftOpen_nil_iff.mp (succeeds done).2⟩

def patchy : Catalog :=
  Catalog.empty.add ⟨"app", ["cc", "lib", "gui"]⟩ rfl
    |>.add ⟨"gui", ["lib", "lost"]⟩ rfl
    |>.add ⟨"lib", []⟩ rfl
    |>.add ⟨"doc", ["cc", "lib", "man"]⟩ rfl
    |>.add ⟨"man", []⟩ rfl
    |>.assume "cc"

def stumbled : Collector := (start patchy).afterVisits ["gui"]

theorem patchy_events :
    stumbled.events.toList.filterMap Event.closed? = [("lib", 0)] ∧
    ((stumbled.visit "doc").1 = .ok () ∧ Event.Nested 0
      [.visited "doc" 0, .skipped "cc", .visited "man" 1, .collected "man" 1, .collected "doc" 2]) ∧
    (stumbled.visit "app").1 = .error (.unknown "lost" ["app", "gui"]) ∧
    Event.leftOpen [] [.visited "app" 0, .skipped "cc", .visited "gui" 1] = some ["app", "gui"] ∧
    patchy.isAssumed "cc" = true ∧
    ∃ around, Event.leftOpen [] [.visited "app" 0, .skipped "cc"] = some around ∧ 1 = around.length := by
  obtain ⟨places, tells⟩ := events_tell_visits patchy ["gui"]
  obtain ⟨told, _, _, succeeds, _⟩ := tells "doc"
  obtain ⟨told', skips, depths, _, fails⟩ := tells "app"
  have done : (stumbled.visit "doc").1 = .ok () := by rfl
  have failed : (stumbled.visit "app").1 = .error (.unknown "lost" ["app", "gui"]) := by rfl
  have events : (stumbled.visit "doc").2.events.toList = stumbled.events.toList ++
      [.visited "doc" 0, .skipped "cc", .visited "man" 1, .collected "man" 1, .collected "doc" 2] := by rfl
  have events' : (stumbled.visit "app").2.events.toList = stumbled.events.toList ++
      [.visited "app" 0, .skipped "cc", .visited "gui" 1] ++
      [.rootFailed "app" (.unknown "lost" ["app", "gui"])] := by rfl
  obtain ⟨split, nested⟩ := succeeds done
  obtain ⟨split', path, name, opened, same⟩ := fails _ failed
  have same_told := List.append_cancel_left (events.symm.trans split)
  have same_told' := List.append_cancel_left (List.append_cancel_right (events'.symm.trans split'))
  subst same_told same_told'
  have path_eq : path = ["app", "gui"] := by
    rcases same with same | same
    · exact (Fault.unknown.inj same).2.symm
    · cases same
  refine ⟨places.trans (by rfl), ⟨done, nested⟩, failed, path_eq ▸ opened, skips "cc" (by simp), ?_⟩
  exact depths [.visited "app" 0, .skipped "cc"] "gui" 1 [] rfl

end Collector
end BuildPlan
