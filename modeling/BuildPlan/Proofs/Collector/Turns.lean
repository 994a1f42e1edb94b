import Mathlib.Algebra.GroupWithZero.Nat
import Mathlib.Data.List.Chain
import BuildPlan.Proofs.Collector.Visit

namespace BuildPlan

-- How many needs of the task were looked at; the next one to be looked at has this number.
def Expansion.next (e : Expansion) : Nat := e.task.needs.length - e.pending.length

namespace Walk

def turns (c : Catalog) : (limit : Nat) → Walk → List Walk
  | 0, _ => []
  | limit + 1, w => if w.halted then [] else w :: turns c limit (w.step c)

-- The loop itself, without any limit: the walks that its turns begin with, and the walk at which it stops.
inductive Course (c : Catalog) : Walk → List Walk → Walk → Prop where
  | ended {w : Walk} : w.halted = true → Course c w [] w
  | turn {w last : Walk} {later : List Walk} : w.halted = false → Course c (w.step c) later last →
      Course c w (w :: later) last

def opensAlong : Walk → List Walk → List Task
  | _, [] => []
  | w, after :: later => opens w after ++ opensAlong after later

variable {c : Catalog} {before done looked pending : List Name} {root name : Name} {task : Task}
  {outer expansions : List Expansion} {w after last last' : Walk} {later later' : List Walk}

section Running

theorem run_course (limit : Nat) (stopped : (w.run c limit).halted = true) :
    Course c w (turns c limit w) (w.run c limit) := by
  induction limit generalizing w with
  | zero => exact .ended stopped
  | succ limit ih =>
    unfold run at stopped
    unfold run turns
    split
    · rename_i halted
      exact .ended halted
    · rename_i running
      rw [if_neg running] at stopped
      apply Course.turn (Bool.eq_false_iff.mpr running)
      exact ih stopped

namespace Course

theorem unique (one : Course c w later last) (two : Course c w later' last') :
    later = later' ∧ last = last' := by
  induction one generalizing later' last' with
  | ended halted =>
    cases two with
    | ended => exact ⟨rfl, rfl⟩
    | turn running => rw [halted] at running; cases running
  | turn running _ ih =>
    cases two with
    | ended halted => rw [halted] at running; cases running
    | turn _ two =>
      obtain ⟨same, same'⟩ := ih two
      exact ⟨same ▸ rfl, same'⟩

theorem running (course : Course c w later last) : ∀ v ∈ later, v.halted = false := by
  induction course with
  | ended => simp
  | turn running _ ih =>
    intro v member
    rcases List.mem_cons.mp member with rfl | rest
    · exact running
    · exact ih v rest

theorem keeps {Kept : Walk → Prop} (course : Course c w later last)
    (kept : ∀ w after, w.halted = false → Step c w after → Kept w → Kept after) (start : Kept w) :
    ∀ v ∈ later ++ [last], Kept v := by
  induction course with
  | ended => simpa using start
  | turn running _ ih =>
    intro v member
    rcases List.mem_cons.mp member with rfl | rest
    · exact start
    · exact ih (kept _ _ running (step_sound running) start) v rest

theorem coherent (course : Course c w later last) (start : Coherent c before root w) :
    ∀ v ∈ later ++ [last], Coherent c before root v := by
  apply course.keeps _ start
  intro w after running step coherent
  exact step.coherent (fault_of_running running) coherent

end Course

end Running

section Counters

theorem next_of_split (split : task.needs = looked ++ pending) :
    (⟨task, pending⟩ : Expansion).next = looked.length := by
  simp [Expansion.next, split]

theorem take_next (split : task.needs = looked ++ pending) :
    task.needs.take (⟨task, pending⟩ : Expansion).next = looked := by
  rw [next_of_split split, split, List.take_left]

def Counted (c : Catalog) (e : Expansion) : Prop :=
  c.taskOf e.task.name = some e.task ∧ e.next ≤ e.task.needs.length ∧ e.pending = e.task.needs.drop e.next

-- The last need that was looked at is this name, and those before it are settled.
def WaitsFor (c : Catalog) (done : List Name) (e : Expansion) (need : Name) : Prop :=
  ∃ earlier, e.task.needs.take e.next = earlier ++ [need] ∧ ∀ name ∈ earlier, c.Settled done name

theorem counted_of_split (found : c.taskOf task.name = some task) (split : task.needs = looked ++ pending) :
    Counted c ⟨task, pending⟩ := by
  refine ⟨found, Nat.sub_le _ _, ?_⟩
  rw [next_of_split split, split, List.drop_left]

namespace Waiting

variable (waiting : Waiting c root done expansions name)
include waiting

theorem counted : ∀ e ∈ expansions, Counted c e := by
  induction waiting with
  | root => simp
  | nested _ found split _ ih =>
    intro e member
    rcases List.mem_cons.mp member with rfl | inside
    · exact counted_of_split found (split.trans (List.append_cons ..))
    · exact ih e inside

theorem innermost_waits : ∀ e ∈ expansions.head?, WaitsFor c done e name := by
  cases waiting with
  | root => simp
  | nested _ _ split settled =>
    intro e head
    cases Option.some.inj head
    exact ⟨_, take_next (split.trans (List.append_cons ..)), settled⟩

-- By the order in which the tasks were opened: whatever waits for a task is the next one below it.
theorem chain : expansions.IsChain fun above below => WaitsFor c done below above.task.name := by
  induction waiting with
  | root => exact .nil
  | nested waiting _ _ _ ih => exact ih.cons waiting.innermost_waits

end Waiting

end Counters

section Consistency

-- What holds whenever a turn begins, said of the open tasks, innermost first, and their counters.
structure Consistent (c : Catalog) (w : Walk) : Prop where
  path : (w.expansions.map fun e => e.task.name).reverse = w.active.toList
  apart : ∀ name ∈ w.active, name ∉ w.collected
  built : ∀ name, name ∈ w.active ∨ name ∈ w.collected → name ∈ c.names ∧ c.isAssumed name = false
  counted : ∀ e ∈ w.expansions, Counted c e
  looked : ∀ e ∈ w.expansions.head?, ∀ need ∈ e.task.needs.take e.next,
    c.isAssumed need = true ∨ need ∈ w.collected
  waits : w.expansions.IsChain fun above below => WaitsFor c w.collected.toList below above.task.name
  closed : ∀ task ∈ w.collected, ∀ need, c.Needs task need →
    c.isAssumed need = true ∨ need ∈ w.collected

theorem Accounted.built (accounted : Accounted c before root w)
    (counted : ∀ e ∈ w.expansions, Counted c e) :
    ∀ name, name ∈ w.active ∨ name ∈ w.collected → name ∈ c.names ∧ c.isAssumed name = false := by
  rintro name (active | collected)
  · rw [NameSet.mem_def, accounted.path, pathOf, List.mem_reverse, List.mem_map] at active
    obtain ⟨e, member, rfl⟩ := active
    have found := (counted e member).1
    exact ⟨Catalog.taskOf_mem_names found, (Catalog.taskOf_registered found).2.2⟩
  · exact accounted.order.built name collected

theorem Coherent.counted (coherent : Coherent c before root w) : ∀ e ∈ w.expansions, Counted c e := by
  have standing := coherent.standing
  generalize w.expansions = expansions, w.fault = fault at standing
  cases standing with
  | finished => simp
  | looking waiting found split => exact List.forall_mem_cons.mpr ⟨counted_of_split found split, waiting.counted⟩
  | unknown waiting => exact waiting.counted
  | circular waiting => exact waiting.counted

theorem Coherent.consistent (coherent : Coherent c before root w) (running : w.fault = none) :
    Consistent c w := by
  have accounted := coherent.toAccounted
  have counted := coherent.counted
  have closed : ∀ task ∈ w.collected, ∀ need, c.Needs task need →
      c.isAssumed need = true ∨ need ∈ w.collected :=
    fun task member need needs => accounted.order.settled_need (.inr member) needs
  cases opened : w.expansions with
  | nil =>
    refine ⟨accounted.path.symm, accounted.apart, accounted.built counted, counted, ?_, ?_, closed⟩
    · simp [opened]
    · simp [opened]
  | cons innermost outer =>
    obtain ⟨waiting, _, looked, split, settled⟩ := coherent.innermost running opened
    refine ⟨accounted.path.symm, accounted.apart, accounted.built counted, counted, ?_, ?_, closed⟩
    · rw [opened]
      intro e head
      cases Option.some.inj head
      rw [take_next split]
      exact settled
    · rw [opened]
      exact waiting.chain.cons waiting.innermost_waits

-- The innermost task is the last of the active names and not collected yet, so closing it moves its name.
theorem Consistent.closing (consistent : Consistent c w) (top : w.expansions = ⟨task, pending⟩ :: outer) :
    (w.active.toList.getLast? = some task.name ∧ task.name ∉ w.collected) ∧
    (w.close task outer).active.toList ++ [task.name] = w.active.toList ∧
    (w.close task outer).collected.toList = w.collected.toList ++ [task.name] := by
  have path := consistent.path
  rw [top, List.map_cons, List.reverse_cons] at path
  have member : task.name ∈ w.active := by
    rw [NameSet.mem_def, ← path]
    simp
  have unsettled := consistent.apart task.name member
  refine ⟨⟨?_, unsettled⟩, ?_, ?_⟩
  · rw [← path, List.getLast?_concat]
  · change w.active.pop.toList ++ [task.name] = w.active.toList
    rw [NameSet.toList_pop, ← path, List.dropLast_concat]
  · change (w.collected.insert task.name).toList = _
    rw [NameSet.toList_insert, if_neg unsettled]

end Consistency

section Counting

theorem costs_eq_sum (tasks : List Task) :
    costs tasks = (tasks.map fun task => task.needs.length + 1).sum := by
  induction tasks with
  | nil => rfl
  | cons task rest ih => rw [costs_cons, List.map_cons, List.sum_cons, ih]

namespace Course

variable {first : Walk} {spent : Nat}

-- Every turn is paid for by a task that was open at first or is opened on the way.
theorem length_turns (course : Course c w later last) (start : Coherent c before root w)
    (opening : Opening c first w spent) : later.length + spent + left last.expansions =
      left first.expansions + costs (opensAlong first (later ++ [last])) := by
  induction course generalizing first spent with
  | ended =>
    have paid := opening.paid
    simp only [List.nil_append, opensAlong, List.append_nil, List.length_nil]
    omega
  | turn running _ ih =>
    have step := step_sound (c := c) running
    have paid := opening.paid
    have rest := ih (step.coherent (fault_of_running running) start) (step.opening start.toAccounted)
    rw [List.cons_append, opensAlong, costs_append, List.length_cons]
    omega

theorem opens_fresh (course : Course c w later last) (start : Coherent c before root w)
    (opening : Opening c first w spent) : ∀ task ∈ opensAlong first (later ++ [last]),
      task ∈ c.tasks ∧ ¬ first.Opened task.name := by
  induction course generalizing first spent with
  | @ended w halted =>
    intro task member
    have member : task ∈ opens first w := by simpa [opensAlong] using member
    exact ⟨(opening.fresh task member).1, (opening.fresh task member).2.1⟩
  | turn running _ ih =>
    have step := step_sound (c := c) running
    have rest := ih (step.coherent (fault_of_running running) start) (step.opening start.toAccounted)
    intro task member
    rw [List.cons_append, opensAlong, List.mem_append] at member
    rcases member with now | further
    · exact ⟨(opening.fresh task now).1, (opening.fresh task now).2.1⟩
    · obtain ⟨known, unopened⟩ := rest task further
      exact ⟨known, fun opened => unopened (opening.kept _ opened)⟩

-- A task that was opened stays open or collected, so it is not opened a second time.
theorem opens_distinct (course : Course c w later last) (start : Coherent c before root w)
    (opening : Opening c first w spent) :
    ((opensAlong first (later ++ [last])).map Task.name).Nodup := by
  induction course generalizing first spent with
  | ended => simpa [opensAlong] using opening.distinct
  | turn running course ih =>
    have step := step_sound (c := c) running
    have coherent := step.coherent (fault_of_running running) start
    have opening' := step.opening start.toAccounted
    rw [List.cons_append, opensAlong, List.map_append, List.nodup_append]
    refine ⟨opening.distinct, ih coherent opening', ?_⟩
    rintro _ now _ further same
    obtain ⟨task, opened, rfl⟩ := List.mem_map.mp now
    obtain ⟨other, opened', rfl⟩ := List.mem_map.mp further
    apply (course.opens_fresh coherent opening' other opened').2
    exact same ▸ (opening.fresh task opened).2.2

theorem costs_le (course : Course c w later last) (start : Coherent c before root w)
    (opening : Opening c first w spent) : costs (opensAlong first (later ++ [last])) ≤ costs c.tasks := by
  have distinct : (opensAlong first (later ++ [last])).Nodup :=
    List.Nodup.of_map Task.name (course.opens_distinct start opening)
  apply costs_subperm
  apply List.subperm_of_subset distinct
  exact fun task member => (course.opens_fresh start opening task member).1

end Course

end Counting

end Walk
end BuildPlan

namespace BuildPlan.Collector

def idle (k : Collector) : Walk := ⟨k.collected, k.active, [], k.events, none⟩

def entered (k : Collector) (root : Name) : Walk := k.idle.enter k.catalog root

def turns (k : Collector) (root : Name) : List Walk := Walk.turns k.catalog k.limit (k.entered root)

def opened (k : Collector) (root : Name) : List Task :=
  Walk.opensAlong k.idle (k.turns root ++ [k.walk root])

variable {k : Collector}

theorem entered_coherent (sound : k.Sound) (root : Name) :
    Walk.Coherent k.catalog k.collected.toList root (k.entered root) := enter_root_coherent sound root

theorem turns_course (sound : k.Sound) (root : Name) :
    Walk.Course k.catalog (k.entered root) (k.turns root) (k.walk root) :=
  Walk.run_course k.limit (walk_halted sound root)

theorem entered_opening (k : Collector) (root : Name) : Walk.Opening k.catalog k.idle (k.entered root) 0 :=
  (Walk.enter_sound k.catalog k.idle root).opening

-- The limit never cuts a walk short: the loop stops by itself, and there is only one way for it to go.
theorem walk_ends (c : Catalog) (visited : List Name) (root : Name) :
    let k := (start c).afterVisits visited
    (Walk.Course c (k.entered root) (k.turns root) (k.walk root) ∧
      ∀ turns last, Walk.Course c (k.entered root) turns last → turns = k.turns root ∧ last = k.walk root) ∧
    (((k.opened root).map Task.name).Nodup ∧ ∀ task ∈ k.opened root, task ∈ c.tasks) ∧
    (∀ w ∈ k.turns root ++ [k.walk root], ∀ e ∈ w.expansions,
      e.task ∈ c.tasks ∧ e.next ≤ e.task.needs.length ∧ e.pending = e.task.needs.drop e.next) ∧
    (k.turns root).length + Walk.left (k.walk root).expansions =
      ((k.opened root).map fun task => task.needs.length + 1).sum ∧
    (k.turns root).length ≤ (c.tasks.map fun task => task.needs.length + 1).sum := by
  intro k
  have earlier := afterVisits_visited (start_sound c) visited
  have catalog : k.catalog = c := earlier.catalog
  have coherent := entered_coherent earlier.sound root
  have opening := entered_opening k root
  have course := turns_course earlier.sound root
  rw [catalog] at coherent opening course
  have counted := course.length_turns coherent opening
  have bound := course.costs_le coherent opening
  rw [Walk.costs_eq_sum, Walk.costs_eq_sum] at bound
  rw [Walk.costs_eq_sum] at counted
  have whole : (k.turns root).length + Walk.left (k.walk root).expansions =
      ((k.opened root).map fun task => task.needs.length + 1).sum :=
    counted.trans (Nat.zero_add _)
  refine ⟨⟨course, fun turns last other => other.unique course⟩, ⟨course.opens_distinct coherent opening, ?_⟩,
    ?_, whole, ?_⟩
  · exact fun task member => (course.opens_fresh coherent opening task member).1
  · intro w member e inside
    obtain ⟨found, within, rest⟩ := (course.coherent coherent w member).counted e inside
    exact ⟨(Catalog.taskOf_registered found).1, within, rest⟩
  · exact Nat.le_trans (Nat.le_of_add_right_le (Nat.le_of_eq whole)) bound

def knotted : Catalog :=
  Catalog.empty.add ⟨"app", ["lib", "cc", "lib", "tool"]⟩ rfl
    |>.add ⟨"lib", []⟩ rfl
    |>.add ⟨"tool", ["lib", "app"]⟩ rfl
    |>.add ⟨"cc", ["cc", "lost"]⟩ rfl
    |>.assume "cc"

def glance (w : Walk) : List Name × List Name × List (Name × Nat) :=
  (w.active.toList, w.collected.toList, w.expansions.map fun e => (e.task.name, e.next))

-- Between two visits of the ring.
def tried : Collector := (start knotted).afterVisits ["lost", "app"]

theorem knotted_walk_ends :
    (tried.visit "app").1 = .error (.circular ["app", "tool"] "app") ∧
    (tried.turns "app").length = 6 ∧ (tried.opened "app").map Task.name = ["app", "tool"] ∧
    (6 + Walk.left (tried.walk "app").expansions = 8 ∧
      6 ≤ (knotted.tasks.map fun task => task.needs.length + 1).sum) ∧
    ((⟨"tool", ["lib", "app"]⟩ : Task) ∈ tried.opened "app" ∧ (⟨"tool", ["lib", "app"]⟩ : Task) ∈ knotted.tasks) ∧
    ∃ w ∈ tried.turns "app", glance w = (["app", "tool"], ["lib"], [("tool", 1), ("app", 4)]) ∧
      ∃ e ∈ w.expansions, (e.task.name, e.next) = ("app", 4) ∧ e.pending = e.task.needs.drop e.next := by
  obtain ⟨_, ⟨_, registered⟩, counters, paid, bound⟩ := walk_ends knotted ["lost", "app"] "app"
  have six : (tried.turns "app").length = 6 := by rfl
  have tool : (⟨"tool", ["lib", "app"]⟩ : Task) ∈ tried.opened "app" := by decide
  have seen : (["app", "tool"], ["lib"], [("tool", 1), ("app", 4)]) ∈ (tried.turns "app").map glance := by
    decide
  obtain ⟨w, turn, shown⟩ := List.mem_map.mp seen
  have waiting : ("app", 4) ∈ w.expansions.map fun e => (e.task.name, e.next) := by
    rw [(Prod.mk.inj (Prod.mk.inj shown).2).2]
    simp
  obtain ⟨e, inside, counted⟩ := List.mem_map.mp waiting
  have rest := (counters w (List.mem_append_left _ turn) e inside).2.2
  refine ⟨by rfl, six, by rfl, ⟨?_, six ▸ bound⟩, ⟨tool, registered _ tool⟩, w, turn, shown, e, inside, counted, rest⟩
  rw [← six]
  exact paid.trans (by rfl)

-- The loop is only ever found with its open tasks, names and counters in step; so what is popped to be closed
-- is the task itself, and it is not collected yet.
theorem turns_consistent (c : Catalog) (visited : List Name) (root : Name) :
    let k := (start c).afterVisits visited
    Walk.Course c (k.entered root) (k.turns root) (k.walk root) ∧
    (∀ w ∈ k.turns root, Walk.Consistent c w) ∧
    ((k.walk root).fault = none → Walk.Consistent c (k.walk root)) ∧
    ∀ w ∈ k.turns root, ∀ task outer, w.expansions = ⟨task, []⟩ :: outer →
      (w.active.toList.getLast? = some task.name ∧ task.name ∉ w.collected) ∧
      (w.close task outer).active.toList ++ [task.name] = w.active.toList ∧
      (w.close task outer).collected.toList = w.collected.toList ++ [task.name] := by
  intro k
  have earlier := afterVisits_visited (start_sound c) visited
  have catalog : k.catalog = c := earlier.catalog
  have coherent := entered_coherent earlier.sound root
  have course := turns_course earlier.sound root
  rw [catalog] at coherent course
  have always := course.coherent coherent
  have consistent : ∀ w ∈ k.turns root, Walk.Consistent c w := by
    intro w turn
    exact (always w (List.mem_append_left _ turn)).consistent (Walk.fault_of_running (course.running w turn))
  refine ⟨course, consistent, ?_, fun w turn task outer => (consistent w turn).closing⟩
  exact (always _ (List.mem_append_right _ (List.mem_singleton.mpr rfl))).consistent

theorem knotted_turns_consistent :
    (tried.visit "tool").1 = .error (.circular ["tool", "app"] "tool") ∧
    (∃ w ∈ tried.turns "tool", glance w = (["tool", "app"], ["lib"], [("app", 3), ("tool", 2)]) ∧
      Walk.Consistent knotted w) ∧
    (((start knotted).walk "lib").fault = none ∧ Walk.Consistent knotted ((start knotted).walk "lib")) ∧
    ∃ w ∈ (start knotted).turns "lib", w.expansions = [⟨⟨"lib", []⟩, []⟩] ∧
      w.active.toList.getLast? = some "lib" ∧
      (w.close ⟨"lib", []⟩ []).collected.toList = w.collected.toList ++ ["lib"] := by
  obtain ⟨_, consistent, _⟩ := turns_consistent knotted ["lost", "app"] "tool"
  obtain ⟨_, _, ended, closing⟩ := turns_consistent knotted [] "lib"
  have finished : ((start knotted).walk "lib").fault = none := by rfl
  have seen : (["tool", "app"], ["lib"], [("app", 3), ("tool", 2)]) ∈ (tried.turns "tool").map glance := by
    decide
  have seen' : [⟨⟨"lib", []⟩, []⟩] ∈ ((start knotted).turns "lib").map Walk.expansions := by decide
  obtain ⟨w, turn, shown⟩ := List.mem_map.mp seen
  obtain ⟨v, turn', shown'⟩ := List.mem_map.mp seen'
  obtain ⟨⟨last, _⟩, _, collected⟩ := closing v turn' ⟨"lib", []⟩ [] shown'
  exact ⟨by rfl, ⟨w, turn, shown, consistent w turn⟩, ⟨finished, ended finished⟩, v, turn', shown', last, collected⟩

end BuildPlan.Collector
