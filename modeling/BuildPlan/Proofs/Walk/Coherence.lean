import BuildPlan.Collector
import BuildPlan.Proofs.Catalog.Leftmost

namespace BuildPlan.Walk

inductive Entering (c : Catalog) (w : Walk) : Name → Walk → Prop where
  | skipped {name : Name} : c.isAssumed name = true →
      Entering c w name { w with events := w.events.push (.skipped name) }
  | known {name : Name} : c.isAssumed name = false → name ∈ w.collected → Entering c w name w
  | circular {name : Name} : c.isAssumed name = false → name ∉ w.collected → name ∈ w.active →
      Entering c w name { w with fault := some (.circular w.active.toList name) }
  | unknown {name : Name} : c.isAssumed name = false → name ∉ w.collected → name ∉ w.active →
      name ∉ c.names → Entering c w name { w with fault := some (.unknown name w.active.toList) }
  | opened {task : Task} : c.taskOf task.name = some task → task.name ∉ w.collected →
      task.name ∉ w.active →
      Entering c w task.name
        { w with
          events := w.events.push (.visited task.name w.active.size)
          active := w.active.insert task.name
          expansions := ⟨task, task.needs⟩ :: w.expansions }

-- The innermost task is closed, or its next need is taken off and, unless it is closed, entered.
inductive Step (c : Catalog) (w : Walk) : Walk → Prop where
  | close {task : Task} {outer : List Expansion} : w.expansions = ⟨task, []⟩ :: outer →
      Step c w (w.close task outer)
  | pass {task : Task} {need : Name} {rest : List Name} {outer : List Expansion} :
      w.expansions = ⟨task, need :: rest⟩ :: outer → need ∈ w.collected →
      Step c w { w with expansions := ⟨task, rest⟩ :: outer }
  | enter {task : Task} {need : Name} {rest : List Name} {outer : List Expansion} {after : Walk} :
      w.expansions = ⟨task, need :: rest⟩ :: outer → need ∉ w.collected →
      Entering c { w with expansions := ⟨task, rest⟩ :: outer } need after → Step c w after

variable {c : Catalog} {w : Walk}

theorem enter_sound (c : Catalog) (w : Walk) (name : Name) : Entering c w name (w.enter c name) := by
  unfold enter
  split
  · rename_i provided
    exact .skipped provided
  rename_i built
  have built : c.isAssumed name = false := Bool.eq_false_iff.mpr built
  split
  · rename_i known
    exact .known built (NameSet.contains_iff.mp known)
  rename_i unsettled
  have unsettled : name ∉ w.collected := fun known => unsettled (NameSet.contains_iff.mpr known)
  split
  · rename_i active
    exact .circular built unsettled (NameSet.contains_iff.mp active)
  rename_i inactive
  have inactive : name ∉ w.active := fun active => inactive (NameSet.contains_iff.mpr active)
  cases found : c.find? name with
  | none => exact .unknown built unsettled inactive (Catalog.find?_eq_none_iff.mp found)
  | some task =>
    have known := Catalog.taskOf_eq_some_iff.mpr ⟨built, found⟩
    obtain ⟨_, rfl, _⟩ := Catalog.taskOf_registered known
    exact .opened known unsettled inactive

theorem step_sound (running : w.halted = false) : Step c w (w.step c) := by
  cases top : w.expansions with
  | nil => simp [halted, top] at running
  | cons innermost outer =>
    obtain ⟨task, pending⟩ := innermost
    unfold step
    rw [top]
    cases pending with
    | nil => exact .close top
    | cons need rest =>
      dsimp only
      split
      · rename_i known
        exact .pass top (NameSet.contains_iff.mp known)
      · rename_i unsettled
        exact .enter top (fun known => unsettled (NameSet.contains_iff.mpr known)) (enter_sound c _ need)

theorem fault_of_running (running : w.halted = false) : w.fault = none := by
  unfold halted at running
  cases same : w.fault with
  | none => rfl
  | some fault => simp [same] at running

theorem run_keeps {Kept : Walk → Prop} {w : Walk} (limit : Nat)
    (kept : ∀ w after, w.halted = false → Step c w after → Kept w → Kept after) (start : Kept w) :
    Kept (w.run c limit) := by
  induction limit generalizing w with
  | zero => exact start
  | succ limit ih =>
    unfold run
    split
    · exact start
    · rename_i running
      have running : w.halted = false := by simpa using running
      exact ih (kept w _ running (step_sound running) start)

def pathOf (expansions : List Expansion) : List Name :=
  (expansions.map fun e => e.task.name).reverse

-- Every open task waits for the one above it, the innermost for `need`; the outermost is the root.
inductive Waiting (c : Catalog) (root : Name) (done : List Name) : List Expansion → Name → Prop where
  | root : Waiting c root done [] root
  | nested {task : Task} {outer : List Expansion} {looked pending : List Name} {need : Name} :
      Waiting c root done outer task.name → c.taskOf task.name = some task →
      task.needs = looked ++ need :: pending → (∀ earlier ∈ looked, c.Settled done earlier) →
      Waiting c root done (⟨task, pending⟩ :: outer) need

-- Where a walk stands: at its end, between two needs of the innermost task, or at a fault.
inductive Standing (c : Catalog) (root : Name) (done : List Name) :
    List Expansion → Option Fault → Prop where
  | finished : c.Settled done root → Standing c root done [] none
  | looking {task : Task} {outer : List Expansion} {looked pending : List Name} :
      Waiting c root done outer task.name → c.taskOf task.name = some task →
      task.needs = looked ++ pending → (∀ earlier ∈ looked, c.Settled done earlier) →
      Standing c root done (⟨task, pending⟩ :: outer) none
  | unknown {expansions : List Expansion} {name : Name} : Waiting c root done expansions name →
      c.isAssumed name = false → name ∉ c.names →
      Standing c root done expansions (some (.unknown name (pathOf expansions)))
  | circular {expansions : List Expansion} {name : Name} : Waiting c root done expansions name →
      name ∈ pathOf expansions →
      Standing c root done expansions (some (.circular (pathOf expansions) name))

-- The names of a walk below `root` that began when `before` was collected.
structure Accounted (c : Catalog) (before : List Name) (root : Name) (w : Walk) : Prop where
  path : w.active.toList = pathOf w.expansions
  apart : ∀ name ∈ w.active, name ∉ w.collected
  order : c.ValidOrder w.collected.toList
  grown : ∃ grown, w.collected.toList = before ++ grown ∧ ∀ name ∈ grown, c.Reaches root name

structure Coherent (c : Catalog) (before : List Name) (root : Name) (w : Walk) : Prop
    extends Accounted c before root w where
  standing : Standing c root w.collected.toList w.expansions w.fault

variable {before done : List Name} {root name : Name} {expansions : List Expansion}
  {w : Walk}

@[simp] theorem pathOf_cons (e : Expansion) (outer : List Expansion) :
    pathOf (e :: outer) = pathOf outer ++ [e.task.name] := by simp [pathOf]

namespace Waiting

theorem append (waiting : Waiting c root done expansions name) (more : List Name) :
    Waiting c root (done ++ more) expansions name := by
  induction waiting with
  | root => exact .root
  | nested _ found split settled ih =>
    exact .nested ih found split (fun earlier member => (settled earlier member).append more)

theorem reaches (waiting : Waiting c root done expansions name) : c.Reaches root name := by
  induction waiting with
  | root => exact .refl _
  | nested _ found split _ ih => exact ih.need (.of_split found split)

-- The need that was waited for is settled, so the walk goes on with the next one.
theorem resume (waiting : Waiting c root done expansions name) (settled : c.Settled done name) :
    Standing c root done expansions none := by
  cases waiting with
  | root => exact .finished settled
  | @nested task outer looked pending need waiting found split earlier_settled =>
    have onward : task.needs = (looked ++ [name]) ++ pending := by simp [split]
    refine .looking waiting found onward ?_
    intro earlier member
    rcases List.mem_append.mp member with old | new
    · exact earlier_settled earlier old
    · cases List.mem_singleton.mp new
      exact settled

-- If the innermost need cannot be built, each open task waits for its first need that cannot.
theorem leftmost (waiting : Waiting c root done expansions name) (order : c.ValidOrder done)
    (failing : ¬ c.Buildable name) : c.LeftmostPath root (pathOf expansions) name := by
  induction waiting with
  | root => exact .here _
  | nested _ found split settled ih =>
    have blocked : c.FirstBlocked _ _ :=
      ⟨_, _, _, found, split, fun earlier member => order.buildable (settled earlier member), failing⟩
    rw [pathOf_cons]
    exact (ih blocked.not_buildable).concat blocked

theorem strictly (waiting : Waiting c root done expansions name) {task : Name}
    (opened : task ∈ pathOf expansions) : c.ReachesStrictly task name := by
  induction waiting with
  | root => cases opened
  | nested _ found split _ ih =>
    have needs := Catalog.Needs.of_split found split
    rw [pathOf_cons] at opened
    rcases List.mem_append.mp opened with outer | innermost
    · obtain ⟨first, down, path⟩ := ih outer
      exact ⟨first, down, path.need needs⟩
    · cases List.mem_singleton.mp innermost
      exact ⟨_, needs, .refl _⟩

end Waiting

namespace Accounted

variable {task : Task} {pending : List Name} {outer : List Expansion}
variable (accounted : Accounted c before root w)
include accounted

theorem path_nodup : (pathOf w.expansions).Nodup := accounted.path ▸ w.active.nodup_toList

theorem active_toList (top : w.expansions = ⟨task, pending⟩ :: outer) :
    w.active.toList = pathOf outer ++ [task.name] := by rw [accounted.path, top, pathOf_cons]

theorem innermost_active (top : w.expansions = ⟨task, pending⟩ :: outer) : task.name ∈ w.active := by
  rw [NameSet.mem_def, accounted.active_toList top]
  exact List.mem_append_right _ (List.mem_singleton.mpr rfl)

theorem pop_toList (top : w.expansions = ⟨task, pending⟩ :: outer) :
    w.active.pop.toList = pathOf outer := by
  rw [NameSet.toList_pop, accounted.active_toList top, List.dropLast_concat]

theorem insert_toList (top : w.expansions = ⟨task, pending⟩ :: outer) :
    (w.collected.insert task.name).toList = w.collected.toList ++ [task.name] := by
  rw [NameSet.toList_insert, if_neg (accounted.apart task.name (accounted.innermost_active top))]

theorem taken {need : Name} (top : w.expansions = ⟨task, need :: pending⟩ :: outer) :
    Accounted c before root { w with expansions := ⟨task, pending⟩ :: outer } := by
  refine ⟨?_, accounted.apart, accounted.order, accounted.grown⟩
  rw [pathOf_cons]
  exact accounted.active_toList top

theorem opened {events : Array Event} (fresh : task.name ∉ w.active)
    (unsettled : task.name ∉ w.collected) :
    Accounted c before root
      { w with
        events := events
        active := w.active.insert task.name
        expansions := ⟨task, task.needs⟩ :: w.expansions } := by
  refine ⟨?_, ?_, accounted.order, accounted.grown⟩
  · rw [NameSet.toList_insert, if_neg fresh, accounted.path, pathOf_cons]
  · intro other member
    rcases NameSet.mem_insert.mp member with old | rfl
    · exact accounted.apart other old
    · exact unsettled

theorem closed (top : w.expansions = ⟨task, []⟩ :: outer)
    (waiting : Waiting c root done outer task.name) (found : c.taskOf task.name = some task)
    (settled : ∀ need ∈ task.needs, c.Settled w.collected.toList need) :
    Accounted c before root (w.close task outer) := by
  have active := accounted.active_toList top
  have unsettled := accounted.apart task.name (accounted.innermost_active top)
  refine ⟨accounted.pop_toList top, ?_, ?_, ?_⟩
  · intro other member added
    have inside : other ∈ pathOf outer := accounted.pop_toList top ▸ member
    rcases NameSet.mem_insert.mp added with old | rfl
    · refine accounted.apart other ?_ old
      rw [NameSet.mem_def, active]
      exact List.mem_append_left _ inside
    · have distinct := w.active.nodup_toList
      rw [active, List.nodup_append] at distinct
      exact distinct.2.2 _ inside _ (List.mem_singleton.mpr rfl) rfl
  · change c.ValidOrder (w.collected.insert task.name).toList
    rw [accounted.insert_toList top]
    exact accounted.order.concat found unsettled settled
  · obtain ⟨grown, split, reached⟩ := accounted.grown
    refine ⟨grown ++ [task.name], ?_, ?_⟩
    · change (w.collected.insert task.name).toList = _
      rw [accounted.insert_toList top, split, List.append_assoc]
    · intro other member
      rcases List.mem_append.mp member with old | new
      · exact reached other old
      · cases List.mem_singleton.mp new
        exact waiting.reaches

end Accounted

theorem Coherent.innermost {task : Task} {pending : List Name} {outer : List Expansion}
    (coherent : Coherent c before root w) (running : w.fault = none)
    (top : w.expansions = ⟨task, pending⟩ :: outer) :
    Waiting c root w.collected.toList outer task.name ∧ c.taskOf task.name = some task ∧
      ∃ looked, task.needs = looked ++ pending ∧
        ∀ earlier ∈ looked, c.Settled w.collected.toList earlier := by
  have standing := coherent.standing
  rw [top, running] at standing
  cases standing with
  | looking waiting found split settled => exact ⟨waiting, found, _, split, settled⟩

theorem Entering.coherent {after : Walk} (entering : Entering c w name after)
    (accounted : Accounted c before root w) (running : w.fault = none)
    (waiting : Waiting c root w.collected.toList w.expansions name) :
    Coherent c before root after := by
  obtain ⟨path, apart, order, grown⟩ := id accounted
  cases entering with
  | skipped provided =>
    exact ⟨⟨path, apart, order, grown⟩, running ▸ waiting.resume (.inl provided)⟩
  | known _ member => exact ⟨accounted, running ▸ waiting.resume (.inr member)⟩
  | circular _ _ member =>
    refine ⟨⟨path, apart, order, grown⟩, ?_⟩
    rw [path]
    exact .circular waiting (path ▸ member)
  | unknown built _ _ missing =>
    refine ⟨⟨path, apart, order, grown⟩, ?_⟩
    rw [path]
    exact .unknown waiting built missing
  | opened found unsettled inactive =>
    refine ⟨accounted.opened inactive unsettled, ?_⟩
    dsimp only
    rw [running]
    exact .looking waiting found (List.nil_append _).symm (by simp)

theorem Step.coherent {after : Walk} (step : Step c w after) (running : w.fault = none)
    (coherent : Coherent c before root w) : Coherent c before root after := by
  have accounted := coherent.toAccounted
  cases step with
  | @close task outer top =>
    obtain ⟨waiting, found, looked, split, settled⟩ := coherent.innermost running top
    rw [List.append_nil] at split
    refine ⟨accounted.closed top waiting found (split ▸ settled), ?_⟩
    change Standing c root (w.collected.insert task.name).toList outer w.fault
    rw [accounted.insert_toList top, running]
    exact (waiting.append [task.name]).resume (.inr (by simp))
  | pass top member =>
    obtain ⟨waiting, found, looked, split, settled⟩ := coherent.innermost running top
    have awaited := Waiting.nested waiting found split settled
    exact ⟨accounted.taken top, running ▸ awaited.resume (.inr member)⟩
  | enter top _ entering =>
    obtain ⟨waiting, found, looked, split, settled⟩ := coherent.innermost running top
    exact entering.coherent (accounted.taken top) running (.nested waiting found split settled)

theorem run_coherent (limit : Nat) (coherent : Coherent c before root w) :
    Coherent c before root (w.run c limit) := by
  refine run_keeps limit ?_ coherent
  intro w after running step coherent
  exact step.coherent (fault_of_running running) coherent

theorem Coherent.halted_cases (coherent : Coherent c before root w) (stopped : w.halted = true) :
    (w.fault = none ∧ w.expansions = [] ∧ c.Settled w.collected.toList root) ∨
      ∃ fault, w.fault = some fault ∧ c.LeftmostFault root fault := by
  obtain ⟨collected, active, expansions, events, fault⟩ := w
  obtain ⟨accounted, standing⟩ := coherent
  have distinct := accounted.path_nodup
  dsimp only at standing
  cases standing with
  | finished settled => exact .inl ⟨rfl, rfl, settled⟩
  | looking => simp [halted] at stopped
  | unknown waiting built missing =>
    have failing : ¬ c.Buildable _ := fun buildable => missing (buildable.registered built)
    exact .inr ⟨_, rfl, .unknown (waiting.leftmost accounted.order failing) distinct built missing⟩
  | circular waiting opened =>
    have failing : ¬ c.Buildable _ := fun buildable => buildable.not_onCycle (waiting.strictly opened)
    exact .inr ⟨_, rfl, .circular (waiting.leftmost accounted.order failing) distinct opened⟩

end BuildPlan.Walk
