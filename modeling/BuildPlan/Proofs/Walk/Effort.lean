import Mathlib.Data.List.Nodup
import Mathlib.Data.List.Perm.Subperm
import BuildPlan.Proofs.Walk.Coherence

namespace BuildPlan.Walk

-- The steps to open some tasks and close them again.
def costs (tasks : List Task) : Nat :=
  tasks.foldr (fun task total => task.needs.length + 1 + total) 0

-- Each step uses up a part of what the open tasks and those never opened may still cost, and `walkBound` is
-- the whole.
def left (expansions : List Expansion) : Nat :=
  expansions.foldr (fun e total => e.pending.length + 1 + total) 0

-- A task that is open or closed is never opened again.
def Opened (w : Walk) (name : Name) : Prop := name ∈ w.active ∨ name ∈ w.collected

instance (w : Walk) (name : Name) : Decidable (w.Opened name) := by
  unfold Opened
  infer_instance

def unopened (c : Catalog) (w : Walk) : List Task := c.tasks.filter fun task => ¬ w.Opened task.name

def effort (c : Catalog) (w : Walk) : Nat := left w.expansions + costs (unopened c w)

def opens (w after : Walk) : List Task :=
  (after.expansions.take (after.expansions.length - w.expansions.length)).map Expansion.task

variable {c : Catalog} {before : List Name} {root name : Name} {w after : Walk}

@[simp] theorem costs_cons (task : Task) (rest : List Task) :
    costs (task :: rest) = task.needs.length + 1 + costs rest := rfl

@[simp] theorem left_cons (e : Expansion) (outer : List Expansion) :
    left (e :: outer) = e.pending.length + 1 + left outer := rfl

theorem costs_sublist {some all : List Task} (part : some.Sublist all) : costs some ≤ costs all := by
  induction part with
  | slnil => exact Nat.le_refl _
  | cons task _ ih =>
    rw [costs_cons]
    omega
  | cons_cons task _ ih =>
    rw [costs_cons, costs_cons]
    omega

theorem costs_perm {one two : List Task} (same : one.Perm two) : costs one = costs two := by
  induction same with
  | nil => rfl
  | cons task _ ih => rw [costs_cons, costs_cons, ih]
  | swap first second rest =>
    simp only [costs_cons]
    omega
  | trans _ _ ih ih' => exact ih.trans ih'

theorem costs_append (some more : List Task) : costs (some ++ more) = costs some + costs more := by
  induction some with
  | nil => simp [costs]
  | cons task rest ih =>
    rw [List.cons_append, costs_cons, costs_cons, ih]
    omega

theorem costs_subperm {some all : List Task} (part : some.Subperm all) : costs some ≤ costs all := by
  obtain ⟨sorted, same, within⟩ := part
  rw [← costs_perm same]
  exact costs_sublist within

theorem walkBound_eq (c : Catalog) : c.walkBound = costs c.tasks := rfl

theorem effort_le_walkBound (idle : w.expansions = []) : w.effort c ≤ c.walkBound := by
  have nothing : left w.expansions = 0 := by rw [idle]; rfl
  rw [effort, nothing, Nat.zero_add, walkBound_eq]
  exact costs_sublist List.filter_sublist

theorem mem_unopened {task : Task} : task ∈ unopened c w ↔ task ∈ c.tasks ∧ ¬ w.Opened task.name := by
  simp [unopened]

-- Opening a task takes on a turn for each of its needs and one to close it, and only a new task is opened.
structure Opening (c : Catalog) (w after : Walk) (spent : Nat) : Prop where
  paid : left after.expansions + spent = left w.expansions + costs (opens w after)
  distinct : ((opens w after).map Task.name).Nodup
  fresh : ∀ task ∈ opens w after, task ∈ c.tasks ∧ ¬ w.Opened task.name ∧ after.Opened task.name
  kept : ∀ name, w.Opened name → after.Opened name

theorem Opening.of_nothing {spent : Nat} (same : after.expansions.length ≤ w.expansions.length)
    (paid : left after.expansions + spent = left w.expansions)
    (kept : ∀ name, w.Opened name → after.Opened name) : Opening c w after spent := by
  have nothing : opens w after = [] := by simp [opens, Nat.sub_eq_zero_of_le same]
  refine ⟨?_, ?_, ?_, kept⟩
  · rw [nothing]
    exact paid
  · simp [nothing]
  · simp [nothing]

theorem Opening.effort_le {spent : Nat} (opening : Opening c w after spent) :
    after.effort c + spent ≤ w.effort c := by
  have distinct : (opens w after ++ unopened c after).Nodup := by
    rw [List.nodup_append]
    refine ⟨.of_map Task.name opening.distinct, .filter _ (.of_map Task.name c.names_nodup), ?_⟩
    rintro task now _ further rfl
    exact (mem_unopened.mp further).2 (opening.fresh task now).2.2
  have within : opens w after ++ unopened c after ⊆ unopened c w := by
    intro task member
    rcases List.mem_append.mp member with now | further
    · obtain ⟨known, fresh, _⟩ := opening.fresh task now
      exact mem_unopened.mpr ⟨known, fresh⟩
    · obtain ⟨known, later⟩ := mem_unopened.mp further
      exact mem_unopened.mpr ⟨known, fun opened => later (opening.kept _ opened)⟩
  have paid := opening.paid
  have bound := costs_subperm (List.subperm_of_subset distinct within)
  rw [costs_append] at bound
  unfold effort
  omega

theorem Entering.opening (entering : Entering c w name after) : Opening c w after 0 := by
  cases entering with
  | skipped => exact .of_nothing (Nat.le_refl _) rfl fun _ opened => opened
  | known => exact .of_nothing (Nat.le_refl _) rfl fun _ opened => opened
  | circular => exact .of_nothing (Nat.le_refl _) rfl fun _ opened => opened
  | unknown => exact .of_nothing (Nat.le_refl _) rfl fun _ opened => opened
  | @opened task found unsettled inactive =>
    have known := (Catalog.taskOf_registered found).1
    have fresh : ¬ w.Opened task.name := fun opened => opened.elim inactive unsettled
    refine ⟨?_, ?_, ?_, ?_⟩
    · simp [opens, costs]
      omega
    · simp [opens]
    · simp only [opens, List.length_cons, Nat.add_sub_cancel_left, List.take_succ_cons, List.take_zero,
        List.map_cons, List.map_nil, List.mem_singleton, forall_eq]
      exact ⟨known, fresh, .inl (NameSet.mem_insert.mpr (.inr rfl))⟩
    · exact fun name => Or.imp_left fun old => NameSet.mem_insert.mpr (.inl old)

theorem Accounted.close_opened {task : Task} {outer : List Expansion}
    (accounted : Accounted c before root w) (top : w.expansions = ⟨task, []⟩ :: outer)
    (opened : w.Opened name) : (w.close task outer).Opened name := by
  rcases opened with active | collected
  · rw [NameSet.mem_def, accounted.active_toList top] at active
    rcases List.mem_append.mp active with inside | last
    · left
      change name ∈ w.active.pop
      rwa [NameSet.mem_def, accounted.pop_toList top]
    · exact .inr (NameSet.mem_insert.mpr (.inr (List.mem_singleton.mp last)))
  · exact .inr (NameSet.mem_insert.mpr (.inl collected))

theorem Step.opening (step : Step c w after) (accounted : Accounted c before root w) :
    Opening c w after 1 := by
  cases step with
  | @close task outer top =>
    refine .of_nothing ?_ ?_ fun name => accounted.close_opened top
    · change outer.length ≤ w.expansions.length
      simp [top]
    · change left outer + 1 = left w.expansions
      simp [top, Nat.add_comm]
  | pass top member =>
    refine .of_nothing ?_ ?_ fun _ opened => opened
    · simp [top]
    · simp [top]
      omega
  | @enter task need rest outer _ top _ entering =>
    -- The innermost task has looked at one more need, and is as open as it was.
    obtain ⟨paid, distinct, fresh, kept⟩ := entering.opening
    have same : opens w after = opens { w with expansions := ⟨task, rest⟩ :: outer } after := by
      simp [opens, top]
    refine ⟨?_, same ▸ distinct, same ▸ fresh, kept⟩
    rw [left_cons] at paid
    rw [same, top, left_cons]
    simp only [List.length_cons] at paid ⊢
    omega

theorem run_halted (limit : Nat) (coherent : Coherent c before root w) (enough : w.effort c ≤ limit) :
    (w.run c limit).halted = true := by
  induction limit generalizing w with
  | zero =>
    have nothing : left w.expansions = 0 := by
      unfold effort at enough
      omega
    cases top : w.expansions with
    | nil => simp [run, halted, top]
    | cons innermost outer => simp [top] at nothing
  | succ limit ih =>
    unfold run
    split
    · assumption
    · rename_i running
      have running : w.halted = false := by simpa using running
      have step := step_sound (c := c) running
      have less := (step.opening coherent.toAccounted).effort_le
      exact ih (step.coherent (fault_of_running running) coherent) (by omega)

end BuildPlan.Walk
