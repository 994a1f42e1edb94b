import BuildPlan.Proofs.Collector.Visit
import BuildPlan.Proofs.Recursive.History

namespace BuildPlan.Walk

inductive Steps (c : Catalog) : Walk → Walk → Prop where
  | refl {w : Walk} : Steps c w w
  | step {w after : Walk} : w.halted = false → Steps c (w.step c) after → Steps c w after

structure At (w : Walk) (path done : List Name) (expansions : List Expansion) : Prop where
  running : w.fault = none
  active : w.active.toList = path
  collected : w.collected.toList = done
  expansions : w.expansions = expansions

structure Failed (w : Walk) (fault : Fault) (done : List Name) : Prop where
  fault : w.fault = some fault
  collected : w.collected.toList = done

variable {c : Catalog} {w after : Walk} {path done needs pending final : List Name} {name : Name}
  {task opener : Task} {expansions outer : List Expansion} {fault : Fault} {answer : Except Fault Unit}

namespace Steps

theorem trans {middle : Walk} (first : Steps c w middle) (second : Steps c middle after) :
    Steps c w after := by
  induction first with
  | refl => exact second
  | step running _ ih => exact .step running (ih second)

theorem run_eq (steps : Steps c w after) (stopped : after.halted = true) {limit : Nat}
    (enough : (w.run c limit).halted = true) : w.run c limit = after := by
  induction steps generalizing limit with
  | refl => cases limit <;> simp [run, stopped]
  | step running _ ih =>
    cases limit with
    | zero =>
      rw [run, running] at enough
      cases enough
    | succ limit =>
      simp only [run, running] at enough ⊢
      exact ih stopped enough

end Steps

theorem Failed.halted (failed : Failed w fault done) : w.halted = true := by
  simp [Walk.halted, failed.fault]

namespace At

theorem settled_iff (at_here : At w path done expansions) :
    c.Settled done name ↔ c.isAssumed name = true ∨ name ∈ w.collected := by
  rw [← at_here.collected]
  rfl

theorem mem_active_iff (at_here : At w path done expansions) : name ∈ w.active ↔ name ∈ path := by
  rw [NameSet.mem_def, at_here.active]

theorem not_halted (at_here : At w path done (⟨opener, pending⟩ :: outer)) : w.halted = false := by
  simp [halted, at_here.running, at_here.expansions]

theorem finished (at_here : At w path done []) : w.halted = true := by
  simp [halted, at_here.expansions]

theorem enter_settled (at_here : At w path done expansions) (settled : c.Settled done name)
    (entering : Entering c w name after) : At after path done expansions := by
  obtain ⟨running, active, collected, opened⟩ := id at_here
  rw [at_here.settled_iff] at settled
  cases entering with
  | skipped => exact ⟨running, active, collected, opened⟩
  | known => exact at_here
  | circular built fresh => exact absurd settled (by simp [built, fresh])
  | unknown built fresh => exact absurd settled (by simp [built, fresh])
  | opened found fresh => exact absurd settled (by simp [(Catalog.taskOf_registered found).2.2, fresh])

theorem enter_circular (at_here : At w path done expansions) (fresh : ¬ c.Settled done name)
    (opened : name ∈ path) (entering : Entering c w name after) :
    Failed after (.circular path name) done := by
  rw [at_here.settled_iff] at fresh
  rw [← at_here.mem_active_iff] at opened
  cases entering with
  | skipped provided => exact absurd (.inl provided) fresh
  | known _ member => exact absurd (.inr member) fresh
  | circular => exact ⟨by rw [at_here.active], at_here.collected⟩
  | unknown _ _ inactive => exact absurd opened inactive
  | opened _ _ inactive => exact absurd opened inactive

theorem enter_unknown (at_here : At w path done expansions) (fresh : ¬ c.Settled done name)
    (unopened : name ∉ path) (missing : name ∉ c.names) (entering : Entering c w name after) :
    Failed after (.unknown name path) done := by
  rw [at_here.settled_iff] at fresh
  rw [← at_here.mem_active_iff] at unopened
  cases entering with
  | skipped provided => exact absurd (.inl provided) fresh
  | known _ member => exact absurd (.inr member) fresh
  | circular _ _ active => exact absurd active unopened
  | unknown => exact ⟨by rw [at_here.active], at_here.collected⟩
  | opened found => exact absurd (Catalog.taskOf_mem_names found) missing

theorem enter_task (at_here : At w path done expansions) (found : c.taskOf name = some task)
    (fresh : name ∉ done) (unopened : name ∉ path) (entering : Entering c w name after) :
    At after (path ++ [name]) done (⟨task, task.needs⟩ :: expansions) := by
  have built := (Catalog.taskOf_registered found).2.2
  rw [← at_here.collected, ← NameSet.mem_def] at fresh
  rw [← at_here.mem_active_iff] at unopened
  cases entering with
  | skipped provided => rw [built] at provided; cases provided
  | known _ member => exact absurd member fresh
  | circular _ _ active => exact absurd active unopened
  | unknown _ _ _ missing => exact absurd (Catalog.taskOf_mem_names found) missing
  | opened known =>
    cases Option.some.inj (known.symm.trans found)
    refine ⟨at_here.running, ?_, at_here.collected, by rw [at_here.expansions]⟩
    rw [NameSet.toList_insert, if_neg unopened, at_here.active]

theorem step_settled (at_here : At w path done (⟨opener, name :: pending⟩ :: outer))
    (settled : c.Settled done name) : At (w.step c) path done (⟨opener, pending⟩ :: outer) := by
  have taken : At { w with expansions := ⟨opener, pending⟩ :: outer } path done _ :=
    ⟨at_here.running, at_here.active, at_here.collected, rfl⟩
  unfold step
  rw [at_here.expansions]
  dsimp only
  split
  · exact taken
  · exact taken.enter_settled settled (enter_sound c _ name)

theorem step_enter (at_here : At w path done (⟨opener, name :: pending⟩ :: outer))
    (fresh : name ∉ done) : ∃ taken, At taken path done (⟨opener, pending⟩ :: outer) ∧
      Entering c taken name (w.step c) := by
  refine ⟨{ w with expansions := ⟨opener, pending⟩ :: outer },
    ⟨at_here.running, at_here.active, at_here.collected, rfl⟩, ?_⟩
  have unsettled : ¬ w.collected.contains name = true := by
    rwa [NameSet.contains_iff, NameSet.mem_def, at_here.collected]
  have entered : w.step c = enter c name { w with expansions := ⟨opener, pending⟩ :: outer } := by
    unfold step
    rw [at_here.expansions]
    exact if_neg unsettled
  rw [entered]
  exact enter_sound c _ name

theorem step_close (at_here : At w (path ++ [task.name]) done (⟨task, []⟩ :: outer))
    (fresh : task.name ∉ done) : At (w.step c) path (done ++ [task.name]) outer := by
  have closed : w.step c = w.close task outer := by
    unfold step
    rw [at_here.expansions]
  rw [closed]
  refine ⟨at_here.running, ?_, ?_, rfl⟩
  · change w.active.pop.toList = path
    rw [NameSet.toList_pop, at_here.active, List.dropLast_concat]
  · change (w.collected.insert task.name).toList = done ++ [task.name]
    have unsettled : task.name ∉ w.collected := by rwa [NameSet.mem_def, at_here.collected]
    rw [NameSet.toList_insert, if_neg unsettled, at_here.collected]

end At

-- Where the machine is after some needs, by the answer of the recursion.
def Arrived (w : Walk) (path after : List Name) (expansions : List Expansion) :
    Except Fault Unit → Prop
  | .ok () => At w path after expansions
  | .error fault => Failed w fault after

-- By induction on the rules: each rule is one step of the machine, and those that open a task go on
-- with the steps for its needs and, when these are done, the step that closes it.
theorem follows (visits : Recursive.Visits c path done pending answer final)
    (at_here : At w path done (⟨opener, pending⟩ :: outer)) (outside : Recursive.Apart path done) :
    ∃ after, Steps c w after ∧ Arrived after path final (⟨opener, []⟩ :: outer) answer := by
  induction visits generalizing w opener outer with
  | nothing => exact ⟨w, .refl, at_here⟩
  | settled settled _ ih =>
    obtain ⟨after, steps, arrived⟩ := ih (at_here.step_settled settled) outside
    exact ⟨after, .step at_here.not_halted steps, arrived⟩
  | circular fresh opened =>
    obtain ⟨taken, at_taken, entering⟩ := at_here.step_enter (c := c) fun member => fresh (.inr member)
    exact ⟨_, .step at_here.not_halted .refl, at_taken.enter_circular fresh opened entering⟩
  | unknown fresh unopened missing =>
    obtain ⟨taken, at_taken, entering⟩ := at_here.step_enter (c := c) fun member => fresh (.inr member)
    exact ⟨_, .step at_here.not_halted .refl, at_taken.enter_unknown fresh unopened missing entering⟩
  | @closed path done rest middle final task answer found fresh unopened below later below_ih later_ih =>
    obtain ⟨taken, at_taken, entering⟩ := at_here.step_enter (c := c) fresh
    obtain ⟨inner, inner_steps, at_inner⟩ :=
      below_ih (at_taken.enter_task found fresh unopened entering) (outside.below fresh)
    obtain ⟨unclosed, apart⟩ := (below.apart (outside.below fresh)).close unopened
    obtain ⟨after, steps, arrived⟩ := later_ih (at_inner.step_close unclosed) apart
    refine ⟨after, .step at_here.not_halted ?_, arrived⟩
    exact inner_steps.trans (.step at_inner.not_halted steps)
  | failed found fresh unopened below ih =>
    obtain ⟨taken, at_taken, entering⟩ := at_here.step_enter (c := c) fresh
    obtain ⟨after, steps, failed⟩ := ih (at_taken.enter_task found fresh unopened entering)
      (outside.below fresh)
    exact ⟨after, .step at_here.not_halted steps, failed⟩

theorem follows_root (visits : Recursive.Visits c [] done [name] answer final) (at_here : At w [] done [])
    (entering : Entering c w name after) :
    ∃ last, Steps c after last ∧ Arrived last [] final [] answer := by
  cases visits with
  | settled settled rest =>
    cases rest
    exact ⟨after, .refl, at_here.enter_settled settled entering⟩
  | circular _ opened => cases opened
  | unknown fresh unopened missing =>
    exact ⟨after, .refl, at_here.enter_unknown fresh unopened missing entering⟩
  | closed found fresh unopened below rest =>
    cases rest
    have nothing_open : Recursive.Apart [] done := by simp [Recursive.Apart]
    have at_root := at_here.enter_task found fresh unopened entering
    obtain ⟨inner, steps, at_inner⟩ := follows below at_root (nothing_open.below fresh)
    have unclosed := ((below.apart (nothing_open.below fresh)).close unopened).1
    exact ⟨_, steps.trans (.step at_inner.not_halted .refl), at_inner.step_close unclosed⟩
  | failed found fresh unopened below =>
    have nothing_open : Recursive.Apart [] done := by simp [Recursive.Apart]
    have at_root := at_here.enter_task found fresh unopened entering
    exact follows below at_root (nothing_open.below fresh)

theorem Arrived.halted (arrived : Arrived w path done [] answer) : w.halted = true := by
  cases answer with
  | ok => exact At.finished arrived
  | error => exact Failed.halted arrived

end BuildPlan.Walk

namespace BuildPlan

def Collector.replies (k : Collector) : List Name → List (Except Fault Unit × List Name)
  | [] => []
  | root :: rest =>
    ((k.visit root).1, (k.visit root).2.collected.toList) :: (k.visit root).2.replies rest

-- The same for the recursion, which begins every visit with no task open.
def Recursive.replies (c : Catalog) (done : List Name) :
    List Name → List (Except Fault Unit × List Name)
  | [] => []
  | root :: rest =>
    visit c [] done root :: replies c (visit c [] done root).2 rest

namespace Collector

variable {k : Collector} {root : Name} {after : List Name} {answer : Except Fault Unit}

theorem visit_follows (sound : k.Sound)
    (visits : Recursive.Visits k.catalog [] k.collected.toList [root] answer after) :
    (k.visit root).1 = answer ∧ (k.visit root).2.collected.toList = after := by
  have begin_at : Walk.At ⟨k.collected, k.active, [], k.events, none⟩ [] k.collected.toList [] :=
    ⟨rfl, sound.idle, rfl, rfl⟩
  obtain ⟨last, steps, arrived⟩ :=
    Walk.follows_root visits begin_at (Walk.enter_sound k.catalog _ root)
  have ended : k.walk root = last := steps.run_eq arrived.halted (walk_halted sound root)
  cases answer with
  | ok =>
    have arrived : Walk.At last [] after [] := arrived
    rw [visit_of_finished (ended ▸ arrived.running), ended]
    exact ⟨rfl, arrived.collected⟩
  | error fault =>
    have arrived : Walk.Failed last fault after := arrived
    rw [visit_of_fault (ended ▸ arrived.fault), ended]
    exact ⟨rfl, arrived.collected⟩

theorem visit_eq_recursive (sound : k.Sound) (root : Name) :
    (k.visit root).1 = (Recursive.visit k.catalog [] k.collected.toList root).1 ∧
      (k.visit root).2.collected.toList =
        (Recursive.visit k.catalog [] k.collected.toList root).2 :=
  visit_follows sound (Recursive.visit_visits _ _ _ _)

theorem replies_of_sound (sound : k.Sound) (roots : List Name) :
    k.replies roots = Recursive.replies k.catalog k.collected.toList roots := by
  induction roots generalizing k with
  | nil => rfl
  | cons root rest ih =>
    obtain ⟨answer, closed⟩ := visit_eq_recursive sound root
    have visited := visit_visited sound root
    rw [replies, Recursive.replies, ih visited.sound, visited.catalog, answer, closed]

-- Success or failure, cyclic or not: no call can tell the machine from the recursion.
theorem replies_eq_recursive (c : Catalog) (roots : List Name) :
    (start c).replies roots = Recursive.replies c [] roots := replies_of_sound (start_sound c) roots

end Collector
end BuildPlan
