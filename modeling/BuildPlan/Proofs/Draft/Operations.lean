import BuildPlan.Proofs.Blueprint.Registration
import BuildPlan.Proofs.NameSet

namespace BuildPlan.Draft

inductive Operation where
  | register (task : Task)
  | assume (name : Name)
  | family (f : Family)
  | blueprint (b : Blueprint)
  -- The catalog is finished, and opened again.
  | reopen

namespace Operation

def perform (draft : Draft) : Operation → Except LoadError Unit × Draft
  | register task => (Draft.register task).run.run draft
  | assume name => (Draft.assume name).run.run draft
  | family f => (Draft.registerFamily f).run.run draft
  | blueprint b => b.register.run.run draft
  | reopen => (.ok (), .ofCatalog draft.build.1)

def provided : Operation → List Name
  | assume name => [name]
  | blueprint b => b.assumed
  | register _ | family _ | reopen => []

def requests : Operation → List Request
  | register task => [.task task]
  | family f => f.variants.map .task
  | blueprint b => b.requests
  | assume _ | reopen => []

def isAssume : Operation → Bool
  | assume _ => true
  | register _ | family _ | blueprint _ | reopen => false

end Operation

def run (draft : Draft) (operations : List Operation) : Draft :=
  operations.foldl (fun draft operation => (operation.perform draft).2) draft

def answers : Draft → List Operation → List (Operation × Except LoadError Unit)
  | _, [] => []
  | draft, operation :: rest =>
    (operation, (operation.perform draft).1) :: answers (operation.perform draft).2 rest

variable {draft other : Draft} {operation : Operation} {operations others : List Operation} {task : Task}
  {error : LoadError}

theorem perform_eq (draft : Draft) (operation : Operation) :
    ((operation.perform draft).1, (operation.perform draft).2.catalog) =
      (draft.catalog.assumeAll operation.provided).pass operation.requests := by
  cases operation with
  | register task => exact Drafting.Passes.register task draft
  | assume name => rfl
  | family f => exact Drafting.Passes.family f draft
  | blueprint b => exact b.run_register draft
  | reopen => rfl

theorem answer_perform (draft : Draft) (operation : Operation) : (operation.perform draft).1 =
    ((draft.catalog.assumeAll operation.provided).pass operation.requests).1 :=
  congrArg Prod.fst (perform_eq draft operation)

theorem catalog_perform (draft : Draft) (operation : Operation) : (operation.perform draft).2.catalog =
    ((draft.catalog.assumeAll operation.provided).pass operation.requests).2 :=
  congrArg Prod.snd (perform_eq draft operation)

theorem tasks_perform (draft : Draft) (operation : Operation) :
    draft.catalog.tasks <+: (operation.perform draft).2.catalog.tasks := by
  rw [catalog_perform, ← Catalog.tasks_assumeAll draft.catalog operation.provided]
  exact Catalog.tasks_prefix_pass _ _

theorem assumed_perform (draft : Draft) (operation : Operation) :
    (operation.perform draft).2.catalog.assumed = draft.catalog.assumed.insertAll operation.provided := by
  rw [catalog_perform, Catalog.assumed_pass, Catalog.assumed_assumeAll]

theorem perform_failed (failed : ((Operation.register task).perform draft).1 = .error error) :
    ((Operation.register task).perform draft).2 = draft := by
  change ((Draft.register task).run.run draft).1 = .error error at failed
  change ((Draft.register task).run.run draft).2 = draft
  rw [run_register] at failed ⊢
  cases made : draft.catalog.register task with
  | ok after => rw [made] at failed; cases failed
  | error fault => rfl

-- The answer and the tasks depend on the tasks alone.
theorem perform_congr (same : draft.catalog.tasks = other.catalog.tasks) (operation : Operation) :
    (operation.perform draft).1 = (operation.perform other).1 ∧
      (operation.perform draft).2.catalog.tasks = (operation.perform other).2.catalog.tasks := by
  rw [answer_perform, answer_perform, catalog_perform, catalog_perform]
  apply Catalog.pass_congr
  rw [Catalog.tasks_assumeAll, Catalog.tasks_assumeAll, same]

theorem tasks_assume (is_assume : operation.isAssume = true) :
    (operation.perform draft).2.catalog.tasks = draft.catalog.tasks := by
  cases operation with
  | assume name => rfl
  | register | family | blueprint | reopen => cases is_assume

theorem run_tasks (draft : Draft) (operations : List Operation) :
    draft.catalog.tasks <+: (draft.run operations).catalog.tasks := by
  induction operations generalizing draft with
  | nil => exact List.prefix_rfl
  | cons operation rest ih => exact (tasks_perform draft operation).trans (ih _)

theorem run_assumed (draft : Draft) (operations : List Operation) :
    (draft.run operations).catalog.assumed =
      draft.catalog.assumed.insertAll (operations.flatMap Operation.provided) := by
  induction operations generalizing draft with
  | nil => rfl
  | cons operation rest ih =>
    rw [List.flatMap_cons, NameSet.insertAll_append, ← assumed_perform]
    exact ih _

theorem run_without_assumes (same : draft.catalog.tasks = other.catalog.tasks) (operations : List Operation) :
    (draft.run operations).catalog.tasks =
        (other.run (operations.filter (!·.isAssume))).catalog.tasks ∧
      (draft.answers operations).filter (!·.1.isAssume) =
        other.answers (operations.filter (!·.isAssume)) := by
  induction operations generalizing draft other with
  | nil => exact ⟨same, rfl⟩
  | cons operation rest ih =>
    cases kind : operation.isAssume with
    | true =>
      have unchanged := (tasks_assume kind).trans same
      simpa [answers, kind, run] using ih unchanged
    | false =>
      obtain ⟨answered, grown⟩ := perform_congr same operation
      simpa [answers, kind, run, answered] using ih grown

theorem run_reordered (draft : Draft)
    (same : others.filter (!·.isAssume) = operations.filter (!·.isAssume)) :
    (draft.run others).catalog.tasks = (draft.run operations).catalog.tasks ∧
      (draft.answers others).filter (!·.1.isAssume) = (draft.answers operations).filter (!·.1.isAssume) := by
  have itself : draft.catalog.tasks = draft.catalog.tasks := rfl
  obtain ⟨tasks, answered⟩ := run_without_assumes itself operations
  obtain ⟨tasks', answered'⟩ := run_without_assumes itself others
  rw [same] at tasks' answered'
  exact ⟨tasks'.trans tasks.symm, answered'.trans answered.symm⟩

theorem operations_only_grow (draft : Draft) (operations : List Operation) :
    let after := draft.run operations
    (after.catalog.names.Nodup ∧ ∀ name task, after.catalog.find? name = some task ↔
      task ∈ after.catalog.tasks ∧ task.name = name) ∧
    (draft.catalog.tasks <+: after.catalog.tasks ∧
      ∀ operation : Operation, after.catalog.tasks <+: (operation.perform after).2.catalog.tasks) ∧
    (∀ task error, ((Operation.register task).perform after).1 = .error error →
      ((Operation.register task).perform after).2 = after) ∧
    (after.catalog.assumed.toList =
        (draft.catalog.assumed.toList ++ operations.flatMap Operation.provided).eraseDups ∧
      after.catalog.assumed.toList.Nodup ∧
      ∀ operation : Operation,
        after.catalog.assumed.toList <+: (operation.perform after).2.catalog.assumed.toList) ∧
    (∀ others : List Operation, others.filter (!·.isAssume) = operations.filter (!·.isAssume) →
      (draft.run others).catalog.tasks = after.catalog.tasks ∧
      (draft.answers others).filter (!·.1.isAssume) = (draft.answers operations).filter (!·.1.isAssume)) := by
  intro after
  refine ⟨⟨after.catalog.names_nodup, fun _ _ => Catalog.find?_eq_some_iff⟩,
    ⟨run_tasks draft operations, tasks_perform after⟩, fun _ _ => perform_failed, ⟨?_, ?_, ?_⟩, ?_⟩
  · rw [run_assumed, NameSet.toList_insertAll]
  · exact after.catalog.assumed.nodup_toList
  · intro operation
    rw [assumed_perform]
    exact NameSet.prefix_insertAll _ _
  · intro others same
    exact run_reordered draft same

def mixed : List Operation :=
  [.register ⟨"lib-dos", ["cc"]⟩, .assume "cc",
    .family { name := "lib", needs := [], targets := ["win", "dos", "mac"], exclude := [], targetNeeds := [] },
    .assume "ghost", .assume "cc", .reopen]

theorem mixed_only_grow :
    ((Operation.register ⟨"lib-dos", []⟩).perform (empty.run mixed)).1 =
        .error (.fault (.duplicate "lib-dos")) ∧
      ((Operation.register ⟨"lib-dos", []⟩).perform (empty.run mixed)).2 = empty.run mixed ∧
      (empty.run mixed).catalog.tasks = [⟨"lib-dos", ["cc"]⟩, ⟨"lib-win", []⟩] ∧
      (empty.run mixed).catalog.assumed.toList = ["cc", "ghost"] ∧
      (empty.run (.assume "z" :: mixed.filter (!·.isAssume))).catalog.tasks = (empty.run mixed).catalog.tasks := by
  obtain ⟨_, _, failing, ⟨assumed, _⟩, reordered⟩ := operations_only_grow empty mixed
  have taken : ((Operation.register ⟨"lib-dos", []⟩).perform (empty.run mixed)).1 =
      .error (.fault (.duplicate "lib-dos")) := by rfl
  exact ⟨taken, failing _ _ taken, by rfl, assumed.trans (by rfl), (reordered _ (by rfl)).1⟩

end BuildPlan.Draft
