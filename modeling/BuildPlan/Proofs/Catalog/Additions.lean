import BuildPlan.Proofs.Catalog.Needs

namespace BuildPlan

inductive Addition where
  | task (task : Task)
  | provided (name : Name)
  deriving DecidableEq, Repr

namespace Addition

def task? : Addition → Option Task
  | .task one => some one
  | .provided _ => none

def provided? : Addition → Option Name
  | .task _ => none
  | .provided name => some name

def name : Addition → Name
  | .task one => one.name
  | .provided name => name

end Addition

namespace Catalog

-- A task whose name is taken is refused, and changes nothing.
def enter (c : Catalog) : Addition → Catalog
  | .task task =>
    match c.register task with
    | .ok after => after
    | .error _ => c
  | .provided name => c.assume name

def ofAdditions (additions : List Addition) : Catalog := additions.foldl enter .empty

def tasksOf (additions : List Addition) : List Task := additions.filterMap Addition.task?

def providedOf (additions : List Addition) : List Name := additions.filterMap Addition.provided?

def made (tasks : List Task) (assumed : List Name) : Catalog :=
  ofAdditions (tasks.map .task ++ assumed.map .provided)

variable {c : Catalog} {task : Task} {tasks : List Task} {name : Name} {assumed : List Name}
  {additions : List Addition}

theorem mem_tasksOf_iff : task ∈ tasksOf additions ↔ .task task ∈ additions := by
  rw [tasksOf, List.mem_filterMap]
  constructor
  · rintro ⟨addition, member, same⟩
    cases addition with
    | task => cases same; exact member
    | provided => cases same
  · intro member
    exact ⟨_, member, rfl⟩

theorem mem_providedOf_iff : name ∈ providedOf additions ↔ .provided name ∈ additions := by
  rw [providedOf, List.mem_filterMap]
  constructor
  · rintro ⟨addition, member, same⟩
    cases addition with
    | task => cases same
    | provided => cases same; exact member
  · intro member
    exact ⟨_, member, rfl⟩

theorem enter_task (free : task.name ∉ c.names) :
    (c.enter (.task task)).tasks = c.tasks ++ [task] ∧ (c.enter (.task task)).assumed = c.assumed := by
  cases made : c.register task with
  | ok after => simpa [enter, made] using tasks_register made
  | error fault => exact absurd (register_eq_error_iff.mp made).1 free

theorem tasks_foldl_enter (distinct : (c.names ++ (tasksOf additions).map Task.name).Nodup) :
    (additions.foldl enter c).tasks = c.tasks ++ tasksOf additions := by
  induction additions generalizing c with
  | nil => simp [tasksOf]
  | cons addition rest ih =>
    cases addition with
    | provided name => exact ih distinct
    | task task =>
      have apart : (c.names ++ task.name :: (tasksOf rest).map Task.name).Nodup := distinct
      have free : task.name ∉ c.names :=
        fun known => (List.nodup_append.mp apart).2.2 _ known _ (List.mem_cons_self ..) rfl
      have grown := (enter_task free).1
      have further : ((c.enter (.task task)).names ++ (tasksOf rest).map Task.name).Nodup := by
        simpa [names, grown] using apart
      rw [List.foldl_cons, ih further, grown]
      simp [tasksOf, Addition.task?]

theorem mem_assumed_foldl_enter : name ∈ (additions.foldl enter c).assumed ↔
    name ∈ c.assumed ∨ name ∈ providedOf additions := by
  induction additions generalizing c with
  | nil => simp [providedOf]
  | cons addition rest ih =>
    rw [List.foldl_cons, ih]
    cases addition with
    | provided other => simp [enter, providedOf, Addition.provided?, or_assoc]
    | task task =>
      cases made : c.register task with
      | ok after => simp [enter, made, (tasks_register made).2, providedOf, Addition.provided?]
      | error fault => simp [enter, made, providedOf, Addition.provided?]

theorem tasks_ofAdditions (distinct : ((tasksOf additions).map Task.name).Nodup) :
    (ofAdditions additions).tasks = tasksOf additions := tasks_foldl_enter distinct

theorem isAssumed_ofAdditions : (ofAdditions additions).isAssumed name = true ↔ name ∈ providedOf additions := by
  rw [isAssumed_iff, ofAdditions, mem_assumed_foldl_enter, assumed_empty]
  exact or_iff_right List.not_mem_nil

theorem tasks_made (distinct : (tasks.map Task.name).Nodup) : (made tasks assumed).tasks = tasks := by
  have listed : tasksOf (tasks.map .task ++ assumed.map .provided) = tasks := by
    simp [tasksOf, List.filterMap_map, Addition.task?, Function.comp_def]
  rw [made, tasks_ofAdditions (listed.symm ▸ distinct), listed]

theorem isAssumed_made : (made tasks assumed).isAssumed name = true ↔ name ∈ assumed := by
  rw [made, isAssumed_ofAdditions]
  simp [providedOf, List.filterMap_map, Addition.provided?, Function.comp_def]

end Catalog
end BuildPlan
