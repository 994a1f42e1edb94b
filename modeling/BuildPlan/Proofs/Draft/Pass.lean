import BuildPlan.Draft

namespace BuildPlan

inductive Request where
  | task (task : Task)
  | refusal (error : LoadError)
  deriving DecidableEq, Repr

inductive Request.Offends (taken : List Name) : Request → LoadError → Prop where
  | refused (error : LoadError) : Offends taken (.refusal error) error
  | duplicate {task : Task} : task.name ∈ taken → Offends taken (.task task) (.fault (.duplicate task.name))

namespace Catalog

def pass (c : Catalog) : List Request → Except LoadError Unit × Catalog
  | [] => (.ok (), c)
  | .refusal error :: _ => (.error error, c)
  | .task task :: rest =>
    match c.register task with
    | .ok after => after.pass rest
    | .error fault => (.error (.fault fault), c)

variable {c d : Catalog} {requests later : List Request} {task : Task} {tasks done : List Task}
  {error : LoadError}

theorem register_taken (taken : task.name ∈ c.names) : c.register task = .error (.duplicate task.name) :=
  register_eq_error_iff.mpr ⟨taken, rfl⟩

theorem register_free (free : task.name ∉ c.names) : ∃ after, c.register task = .ok after ∧
    after.tasks = c.tasks ++ [task] ∧ after.assumed = c.assumed := by
  cases made : c.register task with
  | ok after => exact ⟨after, rfl, tasks_register made⟩
  | error fault => exact absurd (register_eq_error_iff.mp made).1 free

theorem names_of_tasks_append (same : d.tasks = c.tasks ++ tasks) :
    d.names = c.names ++ tasks.map Task.name := by
  rw [names, same, List.map_append, names]

theorem pass_append_ok (ended : (c.pass requests).1 = .ok ()) :
    c.pass (requests ++ later) = (c.pass requests).2.pass later := by
  induction requests generalizing c with
  | nil => rfl
  | cons request rest ih =>
    cases request with
    | refusal error => cases ended
    | task task =>
      rw [List.cons_append, pass, pass]
      rw [pass] at ended
      cases made : c.register task with
      | error fault => rw [made] at ended; cases ended
      | ok after => rw [made] at ended; exact ih ended

theorem pass_append_error (ended : (c.pass requests).1 = .error error) :
    c.pass (requests ++ later) = c.pass requests := by
  induction requests generalizing c with
  | nil => cases ended
  | cons request rest ih =>
    cases request with
    | refusal error => rfl
    | task task =>
      rw [List.cons_append, pass, pass]
      rw [pass] at ended
      cases made : c.register task with
      | error fault => rfl
      | ok after => rw [made] at ended; exact ih ended

theorem assumed_pass (c : Catalog) (requests : List Request) : (c.pass requests).2.assumed = c.assumed := by
  induction requests generalizing c with
  | nil => rfl
  | cons request rest ih =>
    cases request with
    | refusal error => rfl
    | task task =>
      rw [pass]
      cases made : c.register task with
      | error fault => rfl
      | ok after => exact (ih after).trans (tasks_register made).2

theorem pass_tasks (distinct : (c.names ++ tasks.map Task.name).Nodup) :
    (c.pass (tasks.map .task)).1 = .ok () ∧ (c.pass (tasks.map .task)).2.tasks = c.tasks ++ tasks := by
  induction tasks generalizing c with
  | nil => simp [pass]
  | cons task rest ih =>
    have free : task.name ∉ c.names :=
      fun known => (List.nodup_append.mp distinct).2.2 _ known _ (List.mem_cons_self ..) rfl
    obtain ⟨after, made, grown, _⟩ := register_free free
    have further : (after.names ++ rest.map Task.name).Nodup := by
      rw [names_of_tasks_append grown]
      simpa using distinct
    obtain ⟨ended, registered⟩ := ih further
    rw [List.map_cons, pass, made]
    exact ⟨ended, by rw [registered, grown, List.append_assoc, List.singleton_append]⟩

theorem pass_offence {request : Request} (offends : request.Offends c.names error) (later : List Request) :
    c.pass (request :: later) = (.error error, c) := by
  cases offends with
  | refused => rfl
  | duplicate taken => rw [pass, register_taken taken]

structure StopsAt (c : Catalog) (requests : List Request) (done : List Task) (error : LoadError) : Prop where
  split : ∃ request later, requests = done.map .task ++ request :: later ∧
    request.Offends (c.names ++ done.map Task.name) error
  distinct : (c.names ++ done.map Task.name).Nodup

theorem StopsAt.pass (stops : c.StopsAt requests done error) :
    (c.pass requests).1 = .error error ∧ (c.pass requests).2.tasks = c.tasks ++ done := by
  obtain ⟨⟨request, later, rfl, offends⟩, distinct⟩ := stops
  obtain ⟨ended, registered⟩ := pass_tasks distinct
  rw [← names_of_tasks_append registered] at offends
  rw [pass_append_ok ended, pass_offence offends]
  exact ⟨rfl, registered⟩

-- By induction on the requests: each is met, or it is the first offence.
theorem pass_ends (c : Catalog) (requests : List Request) :
    (∃ tasks : List Task, requests = tasks.map .task ∧ (c.names ++ tasks.map Task.name).Nodup) ∨
    ∃ done error, c.StopsAt requests done error := by
  induction requests generalizing c with
  | nil => exact .inl ⟨[], rfl, by simpa using c.names_nodup⟩
  | cons request rest ih =>
    have nothing : (c.names ++ [].map Task.name).Nodup := by simpa using c.names_nodup
    have at_once : ∀ error, request.Offends c.names error → c.StopsAt (request :: rest) [] error :=
      fun error offends => ⟨⟨request, rest, rfl, by simpa using offends⟩, nothing⟩
    cases request with
    | refusal error => exact .inr ⟨[], error, at_once error (.refused error)⟩
    | task task =>
      by_cases taken : task.name ∈ c.names
      · exact .inr ⟨[], _, at_once _ (.duplicate taken)⟩
      · obtain ⟨after, _, grown, _⟩ := register_free taken
        have names := names_of_tasks_append grown
        rcases ih after with ⟨tasks, rfl, distinct⟩ | ⟨done, error, ⟨request, later, rfl, offends⟩, distinct⟩
        · rw [names, List.append_assoc] at distinct
          exact .inl ⟨task :: tasks, rfl, distinct⟩
        · rw [names, List.append_assoc] at distinct offends
          exact .inr ⟨task :: done, error, ⟨request, later, rfl, offends⟩, distinct⟩

theorem pass_ok_iff : (c.pass requests).1 = .ok () ↔
    ∃ tasks : List Task, requests = tasks.map .task ∧ (c.names ++ tasks.map Task.name).Nodup := by
  constructor
  · intro ended
    rcases c.pass_ends requests with good | ⟨done, error, stops⟩
    · exact good
    · rw [stops.pass.1] at ended
      cases ended
  · rintro ⟨tasks, rfl, distinct⟩
    exact (pass_tasks distinct).1

theorem pass_error_iff : (c.pass requests).1 = .error error ↔ ∃ done, c.StopsAt requests done error := by
  constructor
  · intro failed
    rcases c.pass_ends requests with ⟨tasks, rfl, distinct⟩ | ⟨done, other, stops⟩
    · rw [(pass_tasks distinct).1] at failed
      cases failed
    · rw [stops.pass.1] at failed
      cases failed
      exact ⟨done, stops⟩
  · rintro ⟨done, stops⟩
    exact stops.pass.1

theorem tasks_prefix_pass (c : Catalog) (requests : List Request) :
    c.tasks <+: (c.pass requests).2.tasks := by
  rcases c.pass_ends requests with ⟨tasks, rfl, distinct⟩ | ⟨done, error, stops⟩
  · exact ⟨tasks, (pass_tasks distinct).2.symm⟩
  · exact ⟨done, stops.pass.2.symm⟩

theorem StopsAt.congr (same : c.tasks = d.tasks) (stops : c.StopsAt requests done error) :
    d.StopsAt requests done error := by
  have names : d.names = c.names := by rw [Catalog.names, ← same, Catalog.names]
  exact ⟨names ▸ stops.split, names ▸ stops.distinct⟩

theorem pass_congr (same : c.tasks = d.tasks) (requests : List Request) :
    (c.pass requests).1 = (d.pass requests).1 ∧ (c.pass requests).2.tasks = (d.pass requests).2.tasks := by
  have names : c.names = d.names := by rw [Catalog.names, same, Catalog.names]
  rcases c.pass_ends requests with ⟨tasks, rfl, distinct⟩ | ⟨done, error, stops⟩
  · obtain ⟨ended, registered⟩ := pass_tasks distinct
    obtain ⟨ended', registered'⟩ := pass_tasks (names ▸ distinct)
    exact ⟨ended.trans ended'.symm, by rw [registered, registered', same]⟩
  · have stops' := stops.congr same
    exact ⟨stops.pass.1.trans stops'.pass.1.symm, by rw [stops.pass.2, stops'.pass.2, same]⟩

end Catalog

theorem Draft.run_register (draft : Draft) (task : Task) : (Draft.register task).run.run draft =
    match draft.catalog.register task with
    | .error fault => (.error (.fault fault), draft)
    | .ok after => (.ok (), ⟨after, draft.events.push (.registering task.name task.needs)⟩) := by
  have opened : (Draft.register task).run.run draft =
      (match draft.catalog.register task with
        | .error fault => (throw (LoadError.fault fault) : Drafting Unit)
        | .ok after => set (Draft.mk after (draft.events.push (.registering task.name task.needs)))).run.run draft :=
    rfl
  rw [opened]
  cases draft.catalog.register task <;> rfl

theorem Drafting.run_seq (act : Drafting Unit) (next : Drafting α) (draft : Draft) :
    (do act; next).run.run draft =
      match act.run.run draft with
      | (.ok (), after) => next.run.run after
      | (.error error, after) => (.error error, after) := by
  have opened : (do act; next).run.run draft =
      (ExceptT.bindCont (fun _ => next) (act.run.run draft).1).run (act.run.run draft).2 := rfl
  rw [opened]
  rcases act.run.run draft with ⟨_ | _, after⟩ <;> rfl

-- Whatever draft it starts from, the operation does to the catalog what the requests do.
def Drafting.Passes (act : Drafting Unit) (requests : List Request) : Prop :=
  ∀ draft : Draft, ((act.run.run draft).1, (act.run.run draft).2.catalog) = draft.catalog.pass requests

namespace Drafting.Passes

variable {act next : Drafting Unit} {requests later : List Request}

theorem nothing : Passes (pure ()) [] := fun _ => rfl

theorem record (event : Event) : Passes (Draft.record event) [] := fun _ => rfl

theorem fail (error : LoadError) : Passes (throw error) [.refusal error] := fun _ => rfl

theorem register (task : Task) : Passes (Draft.register task) [.task task] := by
  intro draft
  rw [Draft.run_register, Catalog.pass]
  cases draft.catalog.register task <;> rfl

-- What the first operation fails with ends both; otherwise the second goes on where the first ended.
theorem andThen (first : Passes act requests) (second : Passes next later) :
    Passes (do act; next) (requests ++ later) := by
  intro draft
  have before := first draft
  rw [Drafting.run_seq]
  cases made : act.run.run draft with
  | mk answer after =>
    rw [made] at before
    cases answer with
    | ok =>
      have ended : (draft.catalog.pass requests).1 = .ok () := by rw [← before]
      rw [Catalog.pass_append_ok ended, ← before]
      exact second after
    | error error =>
      have ended : (draft.catalog.pass requests).1 = .error error := by rw [← before]
      rw [Catalog.pass_append_error ended, ← before]

theorem forM {xs : List α} {act : α → Drafting Unit} {requests : α → List Request}
    (each : ∀ x ∈ xs, Passes (act x) (requests x)) : Passes (xs.forM act) (xs.flatMap requests) := by
  induction xs with
  | nil => exact nothing
  | cons x rest ih =>
    rw [List.forM_eq_forM, List.forM_cons, List.flatMap_cons]
    exact (each x (List.mem_cons_self ..)).andThen (ih fun y member => each y (List.mem_cons_of_mem x member))

theorem family (f : Family) : Passes (Draft.registerFamily f) (f.variants.map .task) := by
  rw [List.map_eq_flatMap]
  exact forM fun task _ => (record (.registeringVariant f.name task.name)).andThen (register task)

end Drafting.Passes
end BuildPlan
