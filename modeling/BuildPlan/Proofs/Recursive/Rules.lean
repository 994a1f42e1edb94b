import BuildPlan.Proofs.Catalog.Needs

namespace BuildPlan.Recursive

-- The walk below a root once more, by recursion: `path` are the open tasks, outermost first, and `done` the
-- closed ones, oldest first.
def room (c : Catalog) (path : List Name) : Nat := c.names.countP fun name => name ∉ path

theorem room_lt {c : Catalog} {path : List Name} {name : Name} (known : name ∈ c.names)
    (closed : name ∉ path) : room c (path ++ [name]) < room c path := by
  unfold room
  generalize c.names = names at known
  induction names with
  | nil => cases known
  | cons head rest ih =>
    have shrinks : (rest.countP fun other => other ∉ path ++ [name]) ≤
        rest.countP fun other => other ∉ path :=
      List.countP_mono_left (by simp_all)
    rw [List.countP_cons, List.countP_cons]
    by_cases same : head = name
    · subst same
      simp only [List.mem_append, List.mem_singleton, or_true, not_true_eq_false, decide_false,
        closed, not_false_eq_true, decide_true, if_true] at *
      simp only [Bool.false_eq_true, if_false]
      omega
    · have later := ih ((List.mem_cons.mp known).resolve_left (fun equal => same equal.symm))
      by_cases opened : head ∈ path
      · simpa [opened, same] using later
      · simpa [opened, same] using later

mutual
def visit (c : Catalog) (path done : List Name) (name : Name) : Except Fault Unit × List Name :=
  if c.isAssumed name then (.ok (), done)
  else if name ∈ done then (.ok (), done)
  else if _ : name ∈ path then (.error (.circular path name), done)
  else match _ : c.find? name with
    | none => (.error (.unknown name path), done)
    | some task =>
      match visitEach c (path ++ [name]) done task.needs with
      | (.ok (), done) => (.ok (), done ++ [name])
      | failed => failed
termination_by (room c path, 0)
decreasing_by
  apply Prod.Lex.left
  apply room_lt _ ‹name ∉ path›
  exact Catalog.contains_iff.mp (by simp [Catalog.contains, ‹c.find? name = some task›])

-- The needs of the innermost open task, in declared order, up to the first that fails.
def visitEach (c : Catalog) (path done : List Name) : List Name → Except Fault Unit × List Name
  | [] => (.ok (), done)
  | need :: rest =>
    if need ∈ done then visitEach c path done rest
    else match visit c path done need with
      | (.ok (), done) => visitEach c path done rest
      | failed => failed
termination_by needs => (room c path, needs.length + 1)
decreasing_by
  all_goals
    apply Prod.Lex.right
    simp
end

-- Looking at `names` below the open tasks `path` when `done` is closed gives the answer, and closes
-- tasks up to `after`.
inductive Visits (c : Catalog) : (path done names : List Name) → Except Fault Unit →
    (after : List Name) → Prop where
  | nothing {path done : List Name} : Visits c path done [] (.ok ()) done
  | settled {path done rest after : List Name} {name : Name} {answer : Except Fault Unit} :
      c.Settled done name → Visits c path done rest answer after →
      Visits c path done (name :: rest) answer after
  | circular {path done rest : List Name} {name : Name} : ¬ c.Settled done name → name ∈ path →
      Visits c path done (name :: rest) (.error (.circular path name)) done
  | unknown {path done rest : List Name} {name : Name} : ¬ c.Settled done name → name ∉ path →
      name ∉ c.names → Visits c path done (name :: rest) (.error (.unknown name path)) done
  | closed {path done rest middle after : List Name} {task : Task} {answer : Except Fault Unit} :
      c.taskOf task.name = some task → task.name ∉ done → task.name ∉ path →
      Visits c (path ++ [task.name]) done task.needs (.ok ()) middle →
      Visits c path (middle ++ [task.name]) rest answer after →
      Visits c path done (task.name :: rest) answer after
  | failed {path done rest after : List Name} {task : Task} {fault : Fault} :
      c.taskOf task.name = some task → task.name ∉ done → task.name ∉ path →
      Visits c (path ++ [task.name]) done task.needs (.error fault) after →
      Visits c path done (task.name :: rest) (.error fault) after

variable {c : Catalog} {path done names rest after : List Name} {name : Name}
  {answer : Except Fault Unit} {fault : Fault}

namespace Visits

theorem error_append (failed : Visits c path done names (.error fault) after) (rest : List Name) :
    Visits c path done (names ++ rest) (.error fault) after := by
  generalize same : (.error fault : Except Fault Unit) = answer at failed
  induction failed with
  | nothing => cases same
  | settled member _ ih => exact .settled member (ih same)
  | circular fresh opened => exact .circular fresh opened
  | unknown fresh unopened missing => exact .unknown fresh unopened missing
  | closed found fresh unopened below _ _ ih => exact .closed found fresh unopened below (ih same)
  | failed found fresh unopened below _ => exact .failed found fresh unopened below

theorem append {middle : List Name} (first : Visits c path done names (.ok ()) middle)
    (second : Visits c path middle rest answer after) :
    Visits c path done (names ++ rest) answer after := by
  generalize same : (.ok () : Except Fault Unit) = first_answer at first
  induction first with
  | nothing => exact second
  | settled member _ ih => exact .settled member (ih second same)
  | circular => cases same
  | unknown => cases same
  | closed found fresh unopened below _ _ ih =>
    exact .closed found fresh unopened below (ih second same)
  | failed => cases same

end Visits

theorem not_settled (built : ¬ c.isAssumed name = true) (fresh : name ∉ done) :
    ¬ c.Settled done name := fun settled => settled.elim built fresh

theorem taskOf_of_find {task : Task} (built : ¬ c.isAssumed name = true)
    (found : c.find? name = some task) : c.taskOf task.name = some task ∧ task.name = name := by
  obtain ⟨known, rfl⟩ := Catalog.find?_eq_some_iff.mp found
  exact ⟨Catalog.taskOf_eq_some_iff.mpr ⟨Bool.eq_false_iff.mpr built, found⟩, rfl⟩

theorem failed_of_not_ok {result : Except Fault Unit × List Name}
    (failed : ∀ after, result = (.ok (), after) → False) :
    ∃ fault after, result = (.error fault, after) := by
  obtain ⟨answer, after⟩ := result
  cases answer with
  | ok => exact (failed after rfl).elim
  | error fault => exact ⟨fault, after, rfl⟩

theorem visits_sound (c : Catalog) :
    (∀ path done name, Visits c path done [name] (visit c path done name).1
      (visit c path done name).2) ∧
    (∀ path done needs, Visits c path done needs (visitEach c path done needs).1
      (visitEach c path done needs).2) := by
  refine visit.mutual_induct_unfolding c
    (fun path done name result => Visits c path done [name] result.1 result.2)
    (fun path done needs result => Visits c path done needs result.1 result.2)
    ?assumed ?known ?opened ?missing ?closed ?failed ?nothing ?pass ?next ?stop
  case assumed => exact fun path done name provided => .settled (.inl provided) .nothing
  case known => exact fun path done name _ member => .settled (.inr member) .nothing
  case opened =>
    intro path done name built fresh opened
    exact .circular (not_settled built fresh) opened
  case missing =>
    intro path done name built fresh unopened missing
    exact .unknown (not_settled built fresh) unopened (Catalog.find?_eq_none_iff.mp missing)
  case closed =>
    intro path done name built fresh unopened task found after same below
    obtain ⟨known, rfl⟩ := taskOf_of_find built found
    rw [same] at below
    exact .closed known fresh unopened below .nothing
  case failed =>
    intro path done name built fresh unopened task found failed below
    obtain ⟨known, rfl⟩ := taskOf_of_find built found
    obtain ⟨fault, after, same⟩ := failed_of_not_ok failed
    rw [same] at below ⊢
    exact .failed known fresh unopened below
  case nothing => exact fun path done => .nothing
  case pass => exact fun path done need rest member below => .settled (.inr member) below
  case next =>
    intro path done need rest _ after same first second
    rw [same] at first
    exact first.append second
  case stop =>
    intro path done need rest _ failed first
    obtain ⟨fault, after, same⟩ := failed_of_not_ok failed
    rw [same] at first ⊢
    exact first.error_append rest

theorem visit_visits (c : Catalog) (path done : List Name) (name : Name) :
    Visits c path done [name] (visit c path done name).1 (visit c path done name).2 :=
  (visits_sound c).1 path done name

end BuildPlan.Recursive
