import BuildPlan.Proofs.Recursive.Rules

namespace BuildPlan.Recursive

-- Every open task needs, directly or not, each of the names.
def Leads (c : Catalog) (path names : List Name) : Prop :=
  ∀ opened ∈ path, ∀ name ∈ names, c.ReachesStrictly opened name

variable {c : Catalog} {path done names rest after known : List Name} {name : Name} {task : Task}
  {answer : Except Fault Unit}

namespace Leads

theorem tail (leads : Leads c path (name :: rest)) : Leads c path rest :=
  fun opened member other later => leads opened member other (List.mem_cons_of_mem _ later)

theorem below (leads : Leads c path (task.name :: rest)) (found : c.taskOf task.name = some task) :
    Leads c (path ++ [task.name]) task.needs := by
  intro opened member need declared
  have needs : c.Needs task.name need := ⟨task, found, declared⟩
  rcases List.mem_append.mp member with outer | innermost
  · obtain ⟨first, first_needs, down⟩ := leads opened outer task.name (List.mem_cons_self ..)
    exact ⟨first, first_needs, down.need needs⟩
  · cases List.mem_singleton.mp innermost
    exact ⟨need, needs, .refl need⟩

theorem onCycle (leads : Leads c path (name :: rest)) (opened : name ∈ path) : c.OnCycle name :=
  leads name opened name (List.mem_cons_self ..)

end Leads

def Apart (path done : List Name) : Prop := ∀ opened ∈ path, opened ∉ done

theorem Apart.below (apart : Apart path done) (fresh : name ∉ done) : Apart (path ++ [name]) done := by
  intro opened member
  rcases List.mem_append.mp member with outer | innermost
  · exact apart opened outer
  · exact List.mem_singleton.mp innermost ▸ fresh

theorem Apart.close (apart : Apart (path ++ [name]) done) (unopened : name ∉ path) :
    name ∉ done ∧ Apart path (done ++ [name]) := by
  refine ⟨apart name (by simp), ?_⟩
  intro opened member added
  rcases List.mem_append.mp added with old | new
  · exact apart opened (List.mem_append_left _ member) old
  · exact unopened (List.mem_singleton.mp new ▸ member)

def Below (c : Catalog) (names : List Name) (other : Name) : Prop :=
  c.isAssumed other = false ∧ ∃ name ∈ names, c.Reaches name other

theorem Below.later {other : Name} (below : Below c rest other) : Below c (name :: rest) other := by
  obtain ⟨built, first, asked, way⟩ := below
  exact ⟨built, first, List.mem_cons_of_mem _ asked, way⟩

theorem Below.of_needs {other : Name} (below : Below c task.needs other)
    (found : c.taskOf task.name = some task) : Below c (task.name :: rest) other := by
  obtain ⟨built, need, declared, way⟩ := below
  exact ⟨built, task.name, List.mem_cons_self .., .step ⟨task, found, declared⟩ way⟩

namespace Visits

theorem apart (visits : Visits c path done names answer after) (outside : Apart path done) :
    Apart path after := by
  induction visits with
  | nothing => exact outside
  | settled _ _ ih => exact ih outside
  | circular => exact outside
  | unknown => exact outside
  | closed found fresh unopened _ _ below_ih later_ih =>
    exact later_ih ((below_ih (outside.below fresh)).close unopened).2
  | failed found fresh _ _ ih =>
    exact fun opened member => ih (outside.below fresh) opened (List.mem_append_left _ member)

-- Only tasks that the names reach are closed, and none that was closed before is touched.
theorem grown (visits : Visits c path done names answer after) :
    ∃ grown, after = done ++ grown ∧ ∀ other ∈ grown, Below c names other := by
  induction visits with
  | nothing => exact ⟨[], (List.append_nil _).symm, by simp⟩
  | settled _ _ ih =>
    obtain ⟨grown, split, reached⟩ := ih
    exact ⟨grown, split, fun other member => (reached other member).later⟩
  | circular => exact ⟨[], (List.append_nil _).symm, by simp⟩
  | unknown => exact ⟨[], (List.append_nil _).symm, by simp⟩
  | @closed path done rest middle after task answer found fresh unopened below later below_ih later_ih =>
    obtain ⟨inner, inner_split, inner_reached⟩ := below_ih
    obtain ⟨outer, outer_split, outer_reached⟩ := later_ih
    refine ⟨inner ++ task.name :: outer, by simp [inner_split, outer_split], ?_⟩
    intro other member
    rcases List.mem_append.mp member with inside | member
    · exact (inner_reached other inside).of_needs found
    rcases List.mem_cons.mp member with rfl | later
    · exact ⟨(Catalog.taskOf_registered found).2.2, task.name, List.mem_cons_self .., .refl _⟩
    · exact (outer_reached other later).later
  | @failed path done rest after task fault found fresh unopened below ih =>
    obtain ⟨inner, split, reached⟩ := ih
    exact ⟨inner, split, fun other member => (reached other member).of_needs found⟩

-- Names that can all be built never fail, whatever is open above them.
theorem ok_of_buildable (visits : Visits c path done names answer after)
    (leads : Leads c path names) (buildable : ∀ name ∈ names, c.Buildable name) :
    answer = .ok () := by
  induction visits with
  | nothing => rfl
  | settled _ _ ih => exact ih leads.tail fun name later => buildable name (List.mem_cons_of_mem _ later)
  | circular _ opened =>
    exact absurd (leads.onCycle opened) (buildable _ (List.mem_cons_self ..)).not_onCycle
  | unknown fresh _ missing =>
    have built : c.isAssumed _ = false := Bool.eq_false_iff.mpr fun provided => fresh (.inl provided)
    exact absurd ((buildable _ (List.mem_cons_self ..)).registered built) missing
  | closed _ _ _ _ _ _ ih =>
    exact ih leads.tail fun name later => buildable name (List.mem_cons_of_mem _ later)
  | failed found _ _ _ ih =>
    refine ih (leads.below found) ?_
    intro need declared
    exact (buildable _ (List.mem_cons_self ..)).need ⟨_, found, declared⟩

end Visits

theorem filter_append_within (done : List Name) {grown : List Name}
    (inside : ∀ other ∈ grown, other ∈ known) :
    (done ++ grown).filter (· ∉ known) = done.filter (· ∉ known) := by
  have nothing : grown.filter (· ∉ known) = [] := by simpa using inside
  rw [List.filter_append, nothing, List.append_nil]

theorem settled_filter_iff (known done : List Name) (name : Name) :
    c.Settled (known ++ done.filter (· ∉ known)) name ↔ name ∈ known ∨ c.Settled done name := by
  by_cases member : name ∈ known <;> simp [Catalog.Settled, member]

-- A task of a valid order closes nothing that does not stand in the order too.
theorem Visits.within (valid : c.ValidOrder known) (found : c.taskOf task.name = some task)
    (visits : Visits c path done task.needs answer after) (member : task.name ∈ known) :
    (after ++ [task.name]).filter (· ∉ known) = done.filter (· ∉ known) := by
  obtain ⟨grown, split, reached⟩ := visits.grown
  rw [split, List.append_assoc]
  refine filter_append_within done ?_
  intro other added
  rcases List.mem_append.mp added with inner | last
  · obtain ⟨built, need, declared, way⟩ := reached other inner
    have down : c.Reaches task.name other := .step ⟨task, found, declared⟩ way
    rcases valid.settled_reaches down (.inr member) with provided | there
    · rw [built] at provided; cases provided
    · exact there
  · exact List.mem_singleton.mp last ▸ member

-- By induction on the walk that begins without the order: a name that stands in it is passed over by
-- the other walk, and closes nothing new in this one; any other name takes the same rule in both.
theorem Visits.beside (valid : c.ValidOrder known) (visits : Visits c path done names answer after)
    (leads : Leads c path names) :
    Visits c path (known ++ done.filter (· ∉ known)) names answer
      (known ++ after.filter (· ∉ known)) := by
  induction visits with
  | nothing => exact .nothing
  | settled settled _ ih =>
    exact .settled ((settled_filter_iff known _ _).mpr (.inr settled)) (ih leads.tail)
  | circular fresh opened =>
    refine .circular ?_ opened
    rw [settled_filter_iff]
    rintro (member | settled)
    · exact (valid.buildable (.inr member)).not_onCycle (leads.onCycle opened)
    · exact fresh settled
  | unknown fresh unopened missing =>
    refine .unknown ?_ unopened missing
    rw [settled_filter_iff]
    rintro (member | settled)
    · exact missing (valid.built _ member).1
    · exact fresh settled
  | @closed path done rest middle after task answer found fresh unopened below later below_ih later_ih =>
    by_cases member : task.name ∈ known
    · have later := later_ih leads.tail
      rw [below.within valid found member] at later
      exact .settled ((settled_filter_iff known done _).mpr (.inl member)) later
    · have nothing : task.name ∉ known ++ done.filter (· ∉ known) := by simp [member, fresh]
      have last : (middle ++ [task.name]).filter (· ∉ known) =
          middle.filter (· ∉ known) ++ [task.name] := by simp [member]
      have later := later_ih leads.tail
      rw [last, ← List.append_assoc] at later
      exact .closed found nothing unopened (below_ih (leads.below found)) later
  | @failed path done rest after task fault found fresh unopened below ih =>
    have member : task.name ∉ known := by
      intro member
      have buildable := valid.buildable (.inr member)
      have fine := below.ok_of_buildable (leads.below found) fun need declared =>
        buildable.need ⟨task, found, declared⟩
      cases fine
    have nothing : task.name ∉ known ++ done.filter (· ∉ known) := by simp [member, fresh]
    exact .failed found nothing unopened (ih (leads.below found))

end BuildPlan.Recursive
