import BuildPlan.Catalog

namespace BuildPlan.Catalog

-- The task that is built for a name. Nothing is built for a provided name.
def taskOf (c : Catalog) (name : Name) : Option Task := if c.isAssumed name then none else c.find? name

def Needs (c : Catalog) (task need : Name) : Prop := ∃ t, c.taskOf task = some t ∧ need ∈ t.needs

inductive Reaches (c : Catalog) : Name → Name → Prop where
  | refl (name : Name) : Reaches c name name
  | step {task need name : Name} : c.Needs task need → Reaches c need name → Reaches c task name

inductive Buildable (c : Catalog) : Name → Prop where
  | assumed {name : Name} : c.isAssumed name = true → Buildable c name
  | task {task : Task} : c.find? task.name = some task → (∀ need ∈ task.needs, Buildable c need) →
      Buildable c task.name

def ReachesStrictly (c : Catalog) (task name : Name) : Prop :=
  ∃ need, c.Needs task need ∧ c.Reaches need name

def OnCycle (c : Catalog) (name : Name) : Prop := c.ReachesStrictly name name

theorem Reaches.trans {c : Catalog} {x y z : Name} (first : c.Reaches x y) (second : c.Reaches y z) :
    c.Reaches x z := by
  induction first with
  | refl => exact second
  | step need _ ih => exact .step need (ih second)

variable {c : Catalog}

theorem taskOf_eq_some_iff {name : Name} {task : Task} :
    c.taskOf name = some task ↔ c.isAssumed name = false ∧ c.find? name = some task := by
  unfold taskOf
  cases c.isAssumed name <;> simp

theorem taskOf_registered {name : Name} {task : Task} (found : c.taskOf name = some task) :
    task ∈ c.tasks ∧ task.name = name ∧ c.isAssumed name = false := by
  obtain ⟨built, known⟩ := taskOf_eq_some_iff.mp found
  obtain ⟨member, same⟩ := find?_eq_some_iff.mp known
  exact ⟨member, same, built⟩

theorem taskOf_of_mem {task : Task} (member : task ∈ c.tasks) (built : c.isAssumed task.name = false) :
    c.taskOf task.name = some task :=
  taskOf_eq_some_iff.mpr ⟨built, find?_eq_some_iff.mpr ⟨member, rfl⟩⟩

theorem eq_of_name_eq {task other : Task} (known : task ∈ c.tasks) (known' : other ∈ c.tasks)
    (same : task.name = other.name) : task = other := by
  have found : c.find? other.name = some task := find?_eq_some_iff.mpr ⟨known, same⟩
  exact Option.some.inj (found.symm.trans (find?_eq_some_iff.mpr ⟨known', rfl⟩))

theorem taskOf_mem_names {name : Name} {task : Task} (found : c.taskOf name = some task) :
    name ∈ c.names := by
  obtain ⟨member, rfl, _⟩ := taskOf_registered found
  exact List.mem_map_of_mem member

theorem Needs.not_assumed {task need : Name} (needs : c.Needs task need) : c.isAssumed task = false := by
  obtain ⟨t, found, _⟩ := needs
  exact (taskOf_eq_some_iff.mp found).1

theorem Needs.of_split {task need : Name} {t : Task} {earlier later : List Name}
    (found : c.taskOf task = some t) (split : t.needs = earlier ++ need :: later) :
    c.Needs task need := ⟨t, found, by simp [split]⟩

theorem Needs.mem {task need : Name} {t : Task} (needs : c.Needs task need)
    (found : c.taskOf task = some t) : need ∈ t.needs := by
  obtain ⟨other, known, member⟩ := needs
  cases Option.some.inj (known.symm.trans found)
  exact member

theorem Reaches.need {root task need : Name} (path : c.Reaches root task) (needs : c.Needs task need) :
    c.Reaches root need := path.trans (.step needs (.refl need))

theorem Reaches.strictly {root task need : Name} (path : c.Reaches root task)
    (needs : c.Needs task need) : c.ReachesStrictly root need := by
  cases path with
  | refl => exact ⟨need, needs, .refl need⟩
  | step first rest => exact ⟨_, first, rest.need needs⟩

theorem Buildable.registered {name : Name} (buildable : c.Buildable name)
    (built : c.isAssumed name = false) : name ∈ c.names := by
  cases buildable with
  | assumed provided => rw [built] at provided; cases provided
  | task found _ => exact List.mem_map_of_mem (find?_eq_some_iff.mp found).1

theorem Buildable.need {task need : Name} (buildable : c.Buildable task) (needs : c.Needs task need) :
    c.Buildable need := by
  cases buildable with
  | assumed provided => rw [needs.not_assumed] at provided; cases provided
  | task found below =>
    exact below need (needs.mem (taskOf_eq_some_iff.mpr ⟨needs.not_assumed, found⟩))

theorem Buildable.reaches {root name : Name} (path : c.Reaches root name)
    (buildable : c.Buildable root) : c.Buildable name := by
  induction path with
  | refl => exact buildable
  | step needs _ ih => exact ih (buildable.need needs)

-- A cycle through a task goes through one of its needs, and so on down the whole derivation.
theorem Buildable.not_onCycle {name : Name} (buildable : c.Buildable name) : ¬ c.OnCycle name := by
  induction buildable with
  | assumed provided =>
    rintro ⟨need, needs, _⟩
    rw [needs.not_assumed] at provided
    cases provided
  | task found _ ih =>
    rintro ⟨need, needs, back⟩
    have member := needs.mem (taskOf_eq_some_iff.mpr ⟨needs.not_assumed, found⟩)
    exact ih need member (back.strictly needs)

structure ValidOrder (c : Catalog) (order : List Name) : Prop where
  distinct : order.Nodup
  built : ∀ name ∈ order, name ∈ c.names ∧ c.isAssumed name = false
  needs_first : ∀ (place : Nat) (task : Task), order[place]? = some task.name → task ∈ c.tasks →
    ∀ need ∈ task.needs, c.isAssumed need = false →
      ∃ earlier, earlier < place ∧ order[earlier]? = some need

-- Nothing is left to be done for the name.
def Settled (c : Catalog) (done : List Name) (name : Name) : Prop :=
  c.isAssumed name = true ∨ name ∈ done

variable {order : List Name}

theorem Settled.append {done : List Name} {name : Name} (settled : c.Settled done name)
    (more : List Name) : c.Settled (done ++ more) name :=
  settled.imp_right (List.mem_append_left more)

theorem ValidOrder.nil : c.ValidOrder [] := by
  refine ⟨List.nodup_nil, ?_, ?_⟩
  · intro name member; cases member
  · intro place task standing; simp at standing

theorem getElem?_append_of_some {more : List Name} {place : Nat} {name : Name}
    (standing : order[place]? = some name) : (order ++ more)[place]? = some name := by
  have inside := (List.getElem?_eq_some_iff.mp standing).1
  rw [List.getElem?_append_left inside, standing]

theorem ValidOrder.concat {task : Task} (valid : c.ValidOrder order)
    (found : c.taskOf task.name = some task) (fresh : task.name ∉ order)
    (settled : ∀ need ∈ task.needs, c.Settled order need) : c.ValidOrder (order ++ [task.name]) := by
  obtain ⟨registered, _, built⟩ := taskOf_registered found
  refine ⟨?_, ?_, ?_⟩
  · refine List.nodup_append.mpr ⟨valid.distinct, by simp, ?_⟩
    intro old known new added same
    rw [List.mem_singleton] at added
    exact fresh (added ▸ same ▸ known)
  · intro name member
    rcases List.mem_append.mp member with old | new
    · exact valid.built name old
    · cases List.mem_singleton.mp new
      exact ⟨taskOf_mem_names found, built⟩
  · intro place other standing known need member wanted
    rcases Nat.lt_or_ge place order.length with inside | outside
    · -- A task that stood there before has its needs before it.
      rw [List.getElem?_append_left inside] at standing
      obtain ⟨earlier, before, there⟩ :=
        valid.needs_first place other standing known need member wanted
      exact ⟨earlier, before, getElem?_append_of_some there⟩
    · -- The new task comes after everything.
      rw [List.getElem?_append_right outside] at standing
      have same : task.name = other.name := by
        obtain ⟨_, equal⟩ := List.getElem?_eq_some_iff.mp standing
        simpa using equal
      cases eq_of_name_eq registered known same
      rcases settled need member with provided | old
      · rw [wanted] at provided; cases provided
      · obtain ⟨earlier, there⟩ := List.mem_iff_getElem?.mp old
        have before := (List.getElem?_eq_some_iff.mp there).1
        exact ⟨earlier, Nat.lt_of_lt_of_le before outside, getElem?_append_of_some there⟩

theorem ValidOrder.taskOf {name : Name} (valid : c.ValidOrder order) (member : name ∈ order) :
    ∃ task, c.taskOf name = some task := by
  obtain ⟨registered, built⟩ := valid.built name member
  obtain ⟨task, known, rfl⟩ := List.mem_map.mp registered
  exact ⟨task, taskOf_of_mem known built⟩

theorem ValidOrder.settled_need {task need : Name} (valid : c.ValidOrder order)
    (settled : c.Settled order task) (needs : c.Needs task need) : c.Settled order need := by
  have member : task ∈ order :=
    settled.resolve_left (fun provided => by rw [needs.not_assumed] at provided; cases provided)
  obtain ⟨t, found⟩ := valid.taskOf member
  obtain ⟨known, rfl, _⟩ := taskOf_registered found
  cases wanted : c.isAssumed need with
  | true => exact .inl wanted
  | false =>
    obtain ⟨place, standing⟩ := List.mem_iff_getElem?.mp member
    obtain ⟨earlier, _, there⟩ :=
      valid.needs_first place t standing known need (needs.mem found) wanted
    exact .inr (List.mem_of_getElem? there)

theorem ValidOrder.settled_reaches {root name : Name} (valid : c.ValidOrder order)
    (path : c.Reaches root name) (settled : c.Settled order root) : c.Settled order name := by
  induction path with
  | refl => exact settled
  | step needs _ ih => exact ih (valid.settled_need settled needs)

-- By strong induction on the place: whatever is needed at a place stands before it.
theorem ValidOrder.buildable_at (valid : c.ValidOrder order) (place : Nat) (name : Name)
    (standing : order[place]? = some name) : c.Buildable name := by
  induction place using Nat.strongRecOn generalizing name with
  | ind place ih =>
    obtain ⟨task, found⟩ := valid.taskOf (List.mem_of_getElem? standing)
    obtain ⟨known, rfl, _⟩ := taskOf_registered found
    refine .task (taskOf_eq_some_iff.mp found).2 ?_
    intro need member
    cases wanted : c.isAssumed need with
    | true => exact .assumed wanted
    | false =>
      obtain ⟨earlier, before, there⟩ :=
        valid.needs_first place task standing known need member wanted
      exact ih earlier before need there

theorem ValidOrder.buildable {name : Name} (valid : c.ValidOrder order)
    (settled : c.Settled order name) : c.Buildable name := by
  rcases settled with provided | member
  · exact .assumed provided
  · obtain ⟨place, standing⟩ := List.mem_iff_getElem?.mp member
    exact valid.buildable_at place name standing

end BuildPlan.Catalog
