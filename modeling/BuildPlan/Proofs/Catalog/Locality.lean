import BuildPlan.Proofs.Catalog.Additions
import BuildPlan.Proofs.Catalog.Image

namespace BuildPlan.Catalog

variable {c d : Catalog} {name : Name} {task : Task} {roots inside : List Name}
  {additions others : List Addition}

def ReachedFrom (c : Catalog) (roots : List Name) (name : Name) : Prop :=
  ∃ root ∈ roots, c.Reaches root name

-- Both say the same of a name: whether it is provided and, if it is not, whether it is a task and what
-- it needs.
structure SameAt (c d : Catalog) (name : Name) : Prop where
  assumed : d.isAssumed name = c.isAssumed name
  needs : c.isAssumed name = false → (d.find? name).map Task.needs = (c.find? name).map Task.needs

theorem find?_eq_of_needs_eq (same : (d.find? name).map Task.needs = (c.find? name).map Task.needs) :
    d.find? name = c.find? name := by
  cases found : c.find? name with
  | none => simpa [found] using same
  | some task =>
    cases found' : d.find? name with
    | none => simp [found, found'] at same
    | some other =>
      have needs : other.needs = task.needs := by simpa [found, found'] using same
      have names : other.name = task.name :=
        (find?_eq_some_iff.mp found').2.trans (find?_eq_some_iff.mp found).2.symm
      obtain ⟨_, _⟩ := task
      obtain ⟨_, _⟩ := other
      cases names
      cases needs
      rfl

theorem image_of_same (same : ∀ name, c.ReachedFrom roots name → c.SameAt d name) :
    c.Image d (fun _ => true) id (c.ReachedFrom roots) := by
  refine ⟨Function.injective_id, by simp, ?_, ?_, ?_⟩
  · intro name reached _
    exact (same name reached).assumed
  · intro name reached built
    rw [Task.image_id, Option.map_id]
    exact find?_eq_of_needs_eq ((same name reached).needs built)
  · intro task need reached needs
    obtain ⟨root, asked, way⟩ := reached
    exact ⟨root, asked, way.need needs⟩

theorem schedule_eq_of_same (some_root : roots ≠ [])
    (same : ∀ name, c.ReachedFrom roots name → c.SameAt d name) :
    d.schedule roots = c.schedule roots := by
  have asked : ∀ c : Catalog, c.rootsOf roots = roots := by
    intro c
    simp [rootsOf, some_root]
  have inside : ∀ root ∈ c.rootsOf roots, c.ReachedFrom roots root := by
    intro root member
    rw [asked] at member
    exact ⟨root, member, .refl root⟩
  have others : d.rootsOf roots = ((c.rootsOf roots).filter fun _ => true).map id := by simp [asked]
  rw [(image_of_same same).schedule inside others, renameOutcome_id]

theorem find?_iff_added (distinct : ((tasksOf additions).map Task.name).Nodup) :
    (ofAdditions additions).find? name = some task ↔ .task task ∈ additions ∧ task.name = name := by
  rw [find?_eq_some_iff, tasks_ofAdditions distinct, mem_tasksOf_iff]

theorem same_of_added (distinct : ((tasksOf additions).map Task.name).Nodup)
    (distinct' : ((tasksOf others).map Task.name).Nodup)
    (same : ∀ addition : Addition, addition.name = name → (addition ∈ additions ↔ addition ∈ others)) :
    (ofAdditions additions).SameAt (ofAdditions others) name := by
  constructor
  · rw [Bool.eq_iff_iff, isAssumed_ofAdditions, isAssumed_ofAdditions, mem_providedOf_iff,
      mem_providedOf_iff]
    exact (same (.provided name) rfl).symm
  · intro _
    congr 1
    ext task
    rw [find?_iff_added distinct, find?_iff_added distinct']
    constructor
    · rintro ⟨member, named⟩
      exact ⟨(same (.task task) named).mpr member, named⟩
    · rintro ⟨member, named⟩
      exact ⟨(same (.task task) named).mp member, named⟩

theorem ReachedFrom.mem_of_closed (reached : c.ReachedFrom roots name) (start : ∀ root ∈ roots, root ∈ inside)
    (closed : ∀ task ∈ c.tasks, task.name ∈ inside → ∀ need ∈ task.needs, need ∈ inside) :
    name ∈ inside := by
  obtain ⟨root, asked, way⟩ := reached
  have member := start root asked
  clear asked
  induction way with
  | refl => exact member
  | step needs _ ih =>
    obtain ⟨task, found, declared⟩ := needs
    obtain ⟨known, rfl, _⟩ := taskOf_registered found
    exact ih (closed task known member _ declared)

-- Neither the order of additions nor anything about other names shows in a schedule for some roots.
theorem schedule_local :
    (∀ (c d : Catalog) (roots : List Name), roots ≠ [] →
      (∀ name, c.ReachedFrom roots name → c.SameAt d name) → d.schedule roots = c.schedule roots) ∧
    (∀ (additions others : List Addition) (roots : List Name), roots ≠ [] →
      ((tasksOf additions).map Task.name).Nodup → additions.Perm others →
      (ofAdditions others).schedule roots = (ofAdditions additions).schedule roots) ∧
    (∀ (additions others : List Addition) (roots : List Name), roots ≠ [] →
      ((tasksOf additions).map Task.name).Nodup → ((tasksOf others).map Task.name).Nodup →
      (∀ addition : Addition, (ofAdditions additions).ReachedFrom roots addition.name →
        (addition ∈ additions ↔ addition ∈ others)) →
      (ofAdditions others).schedule roots = (ofAdditions additions).schedule roots) := by
  refine ⟨fun c d roots => schedule_eq_of_same, ?_, ?_⟩
  · intro additions others roots some_root distinct perm
    have distinct' : ((tasksOf others).map Task.name).Nodup :=
      ((perm.filterMap _).map _).nodup_iff.mp distinct
    apply schedule_eq_of_same some_root
    intro name _
    exact same_of_added distinct distinct' fun _ _ => perm.mem_iff
  · intro additions others roots some_root distinct distinct' related
    apply schedule_eq_of_same some_root
    intro name reached
    apply same_of_added distinct distinct'
    rintro addition rfl
    exact related addition reached

def tidy : List Addition :=
  [.task ⟨"app", ["lib", "cc"]⟩, .task ⟨"odd", ["app"]⟩, .provided "cc", .task ⟨"lib", ["cc"]⟩]

def messy : List Addition :=
  [.provided "lost", .task ⟨"lib", ["cc"]⟩, .task ⟨"odd", ["odd", "ghost"]⟩, .provided "cc",
    .task ⟨"new", ["app", "new"]⟩, .task ⟨"app", ["lib", "cc"]⟩]

theorem messy_schedule_local :
    (∀ addition : Addition, (ofAdditions tidy).ReachedFrom ["app"] addition.name →
      (addition ∈ tidy ↔ addition ∈ messy)) ∧
    (∀ name, (ofAdditions tidy).ReachedFrom ["app"] name →
      (ofAdditions tidy).SameAt (ofAdditions messy) name) ∧
    (ofAdditions messy).schedule ["app"] = (ofAdditions tidy).schedule ["app"] ∧
    (ofAdditions messy).schedule ["app"] = .ok ⟨["lib", "app"]⟩ ∧
    (ofAdditions tidy.reverse).schedule ["app"] = .ok ⟨["lib", "app"]⟩ := by
  obtain ⟨general, permuted, related⟩ := schedule_local
  have some_root : ["app"] ≠ [] := by simp
  have distinct : ((tasksOf tidy).map Task.name).Nodup := by decide
  have distinct' : ((tasksOf messy).map Task.name).Nodup := by decide
  have forth : ∀ one ∈ tidy, one.name ∈ ["app", "lib", "cc"] → one ∈ messy := by decide
  have back : ∀ one ∈ messy, one.name ∈ ["app", "lib", "cc"] → one ∈ tidy := by decide
  have same : ∀ addition : Addition, (ofAdditions tidy).ReachedFrom ["app"] addition.name →
      (addition ∈ tidy ↔ addition ∈ messy) := by
    intro addition reached
    have inside : addition.name ∈ ["app", "lib", "cc"] := by
      apply reached.mem_of_closed (by simp)
      rw [tasks_ofAdditions distinct]
      decide
    constructor
    · exact fun member => forth addition member inside
    · exact fun member => back addition member inside
  have agree : ∀ name, (ofAdditions tidy).ReachedFrom ["app"] name →
      (ofAdditions tidy).SameAt (ofAdditions messy) name := by
    intro name reached
    apply same_of_added distinct distinct'
    rintro addition rfl
    exact same addition reached
  have made : (ofAdditions tidy).schedule ["app"] = .ok ⟨["lib", "app"]⟩ := by rfl
  refine ⟨same, agree, general _ _ _ some_root agree, ?_, ?_⟩
  · exact (related tidy messy _ some_root distinct distinct' same).trans made
  · exact (permuted tidy tidy.reverse _ some_root distinct (List.reverse_perm tidy).symm).trans made

end BuildPlan.Catalog
