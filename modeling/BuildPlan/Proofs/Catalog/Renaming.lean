import Mathlib.Logic.Equiv.Basic
import BuildPlan.Proofs.Catalog.Additions
import BuildPlan.Proofs.Graph.Image

namespace BuildPlan.Catalog

variable {c : Catalog} {f : Name → Name} {name : Name}

def rename (f : Name → Name) (c : Catalog) : Catalog :=
  made (c.tasks.map fun task => ⟨f task.name, task.needs.map f⟩) (c.assumed.toList.map f)

theorem image_whole (f : Name → Name) (task : Task) :
    task.image (fun _ => true) f = ⟨f task.name, task.needs.map f⟩ := by simp [Task.image]

section Injective

variable (injective : f.Injective)
include injective

theorem tasks_rename : (c.rename f).tasks = c.tasks.map (Task.image (fun _ => true) f) := by
  have distinct : (c.names.map f).Nodup := c.names_nodup.map injective
  rw [rename, tasks_made (by simpa [names, Function.comp_def] using distinct)]
  exact List.map_congr_left fun task _ => (image_whole f task).symm

theorem names_rename : (c.rename f).names = c.names.map f := by
  simp [names, tasks_rename injective, Task.image, Function.comp_def]

theorem isAssumed_rename : (c.rename f).isAssumed (f name) = c.isAssumed name := by
  rw [Bool.eq_iff_iff, rename, isAssumed_made, isAssumed_iff, NameSet.mem_def]
  exact List.mem_map_of_injective injective

theorem buildable_rename :
    (c.rename f).buildable = c.buildable.map (Task.image (fun _ => true) f) := by
  rw [buildable, tasks_rename injective, List.filter_map, buildable]
  congr 2
  funext task
  exact congrArg not (isAssumed_rename injective)

theorem find?_rename :
    (c.rename f).find? (f name) = (c.find? name).map (Task.image (fun _ => true) f) := by
  rw [find?_eq, find?_eq, tasks_rename injective, List.find?_map]
  congr 2
  funext task
  simp [Task.image, injective.eq_iff]

theorem rename_image : c.Image (c.rename f) (fun _ => true) f fun _ => True :=
  ⟨injective, by simp, fun _ _ _ => isAssumed_rename injective, fun _ _ _ => find?_rename injective,
    fun _ _ _ _ => trivial⟩

theorem schedule_rename (roots : List Name) :
    (c.rename f).schedule (roots.map f) = renameOutcome f (c.schedule roots) := by
  have asked : (c.rename f).rootsOf (roots.map f) = ((c.rootsOf roots).filter fun _ => true).map f := by
    cases roots with
    | nil => simpa [rootsOf] using names_rename injective
    | cons => simp [rootsOf]
  exact (rename_image injective).schedule (fun _ _ => trivial) asked

theorem ofCatalog_rename : Graph.ofCatalog (c.rename f) = (Graph.ofCatalog c).rename f :=
  Graph.ofCatalog_image (rename_image injective) (buildable_rename injective)

end Injective

-- Everything that is answered under other names is the old answer under those names.
theorem names_are_opaque (f : Name → Name) (injective : f.Injective) (c : Catalog) :
    (∀ roots, (c.rename f).schedule (roots.map f) = renameOutcome f (c.schedule roots)) ∧
    (Graph.ofCatalog (c.rename f)).missing = (Graph.ofCatalog c).missing.map (Prod.map f f) ∧
    (Graph.ofCatalog (c.rename f)).cycles = (Graph.ofCatalog c).cycles.map (·.map f) ∧
    ∀ name, (Graph.ofCatalog (c.rename f)).dependents (f name) =
      ((Graph.ofCatalog c).dependents name).map f := by
  rw [ofCatalog_rename injective]
  refine ⟨schedule_rename injective, rfl, ?_, ?_⟩
  · exact Graph.cycles_rename (Graph.ofCatalog_numbered c)
  · intro name
    exact Graph.dependents_rename injective

def shelf : Catalog :=
  Catalog.empty.add ⟨"top", ["z", "a"]⟩ rfl
    |>.add ⟨"z", []⟩ rfl
    |>.add ⟨"a", ["cc"]⟩ rfl
    |>.add ⟨"b", ["z", "y", "lost"]⟩ rfl
    |>.add ⟨"y", ["b"]⟩ rfl
    |>.assume "cc"

-- The first and the last of the alphabet change places, and so do their neighbours.
def mirror : Equiv.Perm Name := (Equiv.swap "a" "z").trans (Equiv.swap "b" "y")

theorem shelf_names_are_opaque :
    Function.Injective mirror ∧
    (shelf.rename mirror).schedule ["top"] = .ok ⟨["a", "z", "top"]⟩ ∧
    (shelf.rename mirror).schedule ["y"] = .error (.circular ["y", "b"] "y") ∧
    (Graph.ofCatalog (shelf.rename mirror)).missing = [("y", "lost")] ∧
    (Graph.ofCatalog (shelf.rename mirror)).cycles = [["y", "b"]] ∧
    (Graph.ofCatalog (shelf.rename mirror)).dependents "a" = ["top", "y"] := by
  obtain ⟨schedules, missing, cycles, dependents⟩ := names_are_opaque mirror mirror.injective shelf
  exact ⟨mirror.injective, (schedules ["top"]).trans (by rfl), (schedules ["b"]).trans (by rfl),
    missing.trans (by rfl), cycles.trans (by rfl), (dependents "z").trans (by rfl)⟩

end BuildPlan.Catalog
