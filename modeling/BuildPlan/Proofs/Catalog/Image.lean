import Mathlib.Data.List.Basic
import BuildPlan.Proofs.Collector.History

namespace BuildPlan

namespace Fault

def rename (f : Name → Name) : Fault → Fault
  | duplicate task => .duplicate (f task)
  | unknown task requestedBy => .unknown (f task) (requestedBy.map f)
  | circular path task => .circular (path.map f) (f task)
  | missing needs => .missing (needs.map (Prod.map f f))
  | cyclic members => .cyclic (members.map f)

def names : Fault → List Name
  | duplicate task => [task]
  | unknown task requestedBy => requestedBy ++ [task]
  | circular path task => path ++ [task]
  | missing needs => needs.flatMap fun need => [need.1, need.2]
  | cyclic members => members

@[simp] theorem rename_id : rename id = id := by
  funext fault
  cases fault <;> simp [rename]

end Fault

namespace Schedule

def rename (f : Name → Name) (s : Schedule) : Schedule := ⟨s.names.map f⟩

@[simp] theorem rename_id : rename id = id := by
  funext s
  simp [rename]

end Schedule

namespace Task

def image (kept : Name → Bool) (f : Name → Name) (task : Task) : Task :=
  ⟨f task.name, (task.needs.filter kept).map f⟩

@[simp] theorem image_id : image (fun _ => true) id = id := by
  funext task
  simp [image]

end Task

namespace Catalog

-- Only provided names are left out, and what is kept in scope says the same under its other name.
structure Image (c d : Catalog) (kept : Name → Bool) (f : Name → Name) (scope : Name → Prop) : Prop where
  injective : f.Injective
  dropped : ∀ name, kept name = false → c.isAssumed name = true
  assumed : ∀ name, scope name → kept name = true → d.isAssumed (f name) = c.isAssumed name
  found : ∀ name, scope name → c.isAssumed name = false →
    d.find? (f name) = (c.find? name).map (Task.image kept f)
  closed : ∀ task need, scope task → c.Needs task need → scope need

namespace Image

variable {c d : Catalog} {kept : Name → Bool} {f : Name → Name} {scope : Name → Prop}
  {done names : List Name} {name : Name} {task : Task}
variable (image : c.Image d kept f scope)
include image

theorem keeps (built : c.isAssumed name = false) : kept name = true := by
  cases keep : kept name with
  | true => rfl
  | false =>
    rw [image.dropped name keep] at built
    cases built

theorem built (inside : scope name) (built : c.isAssumed name = false) : d.isAssumed (f name) = false :=
  (image.assumed name inside (image.keeps built)).trans built

theorem taskOf (inside : scope name) (found : c.taskOf name = some task) :
    d.taskOf (f name) = some (task.image kept f) := by
  obtain ⟨built, known⟩ := taskOf_eq_some_iff.mp found
  have same := image.found name inside built
  rw [known] at same
  exact taskOf_eq_some_iff.mpr ⟨image.built inside built, same⟩

theorem mem_names_iff (inside : scope name) (built : c.isAssumed name = false) :
    f name ∈ d.names ↔ name ∈ c.names := by
  rw [← not_iff_not, ← find?_eq_none_iff, ← find?_eq_none_iff, image.found name inside built]
  simp

theorem settled_iff (inside : scope name) (keep : kept name = true) :
    d.Settled (done.map f) (f name) ↔ c.Settled done name := by
  unfold Settled
  rw [image.assumed name inside keep, List.mem_map_of_injective image.injective]

theorem settled_of_dropped (drop : kept name = false) : c.Settled done name :=
  .inl (image.dropped name drop)

theorem keeps_of_not_settled (open_name : ¬ c.Settled done name) : kept name = true := by
  cases keep : kept name with
  | true => rfl
  | false => exact absurd (image.settled_of_dropped keep) open_name

theorem needs_inside (inside : scope task.name) (found : c.taskOf task.name = some task) :
    ∀ need ∈ task.needs, scope need :=
  fun need declared => image.closed task.name need inside ⟨task, found, declared⟩

end Image

end Catalog
end BuildPlan

namespace BuildPlan.Recursive

variable {c d : Catalog} {kept : Name → Bool} {f : Name → Name} {scope : Name → Prop}
  {path done names after : List Name} {answer : Except Fault Unit}

def renameAnswer (f : Name → Name) (answer : Except Fault Unit) : Except Fault Unit :=
  answer.mapError (Fault.rename f)

theorem Visits.image (image : c.Image d kept f scope) (visits : Visits c path done names answer after)
    (inside : ∀ name ∈ names, scope name) :
    Visits d (path.map f) (done.map f) ((names.filter kept).map f) (renameAnswer f answer)
      (after.map f) := by
  induction visits with
  | nothing => exact .nothing
  | @settled path done rest after name answer settled _ ih =>
    have later := ih fun other member => inside other (List.mem_cons_of_mem _ member)
    cases keep : kept name with
    | false => rwa [List.filter_cons_of_neg (by simp [keep])]
    | true =>
      rw [List.filter_cons_of_pos keep]
      have here := inside name (List.mem_cons_self ..)
      exact .settled ((image.settled_iff here keep).mpr settled) later
  | @circular path done rest name fresh opened =>
    have keep := image.keeps_of_not_settled fresh
    have here := inside name (List.mem_cons_self ..)
    rw [List.filter_cons_of_pos keep]
    exact .circular (fun settled => fresh ((image.settled_iff here keep).mp settled))
      (List.mem_map_of_mem opened)
  | @unknown path done rest name fresh unopened missing =>
    have keep := image.keeps_of_not_settled fresh
    have here := inside name (List.mem_cons_self ..)
    have built : c.isAssumed name = false :=
      Bool.eq_false_iff.mpr fun provided => fresh (.inl provided)
    rw [List.filter_cons_of_pos keep]
    refine .unknown (fun settled => fresh ((image.settled_iff here keep).mp settled)) ?_ ?_
    · rwa [List.mem_map_of_injective image.injective]
    · rwa [image.mem_names_iff here built]
  | @closed path done rest middle after task answer found fresh unopened below later below_ih later_ih =>
    have here := inside task.name (List.mem_cons_self ..)
    have keep := image.keeps (Catalog.taskOf_registered found).2.2
    have inner := below_ih (image.needs_inside here found)
    have outer := later_ih fun other member => inside other (List.mem_cons_of_mem _ member)
    have found' : d.taskOf (task.image kept f).name = some (task.image kept f) :=
      image.taskOf here found
    rw [List.map_append] at inner outer
    rw [List.filter_cons_of_pos keep]
    refine .closed found' ?_ ?_ inner outer
    · rwa [Task.image, List.mem_map_of_injective image.injective]
    · rwa [Task.image, List.mem_map_of_injective image.injective]
  | @failed path done rest after task fault found fresh unopened below ih =>
    have here := inside task.name (List.mem_cons_self ..)
    have keep := image.keeps (Catalog.taskOf_registered found).2.2
    have inner := ih (image.needs_inside here found)
    have found' : d.taskOf (task.image kept f).name = some (task.image kept f) :=
      image.taskOf here found
    rw [List.map_append] at inner
    rw [List.filter_cons_of_pos keep]
    refine .failed found' ?_ ?_ inner
    · rwa [Task.image, List.mem_map_of_injective image.injective]
    · rwa [Task.image, List.mem_map_of_injective image.injective]

end BuildPlan.Recursive

namespace BuildPlan

open Recursive (renameAnswer)

variable {c d : Catalog} {kept : Name → Bool} {f : Name → Name} {scope : Name → Prop} {k l : Collector}
  {roots : List Name} {root : Name}

def renameOutcome (f : Name → Name) (outcome : Except Fault Schedule) : Except Fault Schedule :=
  (outcome.map (Schedule.rename f)).mapError (Fault.rename f)

theorem renameOutcome_id (outcome : Except Fault Schedule) : renameOutcome id outcome = outcome := by
  cases outcome <;> simp [renameOutcome, Except.map, Except.mapError]

theorem renameAnswer_id (answer : Except Fault Unit) : renameAnswer id answer = answer := by
  cases answer <;> simp [renameAnswer, Except.mapError]

namespace Collector

-- Between two visits: the one collector has closed the images of what the other has closed.
structure Shows (k l : Collector) (kept : Name → Bool) (f : Name → Name) (scope : Name → Prop) : Prop where
  image : k.catalog.Image l.catalog kept f scope
  sound : k.Sound
  sound' : l.Sound
  collected : l.collected.toList = k.collected.toList.map f

theorem start_shows (image : c.Image d kept f scope) : Shows (start c) (start d) kept f scope :=
  ⟨image, start_sound c, start_sound d, rfl⟩

theorem visit_provided (sound : k.Sound) (provided : k.catalog.isAssumed root = true) :
    (k.visit root).1 = .ok () ∧ (k.visit root).2.collected.toList = k.collected.toList :=
  visit_follows sound (.settled (.inl provided) .nothing)

namespace Shows

variable (shows_k : Shows k l kept f scope)
include shows_k

theorem visit (inside : scope root) (keep : kept root = true) :
    (l.visit (f root)).1 = renameAnswer f (k.visit root).1 ∧
      Shows (k.visit root).2 (l.visit (f root)).2 kept f scope := by
  obtain ⟨image, sound, sound', collected⟩ := shows_k
  obtain ⟨answer, closed⟩ := visit_eq_recursive sound root
  have visits := Recursive.visit_visits k.catalog [] k.collected.toList root
  rw [← answer, ← closed] at visits
  have shown := visits.image image (by simpa using inside)
  rw [List.filter_cons_of_pos keep, ← collected] at shown
  obtain ⟨answer', closed'⟩ := visit_follows sound' shown
  have visited := visit_visited sound root
  have visited' := visit_visited sound' (f root)
  refine ⟨answer', ?_, visited.sound, visited'.sound, closed'⟩
  rw [visited.catalog, visited'.catalog]
  exact image

theorem visit_dropped (drop : kept root = false) :
    (k.visit root).1 = .ok () ∧ Shows (k.visit root).2 l kept f scope := by
  obtain ⟨image, sound, sound', collected⟩ := shows_k
  obtain ⟨answer, closed⟩ := visit_provided sound (image.dropped root drop)
  have visited := visit_visited sound root
  refine ⟨answer, ?_, visited.sound, sound', ?_⟩
  · rw [visited.catalog]
    exact image
  · rw [collected, closed]

theorem afterVisits (inside : ∀ root ∈ roots, scope root) :
    Shows (k.afterVisits roots) (l.afterVisits ((roots.filter kept).map f)) kept f scope := by
  induction roots generalizing k l with
  | nil => exact shows_k
  | cons root rest ih =>
    have later : ∀ other ∈ rest, scope other := fun other member => inside other (List.mem_cons_of_mem _ member)
    cases keep : kept root with
    | false =>
      rw [List.filter_cons_of_neg (by simp [keep])]
      exact ih (shows_k.visit_dropped keep).2 later
    | true =>
      rw [List.filter_cons_of_pos keep]
      exact ih (shows_k.visit (inside root (List.mem_cons_self ..)) keep).2 later

theorem outcome (inside : ∀ root ∈ roots, scope root) :
    l.outcome ((roots.filter kept).map f) = renameOutcome f (k.outcome roots) := by
  induction roots generalizing k l with
  | nil =>
    simp [Collector.outcome, visitAll, renameOutcome, Except.map, Except.mapError, schedule,
      Schedule.rename, shows_k.collected]
  | cons root rest ih =>
    have later : ∀ other ∈ rest, scope other := fun other member => inside other (List.mem_cons_of_mem _ member)
    cases keep : kept root with
    | false =>
      obtain ⟨answer, further⟩ := shows_k.visit_dropped keep
      rw [List.filter_cons_of_neg (by simp [keep]), outcome_cons, answer]
      exact ih further later
    | true =>
      obtain ⟨answer, further⟩ := shows_k.visit (inside root (List.mem_cons_self ..)) keep
      rw [List.filter_cons_of_pos keep, List.map_cons, outcome_cons, outcome_cons, answer,
        ih further later]
      cases (k.visit root).1 <;> rfl

end Shows

end Collector

theorem Catalog.Image.schedule (image : c.Image d kept f scope) (inside : ∀ root ∈ c.rootsOf roots, scope root)
    {others : List Name} (asked : d.rootsOf others = ((c.rootsOf roots).filter kept).map f) :
    d.schedule others = renameOutcome f (c.schedule roots) := by
  rw [Collector.schedule_eq_outcome, Collector.schedule_eq_outcome, asked]
  exact (Collector.start_shows image).outcome inside

end BuildPlan
