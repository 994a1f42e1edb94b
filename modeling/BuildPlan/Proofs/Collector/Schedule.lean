import Mathlib.Data.List.Perm.Subperm
import Mathlib.Logic.Basic
import Mathlib.Tactic.ByContra
import BuildPlan.Proofs.Collector.Visit

namespace BuildPlan

theorem Schedule.position?_eq_some_iff {s : Schedule} (distinct : s.names.Nodup) {name : Name}
    {place : Nat} : s.position? name = some place ↔ s.names[place]? = some name := by
  unfold position?
  rw [List.idxOf?_eq_some_iff, List.getElem?_eq_some_iff]
  constructor
  · rintro ⟨inside, here, _⟩
    exact ⟨inside, here⟩
  · rintro ⟨inside, here⟩
    refine ⟨inside, here, ?_⟩
    intro earlier before same
    have equal := (List.getElem_inj distinct).mp (same.trans here.symm)
    omega

namespace Catalog

variable {c : Catalog} {roots : List Name} {s : Schedule} {fault : Fault}

theorem schedule_eq_ok_iff : c.schedule roots = .ok s ↔
    ((Collector.start c).visitAll (c.rootsOf roots)).1 = .ok () ∧
      s = ((Collector.start c).visitAll (c.rootsOf roots)).2.schedule := by
  unfold schedule collect
  rcases (Collector.start c).visitAll (c.rootsOf roots) with ⟨answer, k⟩
  cases answer with
  | error fault => simp
  | ok => simp [Collector.finish, eq_comm]

theorem schedule_eq_error_iff : c.schedule roots = .error fault ↔
    ((Collector.start c).visitAll (c.rootsOf roots)).1 = .error fault := by
  unfold schedule collect
  rcases (Collector.start c).visitAll (c.rootsOf roots) with ⟨answer, k⟩
  cases answer with
  | error other => simp
  | ok => simp [Collector.finish]

theorem schedule_visited (made : c.schedule roots = .ok s) :
    (∃ k, (Collector.start c).Visited (c.rootsOf roots) k ∧ k.collected.toList = s.names) ∧
      ∀ root ∈ c.rootsOf roots, c.Settled s.names root := by
  obtain ⟨done, rfl⟩ := schedule_eq_ok_iff.mp made
  have sound := Collector.start_sound c
  exact ⟨⟨_, Collector.visitAll_visited sound _, rfl⟩, Collector.visitAll_settles sound done⟩

theorem schedule_order (made : c.schedule roots = .ok s) : c.ValidOrder s.names := by
  obtain ⟨⟨k, visited, same⟩, _⟩ := schedule_visited made
  rw [← same]
  exact visited.order

theorem mem_schedule_iff (made : c.schedule roots = .ok s) {name : Name} :
    name ∈ s.names ↔ c.isAssumed name = false ∧ ∃ root ∈ c.rootsOf roots, c.Reaches root name := by
  obtain ⟨⟨k, visited, same⟩, settled⟩ := schedule_visited made
  have order := schedule_order made
  constructor
  · intro member
    obtain ⟨grown, split, reached⟩ := visited.grown
    have fresh : name ∈ grown := by
      rw [← same, split] at member
      exact (List.mem_append.mp member).resolve_left List.not_mem_nil
    exact ⟨(order.built name member).2, reached name fresh⟩
  · rintro ⟨built, root, asked, path⟩
    rcases order.settled_reaches path (settled root asked) with provided | member
    · rw [built] at provided; cases provided
    · exact member

theorem mem_full_schedule_iff (made : c.schedule [] = .ok s) {name : Name} :
    name ∈ s.names ↔ name ∈ c.names ∧ c.isAssumed name = false := by
  constructor
  · exact (schedule_order made).built name
  · rintro ⟨registered, built⟩
    exact (mem_schedule_iff made).mpr ⟨built, name, registered, .refl name⟩

theorem mem_buildable_names_iff {name : Name} :
    name ∈ c.buildable.map Task.name ↔ name ∈ c.names ∧ c.isAssumed name = false := by
  rw [List.mem_map]
  constructor
  · rintro ⟨task, member, rfl⟩
    obtain ⟨known, built⟩ := List.mem_filter.mp member
    exact ⟨List.mem_map_of_mem known, by simpa using built⟩
  · rintro ⟨registered, built⟩
    obtain ⟨task, known, rfl⟩ := List.mem_map.mp registered
    exact ⟨task, List.mem_filter.mpr ⟨known, by simp [built]⟩, rfl⟩

theorem full_schedule_perm (made : c.schedule [] = .ok s) :
    s.names.Perm (c.buildable.map Task.name) := by
  have distinct : (c.buildable.map Task.name).Nodup :=
    c.names_nodup.sublist (List.filter_sublist.map Task.name)
  refine (List.perm_ext_iff_of_nodup (schedule_order made).distinct distinct).mpr ?_
  intro name
  rw [mem_full_schedule_iff made, mem_buildable_names_iff]

theorem schedule_size_le (made : c.schedule roots = .ok s) : s.size ≤ c.buildable.length := by
  have order := schedule_order made
  have inside : s.names ⊆ c.buildable.map Task.name :=
    fun name member => mem_buildable_names_iff.mpr (order.built name member)
  have counted := (List.subperm_of_subset order.distinct inside).length_le
  rwa [List.length_map] at counted

theorem schedule_ok_iff_buildable :
    (∃ s, c.schedule roots = .ok s) ↔ ∀ root ∈ c.rootsOf roots, c.Buildable root := by
  have visits : ((Collector.start c).visitAll (c.rootsOf roots)).1 = .ok () ↔
      ∀ root ∈ c.rootsOf roots, c.Buildable root := Collector.visitAll_ok_iff (Collector.start_sound c)
  constructor
  · intro made
    obtain ⟨s, made⟩ := made
    exact visits.mp (schedule_eq_ok_iff.mp made).1
  · intro good
    exact ⟨_, schedule_eq_ok_iff.mpr ⟨visits.mpr good, rfl⟩⟩

theorem exists_leftmostFault {root : Name} (failing : ¬ c.Buildable root) :
    ∃ fault, c.LeftmostFault root fault := by
  have sound := Collector.start_sound c
  rcases Collector.visit_cases sound root with ⟨done, _⟩ | ⟨fault, _, leftmost⟩
  · exact absurd ((Collector.visit_ok_iff sound).mp done) failing
  · exact ⟨fault, leftmost⟩

-- The leftmost fault is a missing name or a cycle that the root reaches.
theorem buildable_iff_reaches {root : Name} : c.Buildable root ↔
    ∀ name, c.Reaches root name → c.isAssumed name = false → name ∈ c.names ∧ ¬ c.OnCycle name := by
  constructor
  · intro buildable name path built
    have below := buildable.reaches path
    exact ⟨below.registered built, below.not_onCycle⟩
  · intro clean
    by_contra failing
    obtain ⟨fault, leftmost⟩ := exists_leftmostFault failing
    cases leftmost with
    | unknown way _ built missing => exact missing (clean _ way.reaches built).1
    | circular way _ again =>
      have cycle := way.onCycle again
      obtain ⟨need, needs, _⟩ := id cycle
      exact (clean _ way.reaches needs.not_assumed).2 cycle

theorem schedule_valid_and_placed (made : c.schedule roots = .ok s) : c.ValidOrder s.names ∧
    ∀ name place, s.position? name = some place ↔ s.names[place]? = some name := by
  have order := schedule_order made
  exact ⟨order, fun _ _ => Schedule.position?_eq_some_iff order.distinct⟩

-- Without roots it is the whole catalog, less what is provided.
theorem schedule_exact_closure (made : c.schedule roots = .ok s) :
    (∀ name, name ∈ s.names ↔
      c.isAssumed name = false ∧ ∃ root ∈ c.rootsOf roots, c.Reaches root name) ∧
    (roots = [] → (∀ name, name ∈ s.names ↔ name ∈ c.names ∧ c.isAssumed name = false) ∧
      s.size = c.buildable.length) := by
  refine ⟨fun name => mem_schedule_iff made, ?_⟩
  rintro rfl
  refine ⟨fun name => mem_full_schedule_iff made, ?_⟩
  have counted := (full_schedule_perm made).length_eq
  rw [List.length_map] at counted
  exact counted

-- What is missing or cyclic only matters where a root reaches it through tasks that are built.
theorem schedule_exists_iff (c : Catalog) (roots : List Name) :
    ((∃ s, c.schedule roots = .ok s) ↔ ∀ root ∈ c.rootsOf roots, c.Buildable root) ∧
    ((∃ s, c.schedule roots = .ok s) ↔ ∀ root ∈ c.rootsOf roots, ∀ name, c.Reaches root name →
      c.isAssumed name = false → name ∈ c.names ∧ ¬ c.OnCycle name) ∧
    ((∃ fault, c.schedule roots = .error fault) ↔ ∃ root ∈ c.rootsOf roots, ∃ name,
      c.Reaches root name ∧ c.isAssumed name = false ∧ (name ∉ c.names ∨ c.OnCycle name)) := by
  have clean : (∃ s, c.schedule roots = .ok s) ↔ ∀ root ∈ c.rootsOf roots, ∀ name,
      c.Reaches root name → c.isAssumed name = false → name ∈ c.names ∧ ¬ c.OnCycle name := by
    rw [schedule_ok_iff_buildable]
    exact forall₂_congr fun _ _ => buildable_iff_reaches
  have failed : (∃ fault, c.schedule roots = .error fault) ↔ ¬ ∃ s, c.schedule roots = .ok s := by
    cases c.schedule roots with
    | error fault => simp
    | ok s => simp
  refine ⟨schedule_ok_iff_buildable, clean, ?_⟩
  rw [failed, clean]
  simp only [not_forall, not_and_or, not_not, exists_prop]

def diamond : Catalog :=
  Catalog.empty.add ⟨"app", ["left", "tool", "right", "left"]⟩ rfl
    |>.add ⟨"tool", ["app", "lost"]⟩ rfl
    |>.add ⟨"left", ["base"]⟩ rfl
    |>.add ⟨"right", ["tool", "base"]⟩ rfl
    |>.add ⟨"base", []⟩ rfl
    |>.assume "tool"

theorem diamond_valid_and_placed :
    diamond.schedule ["right", "app"] = .ok ⟨["base", "right", "left", "app"]⟩ ∧
    diamond.ValidOrder ["base", "right", "left", "app"] ∧
    ∀ name place, (Schedule.mk ["base", "right", "left", "app"]).position? name = some place ↔
      ["base", "right", "left", "app"][place]? = some name := by
  have made : diamond.schedule ["right", "app"] = .ok ⟨["base", "right", "left", "app"]⟩ := by rfl
  exact ⟨made, schedule_valid_and_placed made⟩

theorem diamond_exact_closure :
    diamond.schedule [] = .ok ⟨["base", "left", "right", "app"]⟩ ∧
    (∀ name, name ∈ ["base", "left", "right", "app"] ↔
      name ∈ diamond.names ∧ diamond.isAssumed name = false) ∧
    diamond.buildable.length = 4 := by
  have made : diamond.schedule [] = .ok ⟨["base", "left", "right", "app"]⟩ := by rfl
  obtain ⟨exact_names, counted⟩ := (schedule_exact_closure made).2 rfl
  exact ⟨made, exact_names, counted.symm⟩

end Catalog
end BuildPlan

namespace BuildPlan.Collector

theorem afterVisits_error_iff (c : Catalog) (visited : List Name) {root : Name} {fault : Fault} :
    (((start c).afterVisits visited).visit root).1 = .error fault ↔ c.LeftmostFault root fault := by
  have earlier := afterVisits_visited (start_sound c) visited
  have catalog : ((start c).afterVisits visited).catalog = c := earlier.catalog
  rw [visit_error_iff earlier.sound, catalog]

theorem schedule_error_iff (c : Catalog) {roots : List Name} {fault : Fault} :
    c.schedule roots = .error fault ↔ ∃ earlier root later,
      c.rootsOf roots = earlier ++ root :: later ∧ (∀ name ∈ earlier, c.Buildable name) ∧
      c.LeftmostFault root fault :=
  Catalog.schedule_eq_error_iff.trans (visitAll_error_iff (start_sound c))

-- What was visited before, with or without success, leaves no trace in the answer.
theorem visit_leftmost_exactly (c : Catalog) :
    (∀ (visited : List Name) (root : Name) (fault : Fault),
      (((start c).afterVisits visited).visit root).1 = .error fault ↔ c.LeftmostFault root fault) ∧
    (∀ (visited : List Name) (root : Name), root ∉ c.names → c.isAssumed root = false →
      (((start c).afterVisits visited).visit root).1 = .error (.unknown root [])) ∧
    (∀ (roots : List Name) (fault : Fault), c.schedule roots = .error fault ↔
      ∃ earlier root later, c.rootsOf roots = earlier ++ root :: later ∧
        (∀ name ∈ earlier, c.Buildable name) ∧ ¬ c.Buildable root ∧ c.LeftmostFault root fault) := by
  refine ⟨fun visited _ _ => afterVisits_error_iff c visited, ?_, ?_⟩
  · intro visited root missing built
    exact (afterVisits_error_iff c visited).mpr (.unknown (.here root) List.nodup_nil built missing)
  · intro roots fault
    rw [schedule_error_iff]
    constructor
    · rintro ⟨earlier, root, later, split, good, leftmost⟩
      exact ⟨earlier, root, later, split, good, leftmost.not_buildable, leftmost⟩
    · rintro ⟨earlier, root, later, split, good, _, leftmost⟩
      exact ⟨earlier, root, later, split, good, leftmost⟩

example : (Catalog.empty.add ⟨"top", ["good", "x", "lost"]⟩ rfl |>.add ⟨"good", []⟩ rfl
    |>.add ⟨"x", ["good", "y"]⟩ rfl |>.add ⟨"y", ["x", "lost"]⟩ rfl).schedule ["good", "top"] =
      .error (.circular ["top", "x", "y"] "x") := by rfl

end BuildPlan.Collector
