import BuildPlan.Proofs.Collector.Replies
import BuildPlan.Proofs.Collector.Schedule
import BuildPlan.Proofs.NameSet

namespace BuildPlan

namespace Catalog

def singleSchedules (c : Catalog) (roots : List Name) : Except Fault (List Schedule) :=
  roots.mapM fun root => c.schedule [root]

theorem singleSchedules_cons (c : Catalog) (root : Name) (rest : List Name) :
    c.singleSchedules (root :: rest) = (c.schedule [root]).bind fun first =>
      (c.singleSchedules rest).bind fun others => .ok (first :: others) := by
  rw [singleSchedules, List.mapM_cons]
  rfl

theorem singleSchedules_append (c : Catalog) (roots more : List Name) :
    c.singleSchedules (roots ++ more) = (c.singleSchedules roots).bind fun first =>
      (c.singleSchedules more).bind fun others => .ok (first ++ others) := by
  rw [singleSchedules, List.mapM_append]
  rfl

end Catalog

namespace Collector

variable {k : Collector} {c : Catalog}

-- What is already closed is left out, and nothing else changes.
theorem visit_eq_first (sound : k.Sound) (root : Name) :
    (k.visit root).1 = ((start k.catalog).visit root).1 ∧
      (k.visit root).2.collected.toList = k.collected.toList ++
        ((start k.catalog).visit root).2.collected.toList.filter (· ∉ k.collected.toList) := by
  obtain ⟨answer, closed⟩ := visit_eq_recursive (start_sound k.catalog) root
  have first : Recursive.Visits k.catalog [] [] [root] ((start k.catalog).visit root).1
      ((start k.catalog).visit root).2.collected.toList := by
    rw [answer, closed]
    exact Recursive.visit_visits _ _ _ _
  have again := first.beside sound.order (by simp [Recursive.Leads])
  rw [List.filter_nil, List.append_nil] at again
  exact visit_follows sound again

theorem afterVisits_visit_eq_first (c : Catalog) (visited : List Name) (root : Name) :
    (((start c).afterVisits visited).visit root).1 = ((start c).visit root).1 ∧
      (((start c).afterVisits visited).visit root).2.collected.toList =
        ((start c).afterVisits visited).collected.toList ++
          ((start c).visit root).2.collected.toList.filter
            (· ∉ ((start c).afterVisits visited).collected.toList) := by
  have earlier := afterVisits_visited (start_sound c) visited
  have catalog : ((start c).afterVisits visited).catalog = c := earlier.catalog
  have same := visit_eq_first earlier.sound root
  rwa [catalog] at same

theorem first_closed_within (c : Catalog) (visited later : List Name) (root : Name) :
    ∀ name ∈ ((start c).visit root).2.collected.toList,
      name ∈ ((start c).afterVisits (visited ++ root :: later)).collected.toList := by
  have before := afterVisits_visited (start_sound c) visited
  have kept := afterVisits_visited (visit_visited before.sound root).sound later
  obtain ⟨grown, split, _⟩ := kept.grown
  have further : (start c).afterVisits (visited ++ root :: later) =
      (((start c).afterVisits visited).visit root).2.afterVisits later := by simp [afterVisits]
  intro name member
  rw [further, split, (afterVisits_visit_eq_first c visited root).2]
  by_cases old : name ∈ ((start c).afterVisits visited).collected.toList
  · simp [old]
  · simp [old, member]

theorem visit_again (c : Catalog) (visited later : List Name) (root : Name) :
    (((start c).afterVisits (visited ++ root :: later)).visit root).1 =
      (((start c).afterVisits visited).visit root).1 ∧
    (((start c).afterVisits (visited ++ root :: later)).visit root).2.collected.toList =
      ((start c).afterVisits (visited ++ root :: later)).collected.toList := by
  obtain ⟨answer, _⟩ := afterVisits_visit_eq_first c visited root
  obtain ⟨answer', closed'⟩ := afterVisits_visit_eq_first c (visited ++ root :: later) root
  refine ⟨answer'.trans answer.symm, ?_⟩
  have nothing := Recursive.filter_append_within [] (first_closed_within c visited later root)
  rw [List.nil_append] at nothing
  rw [closed', nothing, List.filter_nil, List.append_nil]

def outcome (k : Collector) (roots : List Name) : Except Fault Schedule :=
  match k.visitAll roots with
  | (.ok (), k) => .ok k.schedule
  | (.error fault, _) => .error fault

theorem schedule_eq_outcome (c : Catalog) (roots : List Name) :
    c.schedule roots = (start c).outcome (c.rootsOf roots) := by
  unfold Catalog.schedule Catalog.collect outcome
  rcases (start c).visitAll (c.rootsOf roots) with ⟨answer, k⟩
  cases answer <;> rfl

theorem outcome_cons (k : Collector) (root : Name) (rest : List Name) :
    k.outcome (root :: rest) = (k.visit root).1.bind fun _ => (k.visit root).2.outcome rest := by
  cases answer : (k.visit root).1 with
  | ok => simp [outcome, visitAll_of_ok answer, Except.bind]
  | error fault =>
    rcases visited : k.visit root with ⟨_, next⟩
    rw [visited] at answer
    cases answer
    simp [outcome, visitAll, visited, Except.bind]

theorem outcome_single (k : Collector) (root : Name) :
    k.outcome [root] = (k.visit root).1.bind fun _ => .ok (k.visit root).2.schedule := by
  rw [outcome_cons]
  rfl

-- By induction on the roots: the first one closes its own order less what is closed, and everything
-- after it finds these names closed.
theorem outcome_eq_merged (sound : k.Sound) (roots : List Name) :
    k.outcome roots = (k.catalog.singleSchedules roots).map fun orders =>
      ⟨(k.collected.toList ++ orders.flatMap Schedule.names).eraseDups⟩ := by
  induction roots generalizing k with
  | nil =>
    have distinct := eraseDups_of_nodup sound.order.distinct
    simp [outcome, visitAll, Catalog.singleSchedules, schedule, Except.map, pure, Except.pure, distinct]
  | cons root rest ih =>
    have visited := visit_visited sound root
    obtain ⟨answer, closed⟩ := visit_eq_first sound root
    have further := ih visited.sound
    have alone : k.catalog.schedule [root] = (start k.catalog).outcome [root] :=
      schedule_eq_outcome k.catalog [root]
    rw [visited.catalog, closed] at further
    rw [outcome_cons, further, answer, Catalog.singleSchedules_cons, alone, outcome_single]
    cases ((start k.catalog).visit root).1 with
    | error fault => rfl
    | ok =>
      cases k.catalog.singleSchedules rest with
      | error fault => rfl
      | ok orders =>
        simp only [Except.bind, Except.map, List.flatMap_cons, schedule]
        rw [← List.append_assoc, eraseDups_append_congr (eraseDups_append_filter _ _)]

end Collector

namespace Catalog

variable {c : Catalog} {root : Name} {earlier later : List Name} {orders : List Schedule}

-- The first fault of a single root is the answer, and otherwise a name stands where it comes first.
theorem schedule_eq_merged (c : Catalog) {roots : List Name} (some_root : roots ≠ []) :
    c.schedule roots = (c.singleSchedules roots).map fun orders =>
      ⟨(orders.flatMap Schedule.names).eraseDups⟩ := by
  have asked : c.rootsOf roots = roots := by simp [rootsOf, some_root]
  rw [Collector.schedule_eq_outcome, asked]
  exact Collector.outcome_eq_merged (Collector.start_sound c) roots

theorem singleSchedules_mem (made : c.singleSchedules earlier = .ok orders) (asked : root ∈ earlier) :
    ∃ s ∈ orders, c.schedule [root] = .ok s := by
  induction earlier generalizing orders with
  | nil => cases asked
  | cons head rest ih =>
    rw [singleSchedules_cons] at made
    cases first : c.schedule [head] with
    | error fault =>
      rw [first] at made
      cases made
    | ok s =>
      cases others : c.singleSchedules rest with
      | error fault =>
        rw [first, others] at made
        cases made
      | ok more =>
        rw [first, others] at made
        cases made
        rcases List.mem_cons.mp asked with rfl | later
        · exact ⟨s, List.mem_cons_self .., first⟩
        · obtain ⟨t, member, found⟩ := ih others later
          exact ⟨t, List.mem_cons_of_mem _ member, found⟩

def Redundant (c : Catalog) (earlier : List Name) (root : Name) : Prop :=
  ∀ name, c.Reaches root name → c.isAssumed name = false → ∃ first ∈ earlier, c.Reaches first name

theorem Redundant.of_reaches {first : Name} (asked : first ∈ earlier) (way : c.Reaches first root) :
    c.Redundant earlier root := fun _ down _ => ⟨first, asked, way.trans down⟩

theorem Redundant.schedule (redundant : c.Redundant earlier root)
    (made : c.singleSchedules earlier = .ok orders) :
    ∃ t, c.schedule [root] = .ok t ∧ ∀ name ∈ t.names, name ∈ orders.flatMap Schedule.names := by
  have single : ∀ name, ∀ asked ∈ c.rootsOf [name], asked = name :=
    fun _ _ => List.mem_singleton.mp
  have buildable : ∀ first ∈ earlier, c.Buildable first := by
    intro first asked
    obtain ⟨s, _, found⟩ := singleSchedules_mem made asked
    exact schedule_ok_iff_buildable.mp ⟨s, found⟩ first (List.mem_singleton.mpr rfl)
  obtain ⟨t, alone⟩ : ∃ t, c.schedule [root] = .ok t := by
    rw [schedule_ok_iff_buildable]
    intro name asked
    cases single root name asked
    rw [buildable_iff_reaches]
    intro name down built
    obtain ⟨first, asked, way⟩ := redundant name down built
    exact buildable_iff_reaches.mp (buildable first asked) name way built
  refine ⟨t, alone, ?_⟩
  intro name member
  obtain ⟨built, other, asked, down⟩ := (mem_schedule_iff alone).mp member
  cases single root other asked
  obtain ⟨first, asked, way⟩ := redundant name down built
  obtain ⟨s, there, found⟩ := singleSchedules_mem made asked
  refine List.mem_flatMap.mpr ⟨s, there, ?_⟩
  exact (mem_schedule_iff found).mpr ⟨built, first, List.mem_singleton.mpr rfl, way⟩

theorem schedule_redundant (redundant : c.Redundant earlier root) (others : earlier ++ later ≠ []) :
    c.schedule (earlier ++ root :: later) = c.schedule (earlier ++ later) := by
  rw [schedule_eq_merged c (by simp), schedule_eq_merged c others, singleSchedules_append,
    singleSchedules_append, singleSchedules_cons]
  cases made : c.singleSchedules earlier with
  | error fault => rfl
  | ok orders =>
    obtain ⟨t, alone, inside⟩ := redundant.schedule made
    rw [alone]
    cases c.singleSchedules later with
    | error fault => rfl
    | ok others =>
      simp only [Except.bind, Except.map, List.flatMap_append, List.flatMap_cons]
      rw [← List.append_assoc, eraseDups_append_congr (eraseDups_append_within inside)]

end Catalog

namespace Collector

-- Two histories of one catalog cannot be told apart by what they answer next.
theorem visits_history_independent (c : Catalog) :
    (∀ visited root,
      (((start c).afterVisits visited).visit root).1 = ((start c).visit root).1 ∧
      (((start c).afterVisits visited).visit root).2.collected.toList =
        ((start c).afterVisits visited).collected.toList ++
          ((start c).visit root).2.collected.toList.filter
            (· ∉ ((start c).afterVisits visited).collected.toList)) ∧
    (∀ roots, roots ≠ [] →
      c.schedule roots = (roots.mapM fun root => c.schedule [root]).map fun orders =>
        ⟨(orders.flatMap Schedule.names).eraseDups⟩) ∧
    (∀ earlier root later, c.Redundant earlier root → earlier ++ later ≠ [] →
      c.schedule (earlier ++ root :: later) = c.schedule (earlier ++ later)) ∧
    (∀ visited root later,
      (((start c).afterVisits (visited ++ root :: later)).visit root).1 =
        (((start c).afterVisits visited).visit root).1 ∧
      (((start c).afterVisits (visited ++ root :: later)).visit root).2.collected.toList =
        ((start c).afterVisits (visited ++ root :: later)).collected.toList) := by
  refine ⟨afterVisits_visit_eq_first c, ?_, ?_, ?_⟩
  · intro roots some_root
    exact Catalog.schedule_eq_merged c some_root
  · intro earlier root later redundant others
    exact Catalog.schedule_redundant redundant others
  · intro visited root later
    exact visit_again c visited later root

def broken : Catalog :=
  Catalog.empty.add ⟨"app", ["base", "ghost", "tool"]⟩ rfl
    |>.add ⟨"base", []⟩ rfl
    |>.add ⟨"tool", ["base"]⟩ rfl

theorem broken_history_independent :
    ((start broken).visit "app").1 = .error (.unknown "ghost" ["app"]) ∧
    (((start broken).afterVisits ["app"]).visit "tool").2.collected.toList = ["base", "tool"] ∧
    (((start broken).afterVisits ["app", "tool"]).visit "app").1 = ((start broken).visit "app").1 ∧
    broken.schedule ["base", "app"] = .error (.unknown "ghost" ["app"]) ∧
    broken.Redundant ["tool"] "base" ∧
    broken.schedule ["tool", "base", "base"] = broken.schedule ["tool", "base"] := by
  obtain ⟨first, merged, redundant, again⟩ := visits_history_independent broken
  have covered : broken.Redundant ["tool"] "base" := .of_reaches (List.mem_singleton.mpr rfl)
    (.step ⟨⟨"tool", ["base"]⟩, by rfl, by simp⟩ (.refl "base"))
  refine ⟨by rfl, (first ["app"] "tool").2.trans (by rfl), (again [] "app" ["tool"]).1,
    (merged ["base", "app"] (by simp)).trans (by rfl), covered, ?_⟩
  exact redundant ["tool"] "base" ["base"] covered (by simp)

end Collector
end BuildPlan
