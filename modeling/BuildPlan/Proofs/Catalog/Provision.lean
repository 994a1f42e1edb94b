import BuildPlan.Proofs.Catalog.Additions
import BuildPlan.Proofs.Graph.Image

namespace BuildPlan

namespace Catalog

variable {c : Catalog} {name : Name}

def isBuilt (c : Catalog) (name : Name) : Bool := !c.isAssumed name

-- Without the tasks of provided names, without provided needs, and with nothing provided.
def deleteAssumed (c : Catalog) : Catalog :=
  made (c.buildable.map fun task => ⟨task.name, task.needs.filter c.isBuilt⟩) []

theorem image_isBuilt (c : Catalog) (task : Task) :
    task.image c.isBuilt id = ⟨task.name, task.needs.filter c.isBuilt⟩ := by simp [Task.image]

theorem tasks_deleteAssumed (c : Catalog) :
    c.deleteAssumed.tasks = c.buildable.map (Task.image c.isBuilt id) := by
  have distinct := Graph.builtNames_nodup c
  rw [deleteAssumed, tasks_made (by simpa [Graph.builtNames, Function.comp_def] using distinct)]
  exact List.map_congr_left fun task _ => (image_isBuilt c task).symm

@[simp] theorem isAssumed_deleteAssumed (c : Catalog) (name : Name) :
    c.deleteAssumed.isAssumed name = false := by
  rw [Bool.eq_false_iff, deleteAssumed, ne_eq, isAssumed_made]
  exact List.not_mem_nil

theorem names_deleteAssumed (c : Catalog) : c.deleteAssumed.names = c.names.filter c.isBuilt := by
  simp only [names, tasks_deleteAssumed, buildable, List.filter_map, List.map_map]
  rfl

theorem buildable_deleteAssumed (c : Catalog) :
    c.deleteAssumed.buildable = c.buildable.map (Task.image c.isBuilt id) := by
  simp [buildable, tasks_deleteAssumed]

theorem find?_buildable (built : c.isAssumed name = false) :
    c.buildable.find? (·.name == name) = c.find? name := by
  rw [buildable, List.find?_filter, find?_eq]
  congr 1
  funext task
  by_cases same : task.name = name
  · simp [same, built]
  · simp [same]

theorem deleteAssumed_image (c : Catalog) :
    c.Image c.deleteAssumed c.isBuilt id fun _ => True := by
  refine ⟨Function.injective_id, ?_, ?_, ?_, fun _ _ _ _ => trivial⟩
  · intro name drop
    simpa [isBuilt] using drop
  · intro name _ keep
    simpa [isBuilt] using keep
  · intro name _ built
    rw [find?_eq, tasks_deleteAssumed, ← find?_buildable built, List.find?_map]
    rfl

end Catalog

section Trace

variable {c : Catalog} {w after : Walk} {name root : Name} {k : Collector} {fault : Fault}

def OpensBuilt (c : Catalog) (events : Array Event) : Prop :=
  ∀ name depth, .visited name depth ∈ events → c.isAssumed name = false

theorem OpensBuilt.push {events : Array Event} {event : Event} (built : OpensBuilt c events)
    (other : ∀ name depth, event = .visited name depth → c.isAssumed name = false) :
    OpensBuilt c (events.push event) := by
  intro name depth member
  rcases Array.mem_push.mp member with old | new
  · exact built name depth old
  · exact other name depth new.symm

theorem Walk.Entering.opensBuilt (entering : Walk.Entering c w name after)
    (built : OpensBuilt c w.events) : OpensBuilt c after.events := by
  cases entering with
  | skipped => exact built.push (by simp)
  | known | circular | unknown => exact built
  | opened found =>
    apply built.push
    intro name depth same
    cases same
    exact (Catalog.taskOf_registered found).2.2

theorem Walk.Step.opensBuilt (step : Walk.Step c w after) (built : OpensBuilt c w.events) :
    OpensBuilt c after.events := by
  cases step with
  | close => exact built.push (by simp)
  | pass => exact built
  | enter _ _ entering => exact entering.opensBuilt built

namespace Collector

theorem walk_opensBuilt (built : OpensBuilt k.catalog k.events) (root : Name) :
    OpensBuilt k.catalog (k.walk root).events := by
  have entered : OpensBuilt k.catalog
      (Walk.enter k.catalog root ⟨k.collected, k.active, [], k.events, none⟩).events :=
    (Walk.enter_sound k.catalog _ root).opensBuilt built
  apply @Walk.run_keeps k.catalog (fun w => OpensBuilt k.catalog w.events) _ k.limit _ entered
  intro w after _ step
  exact step.opensBuilt

theorem visit_opensBuilt (sound : k.Sound) (built : OpensBuilt k.catalog k.events) (root : Name) :
    OpensBuilt k.catalog (k.visit root).2.events := by
  have walked := walk_opensBuilt built root
  rcases walk_cases sound root with ⟨finished, _⟩ | ⟨fault, failed, _⟩
  · rw [visit_of_finished finished]
    exact walked
  · rw [visit_of_fault failed]
    exact walked.push (by simp)

theorem afterVisits_opensBuilt (sound : k.Sound) (built : OpensBuilt k.catalog k.events)
    (visited : List Name) : OpensBuilt k.catalog (k.afterVisits visited).events := by
  induction visited generalizing k with
  | nil => exact built
  | cons root rest ih =>
    have first := visit_visited sound root
    rw [← first.catalog]
    apply ih first.sound
    rw [first.catalog]
    exact visit_opensBuilt sound built root

end Collector

theorem Catalog.LeftmostFault.names_built (faulty : c.LeftmostFault root fault) :
    ∀ name ∈ fault.names, c.isAssumed name = false := by
  have waiting : ∀ {path last}, c.LeftmostPath root path last → ∀ name ∈ path, c.isAssumed name = false := by
    intro path last way name member
    obtain ⟨need, blocked, _⟩ := way.blocked_of_mem member
    exact blocked.needs.not_assumed
  intro name said
  cases faulty with
  | unknown way _ built =>
    rcases List.mem_append.mp said with above | last
    · exact waiting way name above
    · cases List.mem_singleton.mp last
      exact built
  | circular way _ again =>
    rcases List.mem_append.mp said with above | last
    · exact waiting way name above
    · cases List.mem_singleton.mp last
      exact waiting way _ again

end Trace

namespace Catalog

open Collector (start)

theorem afterVisits_deleteAssumed (c : Catalog) (visited : List Name) :
    ((start c).afterVisits visited).Shows
      ((start c.deleteAssumed).afterVisits (visited.filter c.isBuilt)) c.isBuilt id fun _ => True := by
  have shows := (Collector.start_shows c.deleteAssumed_image).afterVisits fun root (_ : root ∈ visited) => trivial
  rwa [List.map_id] at shows

theorem schedule_deleteAssumed (c : Catalog) : c.deleteAssumed.schedule [] = c.schedule [] := by
  have everything : c.deleteAssumed.rootsOf [] = ((c.rootsOf []).filter c.isBuilt).map id := by
    rw [List.map_id]
    exact names_deleteAssumed c
  rw [c.deleteAssumed_image.schedule (fun _ _ => trivial) everything, renameOutcome_id]

theorem ofCatalog_deleteAssumed (c : Catalog) :
    Graph.ofCatalog c.deleteAssumed = Graph.ofCatalog c := by
  rw [Graph.ofCatalog_image c.deleteAssumed_image (buildable_deleteAssumed c), Graph.rename_id]

-- Deleting them changes nothing, and nothing is ever done for them or said of them.
theorem assumed_as_deleted (c : Catalog) :
    (∀ visited,
      ((start c.deleteAssumed).afterVisits (visited.filter c.isBuilt)).collected.toList =
        ((start c).afterVisits visited).collected.toList ∧
      ∀ root,
        (c.isAssumed root = false →
          (((start c.deleteAssumed).afterVisits (visited.filter c.isBuilt)).visit root).1 =
            (((start c).afterVisits visited).visit root).1) ∧
        (c.isAssumed root = true →
          (((start c).afterVisits visited).visit root).1 = .ok () ∧
          (((start c).afterVisits visited).visit root).2.collected.toList =
            ((start c).afterVisits visited).collected.toList)) ∧
    c.deleteAssumed.schedule [] = c.schedule [] ∧
    (Graph.ofCatalog c.deleteAssumed = Graph.ofCatalog c ∧ c.deleteAssumed.faults = c.faults) ∧
    (∀ visited root name, c.isAssumed name = true →
      name ∉ ((start c).afterVisits visited).collected ∧
      (∀ depth, .visited name depth ∉ ((start c).afterVisits visited).events) ∧
      ∀ fault, (((start c).afterVisits visited).visit root).1 = .error fault → name ∉ fault.names) := by
  have same_graph := ofCatalog_deleteAssumed c
  refine ⟨?_, schedule_deleteAssumed c, ⟨same_graph, by rw [faults, faults, same_graph]⟩, ?_⟩
  · intro visited
    have shows := afterVisits_deleteAssumed c visited
    have catalog := (Collector.afterVisits_visited (Collector.start_sound c) visited).catalog
    refine ⟨shows.collected.trans (List.map_id _), ?_⟩
    intro root
    constructor
    · intro built
      have keep : c.isBuilt root = true := by simp [isBuilt, built]
      have answered := (shows.visit trivial keep).1
      rwa [renameAnswer_id] at answered
    · intro provided
      exact Collector.visit_provided shows.sound (catalog.symm ▸ provided)
  · intro visited root name provided
    have never : c.isAssumed name ≠ false := by simp [provided]
    have earlier := Collector.afterVisits_visited (Collector.start_sound c) visited
    have traced := Collector.afterVisits_opensBuilt (Collector.start_sound c)
      (fun _ _ opened => absurd opened (Array.not_mem_empty _)) visited
    refine ⟨?_, ?_, ?_⟩
    · intro collected
      exact never (earlier.order.built name collected).2
    · intro depth opened
      exact never (traced name depth opened)
    · intro fault failed said
      have leftmost := (Collector.afterVisits_error_iff c visited).mp failed
      exact never (leftmost.names_built name said)

def outfitted : Catalog :=
  Catalog.empty.add ⟨"app", ["cc", "lib", "cc"]⟩ rfl
    |>.add ⟨"cc", ["app", "lost"]⟩ rfl
    |>.add ⟨"lib", ["cc", "ghost", "cc"]⟩ rfl
    |>.add ⟨"doc", ["lib", "doc"]⟩ rfl
    |>.assume "cc"

theorem outfitted_as_deleted :
    outfitted.isAssumed "cc" = true ∧ outfitted.isAssumed "app" = false ∧
    ((start outfitted).visit "cc").1 = .ok () ∧
    ((start outfitted.deleteAssumed).visit "app").1 = .error (.unknown "ghost" ["app", "lib"]) ∧
    "cc" ∉ (Fault.unknown "ghost" ["app", "lib"]).names ∧
    outfitted.deleteAssumed.faults = [.missing [("lib", "ghost")], .cyclic ["doc"]] := by
  obtain ⟨visits, _, ⟨_, same_faults⟩, untouched⟩ := assumed_as_deleted outfitted
  have provided : outfitted.isAssumed "cc" = true := by rfl
  have built : outfitted.isAssumed "app" = false := by rfl
  have failed : ((start outfitted).visit "app").1 = .error (.unknown "ghost" ["app", "lib"]) := by rfl
  have answers := (visits []).2
  exact ⟨provided, built, ((answers "cc").2 provided).1, ((answers "app").1 built).trans failed,
    (untouched [] "app" "cc" provided).2.2 _ failed, same_faults.trans (by rfl)⟩

end Catalog
end BuildPlan
