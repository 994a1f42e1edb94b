import BuildPlan.Proofs.Collector.Schedule
import BuildPlan.Proofs.Graph.Numbering

namespace BuildPlan.Catalog

variable {c : Catalog} {root name task need : Name} {roots path before after : List Name} {s : Schedule}

theorem isValid_iff_clean :
    c.isValid = true ↔ (Graph.ofCatalog c).missing = [] ∧ (Graph.ofCatalog c).cycles = [] := by
  unfold isValid faults Graph.faults
  cases (Graph.ofCatalog c).missing <;> simp

theorem Reaches.eq_or_needed (way : c.Reaches root name) : name = root ∨ ∃ task, c.Needs task name := by
  induction way with
  | refl => exact .inl rfl
  | step needs _ ih =>
    rcases ih with rfl | needed
    · exact .inr ⟨_, needs⟩
    · exact .inr needed

theorem Needs.mem_names (needs : c.Needs task need) : task ∈ c.names := by
  obtain ⟨t, found, _⟩ := needs
  exact taskOf_mem_names found

theorem not_buildable_of_missing (missing : (task, need) ∈ (Graph.ofCatalog c).missing) :
    ¬ c.Buildable task := by
  obtain ⟨needs, built, lost⟩ := Graph.mem_missing_iff.mp missing
  exact fun buildable => lost ((buildable.need needs).registered built)

theorem not_buildable_of_cycle {members : List Name} (listed : members ∈ (Graph.ofCatalog c).cycles)
    (member : name ∈ members) : ¬ c.Buildable name :=
  fun buildable => buildable.not_onCycle ((Graph.cycles_sound listed).onCycle name member)

theorem isValid_iff_buildable : c.isValid = true ↔ ∀ name ∈ c.names, c.Buildable name := by
  rw [isValid_iff_clean]
  constructor
  · rintro ⟨no_missing, no_cycles⟩ root registered
    rw [buildable_iff_reaches]
    intro name way built
    refine ⟨?_, ?_⟩
    · rcases way.eq_or_needed with rfl | ⟨task, needs⟩
      · exact registered
      · by_contra lost
        have missing := Graph.mem_missing_iff.mpr ⟨needs, built, lost⟩
        rw [no_missing] at missing
        cases missing
    · intro cycle
      obtain ⟨members, listed, _⟩ := Graph.exists_cycle cycle
      rw [no_cycles] at listed
      cases listed
  · intro good
    refine ⟨List.eq_nil_iff_forall_not_mem.mpr ?_, List.eq_nil_iff_forall_not_mem.mpr ?_⟩
    · rintro ⟨task, need⟩ missing
      have needs := (Graph.mem_missing_iff.mp missing).1
      exact not_buildable_of_missing missing (good task needs.mem_names)
    · intro members listed
      obtain ⟨name, member⟩ := List.exists_mem_of_ne_nil _ (Graph.cycles_sound listed).some_member
      obtain ⟨need, needs, _⟩ := (Graph.cycles_sound listed).onCycle name member
      exact not_buildable_of_cycle listed member (good name needs.mem_names)

theorem schedule_single_fails (failing : ¬ c.Buildable root) :
    ∃ fault, c.schedule [root] = .error fault := by
  cases made : c.schedule [root] with
  | error fault => exact ⟨fault, rfl⟩
  | ok s => exact absurd (schedule_ok_iff_buildable.mp ⟨s, made⟩ root (List.mem_singleton.mpr rfl)) failing

namespace LeftmostPath

theorem split (way : c.LeftmostPath root (before ++ after) name) :
    ∃ middle, c.LeftmostPath root before middle ∧ c.LeftmostPath middle after name := by
  induction before generalizing root with
  | nil => exact ⟨root, .here root, way⟩
  | cons first rest ih =>
    cases way with
    | step blocked below =>
      obtain ⟨middle, above, onward⟩ := ih below
      exact ⟨middle, .step blocked above, onward⟩

theorem last_blocked {last : Name} (way : c.LeftmostPath root (path ++ [last]) name) :
    c.FirstBlocked last name := by
  obtain ⟨middle, _, end_way⟩ := way.split
  cases end_way with
  | step blocked rest =>
    cases rest
    exact blocked

theorem reaches_of_mem (way : c.LeftmostPath root path name) (member : task ∈ path) :
    c.Reaches root task := by
  induction way with
  | here => cases member
  | step first _ ih =>
    rcases List.mem_cons.mp member with rfl | later
    · exact .refl _
    · exact .step first.needs (ih later)

-- From where a path meets its end for the first time it goes round in a circle.
theorem ring (way : c.LeftmostPath root (before ++ task :: after) task) (member : name ∈ task :: after) :
    c.Reaches task name ∧ c.Reaches name task := by
  obtain ⟨middle, _, circle⟩ := way.split
  obtain rfl : middle = task := by
    cases circle
    rfl
  obtain ⟨need, blocked, back⟩ := circle.blocked_of_mem member
  exact ⟨circle.reaches_of_mem member, .step blocked.needs back⟩

end LeftmostPath

theorem LeftmostFault.missing {last : Name} (faulty : c.LeftmostFault root (.unknown name (path ++ [last]))) :
    (last, name) ∈ (Graph.ofCatalog c).missing := by
  cases faulty with
  | unknown way _ built lost =>
    exact Graph.mem_missing_iff.mpr ⟨way.last_blocked.needs, built, lost⟩

theorem LeftmostFault.cycle (faulty : c.LeftmostFault root (.circular path task)) :
    task ∈ path ∧ ∃ members ∈ (Graph.ofCatalog c).cycles, ∀ before after,
      path = before ++ task :: after → ∀ name ∈ task :: after, name ∈ members := by
  cases faulty with
  | circular way _ again =>
    obtain ⟨members, listed, member⟩ := Graph.exists_cycle (way.onCycle again)
    refine ⟨again, members, listed, ?_⟩
    rintro before after rfl name there
    exact ((Graph.cycles_sound listed).belongs task member name).mpr (way.ring there)

theorem names_ofCatalog (c : Catalog) :
    (Graph.ofCatalog c).nodes.toList.map Graph.Node.name = c.buildable.map Task.name := by
  simp [Graph.ofCatalog]

theorem full_schedule_forward (made : c.schedule [] = .ok s) {node other : Nat}
    (edge : other ∈ (Graph.ofCatalog c).needsOf node) :
    ∃ earlier later, s.position? ((Graph.ofCatalog c).nameOf other) = some earlier ∧
      s.position? ((Graph.ofCatalog c).nameOf node) = some later ∧ earlier < later := by
  have order := schedule_order made
  obtain ⟨name, numbers⟩ := Graph.exists_name_of_lt (Graph.needsOf_lt edge)
  obtain ⟨need, numbers_need, needs⟩ := numbers.mem_needsOf_iff.mp edge
  obtain ⟨task, _, rfl, found⟩ := numbers.task
  obtain ⟨known, _, built⟩ := taskOf_registered found
  have member := (mem_full_schedule_iff made).mpr ⟨List.mem_map_of_mem known, built⟩
  obtain ⟨later, standing⟩ := List.mem_iff_getElem?.mp member
  have need_built := (Graph.exists_numbers_iff_names.mp ⟨other, numbers_need⟩).2
  obtain ⟨earlier, before, there⟩ :=
    order.needs_first later task standing known need (needs.mem found) need_built
  rw [numbers.nameOf_eq, numbers_need.nameOf_eq]
  exact ⟨earlier, later, (Schedule.position?_eq_some_iff order.distinct).mpr there,
    (Schedule.position?_eq_some_iff order.distinct).mpr standing, before⟩

-- One looks at everything, the other stops at the first fault; they never disagree.
theorem validity_agrees (c : Catalog) :
    (c.isValid = true ↔ ∃ s, c.schedule [] = .ok s) ∧
    (∀ s, c.schedule [] = .ok s →
      s.names.Perm ((Graph.ofCatalog c).nodes.toList.map Graph.Node.name) ∧
      ∀ node, ∀ need ∈ (Graph.ofCatalog c).needsOf node, ∃ earlier later,
        s.position? ((Graph.ofCatalog c).nameOf need) = some earlier ∧
        s.position? ((Graph.ofCatalog c).nameOf node) = some later ∧ earlier < later) ∧
    (∀ roots name path last, c.schedule roots = .error (.unknown name (path ++ [last])) →
      (last, name) ∈ (Graph.ofCatalog c).missing) ∧
    (∀ roots path task, c.schedule roots = .error (.circular path task) →
      task ∈ path ∧ ∃ members ∈ (Graph.ofCatalog c).cycles, ∀ before after,
        path = before ++ task :: after → ∀ name ∈ task :: after, name ∈ members) ∧
    (∀ task need, (task, need) ∈ (Graph.ofCatalog c).missing →
      ∃ fault, c.schedule [task] = .error fault) ∧
    (∀ members ∈ (Graph.ofCatalog c).cycles, ∀ name ∈ members,
      ∃ fault, c.schedule [name] = .error fault) := by
  have everything : c.rootsOf [] = c.names := rfl
  refine ⟨?_, ?_, ?_, ?_, ?_, ?_⟩
  · rw [isValid_iff_buildable, schedule_ok_iff_buildable, everything]
  · intro s made
    rw [names_ofCatalog]
    exact ⟨full_schedule_perm made, fun _ _ edge => full_schedule_forward made edge⟩
  · intro roots name path last failed
    obtain ⟨_, root, _, _, _, leftmost⟩ := (Collector.schedule_error_iff c).mp failed
    exact leftmost.missing
  · intro roots path task failed
    obtain ⟨_, root, _, _, _, leftmost⟩ := (Collector.schedule_error_iff c).mp failed
    exact leftmost.cycle
  · intro task need missing
    exact schedule_single_fails (not_buildable_of_missing missing)
  · intro members listed name member
    exact schedule_single_fails (not_buildable_of_cycle listed member)

def tangled : Catalog :=
  Catalog.empty.add ⟨"top", ["base", "x"]⟩ rfl
    |>.add ⟨"base", []⟩ rfl
    |>.add ⟨"x", ["y"]⟩ rfl
    |>.add ⟨"y", ["x", "lost"]⟩ rfl
    |>.add ⟨"odd", ["base", "lost"]⟩ rfl

theorem tangled_and_diamond_agree :
    (tangled.schedule ["top"] = .error (.circular ["top", "x", "y"] "x") ∧
      ∃ members ∈ (Graph.ofCatalog tangled).cycles, ∀ name ∈ ["x", "y"], name ∈ members) ∧
    (tangled.schedule ["odd"] = .error (.unknown "lost" ["odd"]) ∧
      ("odd", "lost") ∈ (Graph.ofCatalog tangled).missing) ∧
    (diamond.schedule [] = .ok ⟨["base", "left", "right", "app"]⟩ ∧ diamond.isValid = true ∧
      ["base", "left", "right", "app"].Perm
        ((Graph.ofCatalog diamond).nodes.toList.map Graph.Node.name)) := by
  obtain ⟨_, _, missing, ring, _⟩ := validity_agrees tangled
  obtain ⟨valid, full, _⟩ := validity_agrees diamond
  have stuck : tangled.schedule ["top"] = .error (.circular ["top", "x", "y"] "x") := by rfl
  have lost : tangled.schedule ["odd"] = .error (.unknown "lost" ["odd"]) := by rfl
  have made : diamond.schedule [] = .ok ⟨["base", "left", "right", "app"]⟩ := by rfl
  obtain ⟨_, members, listed, inside⟩ := ring _ _ _ stuck
  exact ⟨⟨stuck, members, listed, inside ["top"] ["y"] rfl⟩, ⟨lost, missing _ _ [] _ lost⟩,
    made, valid.mpr ⟨_, made⟩, (full _ made).1⟩

end BuildPlan.Catalog
