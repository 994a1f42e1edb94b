import BuildPlan.Proofs.Walk.Effort

namespace BuildPlan.Collector

structure Sound (k : Collector) : Prop where
  idle : k.active.toList = []
  order : k.catalog.ValidOrder k.collected.toList

structure Visited (k : Collector) (roots : List Name) (after : Collector) : Prop where
  catalog : after.catalog = k.catalog
  sound : after.Sound
  grown : ∃ grown, after.collected.toList = k.collected.toList ++ grown ∧
    ∀ name ∈ grown, ∃ root ∈ roots, k.catalog.Reaches root name

-- One visit after the other, also after those that fail.
def afterVisits (k : Collector) (roots : List Name) : Collector :=
  roots.foldl (fun k root => (k.visit root).2) k

variable {k after : Collector} {root : Name} {roots : List Name} {fault : Fault}

theorem start_sound (c : Catalog) : (start c).Sound := ⟨NameSet.toList_empty, .nil⟩

theorem begin_accounted (sound : k.Sound) (root : Name) :
    Walk.Accounted k.catalog k.collected.toList root ⟨k.collected, k.active, [], k.events, none⟩ := by
  refine ⟨sound.idle, ?_, sound.order, [], (List.append_nil _).symm, by simp⟩
  intro name active
  rw [NameSet.mem_def, sound.idle] at active
  cases active

theorem enter_root_coherent (sound : k.Sound) (root : Name) :
    Walk.Coherent k.catalog k.collected.toList root
      (Walk.enter k.catalog root ⟨k.collected, k.active, [], k.events, none⟩) :=
  (Walk.enter_sound k.catalog _ root).coherent (begin_accounted sound root) rfl .root

theorem walk_coherent (sound : k.Sound) (root : Name) :
    Walk.Coherent k.catalog k.collected.toList root (k.walk root) :=
  Walk.run_coherent k.limit (enter_root_coherent sound root)

theorem walk_halted (sound : k.Sound) (root : Name) : (k.walk root).halted = true := by
  refine Walk.run_halted k.limit (enter_root_coherent sound root) ?_
  rw [k.limit_exact]
  exact Nat.le_trans (Walk.enter_sound k.catalog _ root).opening.effort_le (Walk.effort_le_walkBound rfl)

theorem walk_cases (sound : k.Sound) (root : Name) :
    ((k.walk root).fault = none ∧ (k.walk root).expansions = [] ∧
      k.catalog.Settled (k.walk root).collected.toList root) ∨
    ∃ fault, (k.walk root).fault = some fault ∧ k.catalog.LeftmostFault root fault :=
  (walk_coherent sound root).halted_cases (walk_halted sound root)

theorem visit_of_finished (finished : (k.walk root).fault = none) :
    k.visit root = (.ok (), { k with
      collected := (k.walk root).collected
      active := (k.walk root).active
      events := (k.walk root).events }) := by
  simp [visit, finished]

theorem visit_of_fault (failed : (k.walk root).fault = some fault) :
    k.visit root = (.error fault, { k with
      collected := (k.walk root).collected
      active := (k.walk root).active.truncate k.active.size
      events := (k.walk root).events.push (.rootFailed root fault) }) := by
  simp [visit, failed]

theorem visit_cases (sound : k.Sound) (root : Name) :
    ((k.visit root).1 = .ok () ∧ k.catalog.Settled (k.visit root).2.collected.toList root) ∨
    ∃ fault, (k.visit root).1 = .error fault ∧ k.catalog.LeftmostFault root fault := by
  rcases walk_cases sound root with ⟨finished, _, settled⟩ | ⟨fault, failed, leftmost⟩
  · rw [visit_of_finished finished]
    exact .inl ⟨rfl, settled⟩
  · rw [visit_of_fault failed]
    exact .inr ⟨fault, rfl, leftmost⟩

theorem visit_visited (sound : k.Sound) (root : Name) : Visited k [root] (k.visit root).2 := by
  have coherent := walk_coherent sound root
  have grown : ∃ grown, (k.walk root).collected.toList = k.collected.toList ++ grown ∧
      ∀ name ∈ grown, ∃ from_root ∈ [root], k.catalog.Reaches from_root name := by
    obtain ⟨grown, split, reached⟩ := coherent.grown
    exact ⟨grown, split, fun name member => ⟨root, by simp, reached name member⟩⟩
  rcases walk_cases sound root with ⟨finished, closed, _⟩ | ⟨fault, failed, _⟩
  · rw [visit_of_finished finished]
    refine ⟨rfl, ⟨?_, coherent.order⟩, grown⟩
    change (k.walk root).active.toList = []
    rw [coherent.path, closed]
    rfl
  · rw [visit_of_fault failed]
    refine ⟨rfl, ⟨?_, coherent.order⟩, grown⟩
    change ((k.walk root).active.truncate k.active.size).toList = []
    rw [NameSet.toList_truncate, NameSet.size_eq, sound.idle]
    rfl

theorem visit_settles (sound : k.Sound) (done : (k.visit root).1 = .ok ()) :
    k.catalog.Settled (k.visit root).2.collected.toList root := by
  rcases visit_cases sound root with ⟨_, settled⟩ | ⟨fault, failed, _⟩
  · exact settled
  · rw [done] at failed; cases failed

namespace Visited

theorem order (visited : Visited k roots after) : k.catalog.ValidOrder after.collected.toList := by
  rw [← visited.catalog]
  exact visited.sound.order

theorem refl (sound : k.Sound) : Visited k [] k :=
  ⟨rfl, sound, [], (List.append_nil _).symm, by simp⟩

theorem trans {middle : Collector} {more : List Name} (first : Visited k roots middle)
    (second : Visited middle more after) : Visited k (roots ++ more) after := by
  obtain ⟨grown, split, reached⟩ := first.grown
  obtain ⟨grown', split', reached'⟩ := second.grown
  refine ⟨second.catalog.trans first.catalog, second.sound, grown ++ grown', ?_, ?_⟩
  · rw [split', split, List.append_assoc]
  · intro name member
    rcases List.mem_append.mp member with old | new
    · obtain ⟨root, asked, path⟩ := reached name old
      exact ⟨root, List.mem_append_left _ asked, path⟩
    · obtain ⟨root, asked, path⟩ := reached' name new
      exact ⟨root, List.mem_append_right _ asked, first.catalog ▸ path⟩

theorem weaken {more : List Name} (visited : Visited k roots after) : Visited k (roots ++ more) after := by
  obtain ⟨grown, split, reached⟩ := visited.grown
  refine ⟨visited.catalog, visited.sound, grown, split, ?_⟩
  intro name member
  obtain ⟨root, asked, path⟩ := reached name member
  exact ⟨root, List.mem_append_left _ asked, path⟩

theorem settled {name : Name} (visited : Visited k roots after)
    (settled : k.catalog.Settled k.collected.toList name) :
    k.catalog.Settled after.collected.toList name := by
  obtain ⟨grown, split, _⟩ := visited.grown
  rw [split]
  exact settled.append grown

end Visited

theorem visit_error_iff (sound : k.Sound) :
    (k.visit root).1 = .error fault ↔ k.catalog.LeftmostFault root fault := by
  rcases visit_cases sound root with ⟨done, settled⟩ | ⟨found, failed, leftmost⟩
  · have buildable := (visit_visited sound root).order.buildable settled
    rw [done]
    constructor
    · intro impossible; cases impossible
    · intro faulty; exact absurd buildable faulty.not_buildable
  · rw [failed]
    constructor
    · intro same; cases same; exact leftmost
    · intro faulty; rw [leftmost.unique faulty]

theorem visit_ok_iff (sound : k.Sound) : (k.visit root).1 = .ok () ↔ k.catalog.Buildable root := by
  constructor
  · intro done
    exact (visit_visited sound root).order.buildable (visit_settles sound done)
  · intro buildable
    rcases visit_cases sound root with ⟨done, _⟩ | ⟨_, _, leftmost⟩
    · exact done
    · exact absurd buildable leftmost.not_buildable

theorem afterVisits_visited (sound : k.Sound) (roots : List Name) :
    Visited k roots (k.afterVisits roots) := by
  induction roots generalizing k with
  | nil => exact .refl sound
  | cons root rest ih =>
    have first := visit_visited sound root
    exact first.trans (ih first.sound)

theorem visitAll_of_ok {rest : List Name} (done : (k.visit root).1 = .ok ()) :
    k.visitAll (root :: rest) = (k.visit root).2.visitAll rest := by
  rcases visited : k.visit root with ⟨answer, next⟩
  rw [visited] at done
  cases done
  simp [visitAll, visited]

theorem visitAll_of_error {rest : List Name} (failed : (k.visit root).1 = .error fault) :
    k.visitAll (root :: rest) = k.visit root := by
  rcases visited : k.visit root with ⟨answer, next⟩
  rw [visited] at failed
  cases failed
  simp [visitAll, visited]

theorem visitAll_visited (sound : k.Sound) (roots : List Name) : Visited k roots (k.visitAll roots).2 := by
  induction roots generalizing k with
  | nil => exact .refl sound
  | cons root rest ih =>
    have first := visit_visited sound root
    rcases visit_cases sound root with ⟨done, _⟩ | ⟨fault, failed, _⟩
    · rw [visitAll_of_ok done]
      exact first.trans (ih first.sound)
    · rw [visitAll_of_error failed]
      exact first.weaken

theorem visitAll_settles (sound : k.Sound) (done : (k.visitAll roots).1 = .ok ()) :
    ∀ root ∈ roots, k.catalog.Settled (k.visitAll roots).2.collected.toList root := by
  induction roots generalizing k with
  | nil => intro root asked; cases asked
  | cons first rest ih =>
    have visited := visit_visited sound first
    rcases visit_cases sound first with ⟨first_done, settled⟩ | ⟨fault, failed, _⟩
    · rw [visitAll_of_ok first_done] at done ⊢
      intro root asked
      rcases List.mem_cons.mp asked with rfl | later
      · have kept := (visitAll_visited visited.sound rest).settled (visited.catalog ▸ settled)
        exact visited.catalog ▸ kept
      · exact visited.catalog ▸ ih visited.sound done root later
    · rw [visitAll_of_error failed, failed] at done
      cases done

-- The visits go on up to the first root that cannot be built, and its fault is the answer.
theorem visitAll_error_iff (sound : k.Sound) :
    (k.visitAll roots).1 = .error fault ↔ ∃ earlier root later, roots = earlier ++ root :: later ∧
      (∀ name ∈ earlier, k.catalog.Buildable name) ∧ k.catalog.LeftmostFault root fault := by
  induction roots generalizing k with
  | nil => simp [visitAll]
  | cons first rest ih =>
    have visited := visit_visited sound first
    rcases visit_cases sound first with ⟨done, _⟩ | ⟨found, failed, leftmost⟩
    · have buildable := (visit_ok_iff sound).mp done
      rw [visitAll_of_ok done, ih visited.sound, visited.catalog]
      constructor
      · rintro ⟨earlier, root, later, rfl, good, bad⟩
        refine ⟨first :: earlier, root, later, rfl, ?_, bad⟩
        intro name member
        rcases List.mem_cons.mp member with rfl | inside
        · exact buildable
        · exact good name inside
      · rintro ⟨earlier, root, later, split, good, bad⟩
        cases earlier with
        | nil =>
          cases (List.cons.inj split).1
          exact absurd buildable bad.not_buildable
        | cons head earlier =>
          refine ⟨earlier, root, later, (List.cons.inj split).2, ?_, bad⟩
          exact fun name member => good name (List.mem_cons_of_mem _ member)
    · rw [visitAll_of_error failed, failed]
      constructor
      · intro same
        cases same
        exact ⟨[], first, rest, rfl, by simp, leftmost⟩
      · rintro ⟨earlier, root, later, split, good, bad⟩
        cases earlier with
        | nil =>
          cases (List.cons.inj split).1
          rw [leftmost.unique bad]
        | cons head earlier =>
          cases (List.cons.inj split).1
          exact absurd (good first (List.mem_cons_self ..)) leftmost.not_buildable

theorem visitAll_ok_iff (sound : k.Sound) :
    (k.visitAll roots).1 = .ok () ↔ ∀ root ∈ roots, k.catalog.Buildable root := by
  constructor
  · intro done root asked
    exact (visitAll_visited sound roots).order.buildable (visitAll_settles sound done root asked)
  · intro good
    cases answer : (k.visitAll roots).1 with
    | ok => rfl
    | error fault =>
      obtain ⟨earlier, root, later, rfl, _, leftmost⟩ := (visitAll_error_iff sound).mp answer
      exact absurd (good root (by simp)) leftmost.not_buildable

-- An aborted walk leaves open frames behind, but no open names, and nothing closed too early.
theorem visits_keep_order (c : Catalog) (visited : List Name) :
    ((start c).afterVisits visited).active.toList = [] ∧
    c.ValidOrder ((start c).afterVisits visited).collected.toList ∧
    c.ValidOrder ((start c).afterVisits visited).finish.1.names ∧
    ∀ root, ((start c).afterVisits visited).collected.toList <+:
      (((start c).afterVisits visited).visit root).2.collected.toList := by
  have earlier := afterVisits_visited (start_sound c) visited
  refine ⟨earlier.sound.idle, earlier.order, earlier.order, ?_⟩
  intro root
  obtain ⟨grown, split, _⟩ := (visit_visited earlier.sound root).grown
  exact ⟨grown, split.symm⟩

end BuildPlan.Collector
