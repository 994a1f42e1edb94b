import BuildPlan.Proofs.Catalog.Needs
import BuildPlan.Proofs.Graph.Groups

namespace BuildPlan.Graph

variable {c : Catalog} {node other : Nat} {name : Name}

def builtNames (c : Catalog) : List Name := c.buildable.map Task.name

def Numbers (c : Catalog) (node : Nat) (name : Name) : Prop := (builtNames c)[node]? = some name

theorem builtNames_nodup (c : Catalog) : (builtNames c).Nodup :=
  c.names_nodup.sublist (List.filter_sublist.map Task.name)

theorem buildable_mem_iff {task : Task} : task ∈ c.buildable ↔ c.taskOf task.name = some task := by
  rw [Catalog.buildable, List.mem_filter]
  constructor
  · rintro ⟨known, built⟩
    exact Catalog.taskOf_of_mem known (by simpa using built)
  · intro found
    obtain ⟨known, _, built⟩ := Catalog.taskOf_registered found
    exact ⟨known, by simp [built]⟩

namespace Numbers

theorem lt (numbers : Numbers c node name) : node < (builtNames c).length :=
  (List.getElem?_eq_some_iff.mp numbers).1

theorem node_eq (one : Numbers c node name) (two : Numbers c other name) : node = other := by
  obtain ⟨inside, here⟩ := List.getElem?_eq_some_iff.mp one
  obtain ⟨inside', here'⟩ := List.getElem?_eq_some_iff.mp two
  exact (List.getElem_inj (builtNames_nodup c)).mp (here.trans here'.symm)

theorem name_eq {second : Name} (one : Numbers c node name) (two : Numbers c node second) :
    name = second := Option.some.inj (one.symm.trans two)

theorem task (numbers : Numbers c node name) :
    ∃ task, c.buildable[node]? = some task ∧ task.name = name ∧ c.taskOf name = some task := by
  rw [Numbers, builtNames, List.getElem?_map, Option.map_eq_some_iff] at numbers
  obtain ⟨task, found, rfl⟩ := numbers
  exact ⟨task, found, rfl, buildable_mem_iff.mp (List.mem_of_getElem? found)⟩

end Numbers

theorem exists_numbers_iff : (∃ node, Numbers c node name) ↔ ∃ task, c.taskOf name = some task := by
  constructor
  · rintro ⟨node, numbers⟩
    obtain ⟨task, _, _, found⟩ := numbers.task
    exact ⟨task, found⟩
  · rintro ⟨task, found⟩
    obtain ⟨_, rfl, _⟩ := Catalog.taskOf_registered found
    have member : task.name ∈ builtNames c := List.mem_map_of_mem (buildable_mem_iff.mpr found)
    exact List.mem_iff_getElem?.mp member

theorem exists_numbers_iff_names :
    (∃ node, Numbers c node name) ↔ name ∈ c.names ∧ c.isAssumed name = false := by
  rw [exists_numbers_iff]
  constructor
  · rintro ⟨task, found⟩
    exact ⟨Catalog.taskOf_mem_names found, (Catalog.taskOf_eq_some_iff.mp found).1⟩
  · rintro ⟨registered, built⟩
    obtain ⟨task, known, rfl⟩ := List.mem_map.mp registered
    exact ⟨task, Catalog.taskOf_of_mem known built⟩

section Places

variable {α κ : Type} [Ord κ] {place : Nat} {key : κ}

def places (keyOf : α → κ) (list : List α) : Std.TreeMap κ Nat :=
  list.zipIdx.foldl (fun known entry => known.insert (keyOf entry.1) entry.2) ∅

theorem places_concat (keyOf : α → κ) (list : List α) (last : α) :
    places keyOf (list ++ [last]) = (places keyOf list).insert (keyOf last) list.length := by
  simp [places, List.zipIdx_append]

theorem getElem?_concat_iff {list : List α} {last thing : α} :
    (list ++ [last])[place]? = some thing ↔ list[place]? = some thing ∨ place = list.length ∧ last = thing := by
  rcases Nat.lt_trichotomy place list.length with before | rfl | behind
  · simp [List.getElem?_append_left before, Nat.ne_of_lt before]
  · simp
  · have nothing : list[place]? = none := List.getElem?_eq_none (Nat.le_of_lt behind)
    have beyond : (list ++ [last])[place]? = none := List.getElem?_eq_none (by simp; omega)
    simp [nothing, beyond, Nat.ne_of_gt behind]

theorem places_eq_some_iff [Std.TransOrd κ] [Std.LawfulEqOrd κ] {keyOf : α → κ} {list : List α}
    (distinct : (list.map keyOf).Nodup) :
    (places keyOf list)[key]? = some place ↔ (list.map keyOf)[place]? = some key := by
  induction list using List.reverseRecOn with
  | nil => simp [places]
  | append_singleton list last ih =>
    rw [List.map_append, List.nodup_append] at distinct
    rw [places_concat, Std.TreeMap.getElem?_insert, List.map_append, List.map_singleton,
      getElem?_concat_iff, List.length_map]
    split
    · rename_i equal
      have same : keyOf last = key := Std.compare_eq_iff_eq.mp equal
      have absent : (list.map keyOf)[place]? ≠ some key := by
        intro there
        exact distinct.2.2 key (List.mem_of_getElem? there) (keyOf last) (by simp) same.symm
      simp only [absent, same, and_true, false_or, Option.some.injEq]
      exact eq_comm
    · rename_i different
      have apart : keyOf last ≠ key := fun same => different (Std.compare_eq_iff_eq.mpr same)
      simp [ih distinct.1, apart]

end Places

theorem known_iff : (numbering c.buildable)[name]? = some node ↔ Numbers c node name :=
  places_eq_some_iff (builtNames_nodup c)

theorem known_eq_none_iff : (numbering c.buildable)[name]? = none ↔ ∀ node, ¬ Numbers c node name := by
  rw [Option.eq_none_iff_forall_ne_some]
  exact forall_congr' fun node => not_congr known_iff

theorem classify_node_iff {need : Name} :
    (classify c (numbering c.buildable) need).node? = some node ↔ Numbers c node need := by
  unfold classify
  split
  · rename_i provided
    have nothing : ¬ Numbers c node need := by
      intro numbers
      have built := (exists_numbers_iff_names.mp ⟨node, numbers⟩).2
      rw [provided] at built
      cases built
    simp [Need.node?, nothing]
  · cases found : (numbering c.buildable)[need]? with
    | none => simp [Need.node?, known_eq_none_iff.mp found node]
    | some number =>
      rw [known_iff] at found
      constructor
      · intro same
        cases same
        exact found
      · intro numbers
        cases found.node_eq numbers
        rfl

theorem classify_missing_iff {need : Name} : classify c (numbering c.buildable) need = .missing ↔
    c.isAssumed need = false ∧ need ∉ c.names := by
  unfold classify
  split
  · rename_i provided
    simp [provided]
  · rename_i built
    have built : c.isAssumed need = false := Bool.eq_false_iff.mpr built
    cases found : (numbering c.buildable)[need]? with
    | none =>
      refine iff_of_true rfl ⟨built, ?_⟩
      intro registered
      obtain ⟨node, numbers⟩ := exists_numbers_iff_names.mpr ⟨registered, built⟩
      exact known_eq_none_iff.mp found node numbers
    | some number =>
      have registered := (exists_numbers_iff_names.mp ⟨number, known_iff.mp found⟩).1
      simp [registered]

theorem size_ofCatalog (c : Catalog) : (ofCatalog c).nodes.size = (builtNames c).length := by
  simp [ofCatalog, builtNames]

theorem node_ofCatalog (c : Catalog) (node : Nat) : (ofCatalog c).nodes[node]? =
    c.buildable[node]?.map fun task => ⟨task.name, task.needs.filterMap fun need =>
      (classify c (numbering c.buildable) need).node?⟩ := by
  simp [ofCatalog]

theorem Numbers.nameOf_eq (numbers : Numbers c node name) : (ofCatalog c).nameOf node = name := by
  obtain ⟨task, found, same, _⟩ := numbers.task
  simp [nameOf, node_ofCatalog, found, same]

theorem exists_name_of_lt (inside : node < (ofCatalog c).nodes.size) : ∃ name, Numbers c node name := by
  rw [size_ofCatalog] at inside
  exact ⟨_, List.getElem?_eq_getElem inside⟩

theorem Numbers.mem_needsOf_iff {need : Nat} (numbers : Numbers c node name) :
    need ∈ (ofCatalog c).needsOf node ↔ ∃ other, Numbers c need other ∧ c.Needs name other := by
  obtain ⟨task, found, rfl, built⟩ := numbers.task
  have listed : (ofCatalog c).needsOf node = task.needs.filterMap fun need =>
      (classify c (numbering c.buildable) need).node? := by
    simp [needsOf, node_ofCatalog, found]
  rw [listed, List.mem_filterMap]
  constructor
  · rintro ⟨other, declared, edge⟩
    exact ⟨other, classify_node_iff.mp edge, task, built, declared⟩
  · rintro ⟨other, numbers, needs⟩
    exact ⟨other, needs.mem built, classify_node_iff.mpr numbers⟩

theorem ofCatalog_numbered (c : Catalog) : (ofCatalog c).WellNumbered := by
  intro node need needed
  obtain ⟨name, numbers⟩ := exists_name_of_lt (needsOf_lt needed)
  obtain ⟨other, second, _⟩ := numbers.mem_needsOf_iff.mp needed
  rw [size_ofCatalog]
  exact second.lt

theorem mem_missing_iff {task need : Name} : (task, need) ∈ (ofCatalog c).missing ↔
    c.Needs task need ∧ c.isAssumed need = false ∧ need ∉ c.names := by
  simp only [ofCatalog, List.mem_flatMap, List.mem_map, List.mem_filter, beq_iff_eq,
    classify_missing_iff, Prod.mk.injEq]
  constructor
  · rintro ⟨t, member, other, ⟨declared, lost⟩, rfl, rfl⟩
    exact ⟨⟨t, buildable_mem_iff.mp member, declared⟩, lost⟩
  · rintro ⟨⟨t, found, declared⟩, lost⟩
    obtain ⟨_, rfl, _⟩ := Catalog.taskOf_registered found
    exact ⟨t, buildable_mem_iff.mpr found, need, ⟨declared, lost⟩, rfl, rfl⟩

-- A name that reaches a node is a node itself: only tasks that are built need anything.
theorem exists_numbers_of_reaches {last : Name} (way : c.Reaches name last)
    (numbers : Numbers c other last) : ∃ node, Numbers c node name := by
  cases way with
  | refl => exact ⟨other, numbers⟩
  | step needs _ =>
    obtain ⟨task, found, _⟩ := needs
    exact exists_numbers_iff.mpr ⟨task, found⟩

theorem Numbers.reaches_iff {last : Name} (numbers : Numbers c node name)
    (numbers_last : Numbers c other last) :
    (ofCatalog c).Reaches node other ↔ c.Reaches name last := by
  constructor
  · intro path
    induction path generalizing last with
    | refl =>
      cases numbers.name_eq numbers_last
      exact .refl name
    | @tail middle other first needed ih =>
      obtain ⟨task, numbers_middle⟩ := exists_name_of_lt (needsOf_lt needed)
      obtain ⟨need, numbers_need, needs⟩ := numbers_middle.mem_needsOf_iff.mp needed
      cases numbers_need.name_eq numbers_last
      exact (ih numbers_middle).need needs
  · intro way
    induction way generalizing node with
    | refl =>
      cases numbers.node_eq numbers_last
      exact .refl
    | step needs rest ih =>
      obtain ⟨next, numbers_next⟩ := exists_numbers_of_reaches rest numbers_last
      exact .head (numbers.mem_needsOf_iff.mpr ⟨_, numbers_next, needs⟩)
        (ih numbers_next numbers_last)

theorem Numbers.onCycle_iff (numbers : Numbers c node name) :
    (ofCatalog c).OnCycle node ↔ c.OnCycle name := by
  unfold OnCycle Catalog.OnCycle Catalog.ReachesStrictly
  rw [Relation.TransGen.head'_iff]
  constructor
  · rintro ⟨need, needed, back⟩
    obtain ⟨other, numbers_need, needs⟩ := numbers.mem_needsOf_iff.mp needed
    exact ⟨other, needs, (numbers_need.reaches_iff numbers).mp back⟩
  · rintro ⟨other, needs, back⟩
    obtain ⟨need, numbers_need⟩ := exists_numbers_of_reaches back numbers
    exact ⟨need, numbers.mem_needsOf_iff.mpr ⟨other, numbers_need, needs⟩,
      (numbers_need.reaches_iff numbers).mpr back⟩

variable {members : List Name} {group : List Nat}

theorem mem_named_iff (inside : ∀ node ∈ group, node < (ofCatalog c).nodes.size) :
    name ∈ group.map (ofCatalog c).nameOf ↔ ∃ node ∈ group, Numbers c node name := by
  rw [List.mem_map]
  refine exists_congr fun node => and_congr_right fun member => ?_
  obtain ⟨other, numbers⟩ := exists_name_of_lt (inside node member)
  constructor
  · rintro rfl
    rwa [numbers.nameOf_eq]
  · exact Numbers.nameOf_eq

theorem mem_cycles_iff : members ∈ (ofCatalog c).cycles ↔ ∃ group ∈ (ofCatalog c).groups,
    (ofCatalog c).isCyclic group = true ∧ group.map (ofCatalog c).nameOf = members := by
  simp [cycles, and_assoc]

structure IsCycle (c : Catalog) (members : List Name) : Prop where
  some_member : members ≠ []
  onCycle : ∀ name ∈ members, c.OnCycle name
  belongs : ∀ name ∈ members, ∀ other,
    other ∈ members ↔ c.Reaches name other ∧ c.Reaches other name

theorem cycles_sound (listed : members ∈ (ofCatalog c).cycles) : IsCycle c members := by
  obtain ⟨group, found, cyclic, rfl⟩ := mem_cycles_iff.mp listed
  obtain ⟨some_node, is_group, inside⟩ := groups_sound (ofCatalog_numbered c) found
  refine ⟨by simpa using some_node, ?_, ?_⟩
  · intro name member
    obtain ⟨node, there, numbers⟩ := (mem_named_iff inside).mp member
    exact numbers.onCycle_iff.mp ((isCyclic_iff is_group there).mp cyclic)
  · intro name member other
    obtain ⟨node, there, numbers⟩ := (mem_named_iff inside).mp member
    rw [mem_named_iff inside]
    constructor
    · rintro ⟨second, belongs, numbers_other⟩
      obtain ⟨path, back⟩ := (is_group.belongs node there second).mp belongs
      exact ⟨(numbers.reaches_iff numbers_other).mp path, (numbers_other.reaches_iff numbers).mp back⟩
    · rintro ⟨way, back⟩
      obtain ⟨second, numbers_other⟩ := exists_numbers_of_reaches back numbers
      refine ⟨second, (is_group.belongs node there second).mpr ⟨?_, ?_⟩, numbers_other⟩
      · exact (numbers.reaches_iff numbers_other).mpr way
      · exact (numbers_other.reaches_iff numbers).mpr back

theorem exists_cycle (cycle : c.OnCycle name) : ∃ members ∈ (ofCatalog c).cycles, name ∈ members := by
  obtain ⟨need, ⟨task, found, _⟩, _⟩ := id cycle
  obtain ⟨node, numbers⟩ := exists_numbers_iff.mpr ⟨task, found⟩
  have small : node < (ofCatalog c).nodes.size := by
    rw [size_ofCatalog]
    exact numbers.lt
  obtain ⟨group, listed, member⟩ := exists_group (ofCatalog_numbered c) small
  obtain ⟨_, is_group, inside⟩ := groups_sound (ofCatalog_numbered c) listed
  have cyclic := (isCyclic_iff is_group member).mpr (numbers.onCycle_iff.mpr cycle)
  exact ⟨_, mem_cycles_iff.mpr ⟨group, listed, cyclic, rfl⟩,
    (mem_named_iff inside).mpr ⟨node, member, numbers⟩⟩

end BuildPlan.Graph
