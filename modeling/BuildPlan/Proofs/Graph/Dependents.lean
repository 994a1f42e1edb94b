import Mathlib.Data.List.Destutter
import BuildPlan.Proofs.Graph.Accounting

namespace BuildPlan

namespace Catalog

variable {c : Catalog} {roots : List Name} {s : Schedule} {task need : Name} {earlier later : Nat}

theorem schedule_precedes (made : c.schedule roots = .ok s) (needs : c.Needs task need)
    (placed : s.position? need = some earlier) (placed_task : s.position? task = some later) :
    earlier < later := by
  have order := schedule_order made
  rw [Schedule.position?_eq_some_iff order.distinct] at placed placed_task
  obtain ⟨t, found, declared⟩ := needs
  obtain ⟨known, rfl, _⟩ := taskOf_registered found
  have built := (order.built need (List.mem_of_getElem? placed)).2
  obtain ⟨place, before, there⟩ := order.needs_first later t placed_task known need declared built
  have inside : place < s.names.length := (List.getElem?_eq_some_iff.mp there).1
  have same : place = earlier := (List.getElem?_inj inside order.distinct).mp (there.trans placed.symm)
  exact same ▸ before

end Catalog

namespace Graph

variable {c : Catalog} {name other : Name} {node : Nat} {task : Task} {users : List Nat}

section Declared

theorem number?_eq_some_iff : (ofCatalog c).number? name = some node ↔ Numbers c node name := by
  have searched : (ofCatalog c).number? name = (builtNames c).idxOf? name := by
    rw [builtNames, ← Catalog.names_ofCatalog, List.idxOf?, List.findIdx?_map]
    rfl
  rw [searched]
  exact Schedule.position?_eq_some_iff (s := ⟨builtNames c⟩) (builtNames_nodup c)

theorem number?_eq_none_iff : (ofCatalog c).number? name = none ↔ c.isTask name = false := by
  have known : (ofCatalog c).contains name = c.isTask name := by
    rw [Bool.eq_iff_iff, contains_ofCatalog_iff, Catalog.isTask_iff]
  rw [← known, contains, Option.isSome_eq_false_iff, Option.isNone_iff_eq_none]

theorem needs_contains_iff (numbers : Numbers c node name) (task : Task) :
    (nodeOf c task).needs.contains node = true ↔ name ∈ task.needs := by
  rw [nodeOf, List.contains_iff_mem, List.mem_filterMap]
  constructor
  · rintro ⟨need, declared, edge⟩
    cases numbers.name_eq (classify_node_iff.mp edge)
    exact declared
  · intro declared
    exact ⟨name, declared, classify_node_iff.mpr numbers⟩

theorem dependents_of_number (numbers : Numbers c node name) : (ofCatalog c).dependents name =
    (c.buildable.filter fun task => name ∈ task.needs).map Task.name := by
  have nodes : (ofCatalog c).nodes.toList = c.buildable.map (nodeOf c) := by rw [ofCatalog_eq]
  have wanted : c.buildable.filter ((fun node' : Node => node'.needs.contains node) ∘ nodeOf c) =
      c.buildable.filter fun task => name ∈ task.needs := by
    apply List.filter_congr
    intro task _
    rw [Bool.eq_iff_iff, decide_eq_true_iff]
    exact needs_contains_iff numbers task
  unfold dependents
  rw [number?_eq_some_iff.mpr numbers]
  simp only [nodes, List.filter_map, wanted, List.map_map]
  rfl

theorem dependents_eq (c : Catalog) (name : Name) : (ofCatalog c).dependents name =
    if c.isTask name then (c.buildable.filter fun task => name ∈ task.needs).map Task.name else [] := by
  cases known : c.isTask name with
  | true =>
    obtain ⟨node, numbers⟩ := exists_numbers_iff_names.mpr (Catalog.isTask_iff.mp known)
    exact dependents_of_number numbers
  | false =>
    unfold dependents
    rw [number?_eq_none_iff.mpr known]
    rfl

theorem dependents_sublist (c : Catalog) (name : Name) : ((ofCatalog c).dependents name).Sublist c.names := by
  rw [dependents_eq]
  split
  · exact (List.filter_sublist.trans List.filter_sublist).map Task.name
  · exact List.nil_sublist _

theorem mem_dependents_iff : other ∈ (ofCatalog c).dependents name ↔ c.isTask name = true ∧ c.Needs other name := by
  rw [dependents_eq]
  split
  · rename_i known
    simp only [known, true_and, List.mem_map, List.mem_filter, decide_eq_true_iff, buildable_mem_iff]
    constructor
    · rintro ⟨task, ⟨found, declared⟩, rfl⟩
      exact ⟨task, found, declared⟩
    · rintro ⟨task, found, declared⟩
      obtain ⟨_, rfl, _⟩ := Catalog.taskOf_registered found
      exact ⟨task, ⟨found, declared⟩, rfl⟩
  · rename_i unknown
    simp [unknown]

end Declared

section Followed

-- The node at the end of each edge from a node, as often as there are edges to it.
def endsOf (g : Graph) (node : Nat) : List Nat :=
  g.numbers.flatMap fun user => List.replicate ((g.needsOf user).count node) user

-- The names of some nodes by their places among all registered tasks, without the repetitions that are then
-- beside each other.
def readOff (c : Catalog) (users : List Nat) : List Name :=
  ((inOrder c users).destutter fun one two => place c one ≠ place c two).map (ofCatalog c).nameOf

theorem mem_endsOf_iff {g : Graph} {user : Nat} : user ∈ g.endsOf node ↔ node ∈ g.needsOf user := by
  rw [endsOf, List.mem_flatMap]
  constructor
  · rintro ⟨user', _, member⟩
    obtain ⟨some_edge, rfl⟩ := List.mem_replicate.mp member
    exact List.count_pos_iff.mp (Nat.pos_of_ne_zero some_edge)
  · intro needed
    refine ⟨user, List.mem_range.mpr (needsOf_lt needed), ?_⟩
    exact List.mem_replicate.mpr ⟨Nat.ne_of_gt (List.count_pos_iff.mpr needed), rfl⟩

variable (inside : ∀ user ∈ users, user < (ofCatalog c).nodes.size)
include inside

theorem place_inj {one two : Nat} (member : one ∈ users) (member' : two ∈ users) :
    place c one = place c two ↔ one = two := by
  constructor
  · intro same
    apply Nat.le_antisymm
    · exact (place_le_iff (inside one member) (inside two member')).mp (Nat.le_of_eq same)
    · exact (place_le_iff (inside two member') (inside one member)).mp (Nat.le_of_eq same.symm)
  · rintro rfl
    rfl

theorem inOrder_sorted : (inOrder c users).Pairwise (· ≤ ·) := by
  apply (sorted_by (place c) users).imp_of_mem
  intro one two member member' placed
  exact (place_le_iff (inside one (mem_inOrder.mp member)) (inside two (mem_inOrder.mp member'))).mp placed

-- Once the nodes are sorted, equal places stand beside each other, so every repetition is dropped.
theorem destutter_inOrder :
    ((inOrder c users).destutter fun one two => place c one ≠ place c two) = (inOrder c users).dedup := by
  have same : ((inOrder c users).destutter fun one two => place c one ≠ place c two).map id =
      ((inOrder c users).map id).destutter (· ≠ ·) := by
    apply List.map_destutter
    intro one member two member'
    exact not_congr (place_inj inside (mem_inOrder.mp member) (mem_inOrder.mp member'))
  rw [List.map_id, List.map_id] at same
  exact same.trans (inOrder_sorted inside).destutter_eq_dedup

theorem readOff_eq : readOff c users = (inOrder c users).dedup.map (ofCatalog c).nameOf := by
  rw [readOff, destutter_inOrder inside]

theorem readOff_sublist : (readOff c users).Sublist c.names := by
  rw [readOff_eq inside]
  apply named_sublist
  · have distinct := List.nodup_dedup (inOrder c users)
    apply (((inOrder_sorted inside).sublist (List.dedup_sublist _)).and distinct).imp
    rintro one two ⟨le, apart⟩
    exact Nat.lt_of_le_of_ne le apart
  · intro user member
    exact inside user (mem_inOrder.mp (List.mem_dedup.mp member))

theorem mem_readOff_iff : name ∈ readOff c users ↔ ∃ user ∈ users, (ofCatalog c).nameOf user = name := by
  rw [readOff_eq inside, List.mem_map]
  simp only [List.mem_dedup, mem_inOrder]

end Followed

section Agreement

theorem eq_of_sublist {list one two : List Name} (distinct : list.Nodup) (part : one.Sublist list)
    (part' : two.Sublist list) (same : ∀ name, name ∈ one ↔ name ∈ two) : one = two := by
  have ordered : list.Pairwise fun first second => list.idxOf first < list.idxOf second := by
    rw [List.pairwise_iff_getElem]
    intro place place' inside inside' before
    rwa [distinct.idxOf_getElem, distinct.idxOf_getElem]
  exact eq_of_ordered Nat.lt_asymm (ordered.sublist part) (ordered.sublist part') same

-- However the edges are followed, sorting and dropping gives the dependents in the order of registration.
theorem readOff_eq_dependents (numbers : Numbers c node name) (followed : users.Perm ((ofCatalog c).endsOf node)) :
    readOff c users = (ofCatalog c).dependents name := by
  have ends : ∀ user, user ∈ users ↔ node ∈ (ofCatalog c).needsOf user :=
    fun user => followed.mem_iff.trans mem_endsOf_iff
  have inside : ∀ user ∈ users, user < (ofCatalog c).nodes.size :=
    fun user member => needsOf_lt ((ends user).mp member)
  have known : c.isTask name = true := Catalog.isTask_iff.mpr (exists_numbers_iff_names.mp ⟨node, numbers⟩)
  apply eq_of_sublist c.names_nodup (readOff_sublist inside) (dependents_sublist c name)
  intro other
  rw [mem_readOff_iff inside, mem_dependents_iff]
  constructor
  · rintro ⟨user, member, rfl⟩
    obtain ⟨task, numbers_user⟩ := exists_name_of_lt (inside user member)
    obtain ⟨need, numbers_need, needs⟩ := numbers_user.mem_needsOf_iff.mp ((ends user).mp member)
    cases numbers_need.name_eq numbers
    exact ⟨known, numbers_user.nameOf_eq ▸ needs⟩
  · rintro ⟨_, needs⟩
    obtain ⟨t, found, _⟩ := id needs
    obtain ⟨user, numbers_user⟩ := exists_numbers_iff.mpr ⟨t, found⟩
    refine ⟨user, (ends user).mpr ?_, numbers_user.nameOf_eq⟩
    exact numbers_user.mem_needsOf_iff.mpr ⟨name, numbers, needs⟩

end Agreement

theorem dependents_invert_needs (c : Catalog) (name : Name) :
    ((ofCatalog c).dependents name =
      if name ∈ c.names ∧ c.isAssumed name = false then
        (c.buildable.filter fun task => name ∈ task.needs).map Task.name
      else []) ∧
    (((ofCatalog c).dependents name).Sublist c.names ∧ ((ofCatalog c).dependents name).Nodup) ∧
    (∀ node users, Numbers c node name → users.Perm ((ofCatalog c).endsOf node) →
      readOff c users = (ofCatalog c).dependents name) ∧
    ∀ roots s, c.schedule roots = .ok s → ∀ other ∈ (ofCatalog c).dependents name, ∀ earlier later : Nat,
      s.position? name = some earlier → s.position? other = some later → earlier < later := by
  refine ⟨?_, ⟨dependents_sublist c name, (dependents_sublist c name).nodup c.names_nodup⟩,
    fun node users => readOff_eq_dependents, ?_⟩
  · simp only [dependents_eq, Catalog.isTask_iff]
  · intro roots s made other member earlier later
    exact Catalog.schedule_precedes made (mem_dependents_iff.mp member).2

-- A need that is declared twice is two edges, and a provided task uses up a place.
theorem diamond_dependents :
    (ofCatalog Catalog.diamond).dependents "base" = ["left", "right"] ∧
    (Numbers Catalog.diamond 1 "left" ∧ [0, 0].Perm ((ofCatalog Catalog.diamond).endsOf 1) ∧
      readOff Catalog.diamond [0, 0] = (ofCatalog Catalog.diamond).dependents "left") ∧
    (readOff Catalog.diamond [2, 1] = ["left", "right"] ∧ (ofCatalog Catalog.diamond).dependents "tool" = []) ∧
    Catalog.diamond.schedule ["right", "app"] = .ok ⟨["base", "right", "left", "app"]⟩ ∧
    "right" ∈ (ofCatalog Catalog.diamond).dependents "base" ∧ 0 < 1 := by
  obtain ⟨listed, _, followed, ordered⟩ := dependents_invert_needs Catalog.diamond "base"
  obtain ⟨_, _, followed', _⟩ := dependents_invert_needs Catalog.diamond "left"
  have base : (ofCatalog Catalog.diamond).dependents "base" = ["left", "right"] := listed.trans (by rfl)
  have none : (ofCatalog Catalog.diamond).dependents "tool" = [] :=
    (dependents_invert_needs Catalog.diamond "tool").1.trans (by rfl)
  have made : Catalog.diamond.schedule ["right", "app"] = .ok ⟨["base", "right", "left", "app"]⟩ := by rfl
  have left : Numbers Catalog.diamond 1 "left" := by rfl
  have edges : [0, 0].Perm ((ofCatalog Catalog.diamond).endsOf 1) := by decide
  have member : "right" ∈ (ofCatalog Catalog.diamond).dependents "base" := by simp [base]
  have before := ordered ["right", "app"] _ made "right" member 0 1 (by rfl) (by rfl)
  exact ⟨base, ⟨left, edges, followed' 1 [0, 0] left edges⟩,
    ⟨(followed 3 [2, 1] (by rfl) (by decide)).trans base, none⟩, made, member, before⟩

end Graph
end BuildPlan
