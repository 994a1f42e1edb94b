import Mathlib.Algebra.GroupWithZero.Nat
import BuildPlan.Proofs.Catalog.Validity
import BuildPlan.Proofs.Graph.Image

namespace BuildPlan

namespace Catalog

def isTask (c : Catalog) (name : Name) : Bool := c.contains name && !c.isAssumed name

def isLost (c : Catalog) (name : Name) : Bool := !c.contains name && !c.isAssumed name

-- Each need of a built task beside its task, in declared order and as often as it is declared.
def declaredNeeds (c : Catalog) : List (Name × Name) :=
  c.buildable.flatMap fun task => task.needs.map (task.name, ·)

variable {c : Catalog} {name task need : Name}

theorem isTask_iff : c.isTask name = true ↔ name ∈ c.names ∧ c.isAssumed name = false := by
  rw [isTask, Bool.and_eq_true, contains_iff, Bool.not_eq_true']

theorem isLost_iff : c.isLost name = true ↔ c.isAssumed name = false ∧ name ∉ c.names := by
  rw [isLost, Bool.and_eq_true, Bool.not_eq_true', Bool.not_eq_true', Bool.eq_false_iff, ne_eq,
    contains_iff, and_comm]

theorem mem_declaredNeeds_iff : (task, need) ∈ c.declaredNeeds ↔ c.Needs task need := by
  simp only [declaredNeeds, List.mem_flatMap, List.mem_map, Prod.mk.injEq, Graph.buildable_mem_iff]
  constructor
  · rintro ⟨t, found, _, declared, rfl, rfl⟩
    exact ⟨t, found, declared⟩
  · rintro ⟨t, found, declared⟩
    obtain ⟨_, rfl, _⟩ := taskOf_registered found
    exact ⟨t, found, need, declared, rfl, rfl⟩

-- The needs of each task are sorted out for themselves.
theorem filter_declaredNeeds (c : Catalog) (p : Name → Bool) :
    (c.declaredNeeds.filter fun need => p need.2) =
      c.buildable.flatMap fun task => (task.needs.filter p).map (task.name, ·) := by
  rw [declaredNeeds, List.filter_flatMap]
  exact List.flatMap_congr fun task _ => List.filter_map

theorem length_declaredNeeds (c : Catalog) :
    c.declaredNeeds.length = (c.buildable.map fun task => task.needs.length).sum := by
  simp [declaredNeeds, List.length_flatMap]

-- Names are distinct, so the pairs with the name of a task are its own.
theorem count_needs {tasks : List Task} {task : Task} (distinct : (tasks.map Task.name).Nodup)
    (member : task ∈ tasks) (need : Name) :
    (tasks.flatMap fun task => task.needs.map (task.name, ·)).count (task.name, need) = task.needs.count need := by
  induction tasks with
  | nil => cases member
  | cons first rest ih =>
    rw [List.map_cons, List.nodup_cons] at distinct
    rw [List.flatMap_cons, List.count_append]
    rcases List.mem_cons.mp member with rfl | later
    · have own : (task.needs.map (task.name, ·)).count (task.name, need) = task.needs.count need :=
        List.count_map_of_injective _ _ (Prod.mk_right_injective task.name) need
      have others : (rest.flatMap fun task => task.needs.map (task.name, ·)).count (task.name, need) = 0 := by
        refine List.count_eq_zero.mpr fun there => ?_
        obtain ⟨other, known, listed⟩ := List.mem_flatMap.mp there
        obtain ⟨_, _, same⟩ := List.mem_map.mp listed
        exact distinct.1 ((Prod.mk.inj same).1 ▸ List.mem_map_of_mem known)
      rw [own, others, Nat.add_zero]
    · have others : (first.needs.map (first.name, ·)).count (task.name, need) = 0 := by
        refine List.count_eq_zero.mpr fun there => ?_
        obtain ⟨_, _, same⟩ := List.mem_map.mp there
        exact distinct.1 ((Prod.mk.inj same).1 ▸ List.mem_map_of_mem later)
      rw [others, Nat.zero_add, ih distinct.2 later]

theorem count_filter_declaredNeeds {t : Task} (built : t ∈ c.buildable) (p : Name → Bool) (need : Name) :
    (c.declaredNeeds.filter fun need => p need.2).count (t.name, need) =
      if p need then t.needs.count need else 0 := by
  have whole : c.declaredNeeds.count (t.name, need) = t.needs.count need :=
    count_needs (Graph.builtNames_nodup c) built need
  split
  · next kept => rw [List.count_filter (by exact kept), whole]
  · next dropped => exact List.count_eq_zero.mpr fun there => dropped (List.mem_filter.mp there).2

theorem partition_needs (c : Catalog) (needs : List (Name × Name)) :
    (needs.filter (fun need => c.isTask need.2) ++ needs.filter (fun need => c.isLost need.2) ++
      needs.filter fun need => c.isAssumed need.2).Perm needs := by
  have built := List.filter_append_perm (fun need : Name × Name => c.contains need.2)
    (needs.filter fun need => !c.isAssumed need.2)
  have whole := List.filter_append_perm (fun need : Name × Name => !c.isAssumed need.2) needs
  rw [List.filter_filter, List.filter_filter] at built
  simp only [Bool.not_not] at whole
  exact (built.append_right _).trans whole

end Catalog

namespace Graph

-- A task and a task that it needs, for each edge; parallel edges are that many pairs.
def edges (g : Graph) : List (Name × Name) :=
  g.nodes.toList.flatMap fun node => node.needs.map fun need => (node.name, g.nameOf need)

variable {c : Catalog} {name : Name}

theorem length_edges (g : Graph) : g.edges.length = g.edgeCount := by
  rw [edges, edgeCount]
  induction g.nodes.toList with
  | nil => rfl
  | cons node rest ih => rw [List.flatMap_cons, List.length_append, List.length_map, ih, List.foldr_cons]

theorem name_of_need (c : Catalog) (need : Name) :
    (classify c (numbering c.buildable) need).node?.map (ofCatalog c).nameOf = Option.guard c.isTask need := by
  cases known : c.isTask need with
  | true =>
    obtain ⟨node, numbers⟩ := exists_numbers_iff_names.mpr (Catalog.isTask_iff.mp known)
    rw [classify_node_iff.mpr numbers, Option.map_some, numbers.nameOf_eq, Option.guard, if_pos known]
  | false =>
    have nothing : (classify c (numbering c.buildable) need).node? = none := by
      rw [Option.eq_none_iff_forall_ne_some]
      intro node edge
      have built := Catalog.isTask_iff.mpr (exists_numbers_iff_names.mp ⟨node, classify_node_iff.mp edge⟩)
      exact absurd (known.symm.trans built) Bool.false_ne_true
    rw [nothing, Option.map_none, Option.guard, if_neg (ne_true_of_eq_false known)]

theorem edges_ofCatalog (c : Catalog) :
    (ofCatalog c).edges = c.declaredNeeds.filter fun need => c.isTask need.2 := by
  rw [c.filter_declaredNeeds, edges]
  have nodes : (ofCatalog c).nodes.toList = c.buildable.map (nodeOf c) := by rw [ofCatalog_eq]
  rw [nodes, List.flatMap_map]
  refine List.flatMap_congr fun task _ => ?_
  have named : (nodeOf c task).needs.map (ofCatalog c).nameOf = task.needs.filter c.isTask := by
    rw [nodeOf, List.map_filterMap, ← List.filterMap_eq_filter]
    exact List.filterMap_congr fun need _ => name_of_need c need
  rw [← named, List.map_map]
  rfl

theorem missing_ofCatalog (c : Catalog) :
    (ofCatalog c).missing = c.declaredNeeds.filter fun need => c.isLost need.2 := by
  rw [c.filter_declaredNeeds, ofCatalog_eq]
  refine List.flatMap_congr fun task _ => ?_
  have lost : task.needs.filter (classify c (numbering c.buildable) · == .missing) = task.needs.filter c.isLost := by
    refine List.filter_congr fun need _ => ?_
    rw [Bool.eq_iff_iff, beq_iff_eq, classify_missing_iff, Catalog.isLost_iff]
  rw [lostBy, lost]

theorem contains_ofCatalog_iff :
    (ofCatalog c).contains name = true ↔ name ∈ c.names ∧ c.isAssumed name = false := by
  rw [← exists_numbers_iff_names, contains, number?, List.findIdx?_isSome, List.any_eq_true]
  have listed : (∃ node, Numbers c node name) ↔ name ∈ builtNames c := List.mem_iff_getElem?.symm
  rw [listed, builtNames, ← Catalog.names_ofCatalog, List.mem_map]
  simp

theorem not_assumed_of_listed {pair : Name × Name} (listed : pair ∈ (ofCatalog c).edges ++ (ofCatalog c).missing) :
    c.isAssumed pair.1 = false ∧ c.isAssumed pair.2 = false := by
  rw [edges_ofCatalog, missing_ofCatalog, List.mem_append, List.mem_filter, List.mem_filter] at listed
  rcases listed with ⟨declared, known⟩ | ⟨declared, lost⟩
  · exact ⟨(Catalog.mem_declaredNeeds_iff.mp declared).not_assumed, (Catalog.isTask_iff.mp known).2⟩
  · exact ⟨(Catalog.mem_declaredNeeds_iff.mp declared).not_assumed, (Catalog.isLost_iff.mp lost).1⟩

-- As lists, in the order of registration and then as declared; occurrence by occurrence; and in numbers.
theorem needs_accounted_for (c : Catalog) :
    let g := ofCatalog c
    let provided := c.declaredNeeds.filter fun need => c.isAssumed need.2
    (g.nodes.toList.map Node.name = c.buildable.map Task.name ∧ g.WellNumbered ∧
      ∀ name, g.contains name = true ↔ name ∈ c.names ∧ c.isAssumed name = false) ∧
    g.edges = c.declaredNeeds.filter (fun need => c.isTask need.2) ∧
    g.missing = c.declaredNeeds.filter (fun need => c.isLost need.2) ∧
    (g.edges ++ g.missing ++ provided).Perm c.declaredNeeds ∧
    (∀ task ∈ c.buildable, ∀ need,
      g.edges.count (task.name, need) = (if c.isTask need then task.needs.count need else 0) ∧
      g.missing.count (task.name, need) = (if c.isLost need then task.needs.count need else 0) ∧
      provided.count (task.name, need) = if c.isAssumed need then task.needs.count need else 0) ∧
    g.edgeCount + g.missing.length + provided.length = (c.buildable.map fun task => task.needs.length).sum ∧
    ∀ pair ∈ g.edges ++ g.missing, c.isAssumed pair.1 = false ∧ c.isAssumed pair.2 = false := by
  intro g provided
  have all : (g.edges ++ g.missing ++ provided).Perm c.declaredNeeds := by
    rw [edges_ofCatalog, missing_ofCatalog]
    exact c.partition_needs c.declaredNeeds
  refine ⟨⟨Catalog.names_ofCatalog c, ofCatalog_numbered c, fun name => contains_ofCatalog_iff⟩,
    edges_ofCatalog c, missing_ofCatalog c, all, fun task built need => ?_, ?_, fun pair => not_assumed_of_listed⟩
  · rw [edges_ofCatalog, missing_ofCatalog]
    exact ⟨Catalog.count_filter_declaredNeeds built _ need, Catalog.count_filter_declaredNeeds built _ need,
      Catalog.count_filter_declaredNeeds built _ need⟩
  · rw [← c.length_declaredNeeds, ← all.length_eq, List.length_append, List.length_append, length_edges]

def wanting : Catalog :=
  Catalog.empty.add ⟨"app", ["lib", "cc", "app", "lost", "lib", "lost"]⟩ rfl
    |>.add ⟨"cc", ["app", "ghost"]⟩ rfl
    |>.add ⟨"lib", ["cc", "app"]⟩ rfl
    |>.assume "cc"

theorem wanting_accounted_for :
    (⟨"app", ["lib", "cc", "app", "lost", "lib", "lost"]⟩ : Task) ∈ wanting.buildable ∧
    (ofCatalog wanting).edges.count ("app", "lib") = 2 ∧ (ofCatalog wanting).missing.count ("app", "lost") = 2 ∧
    (ofCatalog wanting).edges = [("app", "lib"), ("app", "app"), ("app", "lib"), ("lib", "app")] ∧
    (ofCatalog wanting).missing = [("app", "lost"), ("app", "lost")] ∧
    (ofCatalog wanting).edgeCount + (ofCatalog wanting).missing.length + 2 = 8 ∧
    ("lib", "app") ∈ (ofCatalog wanting).edges ++ (ofCatalog wanting).missing ∧ wanting.isAssumed "lib" = false := by
  obtain ⟨_, edges, missing, _, counts, numbers, built⟩ := needs_accounted_for wanting
  have listed : wanting.buildable =
      [⟨"app", ["lib", "cc", "app", "lost", "lib", "lost"]⟩, ⟨"lib", ["cc", "app"]⟩] := by rfl
  have app : (⟨"app", ["lib", "cc", "app", "lost", "lib", "lost"]⟩ : Task) ∈ wanting.buildable := by simp [listed]
  have found := edges.trans (by rfl : _ = [("app", "lib"), ("app", "app"), ("app", "lib"), ("lib", "app")])
  have there : ("lib", "app") ∈ (ofCatalog wanting).edges ++ (ofCatalog wanting).missing := by simp [found]
  exact ⟨app, (counts _ app "lib").1.trans (by rfl), (counts _ app "lost").2.1.trans (by rfl), found,
    missing.trans (by rfl), numbers.trans (by rfl), there, (built _ there).1⟩

end Graph
end BuildPlan
