import Mathlib.Data.List.NodupEquivFin
import Mathlib.Data.List.Sort
import BuildPlan.Proofs.Graph.Numbering

namespace BuildPlan

namespace Catalog

variable {c : Catalog} {one two three : Name}

theorem ReachesStrictly.reaches (way : c.ReachesStrictly one two) : c.Reaches one two := by
  obtain ⟨need, needs, rest⟩ := way
  exact .step needs rest

theorem ReachesStrictly.trans (way : c.ReachesStrictly one two) (further : c.Reaches two three) :
    c.ReachesStrictly one three := by
  obtain ⟨need, needs, rest⟩ := way
  exact ⟨need, needs, rest.trans further⟩

theorem Reaches.strictly_of_ne (way : c.Reaches one two) (apart : one ≠ two) :
    c.ReachesStrictly one two := by
  cases way with
  | refl => exact absurd rfl apart
  | step needs rest => exact ⟨_, needs, rest⟩

end Catalog

namespace Graph

variable {g : Graph} {c : Catalog} {node other : Nat} {name : Name} {one two members nodes : List Nat}
  {components : List (List Nat)}

section Order

variable {α : Type} {before : α → α → Prop} {list list' : List α}

theorem nodup_of_ordered (asymm : ∀ {one two}, before one two → ¬ before two one)
    (ordered : list.Pairwise before) : list.Nodup := by
  apply ordered.imp
  rintro one _ smaller rfl
  exact asymm smaller smaller

theorem eq_of_ordered (asymm : ∀ {one two}, before one two → ¬ before two one)
    (ordered : list.Pairwise before) (ordered' : list'.Pairwise before)
    (same : ∀ thing, thing ∈ list ↔ thing ∈ list') : list = list' := by
  apply List.Perm.eq_of_pairwise _ ordered ordered'
  · have distinct := nodup_of_ordered asymm ordered
    have distinct' := nodup_of_ordered asymm ordered'
    exact (List.perm_ext_iff_of_nodup distinct distinct').mpr same
  · intro one two _ _ smaller larger
    exact absurd larger (asymm smaller)

theorem sorted_by (key : α → Nat) (list : List α) :
    (list.mergeSort fun one two => key one ≤ key two).Pairwise fun one two => key one ≤ key two := by
  have sorted : (list.mergeSort fun one two => key one ≤ key two).Pairwise
      fun one two => decide (key one ≤ key two) = true :=
    List.pairwise_mergeSort (by simp; omega) (by simp; omega) list
  simpa using sorted

end Order

section Groups

def Before (one two : List Nat) : Prop := ∃ first ∈ one.head?, ∃ second ∈ two.head?, first < second

theorem Before.asymm (before : Before one two) : ¬ Before two one := by
  rintro ⟨second, head_two, first, head_one, larger⟩
  obtain ⟨first', head_one', second', head_two', smaller⟩ := before
  cases Option.mem_unique head_one head_one'
  cases Option.mem_unique head_two head_two'
  exact Nat.lt_asymm smaller larger

theorem IsGroup.nodup (group : g.IsGroup members) : members.Nodup :=
  nodup_of_ordered Nat.lt_asymm group.sorted

theorem IsGroup.eq_of_mem (group : g.IsGroup one) (group' : g.IsGroup two) (here : node ∈ one)
    (there : node ∈ two) : one = two := by
  apply eq_of_ordered Nat.lt_asymm group.sorted group'.sorted
  intro other
  rw [group.belongs node here, group'.belongs node there]

theorem mem_groups_iff_isGroup (numbered : g.WellNumbered) : members ∈ g.groups ↔
    members ≠ [] ∧ g.IsGroup members ∧ ∀ node ∈ members, node < g.nodes.size := by
  constructor
  · exact groups_sound numbered
  · rintro ⟨some_node, is_group, inside⟩
    obtain ⟨node, member⟩ := List.exists_mem_of_ne_nil _ some_node
    obtain ⟨group, known, there⟩ := exists_group numbered (inside node member)
    have same := (groups_sound numbered known).2.1.eq_of_mem is_group there member
    rwa [same] at known

theorem groups_before (numbered : g.WellNumbered) : g.groups.Pairwise Before := by
  have sound := (grouping_grouped numbered).sound
  rw [groups_eq, List.pairwise_map]
  apply Std.TreeMap.ordered_keys_toList.imp_of_mem
  rintro ⟨first, one⟩ ⟨second, two⟩ member_one member_two smaller
  have head_one := (sound first one (Std.TreeMap.mem_toList_iff_getElem?_eq_some.mp member_one)).1
  have head_two := (sound second two (Std.TreeMap.mem_toList_iff_getElem?_eq_some.mp member_two)).1
  exact ⟨first, head_one, second, head_two, Nat.compare_eq_lt.mp smaller⟩

theorem groups_disjoint (numbered : g.WellNumbered) : g.groups.Pairwise List.Disjoint := by
  apply (groups_before numbered).imp_of_mem
  intro one two listed listed' before
  rw [List.disjoint_left]
  intro node here there
  have is_group := (groups_sound numbered listed).2.1
  cases is_group.eq_of_mem (groups_sound numbered listed').2.1 here there
  exact before.asymm before

end Groups

section Components

-- What a search for strongly connected components has to find: every node in one component, with all
-- the nodes that it reaches and is reached from. Nothing is said of any order.
structure Components (g : Graph) (components : List (List Nat)) : Prop where
  partition : components.flatten.Perm g.numbers
  inhabited : ∀ members ∈ components, members ≠ []
  belongs : ∀ members ∈ components, ∀ node ∈ members, ∀ other,
    other ∈ members ↔ g.Mutual node other

theorem groups_components (numbered : g.WellNumbered) : g.Components g.groups := by
  have distinct : g.groups.flatten.Nodup := by
    rw [List.nodup_flatten]
    exact ⟨fun _ listed => (groups_sound numbered listed).2.1.nodup, groups_disjoint numbered⟩
  refine ⟨(List.perm_ext_iff_of_nodup distinct List.nodup_range).mpr ?_, ?_, ?_⟩
  · intro node
    rw [List.mem_flatten, List.mem_range]
    constructor
    · rintro ⟨members, listed, member⟩
      exact (groups_sound numbered listed).2.2 node member
    · exact exists_group numbered
  · exact fun members listed => (groups_sound numbered listed).1
  · exact fun members listed => (groups_sound numbered listed).2.1.belongs

namespace Components

variable (found : g.Components components)
include found

theorem reverse : g.Components (components.map List.reverse).reverse := by
  obtain ⟨partition, inhabited, belongs⟩ := found
  refine ⟨?_, ?_, ?_⟩
  · rw [List.flatten_reverse]
    simpa [Function.comp_def] using (List.reverse_perm _).trans partition
  · intro members listed
    obtain ⟨turned, known, rfl⟩ := List.mem_map.mp (List.mem_reverse.mp listed)
    simpa using inhabited turned known
  · intro members listed
    obtain ⟨turned, known, rfl⟩ := List.mem_map.mp (List.mem_reverse.mp listed)
    simpa using belongs turned known

theorem nodup_flatten : components.flatten.Nodup := found.partition.nodup_iff.mpr List.nodup_range

theorem mem_flatten_iff : node ∈ components.flatten ↔ node < g.nodes.size :=
  found.partition.mem_iff.trans List.mem_range

theorem lt (listed : members ∈ components) (member : node ∈ members) : node < g.nodes.size :=
  found.mem_flatten_iff.mp (List.mem_flatten.mpr ⟨members, listed, member⟩)

end Components

end Components

section Arranging

-- The place of a node among all registered tasks, provided ones included.
def place (c : Catalog) (node : Nat) : Nat := c.names.idxOf ((ofCatalog c).nameOf node)

def firstPlace (c : Catalog) : List Nat → Nat
  | [] => 2 ^ 64 - 1
  | first :: _ => place c first

def inOrder (c : Catalog) (members : List Nat) : List Nat :=
  members.mergeSort fun one two => place c one ≤ place c two

-- The components that go round in a circle, each in order, and then all of them by their first places.
def arrangeNodes (c : Catalog) (components : List (List Nat)) : List (List Nat) :=
  ((components.filter (ofCatalog c).isCyclic).map (inOrder c)).mergeSort
    fun one two => firstPlace c one ≤ firstPlace c two

def arrange (c : Catalog) (components : List (List Nat)) : List (List Name) :=
  (arrangeNodes c components).map (·.map (ofCatalog c).nameOf)

-- Provided tasks use up places, but the places of the others still grow with their numbers.
theorem exists_placing (c : Catalog) :
    ∃ placing : Nat ↪o Nat, ∀ node < (ofCatalog c).nodes.size, place c node = placing node := by
  have kept : (builtNames c).Sublist c.names := List.filter_sublist.map Task.name
  obtain ⟨placing, same⟩ := List.sublist_iff_exists_orderEmbedding_getElem?_eq.mp kept
  refine ⟨placing, ?_⟩
  intro node inside
  obtain ⟨name, numbers⟩ := exists_name_of_lt inside
  have standing : c.names[placing node]? = some name := (same node).symm.trans numbers
  obtain ⟨bound, here⟩ := List.getElem?_eq_some_iff.mp standing
  rw [place, numbers.nameOf_eq, ← here]
  exact c.names_nodup.idxOf_getElem _ bound

theorem place_le_iff (small : node < (ofCatalog c).nodes.size)
    (small' : other < (ofCatalog c).nodes.size) : place c node ≤ place c other ↔ node ≤ other := by
  obtain ⟨placing, same⟩ := exists_placing c
  rw [same node small, same other small']
  exact placing.le_iff_le

theorem isCyclic_perm (same : one.Perm two) : g.isCyclic one = g.isCyclic two := by
  match one, two, same with
  | [], two, same => rw [List.nil_perm.mp same]
  | [node], two, same => rw [List.singleton_perm.mp same]
  | _ :: _ :: _, [], same => cases same.length_eq
  | _ :: _ :: _, [_], same => cases same.length_eq
  | _ :: _ :: _, _ :: _ :: _, _ => rfl

theorem inOrder_perm (c : Catalog) (members : List Nat) : (inOrder c members).Perm members :=
  List.mergeSort_perm _ _

theorem mem_inOrder : node ∈ inOrder c members ↔ node ∈ members := (inOrder_perm c members).mem_iff

theorem mem_arrangeNodes : nodes ∈ arrangeNodes c components ↔
    ∃ members ∈ components, (ofCatalog c).isCyclic members = true ∧ inOrder c members = nodes := by
  simp [arrangeNodes, and_assoc]

section Found

variable (found : (ofCatalog c).Components components)
include found

theorem inOrder_isGroup (listed : members ∈ components) :
    (ofCatalog c).IsGroup (inOrder c members) := by
  refine ⟨?_, ?_⟩
  · have distinct : (inOrder c members).Nodup :=
      (inOrder_perm c members).nodup_iff.mpr ((List.nodup_flatten.mp found.nodup_flatten).1 members listed)
    apply ((sorted_by (place c) members).and distinct).imp_of_mem
    rintro node other member member' ⟨placed, apart⟩
    have small := found.lt listed (mem_inOrder.mp member)
    have small' := found.lt listed (mem_inOrder.mp member')
    exact Nat.lt_of_le_of_ne ((place_le_iff small small').mp placed) apart
  · intro node member other
    rw [mem_inOrder] at member ⊢
    exact found.belongs members listed node member other

theorem exists_first (listed : members ∈ components) :
    ∃ first ∈ members, ∃ rest, inOrder c members = first :: rest := by
  cases sorted : inOrder c members with
  | nil =>
    have nothing := inOrder_perm c members
    rw [sorted] at nothing
    exact absurd (List.nil_perm.mp nothing) (found.inhabited members listed)
  | cons first rest =>
    have member : first ∈ inOrder c members := by simp [sorted]
    exact ⟨first, mem_inOrder.mp member, rest, rfl⟩

theorem arrangeNodes_disjoint : (arrangeNodes c components).Pairwise List.Disjoint := by
  have apart := (List.nodup_flatten.mp found.nodup_flatten).2
  unfold arrangeNodes
  rw [(List.mergeSort_perm _ _).pairwise_iff fun disjoint => disjoint.symm, List.pairwise_map]
  apply (apart.sublist List.filter_sublist).imp
  intro one two disjoint
  rw [List.disjoint_left] at disjoint ⊢
  intro node member member'
  exact disjoint (mem_inOrder.mp member) (mem_inOrder.mp member')

theorem arrangeNodes_before : (arrangeNodes c components).Pairwise Before := by
  have sorted : (arrangeNodes c components).Pairwise
      fun one two => firstPlace c one ≤ firstPlace c two := sorted_by (firstPlace c) _
  apply (sorted.and (arrangeNodes_disjoint found)).imp_of_mem
  rintro one two member member' ⟨placed, disjoint⟩
  obtain ⟨members, listed, _, rfl⟩ := mem_arrangeNodes.mp member
  obtain ⟨members', listed', _, rfl⟩ := mem_arrangeNodes.mp member'
  obtain ⟨first, inside, rest, head⟩ := exists_first found listed
  obtain ⟨second, inside', rest', head'⟩ := exists_first found listed'
  have le : first ≤ second := by
    rw [head, head'] at placed
    exact (place_le_iff (found.lt listed inside) (found.lt listed' inside')).mp placed
  have apart : first ≠ second := by
    rintro rfl
    exact List.disjoint_left.mp disjoint (mem_inOrder.mpr inside) (mem_inOrder.mpr inside')
  exact ⟨first, by simp [head], second, by simp [head'], Nat.lt_of_le_of_ne le apart⟩

theorem mem_arrangeNodes_iff : nodes ∈ arrangeNodes c components ↔
    nodes ∈ (ofCatalog c).groups.filter (ofCatalog c).isCyclic := by
  have numbered := ofCatalog_numbered c
  rw [mem_arrangeNodes, List.mem_filter]
  constructor
  · rintro ⟨members, listed, cyclic, rfl⟩
    obtain ⟨first, _, rest, head⟩ := exists_first found listed
    refine ⟨?_, (isCyclic_perm (inOrder_perm c members)).trans cyclic⟩
    refine (mem_groups_iff_isGroup numbered).mpr ⟨by simp [head], inOrder_isGroup found listed, ?_⟩
    exact fun node member => found.lt listed (mem_inOrder.mp member)
  · rintro ⟨known, cyclic⟩
    obtain ⟨some_node, is_group, inside⟩ := groups_sound numbered known
    obtain ⟨node, member⟩ := List.exists_mem_of_ne_nil _ some_node
    obtain ⟨members, listed, there⟩ :=
      List.mem_flatten.mp (found.mem_flatten_iff.mpr (inside node member))
    have same : inOrder c members = nodes :=
      (inOrder_isGroup found listed).eq_of_mem is_group (mem_inOrder.mpr there) member
    refine ⟨members, listed, ?_, same⟩
    rw [← isCyclic_perm (inOrder_perm c members), same]
    exact cyclic

theorem arrange_eq_cycles : arrange c components = (ofCatalog c).cycles := by
  have ordered := (groups_before (ofCatalog_numbered c)).filter (ofCatalog c).isCyclic
  rw [arrange, cycles, eq_of_ordered Before.asymm (arrangeNodes_before found) ordered
    fun _ => mem_arrangeNodes_iff found]

end Found

end Arranging

section Naming

variable {named : List Name}

theorem named_range (c : Catalog) :
    (List.range (ofCatalog c).nodes.size).map (ofCatalog c).nameOf = builtNames c := by
  apply List.ext_getElem?
  intro node
  rw [List.getElem?_map, size_ofCatalog]
  by_cases inside : node < (builtNames c).length
  · have numbers : Numbers c node (builtNames c)[node] := List.getElem?_eq_getElem inside
    rw [List.getElem?_range inside, Option.map_some, numbers.nameOf_eq, numbers]
  · simp [inside]

theorem named_sublist (sorted : nodes.Pairwise (· < ·))
    (inside : ∀ node ∈ nodes, node < (ofCatalog c).nodes.size) :
    (nodes.map (ofCatalog c).nameOf).Sublist c.names := by
  have all : nodes ⊆ List.range (ofCatalog c).nodes.size :=
    fun node member => List.mem_range.mpr (inside node member)
  have within : nodes.Sublist (List.range (ofCatalog c).nodes.size) :=
    List.sublist_of_subperm_of_pairwise ((nodup_of_ordered Nat.lt_asymm sorted).subperm all) sorted
      List.pairwise_lt_range
  have built := within.map (ofCatalog c).nameOf
  rw [named_range] at built
  exact built.trans (List.filter_sublist.map Task.name)

theorem cycle_sublist (listed : named ∈ (ofCatalog c).cycles) : named.Sublist c.names := by
  obtain ⟨group, known, _, rfl⟩ := mem_cycles_iff.mp listed
  obtain ⟨_, is_group, inside⟩ := groups_sound (ofCatalog_numbered c) known
  exact named_sublist is_group.sorted inside

theorem firsts_sublist (c : Catalog) : ((ofCatalog c).cycles.filterMap List.head?).Sublist c.names := by
  have numbered := ofCatalog_numbered c
  have ordered := (groups_before numbered).filter (ofCatalog c).isCyclic
  have firsts : (ofCatalog c).cycles.filterMap List.head? =
      (((ofCatalog c).groups.filter (ofCatalog c).isCyclic).filterMap List.head?).map
        (ofCatalog c).nameOf := by
    simp [cycles, List.filterMap_map, List.map_filterMap]
  rw [firsts]
  apply named_sublist
  · apply ordered.filterMap
    rintro one two ⟨first, head, second, head', smaller⟩ _ same _ same'
    cases Option.mem_unique head same
    cases Option.mem_unique head' same'
    exact smaller
  · intro node member
    obtain ⟨group, listed, head⟩ := List.mem_filterMap.mp member
    have known := (groups_sound numbered (List.mem_of_mem_filter listed)).2.2
    exact known node (List.mem_of_mem_head? head)

theorem cycles_nodup_flatten (c : Catalog) : (ofCatalog c).cycles.flatten.Nodup := by
  have numbered := ofCatalog_numbered c
  rw [List.nodup_flatten]
  refine ⟨fun named listed => (cycle_sublist listed).nodup c.names_nodup, ?_⟩
  rw [cycles, List.pairwise_map]
  apply ((groups_disjoint numbered).filter _).imp_of_mem
  intro one two member member' disjoint
  have inside := (groups_sound numbered (List.mem_of_mem_filter member)).2.2
  have inside' := (groups_sound numbered (List.mem_of_mem_filter member')).2.2
  rw [List.disjoint_left] at disjoint ⊢
  intro name here there
  obtain ⟨node, member_one, numbers⟩ := (mem_named_iff inside).mp here
  obtain ⟨other, member_two, numbers'⟩ := (mem_named_iff inside').mp there
  cases numbers.node_eq numbers'
  exact disjoint member_one member_two

theorem mem_flatten_cycles_iff : name ∈ (ofCatalog c).cycles.flatten ↔ c.OnCycle name := by
  rw [List.mem_flatten]
  constructor
  · rintro ⟨named, listed, member⟩
    exact (cycles_sound listed).onCycle name member
  · exact exists_cycle

variable {first second : Name}

theorem together_iff (apart : first ≠ second) :
    (∃ named ∈ (ofCatalog c).cycles, first ∈ named ∧ second ∈ named) ↔
      c.ReachesStrictly first second ∧ c.ReachesStrictly second first := by
  constructor
  · rintro ⟨named, listed, member, member'⟩
    obtain ⟨way, back⟩ := ((cycles_sound listed).belongs first member second).mp member'
    exact ⟨way.strictly_of_ne apart, back.strictly_of_ne apart.symm⟩
  · rintro ⟨way, back⟩
    obtain ⟨named, listed, member⟩ := exists_cycle (way.trans back.reaches)
    refine ⟨named, listed, member, ?_⟩
    exact ((cycles_sound listed).belongs first member second).mpr ⟨way.reaches, back.reaches⟩

theorem alone_iff : [name] ∈ (ofCatalog c).cycles ↔ c.Needs name name ∧
    ∀ other, other ≠ name → ¬ (c.ReachesStrictly name other ∧ c.ReachesStrictly other name) := by
  have itself : name ∈ [name] := List.mem_singleton.mpr rfl
  constructor
  · intro listed
    have is_cycle := cycles_sound listed
    refine ⟨?_, ?_⟩
    · obtain ⟨need, needs, back⟩ := is_cycle.onCycle name itself
      have member := (is_cycle.belongs name itself need).mpr ⟨.step needs (.refl need), back⟩
      cases List.mem_singleton.mp member
      exact needs
    · rintro other different ⟨way, back⟩
      have member := (is_cycle.belongs name itself other).mpr ⟨way.reaches, back.reaches⟩
      exact different (List.mem_singleton.mp member)
  · rintro ⟨needs, nobody⟩
    obtain ⟨named, listed, member⟩ := exists_cycle (⟨name, needs, .refl name⟩ : c.OnCycle name)
    have distinct := (cycle_sublist listed).nodup c.names_nodup
    have only : ∀ other, other ∈ named ↔ other ∈ [name] := by
      intro other
      rw [List.mem_singleton, (cycles_sound listed).belongs name member other]
      constructor
      · rintro ⟨way, back⟩
        by_contra different
        exact nobody other different
          ⟨way.strictly_of_ne (Ne.symm different), back.strictly_of_ne different⟩
      · rintro rfl
        exact ⟨.refl other, .refl other⟩
    have perm := (List.perm_ext_iff_of_nodup distinct (List.nodup_singleton name)).mpr only
    rwa [List.perm_singleton.mp perm] at listed

end Naming

-- Entries are components, members and entries stand as they were registered, and a catalog is at fault
-- once for all that is missing and once for each entry.
theorem cycles_are_components (c : Catalog) :
    (∀ first second, first ≠ second →
      ((∃ named ∈ (ofCatalog c).cycles, first ∈ named ∧ second ∈ named) ↔
        c.ReachesStrictly first second ∧ c.ReachesStrictly second first)) ∧
    (∀ name, [name] ∈ (ofCatalog c).cycles ↔ c.Needs name name ∧
      ∀ other, other ≠ name → ¬ (c.ReachesStrictly name other ∧ c.ReachesStrictly other name)) ∧
    ((ofCatalog c).cycles.flatten.Nodup ∧
      ∀ name, name ∈ (ofCatalog c).cycles.flatten ↔ c.OnCycle name) ∧
    ((∀ named ∈ (ofCatalog c).cycles, named ≠ [] ∧ named.Sublist c.names) ∧
      ((ofCatalog c).cycles.filterMap List.head?).Sublist c.names) ∧
    (∀ components, (ofCatalog c).Components components →
      arrange c components = (ofCatalog c).cycles) ∧
    c.faults = (if (ofCatalog c).missing = [] then [] else [.missing (ofCatalog c).missing]) ++
      (ofCatalog c).cycles.map .cyclic := by
  refine ⟨?_, fun _ => alone_iff, ⟨cycles_nodup_flatten c, fun _ => mem_flatten_cycles_iff⟩,
    ⟨?_, firsts_sublist c⟩, fun _ => arrange_eq_cycles, ?_⟩
  · intro first second apart
    exact together_iff apart
  · intro named listed
    exact ⟨(cycles_sound listed).some_member, cycle_sublist listed⟩
  · simp [Catalog.faults, faults]

def rings : Catalog :=
  Catalog.empty.add ⟨"tool", ["cut"]⟩ rfl
    |>.add ⟨"east", ["west", "self", "west"]⟩ rfl
    |>.add ⟨"self", ["self", "lost"]⟩ rfl
    |>.add ⟨"west", ["tool", "east"]⟩ rfl
    |>.add ⟨"cut", ["tool"]⟩ rfl
    |>.assume "tool"

theorem rings_are_components :
    (ofCatalog rings).Components [[3], [1], [2, 0]] ∧
    arrange rings [[3], [1], [2, 0]] = [["east", "west"], ["self"]] ∧
    "east" ≠ "west" ∧ rings.ReachesStrictly "east" "west" ∧ rings.ReachesStrictly "west" "east" ∧
    rings.faults = [.missing [("self", "lost")], .cyclic ["east", "west"], .cyclic ["self"]] := by
  obtain ⟨together, _, _, _, arranged, faults⟩ := cycles_are_components rings
  have listed : (ofCatalog rings).cycles = [["east", "west"], ["self"]] := by rfl
  have found : (ofCatalog rings).Components [[3], [1], [2, 0]] :=
    (groups_components (ofCatalog_numbered rings)).reverse
  have apart : "east" ≠ "west" := by decide
  obtain ⟨way, back⟩ := (together "east" "west" apart).mp ⟨["east", "west"], by simp [listed], by simp, by simp⟩
  exact ⟨found, (arranged _ found).trans listed, apart, way, back, faults.trans (by rfl)⟩

end Graph
end BuildPlan
