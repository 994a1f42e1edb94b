import BuildPlan.Proofs.Graph.Edges

namespace BuildPlan.Graph

def Reaches (g : Graph) : Nat → Nat → Prop := Relation.ReflTransGen fun node need => need ∈ g.needsOf node

def Mutual (g : Graph) (node other : Nat) : Prop := g.Reaches node other ∧ g.Reaches other node

def OnCycle (g : Graph) (node : Nat) : Prop :=
  Relation.TransGen (fun node need => need ∈ g.needsOf node) node node

structure IsGroup (g : Graph) (members : List Nat) : Prop where
  sorted : members.Pairwise (· < ·)
  belongs : ∀ node ∈ members, ∀ other, other ∈ members ↔ g.Mutual node other

-- What is settled leaves no class half done.
def Whole (g : Graph) (settled : Std.TreeSet Nat) : Prop :=
  ∀ node ∈ settled, ∀ other, g.Mutual node other → other ∈ settled

variable {g : Graph} {node other need : Nat} {settled : Std.TreeSet Nat} {members : List Nat}

namespace Mutual

theorem refl (g : Graph) (node : Nat) : g.Mutual node node := ⟨.refl, .refl⟩

theorem symm (same : g.Mutual node other) : g.Mutual other node := ⟨same.2, same.1⟩

theorem trans {third : Nat} (first : g.Mutual node other) (second : g.Mutual other third) :
    g.Mutual node third := ⟨first.1.trans second.1, second.2.trans first.2⟩

end Mutual

theorem Reaches.lt (numbered : g.WellNumbered) (path : g.Reaches node other)
    (inside : node < g.nodes.size) : other < g.nodes.size := by
  cases path with
  | refl => exact inside
  | tail _ need => exact numbered _ _ need

section Found

theorem unsettled_iff : (!settled.contains node) = true ↔ node ∉ settled := by
  rw [Bool.not_eq_true', ← Bool.not_eq_true, Std.TreeSet.contains_iff_mem]

def below (g : Graph) (settled : Std.TreeSet Nat) (node : Nat) : Std.TreeSet Nat :=
  reachLoop g.needsOf (fun other => !settled.contains other) g.searchBound [node] ∅

theorem groupOf_eq (g : Graph) (settled : Std.TreeSet Nat) (node : Nat) :
    g.groupOf g.usersTable g.searchBound settled node =
      (reachLoop g.usersOf (g.below settled node).contains g.searchBound [node] ∅).toList := rfl

theorem mem_below_iff : other ∈ g.below settled node ↔ node ∉ settled ∧
    Relation.ReflTransGen (Follows g.needsOf fun other => !settled.contains other) node other := by
  rw [below, mem_reachLoop_iff (fun _ => needsOf_outside) (g.enough_forwards ∅), unsettled_iff]

theorem reaches_of_below (member : other ∈ g.below settled node) : g.Reaches node other :=
  (mem_below_iff.mp member).2.lift id fun _ _ follows => follows.1

-- A path within one class never meets what is settled.
theorem below_of_mutual (whole : g.Whole settled) (fresh : node ∉ settled)
    (same : g.Mutual node other) : other ∈ g.below settled node := by
  refine mem_below_iff.mpr ⟨fresh, ?_⟩
  obtain ⟨path, back⟩ := same
  induction path with
  | refl => exact .refl
  | @tail middle last first need ih =>
    have unsettled : last ∉ settled := by
      intro done
      exact fresh (whole last done node ⟨back, first.tail need⟩)
    exact (ih (.head need back)).tail ⟨need, unsettled_iff.mpr unsettled⟩

theorem mem_groupOf_iff (numbered : g.WellNumbered) (whole : g.Whole settled) (fresh : node ∉ settled) :
    other ∈ g.groupOf g.usersTable g.searchBound settled node ↔ g.Mutual node other := by
  rw [groupOf_eq, Std.TreeSet.mem_toList,
    mem_reachLoop_iff (fun _ => usersOf_outside) (g.enough_backwards ∅), Std.TreeSet.contains_iff_mem]
  constructor
  · rintro ⟨start, path⟩
    have within := inside_of_path (Std.TreeSet.contains_iff_mem.mpr start) path
    refine ⟨reaches_of_below (Std.TreeSet.contains_iff_mem.mp within), ?_⟩
    clear within
    induction path with
    | refl => exact .refl
    | tail first follows ih => exact .head ((mem_usersOf_iff numbered).mp follows.1) ih
  · rintro ⟨path, back⟩
    refine ⟨below_of_mutual whole fresh (.refl g node), ?_⟩
    -- Along the way back every node is in the class, so the search backwards may enter it.
    induction back using Relation.ReflTransGen.head_induction_on with
    | refl => exact .refl
    | @head first next need back ih =>
      have within := below_of_mutual whole fresh ⟨path, .head need back⟩
      exact (ih (path.tail need)).tail
        ⟨(mem_usersOf_iff numbered).mpr need, Std.TreeSet.contains_iff_mem.mpr within⟩

theorem groupOf_isGroup (numbered : g.WellNumbered) (whole : g.Whole settled) (fresh : node ∉ settled) :
    g.IsGroup (g.groupOf g.usersTable g.searchBound settled node) := by
  refine ⟨?_, ?_⟩
  · rw [groupOf_eq]
    exact Std.TreeSet.ordered_toList.imp fun smaller => Nat.compare_eq_lt.mp smaller
  · intro first member other
    rw [mem_groupOf_iff numbered whole fresh] at member ⊢
    exact ⟨member.symm.trans, member.trans⟩

end Found

section Settling

def groupStep (g : Graph) (grouping : Grouping) (node : Nat) : Grouping :=
  if grouping.settled.contains node then grouping
  else grouping.add (g.groupOf g.usersTable g.searchBound grouping.settled node)

def grouping (g : Graph) : Grouping := g.closingOrder.foldl g.groupStep ⟨∅, ∅⟩

theorem groups_eq (g : Graph) : g.groups = g.grouping.groups.toList.map Prod.snd := rfl

-- After these nodes were tried their classes are settled, each is a group under its first member,
-- and there are no other groups.
structure Grouped (g : Graph) (tried : List Nat) (grouping : Grouping) : Prop where
  settled : ∀ node, node ∈ grouping.settled ↔ ∃ first ∈ tried, g.Mutual first node
  sound : ∀ (first : Nat) (members : List Nat), grouping.groups[first]? = some members →
    members.head? = some first ∧ g.IsGroup members ∧ ∀ node ∈ members, node ∈ grouping.settled
  complete : ∀ node ∈ tried, ∃ (first : Nat) (members : List Nat),
    grouping.groups[first]? = some members ∧ node ∈ members

variable {tried : List Nat} {grouping : Grouping}

theorem Grouped.whole (grouped : Grouped g tried grouping) : g.Whole grouping.settled := by
  intro node member other same
  rw [grouped.settled] at member ⊢
  obtain ⟨first, asked, belongs⟩ := member
  exact ⟨first, asked, belongs.trans same⟩

theorem Grouped.nothing (g : Graph) : Grouped g [] ⟨∅, ∅⟩ := by
  refine ⟨by simp, ?_, by simp⟩
  intro first members found
  simp at found

theorem exists_mem_concat {p : Nat → Prop} :
    (∃ first ∈ tried ++ [node], p first) ↔ (∃ first ∈ tried, p first) ∨ p node := by
  simp [or_and_right, exists_or]

theorem forall_mem_concat {p : Nat → Prop} :
    (∀ other ∈ tried ++ [node], p other) ↔ (∀ other ∈ tried, p other) ∧ p node := by
  rw [List.forall_mem_append, List.forall_mem_singleton]

theorem Grouped.known (grouped : Grouped g tried grouping) (member : node ∈ grouping.settled) :
    Grouped g (tried ++ [node]) grouping := by
  obtain ⟨earlier, asked, belongs⟩ := (grouped.settled node).mp member
  refine ⟨?_, grouped.sound, forall_mem_concat.mpr ⟨grouped.complete, ?_⟩⟩
  · intro other
    rw [grouped.settled, exists_mem_concat]
    refine ⟨Or.inl, fun found => found.elim id ?_⟩
    exact fun same => ⟨earlier, asked, belongs.trans same⟩
  · -- The node stands in the group of the earlier node that it belongs to.
    obtain ⟨first, members, found, inside⟩ := grouped.complete earlier asked
    obtain ⟨_, group, _⟩ := grouped.sound first members found
    exact ⟨first, members, found, (group.belongs earlier inside node).mpr belongs⟩

theorem Grouping.mem_settled_add (grouping : Grouping) (group : List Nat) :
    node ∈ (grouping.add group).settled ↔ node ∈ grouping.settled ∨ node ∈ group := by
  change node ∈ grouping.settled.insertMany group ↔ _
  rw [Std.TreeSet.mem_insertMany_list, List.contains_iff_mem]

theorem Grouping.groups_add (grouping : Grouping) {group : List Nat} {first : Nat}
    (head : group.head? = some first) (other : Nat) :
    (grouping.add group).groups[other]? =
      if first = other then some group else grouping.groups[other]? := by
  cases group with
  | nil => cases head
  | cons _ rest =>
    cases head
    simp [Grouping.add, Std.TreeMap.getElem?_insert, Std.LawfulEqCmp.compare_eq_iff_eq]

-- The first of a new group stands in no group yet, so adding it overwrites none.
theorem Grouped.getElem_add (grouped : Grouped g tried grouping) {group : List Nat} {first key : Nat}
    (head : group.head? = some first) (fresh : first ∉ grouping.settled)
    (found : grouping.groups[key]? = some members) : (grouping.add group).groups[key]? = some members := by
  obtain ⟨old_head, _, old_settled⟩ := grouped.sound key members found
  have apart : first ≠ key := by
    rintro rfl
    exact fresh (old_settled first (List.mem_of_mem_head? old_head))
  rw [Grouping.groups_add grouping head, if_neg apart, found]

theorem Grouped.add (grouped : Grouped g tried grouping) (numbered : g.WellNumbered)
    (fresh : node ∉ grouping.settled) : Grouped g (tried ++ [node])
      (grouping.add (g.groupOf g.usersTable g.searchBound grouping.settled node)) := by
  have members_iff : ∀ other, other ∈ _ ↔ g.Mutual node other :=
    fun _ => mem_groupOf_iff numbered grouped.whole fresh
  have is_group := groupOf_isGroup numbered grouped.whole fresh
  generalize g.groupOf g.usersTable g.searchBound grouping.settled node = group at *
  have here : node ∈ group := (members_iff node).mpr (.refl g node)
  obtain ⟨first, head⟩ : ∃ first, group.head? = some first := by
    cases group with
    | nil => cases here
    | cons first rest => exact ⟨first, rfl⟩
  have first_fresh : first ∉ grouping.settled := by
    intro done
    have belongs := (members_iff first).mp (List.mem_of_mem_head? head)
    exact fresh (grouped.whole first done node belongs.symm)
  refine ⟨?_, ?_, forall_mem_concat.mpr ⟨?_, ?_⟩⟩
  · intro other
    rw [Grouping.mem_settled_add, grouped.settled, members_iff, exists_mem_concat]
  · intro other members found
    rw [Grouping.groups_add grouping head] at found
    split at found
    · rename_i same
      cases found
      refine ⟨same ▸ head, is_group, ?_⟩
      exact fun member inside => (Grouping.mem_settled_add _ _).mpr (.inr inside)
    · obtain ⟨old_head, old_group, old_settled⟩ := grouped.sound other members found
      refine ⟨old_head, old_group, ?_⟩
      exact fun member inside => (Grouping.mem_settled_add _ _).mpr (.inl (old_settled member inside))
  · intro other old
    obtain ⟨key, members, found, inside⟩ := grouped.complete other old
    exact ⟨key, members, grouped.getElem_add head first_fresh found, inside⟩
  · refine ⟨first, group, ?_, here⟩
    rw [Grouping.groups_add grouping head, if_pos rfl]

theorem Grouped.step (grouped : Grouped g tried grouping) (numbered : g.WellNumbered) (node : Nat) :
    Grouped g (tried ++ [node]) (g.groupStep grouping node) := by
  unfold groupStep
  split
  · rename_i done
    exact grouped.known (Std.TreeSet.contains_iff_mem.mp done)
  · rename_i fresh
    exact grouped.add numbered fun done => fresh (Std.TreeSet.contains_iff_mem.mpr done)

theorem Grouped.foldl (grouped : Grouped g tried grouping) (numbered : g.WellNumbered)
    (nodes : List Nat) : Grouped g (tried ++ nodes) (nodes.foldl g.groupStep grouping) := by
  induction nodes generalizing tried grouping with
  | nil => rwa [List.append_nil]
  | cons node rest ih =>
    have further := ih (grouped.step numbered node)
    rwa [List.append_assoc] at further

theorem grouping_grouped (numbered : g.WellNumbered) : Grouped g g.closingOrder g.grouping := by
  have grouped := (Grouped.nothing g).foldl numbered g.closingOrder
  rwa [List.nil_append] at grouped

theorem mem_groups_iff : members ∈ g.groups ↔ ∃ first : Nat, g.grouping.groups[first]? = some members := by
  rw [groups_eq, List.mem_map]
  constructor
  · rintro ⟨⟨first, members⟩, member, rfl⟩
    exact ⟨first, Std.TreeMap.mem_toList_iff_getElem?_eq_some.mp member⟩
  · rintro ⟨first, found⟩
    exact ⟨(first, members), Std.TreeMap.mem_toList_iff_getElem?_eq_some.mpr found, rfl⟩

theorem groups_sound (numbered : g.WellNumbered) (member : members ∈ g.groups) :
    members ≠ [] ∧ g.IsGroup members ∧ ∀ node ∈ members, node < g.nodes.size := by
  obtain ⟨first, found⟩ := mem_groups_iff.mp member
  have grouped := grouping_grouped numbered
  obtain ⟨head, group, settled⟩ := grouped.sound first members found
  refine ⟨List.ne_nil_of_mem (List.mem_of_mem_head? head), group, ?_⟩
  intro node inside
  obtain ⟨tried, closed, same⟩ := (grouped.settled node).mp (settled node inside)
  exact Reaches.lt numbered same.1 ((mem_closingOrder_iff numbered).mp closed)

theorem exists_group (numbered : g.WellNumbered) (inside : node < g.nodes.size) :
    ∃ members ∈ g.groups, node ∈ members := by
  obtain ⟨first, members, found, member⟩ :=
    (grouping_grouped numbered).complete node ((mem_closingOrder_iff numbered).mpr inside)
  exact ⟨members, mem_groups_iff.mpr ⟨first, found⟩, member⟩

end Settling

-- A group of one node is cyclic if the node needs itself; in a larger one every node reaches another
-- and is reached from it.
theorem isCyclic_iff (group : g.IsGroup members) (member : node ∈ members) :
    g.isCyclic members = true ↔ g.OnCycle node := by
  match members with
  | [single] =>
    obtain rfl : node = single := List.mem_singleton.mp member
    have self : g.isCyclic [node] = true ↔ node ∈ g.needsOf node := by simp [isCyclic]
    rw [self]
    constructor
    · exact fun needed => Relation.TransGen.single needed
    · intro cycle
      obtain ⟨need, needed, back⟩ := Relation.TransGen.head'_iff.mp cycle
      have again := (group.belongs node member need).mpr ⟨.single needed, back⟩
      exact List.mem_singleton.mp again ▸ needed
  | first :: second :: rest =>
    refine iff_of_true rfl ?_
    have apart : first ≠ second := by
      have smaller := List.rel_of_pairwise_cons group.sorted (List.mem_cons_self ..)
      exact Nat.ne_of_lt smaller
    obtain ⟨other, inside, different⟩ : ∃ other ∈ first :: second :: rest, other ≠ node := by
      by_cases same : first = node
      · exact ⟨second, by simp, fun equal => apart (same.trans equal.symm)⟩
      · exact ⟨first, by simp, same⟩
    obtain ⟨path, back⟩ := (group.belongs node member other).mp inside
    rcases Relation.reflTransGen_iff_eq_or_transGen.mp path with same | steps
    · exact absurd same different
    · exact steps.trans_left back

end BuildPlan.Graph
