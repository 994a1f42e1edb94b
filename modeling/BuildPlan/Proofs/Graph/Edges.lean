import BuildPlan.Proofs.Graph.Search

namespace BuildPlan.Graph

def total (rows : List (List Nat)) : Nat := rows.foldr (fun row length => row.length + length) 0

def rowOf (table : Array (List Nat)) (node : Nat) : List Nat := table[node]?.getD []

def addUser (node : Nat) (table : Array (List Nat)) (needs : List Nat) : Array (List Nat) :=
  needs.foldl (fun table need => table.modify need (node :: ·)) table

def usersOf (g : Graph) : Nat → List Nat := rowOf g.usersTable

variable {g : Graph} {table : Array (List Nat)} {node need user : Nat}

theorem rowOf_outside (large : table.size ≤ node) : rowOf table node = [] := by
  simp [rowOf, Array.getElem?_eq_none large]

theorem total_cons (row : List Nat) (rest : List (List Nat)) :
    total (row :: rest) = row.length + total rest := rfl

theorem sum_range_length (rows : List (List Nat)) :
    ∑ node ∈ Finset.range rows.length, (rows[node]?.getD []).length = total rows := by
  induction rows with
  | nil => rfl
  | cons row rest ih =>
    rw [List.length_cons, Finset.sum_range_succ', total_cons, ← ih, Nat.add_comm]
    simp

theorem sum_rowOf (table : Array (List Nat)) :
    ∑ node ∈ Finset.range table.size, (rowOf table node).length = total table.toList := by
  rw [← sum_range_length, Array.length_toList]
  simp [rowOf]

theorem unspent_le (cost : Nat → Nat) (size : Nat) (opened : Std.TreeSet Nat) :
    unspent cost size opened ≤ ∑ node ∈ Finset.range size, cost node :=
  Finset.sum_le_sum_of_subset (Finset.filter_subset _ _)

theorem needsOf_eq_rowOf (g : Graph) (node : Nat) :
    g.needsOf node = rowOf (g.nodes.map Node.needs) node := by simp [needsOf, rowOf]

theorem needsOf_outside (large : g.nodes.size ≤ node) : g.needsOf node = [] := by
  rw [needsOf_eq_rowOf]
  exact rowOf_outside (by simpa using large)

theorem edgeCount_eq (g : Graph) : g.edgeCount = total (g.nodes.toList.map Node.needs) := by
  rw [total, List.foldr_map]
  rfl

theorem sum_needsOf (g : Graph) :
    ∑ node ∈ Finset.range g.nodes.size, (g.needsOf node).length = g.edgeCount := by
  rw [edgeCount_eq, ← Array.toList_map, ← sum_rowOf, Array.size_map]
  simp only [needsOf_eq_rowOf]

section Turned

theorem size_addUser (needs : List Nat) : (addUser node table needs).size = table.size := by
  induction needs generalizing table with
  | nil => rfl
  | cons need rest ih =>
    rw [addUser, List.foldl_cons]
    exact ih.trans Array.size_modify

theorem mem_rowOf_modify {other : Nat} : user ∈ rowOf (table.modify need (node :: ·)) other ↔
    user ∈ rowOf table other ∨ need = other ∧ other < table.size ∧ user = node := by
  unfold rowOf
  rw [Array.getElem?_modify]
  by_cases same : need = other
  · rcases Nat.lt_or_ge other table.size with inside | large
    · simp [same, inside, or_comm]
    · simp [same, Nat.not_lt.mpr large]
  · simp [same]

theorem addUser_cons (node : Nat) (table : Array (List Nat)) (need : Nat) (rest : List Nat) :
    addUser node table (need :: rest) = addUser node (table.modify need (node :: ·)) rest := rfl

theorem mem_addUser {other : Nat} (needs : List Nat) : user ∈ rowOf (addUser node table needs) other ↔
    user ∈ rowOf table other ∨ other ∈ needs ∧ other < table.size ∧ user = node := by
  induction needs generalizing table with
  | nil => simp [addUser]
  | cons need rest ih =>
    rw [addUser_cons, ih, mem_rowOf_modify, Array.size_modify, List.mem_cons, eq_comm (a := other)]
    tauto

theorem total_modify_le (rows : List (List Nat)) (need node : Nat) :
    total (rows.modify need (node :: ·)) ≤ total rows + 1 := by
  induction rows generalizing need with
  | nil => simp
  | cons row rest ih =>
    cases need with
    | zero =>
      rw [List.modify_zero_cons, total_cons, total_cons, List.length_cons]
      omega
    | succ need =>
      have later := ih need
      rw [List.modify_succ_cons, total_cons, total_cons]
      omega

theorem total_addUser_le (table : Array (List Nat)) (node : Nat) (needs : List Nat) :
    total (addUser node table needs).toList ≤ total table.toList + needs.length := by
  induction needs generalizing table with
  | nil => exact Nat.le_refl _
  | cons need rest ih =>
    have first := total_modify_le table.toList need node
    have later := ih (table.modify need (node :: ·))
    rw [Array.toList_modify] at later
    rw [addUser_cons, List.length_cons]
    omega

def addUsers (g : Graph) (table : Array (List Nat)) (nodes : List Nat) : Array (List Nat) :=
  nodes.foldl (fun table node => addUser node table (g.needsOf node)) table

theorem addUsers_cons (g : Graph) (table : Array (List Nat)) (node : Nat) (rest : List Nat) :
    g.addUsers table (node :: rest) = g.addUsers (addUser node table (g.needsOf node)) rest := rfl

theorem usersTable_eq (g : Graph) :
    g.usersTable = g.addUsers (Array.replicate g.nodes.size []) g.numbers := rfl

theorem size_addUsers (nodes : List Nat) : (g.addUsers table nodes).size = table.size := by
  induction nodes generalizing table with
  | nil => rfl
  | cons node rest ih => rw [addUsers_cons, ih, size_addUser]

theorem mem_addUsers (nodes : List Nat) : user ∈ rowOf (g.addUsers table nodes) node ↔
    user ∈ rowOf table node ∨ node ∈ g.needsOf user ∧ node < table.size ∧ user ∈ nodes := by
  induction nodes generalizing table with
  | nil => simp [addUsers]
  | cons first rest ih =>
    rw [addUsers_cons, ih, mem_addUser, size_addUser, List.mem_cons]
    constructor
    · rintro ((old | ⟨needed, inside, rfl⟩) | ⟨needed, inside, later⟩)
      · exact .inl old
      · exact .inr ⟨needed, inside, .inl rfl⟩
      · exact .inr ⟨needed, inside, .inr later⟩
    · rintro (old | ⟨needed, inside, rfl | later⟩)
      · exact .inl (.inl old)
      · exact .inl (.inr ⟨needed, inside, rfl⟩)
      · exact .inr ⟨needed, inside, later⟩

theorem total_addUsers_le (g : Graph) (table : Array (List Nat)) (nodes : List Nat) :
    total (g.addUsers table nodes).toList ≤ total table.toList + total (nodes.map g.needsOf) := by
  induction nodes generalizing table with
  | nil => exact Nat.le_refl _
  | cons node rest ih =>
    have first := total_addUser_le table node (g.needsOf node)
    have later := ih (addUser node table (g.needsOf node))
    rw [addUsers_cons, List.map_cons, total_cons]
    omega

end Turned

theorem usersTable_size (g : Graph) : g.usersTable.size = g.nodes.size := by
  rw [usersTable_eq, size_addUsers, Array.size_replicate]

theorem usersOf_outside (large : g.nodes.size ≤ node) : g.usersOf node = [] :=
  rowOf_outside (by rwa [usersTable_size])

theorem mem_usersOf_iff (numbered : g.WellNumbered) :
    user ∈ g.usersOf node ↔ node ∈ g.needsOf user := by
  have nothing : rowOf (Array.replicate g.nodes.size ([] : List Nat)) node = [] := by
    by_cases inside : node < g.nodes.size <;> simp [rowOf, inside]
  rw [usersOf, usersTable_eq, mem_addUsers, nothing, Array.size_replicate]
  constructor
  · rintro (old | ⟨needed, _, _⟩)
    · cases old
    · exact needed
  · intro needed
    exact .inr ⟨needed, numbered user node needed, List.mem_range.mpr (needsOf_lt needed)⟩

theorem numbers_map_needsOf (g : Graph) : g.numbers.map g.needsOf = g.nodes.toList.map Node.needs := by
  refine List.ext_getElem (by simp [numbers]) ?_
  intro node _ inside
  rw [List.length_map, Array.length_toList] at inside
  simp [numbers, needsOf, inside]

theorem sum_usersOf_le (g : Graph) :
    ∑ node ∈ Finset.range g.nodes.size, (g.usersOf node).length ≤ g.edgeCount := by
  have counted := sum_rowOf g.usersTable
  have bounded := g.total_addUsers_le (Array.replicate g.nodes.size []) g.numbers
  have nothing : ∀ size, total (List.replicate size []) = 0 := by
    intro size
    induction size with
    | zero => rfl
    | succ size ih => rw [List.replicate_succ, total_cons, ih, List.length_nil]
  rw [usersTable_size] at counted
  rw [Array.toList_replicate, nothing, Nat.zero_add, ← usersTable_eq] at bounded
  calc ∑ node ∈ Finset.range g.nodes.size, (g.usersOf node).length
      = total g.usersTable.toList := counted
    _ ≤ total (g.numbers.map g.needsOf) := bounded
    _ = g.edgeCount := by rw [numbers_map_needsOf, edgeCount_eq]

theorem enough_forwards (g : Graph) (opened : Std.TreeSet Nat) :
    1 + unspent (fun node => (g.needsOf node).length) g.nodes.size opened ≤ g.searchBound := by
  have bounded := unspent_le (fun node => (g.needsOf node).length) g.nodes.size opened
  rw [sum_needsOf] at bounded
  unfold searchBound
  omega

theorem enough_backwards (g : Graph) (opened : Std.TreeSet Nat) :
    1 + unspent (fun node => (g.usersOf node).length) g.nodes.size opened ≤ g.searchBound := by
  have bounded := (unspent_le (fun node => (g.usersOf node).length) g.nodes.size opened).trans
    g.sum_usersOf_le
  unfold searchBound
  omega

theorem enough_closing (g : Graph) :
    (g.numbers.map Stage.opening).length + unspent g.openingCost g.nodes.size ∅ ≤ g.searchBound := by
  have bounded := unspent_le g.openingCost g.nodes.size ∅
  simp only [openingCost, Finset.sum_add_distrib, sum_needsOf, ← Finset.card_eq_sum_ones,
    Finset.card_range] at bounded
  rw [List.length_map, numbers, List.length_range, searchBound, taskCount]
  omega

theorem mem_closingOrder_iff (numbered : g.WellNumbered) :
    node ∈ g.closingOrder ↔ node < g.nodes.size := by
  have stages : ∀ stage ∈ g.numbers.map Stage.opening, stage.node < g.nodes.size := by
    intro stage member
    obtain ⟨number, inside, rfl⟩ := List.mem_map.mp member
    exact List.mem_range.mp inside
  rw [closingOrder, List.mem_reverse]
  constructor
  · intro closed
    exact closingLoop_lt numbered stages (by simp) node closed
  · intro inside
    have nothing : Awaited ∅ [] (g.numbers.map Stage.opening) :=
      fun _ member => absurd member Std.TreeSet.not_mem_emptyc
    have complete := closingLoop_complete numbered stages g.enough_closing nothing
    exact complete.2 (.opening node) (List.mem_map_of_mem (List.mem_range.mpr inside))

end BuildPlan.Graph
