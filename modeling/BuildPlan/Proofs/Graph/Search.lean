import Mathlib.Algebra.Order.BigOperators.Group.Finset
import Mathlib.Logic.Relation
import BuildPlan.Graph

namespace BuildPlan.Graph

-- What nodes below `size` still cost that a search has not opened.
def unspent (cost : Nat → Nat) (size : Nat) (opened : Std.TreeSet Nat) : Nat :=
  ∑ node ∈ Finset.range size with node ∉ opened, cost node

-- Opening a node spends its cost. A node out of range costs nothing.
theorem unspent_insert (cost : Nat → Nat) {size node : Nat} {opened : Std.TreeSet Nat}
    (outside : size ≤ node → cost node = 0) (fresh : node ∉ opened) :
    cost node + unspent cost size (opened.insert node) ≤ unspent cost size opened := by
  have others : (Finset.range size).filter (fun other => other ∉ opened.insert node) =
      ((Finset.range size).filter (fun other => other ∉ opened)).erase node := by
    ext other
    simp only [Finset.mem_filter, Finset.mem_erase, Std.TreeSet.mem_insert,
      Std.LawfulEqCmp.compare_eq_iff_eq]
    tauto
  unfold unspent
  rw [others]
  rcases Nat.lt_or_ge node size with inside | large
  · have member : node ∈ (Finset.range size).filter (fun other => other ∉ opened) :=
      Finset.mem_filter.mpr ⟨Finset.mem_range.mpr inside, fresh⟩
    exact Nat.le_of_eq (Finset.add_sum_erase _ cost member)
  · rw [outside large, Nat.zero_add]
    exact Finset.sum_le_sum_of_subset (Finset.erase_subset _ _)

section Reaching

variable {next : Nat → List Nat} {inside : Nat → Bool} {size limit start first : Nat} {todo : List Nat}
  {seen result : Std.TreeSet Nat}

def Follows (next : Nat → List Nat) (inside : Nat → Bool) (node other : Nat) : Prop :=
  other ∈ next node ∧ inside other = true

theorem inside_of_path {node : Nat} (within : inside start = true)
    (path : Relation.ReflTransGen (Follows next inside) start node) : inside node = true := by
  cases path with
  | refl => exact within
  | tail _ follows => exact follows.2

theorem reachLoop_cons (node : Nat) :
    reachLoop next inside (limit + 1) (node :: todo) seen =
      if inside node = true ∧ node ∉ seen then
        reachLoop next inside limit (next node ++ todo) (seen.insert node)
      else reachLoop next inside limit todo seen := by
  rw [reachLoop]
  by_cases within : inside node = true <;> by_cases old : node ∈ seen <;> simp [within, old]

theorem reachLoop_sound {node : Nat} (member : node ∈ reachLoop next inside limit todo seen) :
    node ∈ seen ∨ ∃ start ∈ todo, inside start = true ∧
      Relation.ReflTransGen (Follows next inside) start node := by
  induction limit generalizing todo seen with
  | zero => exact .inl member
  | succ limit ih =>
    cases todo with
    | nil => exact .inl member
    | cons first rest =>
      rw [reachLoop_cons] at member
      split at member
      · rename_i fresh
        rcases ih member with old | ⟨start, asked, within, path⟩
        · rcases Std.TreeSet.mem_insert.mp old with same | old
          · rw [Std.LawfulEqCmp.compare_eq_iff_eq] at same
            exact .inr ⟨first, List.mem_cons_self .., fresh.1, same ▸ .refl⟩
          · exact .inl old
        · rcases List.mem_append.mp asked with below | later
          · exact .inr ⟨first, List.mem_cons_self .., fresh.1, .head ⟨below, within⟩ path⟩
          · exact .inr ⟨start, List.mem_cons_of_mem _ later, within, path⟩
      · rcases ih member with old | ⟨start, later, within, path⟩
        · exact .inl old
        · exact .inr ⟨start, List.mem_cons_of_mem _ later, within, path⟩

-- What a finished search has seen: all that it began with, and all that this leads to.
structure Saturated (next : Nat → List Nat) (inside : Nat → Bool) (todo : List Nat)
    (seen result : Std.TreeSet Nat) : Prop where
  kept : ∀ node ∈ seen, node ∈ result
  done : ∀ node ∈ todo, inside node = true → node ∈ result
  closed : ∀ node ∈ result, ∀ other, Follows next inside node other → other ∈ result

-- Every node that is seen has what it leads to seen as well, or still to be looked at.
def Pending (next : Nat → List Nat) (inside : Nat → Bool) (todo : List Nat)
    (seen : Std.TreeSet Nat) : Prop :=
  ∀ node ∈ seen, ∀ other, Follows next inside node other → other ∈ seen ∨ other ∈ todo

namespace Pending

theorem finished (pending : Pending next inside [] seen) : Saturated next inside [] seen seen := by
  refine ⟨fun _ member => member, by simp, ?_⟩
  intro node member other follows
  exact (pending node member other follows).resolve_right List.not_mem_nil

theorem opened (pending : Pending next inside (first :: todo) seen) :
    Pending next inside (next first ++ todo) (seen.insert first) := by
  intro node member other follows
  rw [Std.TreeSet.mem_insert, Std.LawfulEqCmp.compare_eq_iff_eq] at member ⊢
  rw [List.mem_append]
  rcases member with rfl | old
  · exact .inr (.inl follows.1)
  · rcases pending node old other follows with known | asked
    · exact .inl (.inr known)
    · rcases List.mem_cons.mp asked with rfl | later
      · exact .inl (.inl rfl)
      · exact .inr (.inr later)

theorem passed (pending : Pending next inside (first :: todo) seen)
    (known : inside first = true → first ∈ seen) : Pending next inside todo seen := by
  intro node member other follows
  rcases pending node member other follows with old | asked
  · exact .inl old
  · rcases List.mem_cons.mp asked with rfl | later
    · exact .inl (known follows.2)
    · exact .inr later

end Pending

namespace Saturated

theorem opened (saturated : Saturated next inside (next first ++ todo) (seen.insert first) result) :
    Saturated next inside (first :: todo) seen result := by
  obtain ⟨kept, done, closed⟩ := saturated
  refine ⟨?_, ?_, closed⟩
  · exact fun node member => kept node (Std.TreeSet.mem_insert.mpr (.inr member))
  · intro node asked within
    rcases List.mem_cons.mp asked with rfl | later
    · exact kept node (Std.TreeSet.mem_insert.mpr (.inl Std.ReflCmp.compare_self))
    · exact done node (List.mem_append_right _ later) within

theorem passed (saturated : Saturated next inside todo seen result)
    (known : inside first = true → first ∈ seen) : Saturated next inside (first :: todo) seen result := by
  obtain ⟨kept, done, closed⟩ := saturated
  refine ⟨kept, ?_, closed⟩
  intro node asked within
  rcases List.mem_cons.mp asked with rfl | later
  · exact kept node (known within)
  · exact done node later within

end Saturated

-- Every step pays with an entry of the list, and opening a node puts as many entries on the list as the
-- node cost.
theorem reachLoop_saturated (outside : ∀ node, size ≤ node → next node = [])
    (enough : todo.length + unspent (fun node => (next node).length) size seen ≤ limit)
    (pending : Pending next inside todo seen) :
    Saturated next inside todo seen (reachLoop next inside limit todo seen) := by
  induction limit generalizing todo seen with
  | zero =>
    have nothing : todo = [] := List.length_eq_zero_iff.mp (by omega)
    subst nothing
    exact pending.finished
  | succ limit ih =>
    cases todo with
    | nil => exact pending.finished
    | cons first rest =>
      rw [List.length_cons] at enough
      rw [reachLoop_cons]
      split
      · rename_i fresh
        have free : size ≤ first → (next first).length = 0 := by
          intro large
          rw [outside first large, List.length_nil]
        have spent := unspent_insert (fun node => (next node).length) free fresh.2
        have bounded : (next first ++ rest).length +
            unspent (fun node => (next node).length) size (seen.insert first) ≤ limit := by
          rw [List.length_append]
          omega
        exact (ih bounded pending.opened).opened
      · rename_i passed
        have known : inside first = true → first ∈ seen := by
          intro within
          exact Decidable.not_not.mp fun fresh => passed ⟨within, fresh⟩
        exact (ih (by omega) (pending.passed known)).passed known

theorem mem_reachLoop_iff (outside : ∀ node, size ≤ node → next node = [])
    (enough : 1 + unspent (fun node => (next node).length) size ∅ ≤ limit) {node : Nat} :
    node ∈ reachLoop next inside limit [start] ∅ ↔
      inside start = true ∧ Relation.ReflTransGen (Follows next inside) start node := by
  constructor
  · intro member
    rcases reachLoop_sound member with nothing | ⟨other, asked, within, path⟩
    · exact absurd nothing Std.TreeSet.not_mem_emptyc
    · cases List.mem_singleton.mp asked
      exact ⟨within, path⟩
  · rintro ⟨within, path⟩
    have nothing : Pending next inside [start] ∅ :=
      fun _ member => absurd member Std.TreeSet.not_mem_emptyc
    have saturated := reachLoop_saturated outside enough nothing
    induction path with
    | refl => exact saturated.done start (List.mem_singleton.mpr rfl) within
    | tail _ follows ih => exact saturated.closed _ ih _ follows

end Reaching

section Closing

def WellNumbered (g : Graph) : Prop := ∀ node, ∀ need ∈ g.needsOf node, need < g.nodes.size

variable {g : Graph} {limit : Nat} {todo : List Stage} {opened : Std.TreeSet Nat} {closed : List Nat}

def Stage.node : Stage → Nat
  | opening node | closing node => node

-- What opening a node costs: a stage for each need and one to close it.
def openingCost (g : Graph) (node : Nat) : Nat := (g.needsOf node).length + 1

theorem needsOf_lt {node need : Nat} (member : need ∈ g.needsOf node) : node < g.nodes.size := by
  unfold needsOf at member
  cases found : g.nodes[node]? with
  | none => simp [found] at member
  | some _ => exact (Array.getElem?_eq_some_iff.mp found).1

theorem closingLoop_opening (node : Nat) :
    g.closingLoop (limit + 1) (.opening node :: todo) opened closed =
      if node ∈ opened then g.closingLoop limit todo opened closed
      else g.closingLoop limit ((g.needsOf node).map .opening ++ .closing node :: todo)
        (opened.insert node) closed := by
  rw [closingLoop]
  by_cases old : node ∈ opened <;> simp [old]

theorem mem_stages_iff {node : Nat} {stage : Stage} :
    stage ∈ (g.needsOf node).map .opening ++ .closing node :: todo ↔
      (∃ need ∈ g.needsOf node, stage = .opening need) ∨ stage = .closing node ∨ stage ∈ todo := by
  simp only [List.mem_append, List.mem_map, List.mem_cons]
  refine or_congr ?_ Iff.rfl
  exact exists_congr fun need => and_congr_right fun _ => eq_comm

theorem stages_lt (numbered : g.WellNumbered) {node : Nat} (small : node < g.nodes.size)
    (inside : ∀ stage ∈ todo, stage.node < g.nodes.size) :
    ∀ stage ∈ (g.needsOf node).map .opening ++ .closing node :: todo, stage.node < g.nodes.size := by
  intro stage member
  rcases mem_stages_iff.mp member with ⟨need, needed, rfl⟩ | rfl | later
  · exact numbered node need needed
  · exact small
  · exact inside stage later

theorem closingLoop_keeps (g : Graph) (kept : List Stage → Std.TreeSet Nat → List Nat → Prop)
    (closes : ∀ {node todo opened closed}, kept (.closing node :: todo) opened closed →
      kept todo opened (node :: closed))
    (passes : ∀ {node todo opened closed}, node ∈ opened → kept (.opening node :: todo) opened closed →
      kept todo opened closed)
    (opens : ∀ {node todo opened closed}, node ∉ opened → kept (.opening node :: todo) opened closed →
      kept ((g.needsOf node).map .opening ++ .closing node :: todo) (opened.insert node) closed)
    (limit : Nat) (start : kept todo opened closed) :
    ∃ todo' opened', kept todo' opened' (g.closingLoop limit todo opened closed) := by
  induction limit generalizing todo opened closed with
  | zero => exact ⟨todo, opened, start⟩
  | succ limit ih =>
    match todo with
    | [] => exact ⟨[], opened, start⟩
    | .closing node :: rest => exact ih (closes start)
    | .opening node :: rest =>
      rw [closingLoop_opening]
      split
      · rename_i old
        exact ih (passes old start)
      · rename_i fresh
        exact ih (opens fresh start)

structure Within (g : Graph) (closed : List Nat) (todo : List Stage) : Prop where
  stages : ∀ stage ∈ todo, stage.node < g.nodes.size
  closed : ∀ node ∈ closed, node < g.nodes.size

namespace Within

theorem closes {node : Nat} (within : g.Within closed (.closing node :: todo)) :
    g.Within (node :: closed) todo := by
  have inside := List.forall_mem_cons.mp within.stages
  exact ⟨inside.2, List.forall_mem_cons.mpr ⟨inside.1, within.closed⟩⟩

theorem passes {node : Nat} (within : g.Within closed (.opening node :: todo)) : g.Within closed todo :=
  ⟨(List.forall_mem_cons.mp within.stages).2, within.closed⟩

theorem opens (numbered : g.WellNumbered) {node : Nat} (within : g.Within closed (.opening node :: todo)) :
    g.Within closed ((g.needsOf node).map .opening ++ .closing node :: todo) := by
  have inside := List.forall_mem_cons.mp within.stages
  exact ⟨stages_lt numbered inside.1 inside.2, within.closed⟩

end Within

theorem closingLoop_lt (numbered : g.WellNumbered) (inside : ∀ stage ∈ todo, stage.node < g.nodes.size)
    (old : ∀ node ∈ closed, node < g.nodes.size) :
    ∀ node ∈ g.closingLoop limit todo opened closed, node < g.nodes.size := by
  have start : g.Within closed todo := ⟨inside, old⟩
  obtain ⟨_, _, within⟩ : ∃ rest, ∃ _ : Std.TreeSet Nat,
      g.Within (g.closingLoop limit todo opened closed) rest :=
    g.closingLoop_keeps (fun todo _ closed => g.Within closed todo) Within.closes
      (fun _ => Within.passes) (fun _ => Within.opens numbered) limit start
  exact within.closed

-- Every node that is opened is closed already, or there is a stage to close it.
def Awaited (opened : Std.TreeSet Nat) (closed : List Nat) (todo : List Stage) : Prop :=
  ∀ node ∈ opened, node ∈ closed ∨ .closing node ∈ todo

namespace Awaited

theorem closes {node : Nat} (awaited : Awaited opened closed (.closing node :: todo)) :
    Awaited opened (node :: closed) todo := by
  intro other member
  rcases awaited other member with old | waiting
  · exact .inl (List.mem_cons_of_mem _ old)
  · rcases List.mem_cons.mp waiting with same | later
    · cases same
      exact .inl (List.mem_cons_self ..)
    · exact .inr later

theorem passes {node : Nat} (awaited : Awaited opened closed (.opening node :: todo)) :
    Awaited opened closed todo := by
  intro other member
  refine (awaited other member).imp_right fun waiting => ?_
  exact (List.mem_cons.mp waiting).resolve_left (by simp)

theorem opens {node : Nat} (awaited : Awaited opened closed (.opening node :: todo)) :
    Awaited (opened.insert node) closed ((g.needsOf node).map .opening ++ .closing node :: todo) := by
  intro other member
  rw [Std.TreeSet.mem_insert, Std.LawfulEqCmp.compare_eq_iff_eq] at member
  rw [mem_stages_iff]
  rcases member with rfl | old
  · exact .inr (.inr (.inl rfl))
  · exact (awaited.passes other old).imp_right fun waiting => .inr (.inr waiting)

end Awaited

theorem closingLoop_complete (numbered : g.WellNumbered)
    (inside : ∀ stage ∈ todo, stage.node < g.nodes.size)
    (enough : todo.length + unspent g.openingCost g.nodes.size opened ≤ limit)
    (awaited : Awaited opened closed todo) :
    (∀ node ∈ closed, node ∈ g.closingLoop limit todo opened closed) ∧
    ∀ stage ∈ todo, stage.node ∈ g.closingLoop limit todo opened closed := by
  induction limit generalizing todo opened closed with
  | zero =>
    have nothing : todo = [] := List.length_eq_zero_iff.mp (by omega)
    subst nothing
    exact ⟨fun _ member => member, by simp⟩
  | succ limit ih =>
    match todo with
    | [] => exact ⟨fun _ member => member, by simp⟩
    | .closing node :: rest =>
      rw [List.length_cons] at enough
      have inside := List.forall_mem_cons.mp inside
      obtain ⟨kept, done⟩ := ih inside.2 (by omega) awaited.closes
      have kept := List.forall_mem_cons.mp kept
      exact ⟨kept.2, List.forall_mem_cons.mpr ⟨kept.1, done⟩⟩
    | .opening node :: rest =>
      rw [List.length_cons] at enough
      have inside := List.forall_mem_cons.mp inside
      rw [closingLoop_opening]
      split
      · rename_i old
        obtain ⟨kept, done⟩ := ih inside.2 (by omega) awaited.passes
        refine ⟨kept, List.forall_mem_cons.mpr ⟨?_, done⟩⟩
        exact (awaited.passes node old).elim (kept node) (done (.closing node))
      · rename_i fresh
        have small : node < g.nodes.size := inside.1
        have spent := unspent_insert g.openingCost
          (fun large => absurd small (Nat.not_lt.mpr large)) fresh
        have bounded : ((g.needsOf node).map Stage.opening ++ .closing node :: rest).length +
            unspent g.openingCost g.nodes.size (opened.insert node) ≤ limit := by
          rw [openingCost] at spent
          rw [List.length_append, List.length_map, List.length_cons]
          omega
        obtain ⟨kept, done⟩ := ih (stages_lt numbered small inside.2) bounded awaited.opens
        refine ⟨kept, List.forall_mem_cons.mpr ⟨?_, ?_⟩⟩
        · exact done (.closing node) (mem_stages_iff.mpr (.inr (.inl rfl)))
        · exact fun stage later => done stage (mem_stages_iff.mpr (.inr (.inr later)))

end Closing

end BuildPlan.Graph
