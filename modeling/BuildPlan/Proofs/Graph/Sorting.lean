import BuildPlan.Proofs.Graph.Components

namespace BuildPlan.Graph

section Precedence

variable {α β : Type} {list : List α} {one two three last : α}

def Precedes (list : List α) (one two : α) : Prop :=
  ∃ before after : Nat, list[before]? = some one ∧ list[after]? = some two ∧ before < after

namespace Precedes

theorem trans (distinct : list.Nodup) (first : Precedes list one two) (second : Precedes list two three) :
    Precedes list one three := by
  obtain ⟨before, middle, here, there, smaller⟩ := first
  obtain ⟨middle', after, there', beyond, smaller'⟩ := second
  have inside := (List.getElem?_eq_some_iff.mp there).1
  have same : middle = middle' := (List.getElem?_inj inside distinct).mp (there.trans there'.symm)
  exact ⟨before, after, here, beyond, smaller.trans (same ▸ smaller')⟩

theorem irrefl (distinct : list.Nodup) : ¬ Precedes list one one := by
  rintro ⟨before, after, here, there, smaller⟩
  have inside := (List.getElem?_eq_some_iff.mp here).1
  exact Nat.ne_of_lt smaller ((List.getElem?_inj inside distinct).mp (here.trans there.symm))

theorem concat (precedes : Precedes list one two) : Precedes (list ++ [last]) one two := by
  obtain ⟨before, after, here, there, smaller⟩ := precedes
  exact ⟨before, after, getElem?_concat_iff.mpr (.inl here), getElem?_concat_iff.mpr (.inl there), smaller⟩

theorem of_mem (member : one ∈ list) : Precedes (list ++ [last]) one last := by
  obtain ⟨before, here⟩ := List.mem_iff_getElem?.mp member
  have inside := (List.getElem?_eq_some_iff.mp here).1
  exact ⟨before, list.length, getElem?_concat_iff.mpr (.inl here), getElem?_concat_iff.mpr (.inr ⟨rfl, rfl⟩),
    inside⟩

theorem map (precedes : Precedes list one two) (f : α → β) : Precedes (list.map f) (f one) (f two) := by
  obtain ⟨before, after, here, there, smaller⟩ := precedes
  exact ⟨before, after, by simp [here], by simp [there], smaller⟩

end Precedes

end Precedence

variable {g : Graph} {c : Catalog} {node need : Nat} {todo : List Stage} {opened : Std.TreeSet Nat}
  {closed known known' order : List Nat}

section Closing

def waiting (todo : List Stage) : List Nat :=
  todo.filterMap fun
    | .opening _ => none
    | .closing node => some node

theorem waiting_opening : waiting (.opening node :: todo) = waiting todo := rfl

theorem waiting_closing : waiting (.closing node :: todo) = node :: waiting todo := rfl

theorem waiting_openings (needs : List Nat) : waiting (needs.map .opening ++ todo) = waiting todo := by
  induction needs with
  | nil => rfl
  | cons need rest ih => rwa [List.map_cons, List.cons_append, waiting_opening]

structure Once (todo : List Stage) (opened : Std.TreeSet Nat) (closed : List Nat) : Prop where
  distinct : (closed ++ waiting todo).Nodup
  known : ∀ node ∈ closed ++ waiting todo, node ∈ opened

namespace Once

theorem closes (once : Once (.closing node :: todo) opened closed) : Once todo opened (node :: closed) := by
  obtain ⟨distinct, known⟩ := once
  rw [waiting_closing] at distinct known
  have same : (closed ++ node :: waiting todo).Perm (node :: closed ++ waiting todo) := List.perm_middle
  exact ⟨same.nodup_iff.mp distinct, fun other member => known other (same.mem_iff.mpr member)⟩

theorem passes (once : Once (.opening node :: todo) opened closed) : Once todo opened closed :=
  ⟨once.distinct, once.known⟩

theorem opens (fresh : node ∉ opened) (once : Once (.opening node :: todo) opened closed) :
    Once ((g.needsOf node).map .opening ++ .closing node :: todo) (opened.insert node) closed := by
  obtain ⟨distinct, known⟩ := once
  rw [waiting_opening] at distinct known
  have same : (closed ++ waiting ((g.needsOf node).map .opening ++ .closing node :: todo)).Perm
      (node :: (closed ++ waiting todo)) := by
    rw [waiting_openings, waiting_closing]
    exact List.perm_middle
  refine ⟨same.nodup_iff.mpr (List.nodup_cons.mpr ⟨fun old => fresh (known node old), distinct⟩), ?_⟩
  intro other member
  rw [Std.TreeSet.mem_insert, Std.LawfulEqCmp.compare_eq_iff_eq]
  rcases List.mem_cons.mp (same.mem_iff.mp member) with rfl | old
  · exact .inl rfl
  · exact .inr (known other old)

end Once

theorem closingOrder_nodup (g : Graph) : g.closingOrder.Nodup := by
  have start : Once (g.numbers.map .opening) ∅ [] := by
    have nothing : waiting (g.numbers.map .opening) = [] := by simp [waiting]
    constructor <;> simp [nothing]
  obtain ⟨_, _, once⟩ :=
    g.closingLoop_keeps Once Once.closes (fun _ => Once.passes) Once.opens g.searchBound start
  exact List.nodup_reverse.mpr once.distinct.of_append_left

-- Youngest first, and whatever a node needs is older.
def Sorted (g : Graph) : List Nat → Prop
  | [] => True
  | node :: older => (∀ need ∈ g.needsOf node, need ∈ older) ∧ Sorted g older

-- When a node comes to be closed, all that it needs is closed, or was to be opened before.
def Ready (g : Graph) (known : List Nat) : List Stage → Prop
  | [] => True
  | .opening node :: todo => Ready g (node :: known) todo
  | .closing node :: todo => (∀ need ∈ g.needsOf node, need ∈ known) ∧ Ready g (node :: known) todo

-- A node that waits to be closed needs everything before it.
def Below (g : Graph) (todo : List Stage) : Prop :=
  todo.Pairwise fun above stage =>
    ∀ node, stage = .closing node → Relation.TransGen (fun node need => need ∈ g.needsOf node) node above.node

theorem Ready.mono (more : known ⊆ known') (ready : g.Ready known todo) : g.Ready known' todo := by
  induction todo generalizing known known' with
  | nil => trivial
  | cons stage rest ih =>
    cases stage with
    | opening node => exact ih (List.cons_subset_cons node more) ready
    | closing node =>
      exact ⟨fun need needed => more (ready.1 need needed), ih (List.cons_subset_cons node more) ready.2⟩

theorem ready_openings (needs : List Nat) :
    g.Ready known (needs.map .opening ++ todo) ↔ g.Ready (needs.reverse ++ known) todo := by
  induction needs generalizing known with
  | nil => rfl
  | cons need rest ih =>
    rw [List.map_cons, List.cons_append, Ready, ih, List.reverse_cons, List.append_assoc]
    rfl

theorem Ready.opens (ready : g.Ready closed (.opening node :: todo)) :
    g.Ready closed ((g.needsOf node).map .opening ++ .closing node :: todo) := by
  refine (ready_openings _).mpr ⟨fun need needed => by simp [needed], Ready.mono ?_ ready⟩
  exact List.cons_subset_cons node (List.subset_append_right _ _)

theorem Below.opens (below : g.Below (.opening node :: todo)) :
    g.Below ((g.needsOf node).map .opening ++ .closing node :: todo) := by
  obtain ⟨above, rest⟩ := List.pairwise_cons.mp below
  refine List.pairwise_append.mpr ⟨?_, List.pairwise_cons.mpr ⟨above, rest⟩, ?_⟩
  · rw [List.pairwise_map]
    exact List.pairwise_of_forall fun _ _ _ same => by cases same
  · rintro _ opening stage member user rfl
    obtain ⟨need, needed, rfl⟩ := List.mem_map.mp opening
    rcases List.mem_cons.mp member with same | later
    · cases same
      exact .single needed
    · exact (above _ later user rfl).tail needed

-- What a search keeps as long as it does not come back to an open node.
structure Ordered (g : Graph) (todo : List Stage) (opened : Std.TreeSet Nat) (closed : List Nat) : Prop where
  awaited : Awaited opened closed todo
  below : g.Below todo
  ready : g.Ready closed todo
  sorted : g.Sorted closed

namespace Ordered

theorem start (nodes : List Nat) : g.Ordered (nodes.map .opening) ∅ [] := by
  refine ⟨by simp [Awaited], ?_, ?_, trivial⟩
  · rw [Below, List.pairwise_map]
    exact List.pairwise_of_forall fun _ _ _ same => by cases same
  · rw [← List.append_nil (nodes.map Stage.opening)]
    exact (ready_openings _).mpr trivial

theorem closes (ordered : g.Ordered (.closing node :: todo) opened closed) :
    g.Ordered todo opened (node :: closed) := by
  obtain ⟨awaited, below, ready, sorted⟩ := ordered
  exact ⟨awaited.closes, (List.pairwise_cons.mp below).2, ready.2, ready.1, sorted⟩

theorem passes (done : node ∈ closed) (ordered : g.Ordered (.opening node :: todo) opened closed) :
    g.Ordered todo opened closed := by
  obtain ⟨awaited, below, ready, sorted⟩ := ordered
  have ready : g.Ready closed todo := Ready.mono (List.cons_subset.mpr ⟨done, List.Subset.refl _⟩) ready
  exact ⟨awaited.passes, (List.pairwise_cons.mp below).2, ready, sorted⟩

theorem opens (ordered : g.Ordered (.opening node :: todo) opened closed) :
    g.Ordered ((g.needsOf node).map .opening ++ .closing node :: todo) (opened.insert node) closed :=
  ⟨ordered.awaited.opens, ordered.below.opens, ordered.ready.opens, ordered.sorted⟩

-- A node that is open needs whatever is looked at, so that one that is come back to needs itself.
theorem onCycle (ordered : g.Ordered (.opening node :: todo) opened closed) (old : node ∈ opened)
    (unfinished : node ∉ closed) : g.OnCycle node := by
  have waits : .closing node ∈ todo := (ordered.awaited.passes node old).resolve_left unfinished
  exact (List.pairwise_cons.mp ordered.below).1 _ waits node rfl

end Ordered

theorem returnsLoop_opening (limit node : Nat) (done : Std.TreeSet Nat) :
    g.returnsLoop (limit + 1) (.opening node :: todo) opened done =
      if node ∈ opened then if node ∈ done then g.returnsLoop limit todo opened done else true
      else g.returnsLoop limit ((g.needsOf node).map .opening ++ .closing node :: todo)
        (opened.insert node) done := by
  rw [returnsLoop]
  by_cases old : opened.contains node <;> by_cases finished : done.contains node <;>
    simp [← Std.TreeSet.contains_iff_mem, old, finished]

-- Both searches take the same stages, so the one comes back to an open node or the other keeps its order.
theorem returns_or_sorted (limit : Nat) {done : Std.TreeSet Nat} (same : ∀ node, node ∈ done ↔ node ∈ closed)
    (ordered : g.Ordered todo opened closed) :
    (g.returnsLoop limit todo opened done = true ∧ ∃ node, g.OnCycle node) ∨
      g.returnsLoop limit todo opened done = false ∧ g.Sorted (g.closingLoop limit todo opened closed) := by
  induction limit generalizing todo opened closed done with
  | zero => exact .inr ⟨rfl, ordered.sorted⟩
  | succ limit ih =>
    match todo with
    | [] => exact .inr ⟨rfl, ordered.sorted⟩
    | .closing node :: rest =>
      refine ih (fun other => ?_) ordered.closes
      rw [Std.TreeSet.mem_insert, Std.LawfulEqCmp.compare_eq_iff_eq, same, List.mem_cons]
      exact or_congr_left eq_comm
    | .opening node :: rest =>
      rw [returnsLoop_opening, closingLoop_opening]
      by_cases old : node ∈ opened
      · rw [if_pos old, if_pos old]
        split
        · rename_i finished
          exact ih same (ordered.passes ((same node).mp finished))
        · rename_i unfinished
          exact .inl ⟨rfl, node, ordered.onCycle old fun closed => unfinished ((same node).mpr closed)⟩
      · rw [if_neg old, if_neg old]
        exact ih same ordered.opens

theorem hasCycles_or_sorted (g : Graph) : (g.hasCycles = true ∧ ∃ node, g.OnCycle node) ∨
    g.hasCycles = false ∧ g.Sorted g.closingOrder.reverse := by
  rw [closingOrder, List.reverse_reverse]
  exact returns_or_sorted g.searchBound (by simp) (.start g.numbers)

theorem closingOrder_sorted (acyclic : ∀ node, ¬ g.OnCycle node) : g.Sorted g.closingOrder.reverse := by
  rcases g.hasCycles_or_sorted with ⟨_, node, cycle⟩ | ⟨_, sorted⟩
  · exact absurd cycle (acyclic node)
  · exact sorted

theorem Sorted.precedes (sorted : g.Sorted closed) :
    ∀ node ∈ closed, ∀ need ∈ g.needsOf node, Precedes closed.reverse need node := by
  induction closed with
  | nil => simp
  | cons first older ih =>
    rw [List.reverse_cons]
    intro node member need needed
    rcases List.mem_cons.mp member with rfl | old
    · exact .of_mem (List.mem_reverse.mpr (sorted.1 need needed))
    · exact (ih sorted.2 node old need needed).concat

end Closing

section Respect

theorem respects_eq (g : Graph) (order : List Nat) : g.respects order =
    order.all fun node => (g.needsOf node).all fun need =>
      match (places id order)[need]?, (places id order)[node]? with
      | some before, some after => decide (before < after)
      | _, _ => false := rfl

theorem respects_iff (distinct : order.Nodup) : g.respects order = true ↔
    ∀ node ∈ order, ∀ need ∈ g.needsOf node, Precedes order need node := by
  have place_iff (node place : Nat) : (places id order)[node]? = some place ↔ order[place]? = some node := by
    rw [places_eq_some_iff (by rwa [List.map_id]), List.map_id]
  simp only [respects_eq, List.all_eq_true, Precedes, ← place_iff]
  refine forall₄_congr fun node _ need _ => ?_
  cases (places id order)[need]? <;> cases (places id order)[node]? <;> simp

-- Along a path of needs one goes back in the order, so a path never returns.
theorem acyclic_of_precedes (distinct : order.Nodup)
    (respected : ∀ node need, need ∈ g.needsOf node → Precedes order need node) : ¬ g.OnCycle node := by
  intro cycle
  have back {other : Nat} (path : Relation.TransGen (fun node need => need ∈ g.needsOf node) node other) :
      Precedes order other node := by
    induction path with
    | single needed => exact respected _ _ needed
    | tail _ needed ih => exact (respected _ _ needed).trans distinct ih
  exact (back cycle).irrefl distinct

theorem closingOrder_precedes (numbered : g.WellNumbered) (sorted : g.Sorted g.closingOrder.reverse)
    (node need : Nat) (needed : need ∈ g.needsOf node) : Precedes g.closingOrder need node := by
  have closed := (mem_closingOrder_iff numbered).mpr (needsOf_lt needed)
  have precedes := sorted.precedes node (List.mem_reverse.mpr closed) need needed
  rwa [List.reverse_reverse] at precedes

theorem hasCycles_iff_onCycle (numbered : g.WellNumbered) : g.hasCycles = true ↔ ∃ node, g.OnCycle node := by
  refine ⟨fun cyclic => ?_, fun ⟨node, cycle⟩ => ?_⟩
  · rcases g.hasCycles_or_sorted with ⟨_, cycle⟩ | ⟨none, _⟩
    · exact cycle
    · exact absurd (none.symm.trans cyclic) Bool.false_ne_true
  · rcases g.hasCycles_or_sorted with ⟨cyclic, _⟩ | ⟨_, sorted⟩
    · exact cyclic
    · exact absurd cycle (acyclic_of_precedes g.closingOrder_nodup (closingOrder_precedes numbered sorted))

theorem respects_closingOrder_iff (numbered : g.WellNumbered) :
    g.respects g.closingOrder = true ↔ ∀ node, ¬ g.OnCycle node := by
  rw [respects_iff g.closingOrder_nodup]
  constructor
  · intro respected node
    refine acyclic_of_precedes g.closingOrder_nodup fun user need needed => ?_
    exact respected user ((mem_closingOrder_iff numbered).mpr (needsOf_lt needed)) need needed
  · exact fun acyclic node _ => closingOrder_precedes numbered (closingOrder_sorted acyclic) node

theorem sorted?_eq_none_iff (numbered : g.WellNumbered) : g.sorted? = none ↔ ∃ node, g.OnCycle node := by
  rw [← not_forall_not, ← respects_closingOrder_iff numbered]
  simp [sorted?]

theorem topologicalOrder_eq_some_iff (numbered : g.WellNumbered) {names : List Name} :
    g.topologicalOrder = some names ↔
      (∀ node, ¬ g.OnCycle node) ∧ g.closingOrder.map g.nameOf = names := by
  simp [topologicalOrder, sorted?, respects_closingOrder_iff numbered]

end Respect

section Named

theorem exists_onCycle_iff : (∃ node, (ofCatalog c).OnCycle node) ↔ ∃ name, c.OnCycle name := by
  constructor
  · rintro ⟨node, cycle⟩
    obtain ⟨need, needed, _⟩ := Relation.TransGen.head'_iff.mp cycle
    obtain ⟨name, numbers⟩ := exists_name_of_lt (needsOf_lt needed)
    exact ⟨name, numbers.onCycle_iff.mp cycle⟩
  · rintro ⟨name, cycle⟩
    obtain ⟨need, ⟨task, found, _⟩, _⟩ := id cycle
    obtain ⟨node, numbers⟩ := exists_numbers_iff.mpr ⟨task, found⟩
    exact ⟨node, numbers.onCycle_iff.mpr cycle⟩

theorem topologicalOrder_eq_none_iff : (ofCatalog c).topologicalOrder = none ↔ ∃ name, c.OnCycle name := by
  rw [topologicalOrder, Option.map_eq_none_iff, sorted?_eq_none_iff (ofCatalog_numbered c), exists_onCycle_iff]

theorem hasCycles_iff : (ofCatalog c).hasCycles = true ↔ ∃ name, c.OnCycle name := by
  rw [hasCycles_iff_onCycle (ofCatalog_numbered c), exists_onCycle_iff]

theorem cycles_ne_nil_iff : (ofCatalog c).cycles ≠ [] ↔ ∃ name, c.OnCycle name := by
  constructor
  · intro listed
    obtain ⟨members, member⟩ := List.exists_mem_of_ne_nil _ listed
    have cycle := cycles_sound member
    obtain ⟨name, inside⟩ := List.exists_mem_of_ne_nil _ cycle.some_member
    exact ⟨name, cycle.onCycle name inside⟩
  · rintro ⟨name, cycle⟩
    obtain ⟨members, listed, _⟩ := exists_cycle cycle
    exact List.ne_nil_of_mem listed

theorem closingOrder_named (c : Catalog) :
    ((ofCatalog c).closingOrder.map (ofCatalog c).nameOf).Perm (builtNames c) := by
  rw [← named_range]
  refine List.Perm.map _ ((List.perm_ext_iff_of_nodup (closingOrder_nodup _) List.nodup_range).mpr ?_)
  intro node
  rw [mem_closingOrder_iff (ofCatalog_numbered c), List.mem_range]

theorem topologicalOrder_perm {order : List Name} (made : (ofCatalog c).topologicalOrder = some order) :
    order.Perm (builtNames c) := by
  obtain ⟨_, rfl⟩ := (topologicalOrder_eq_some_iff (ofCatalog_numbered c)).mp made
  exact closingOrder_named c

theorem topologicalOrder_precedes {order : List Name} {task need : Name}
    (made : (ofCatalog c).topologicalOrder = some order) (needs : c.Needs task need)
    (registered : need ∈ c.names) (built : c.isAssumed need = false) : Precedes order need task := by
  have numbered := ofCatalog_numbered c
  obtain ⟨acyclic, rfl⟩ := (topologicalOrder_eq_some_iff numbered).mp made
  obtain ⟨t, found, _⟩ := id needs
  obtain ⟨node, numbers⟩ := exists_numbers_iff.mpr ⟨t, found⟩
  obtain ⟨other, numbers_need⟩ := exists_numbers_iff_names.mpr ⟨registered, built⟩
  have needed := numbers.mem_needsOf_iff.mpr ⟨need, numbers_need, needs⟩
  have placed := closingOrder_precedes numbered (closingOrder_sorted acyclic) node other needed
  have named := placed.map (ofCatalog c).nameOf
  rwa [numbers.nameOf_eq, numbers_need.nameOf_eq] at named

end Named

-- The search, the components and the sorting find the same catalogs at fault, and the order, where there
-- is one, holds every node once and no node before its needs. Nothing is asked of needs that are missing.
theorem cycle_views_agree (c : Catalog) :
    ((ofCatalog c).hasCycles = true ↔ ∃ name, c.OnCycle name) ∧
    ((ofCatalog c).cycles ≠ [] ↔ ∃ name, c.OnCycle name) ∧
    ((ofCatalog c).topologicalOrder = none ↔ ∃ name, c.OnCycle name) ∧
    ∀ order, (ofCatalog c).topologicalOrder = some order →
      (order.Nodup ∧ ∀ name, name ∈ order ↔ name ∈ c.names ∧ c.isAssumed name = false) ∧
      ∀ task need, c.Needs task need → need ∈ c.names → c.isAssumed need = false →
        ∃ before after : Nat, order[before]? = some need ∧ order[after]? = some task ∧ before < after := by
  refine ⟨hasCycles_iff, cycles_ne_nil_iff, topologicalOrder_eq_none_iff, fun order made => ⟨⟨?_, ?_⟩, ?_⟩⟩
  · exact (topologicalOrder_perm made).nodup_iff.mpr (builtNames_nodup c)
  · intro name
    rw [(topologicalOrder_perm made).mem_iff, ← exists_numbers_iff_names]
    exact List.mem_iff_getElem?
  · exact fun task need => topologicalOrder_precedes made

def severed : Catalog :=
  Catalog.empty.add ⟨"app", ["lib", "cc", "lib", "ghost"]⟩ rfl
    |>.add ⟨"cc", ["app"]⟩ rfl
    |>.add ⟨"doc", []⟩ rfl
    |>.add ⟨"lib", ["cc"]⟩ rfl
    |>.assume "cc"

theorem severed_and_rings_views_agree :
    ((ofCatalog severed).topologicalOrder = some ["lib", "app", "doc"] ∧
      (∃ before after : Nat, ["lib", "app", "doc"][before]? = some "lib" ∧
        ["lib", "app", "doc"][after]? = some "app" ∧ before < after) ∧
      ((ofCatalog severed).hasCycles = false ∧ (ofCatalog severed).cycles = [])) ∧
    (ofCatalog rings).topologicalOrder = none ∧ (ofCatalog rings).hasCycles = true ∧
      (ofCatalog rings).cycles ≠ [] := by
  obtain ⟨search, components, sorting, orders⟩ := cycle_views_agree severed
  obtain ⟨search', components', sorting', _⟩ := cycle_views_agree rings
  have order : (ofCatalog severed).topologicalOrder = some ["lib", "app", "doc"] := by rfl
  have needs : severed.Needs "app" "lib" :=
    ⟨⟨"app", ["lib", "cc", "lib", "ghost"]⟩, by rfl, by simp⟩
  have straight : ¬ ∃ name, severed.OnCycle name := by
    rw [← sorting, order]
    exact Option.some_ne_none _
  have round : ∃ name, rings.OnCycle name := sorting'.mp (by rfl)
  refine ⟨⟨order, ?_, ?_, ?_⟩, sorting'.mpr round, search'.mpr round, components'.mpr round⟩
  · exact (orders _ order).2 "app" "lib" needs (by decide) (by rfl)
  · exact Bool.eq_false_iff.mpr fun cyclic => straight (search.mp cyclic)
  · exact Decidable.not_not.mp fun listed => straight (components.mp listed)

end BuildPlan.Graph
