import BuildPlan.Proofs.Catalog.Image
import BuildPlan.Proofs.Graph.Components

namespace BuildPlan.Graph

def Node.rename (f : Name → Name) (node : Node) : Node := { node with name := f node.name }

def rename (f : Name → Name) (g : Graph) : Graph :=
  { nodes := g.nodes.map (Node.rename f), missing := g.missing.map (Prod.map f f) }

variable {c d : Catalog} {kept : Name → Bool} {f : Name → Name} {g h : Graph} {node : Nat}
  {name need : Name} {members : List Nat}

theorem rename_id (g : Graph) : g.rename id = g := by
  have same : Node.rename id = id := rfl
  simp [rename, same]

section Edges

-- Groups are in order, so nothing but the edges decides which they are.
theorem groups_congr (numbered : g.WellNumbered) (numbered' : h.WellNumbered)
    (size : h.nodes.size = g.nodes.size) (edges : h.needsOf = g.needsOf) : h.groups = g.groups := by
  have same : ∀ members, h.IsGroup members ↔ g.IsGroup members := by
    have reaching : h.Mutual = g.Mutual := by
      unfold Mutual Reaches
      rw [edges]
    intro members
    constructor
    · rintro ⟨sorted, belongs⟩
      exact ⟨sorted, reaching ▸ belongs⟩
    · rintro ⟨sorted, belongs⟩
      exact ⟨sorted, reaching ▸ belongs⟩
  apply eq_of_ordered Before.asymm (groups_before numbered') (groups_before numbered)
  intro members
  rw [mem_groups_iff_isGroup numbered', mem_groups_iff_isGroup numbered, same, size]

theorem isCyclic_congr (edges : h.needsOf = g.needsOf) : h.isCyclic = g.isCyclic := by
  funext members
  match members with
  | [] => rfl
  | [node] => simp [isCyclic, edges]
  | _ :: _ :: _ => rfl

end Edges

section Rename

@[simp] theorem size_rename : (g.rename f).nodes.size = g.nodes.size := by simp [rename]

@[simp] theorem needsOf_rename : (g.rename f).needsOf = g.needsOf := by
  funext node
  simp [needsOf, rename, Node.rename, Function.comp_def]

theorem nameOf_rename (inside : node < g.nodes.size) : (g.rename f).nameOf node = f (g.nameOf node) := by
  simp [nameOf, rename, Node.rename, inside]

theorem numbered_rename (numbered : g.WellNumbered) : (g.rename f).WellNumbered := by
  intro node need needed
  rw [needsOf_rename] at needed
  rw [size_rename]
  exact numbered node need needed

theorem cycles_rename (numbered : g.WellNumbered) :
    (g.rename f).cycles = g.cycles.map (·.map f) := by
  have groups := groups_congr numbered (numbered_rename numbered) (size_rename (f := f)) needsOf_rename
  unfold cycles
  rw [groups, isCyclic_congr needsOf_rename, List.map_map]
  apply List.map_congr_left
  intro members member
  have inside := (groups_sound numbered (List.mem_of_mem_filter member)).2.2
  rw [Function.comp_apply, List.map_map]
  apply List.map_congr_left
  intro node there
  exact nameOf_rename (inside node there)

theorem number?_rename (injective : f.Injective) : (g.rename f).number? (f name) = g.number? name := by
  have same : ∀ node : Node, ((Node.rename f node).name == f name) = (node.name == name) := by
    intro node
    simp [Node.rename, injective.eq_iff]
  simp [number?, rename, List.findIdx?_map, Function.comp_def, same]

theorem dependents_rename (injective : f.Injective) :
    (g.rename f).dependents (f name) = (g.dependents name).map f := by
  unfold dependents
  rw [number?_rename injective]
  cases g.number? name with
  | none => rfl
  | some number =>
    have same : (·.needs.contains number) ∘ Node.rename f = (·.needs.contains number) := rfl
    simp only [rename, Array.toList_map, List.filter_map, same, List.map_map]
    rfl

end Rename

section Image

def nodeOf (c : Catalog) (task : Task) : Node :=
  ⟨task.name, task.needs.filterMap fun need => (classify c (numbering c.buildable) need).node?⟩

def lostBy (c : Catalog) (task : Task) : List (Name × Name) :=
  (task.needs.filter fun need => classify c (numbering c.buildable) need == .missing).map (task.name, ·)

theorem ofCatalog_eq (c : Catalog) :
    ofCatalog c = ⟨(c.buildable.map (nodeOf c)).toArray, c.buildable.flatMap (lostBy c)⟩ := rfl

variable (image : c.Image d kept f fun _ => True) (built : d.buildable = c.buildable.map (Task.image kept f))
include image built

theorem numbers_image : Numbers d node (f name) ↔ Numbers c node name := by
  have names : builtNames d = (builtNames c).map f := by
    simp [builtNames, built, Task.image, Function.comp_def]
  rw [Numbers, Numbers, names, List.getElem?_map]
  exact (Option.map_injective image.injective).eq_iff (b := some name)

theorem classify_image (keep : kept need = true) : classify d (numbering d.buildable) (f need) =
    classify c (numbering c.buildable) need := by
  have known : (numbering d.buildable)[f need]? = (numbering c.buildable)[need]? := by
    ext node
    rw [known_iff, known_iff, numbers_image image built]
  rw [classify, classify, image.assumed need trivial keep, known]

omit built in
theorem classify_dropped (drop : kept need = false) :
    classify c (numbering c.buildable) need = .provided := by
  rw [classify, if_pos (image.dropped need drop)]

theorem nodeOf_image (task : Task) : nodeOf d (task.image kept f) = (nodeOf c task).rename f := by
  unfold nodeOf Task.image Node.rename
  congr 1
  rw [List.filterMap_map, List.filterMap_filter]
  apply List.filterMap_congr
  intro need _
  cases keep : kept need with
  | true => simp [classify_image image built keep]
  | false => simp [classify_dropped image keep, Need.node?]

theorem lostBy_image (task : Task) : lostBy d (task.image kept f) = (lostBy c task).map (Prod.map f f) := by
  have lost : task.needs.filter (fun need =>
      classify d (numbering d.buildable) (f need) == .missing && kept need) =
        task.needs.filter fun need => classify c (numbering c.buildable) need == .missing := by
    apply List.filter_congr
    intro need _
    cases keep : kept need with
    | true => simp [classify_image image built keep]
    | false => simp [classify_dropped image keep]
  simp only [lostBy, Task.image, List.filter_map, List.filter_filter, Function.comp_apply, List.map_map]
  rw [lost]
  rfl

theorem ofCatalog_image : ofCatalog d = (ofCatalog c).rename f := by
  have nodes := funext fun task => nodeOf_image image built task
  have lost := funext fun task => lostBy_image image built task
  rw [ofCatalog_eq, ofCatalog_eq, built, rename]
  simp [List.map_flatMap, List.flatMap_map, nodes, lost, Function.comp_def]

end Image

end BuildPlan.Graph
