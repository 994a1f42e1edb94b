import BuildPlan.Proofs.Toml.Values

namespace BuildPlan.Toml

instance (fields : List (Key × α)) : Decidable (Ordered fields) :=
  inferInstanceAs (Decidable (fields.Pairwise fun one other => one.1.name < other.1.name))

inductive Node.Sorted : Node → Prop where
  | scalar (mark : Mark) (value : Scalar) : Sorted (.scalar mark value)
  | array {mark : Mark} {items : List Node} : (∀ node ∈ items, Sorted node) → Sorted (.array mark items)
  | table {mark : Mark} {fields : List (Key × Node)} : Ordered fields →
      (∀ field ∈ fields, Sorted field.2) → Sorted (.table mark fields)

structure Sorted (fields : List (Key × Node)) : Prop where
  ordered : Ordered fields
  inside : ∀ field ∈ fields, field.2.Sorted

@[simp] theorem Node.sorted_scalar (mark : Mark) (value : Scalar) : (Node.scalar mark value).Sorted :=
  .scalar mark value

@[simp] theorem Node.sorted_array_iff {mark : Mark} {items : List Node} :
    (Node.array mark items).Sorted ↔ ∀ node ∈ items, node.Sorted :=
  ⟨by rintro ⟨⟩; assumption, .array⟩

@[simp] theorem Node.sorted_table_iff {mark : Mark} {fields : List (Key × Node)} :
    (Node.table mark fields).Sorted ↔ Toml.Sorted fields :=
  ⟨by rintro ⟨⟩; exact ⟨‹_›, ‹_›⟩, fun sorted => .table sorted.ordered sorted.inside⟩

inductive Item.Sorted : Item → Prop where
  | value {node : Node} : node.Sorted → Sorted (.value node)
  | table {mark : Mark} {origin : Origin} {fields : Fields} : Ordered fields →
      (∀ field ∈ fields, Sorted field.2) → Sorted (.table mark origin fields)
  | tables {mark lastMark : Mark} {closed : List Node} {last : Fields} : (∀ node ∈ closed, node.Sorted) →
      Ordered last → (∀ field ∈ last, Sorted field.2) → Sorted (.tables mark closed lastMark last)

structure Fields.Sorted (fields : Fields) : Prop where
  ordered : Ordered fields
  inside : ∀ field ∈ fields, field.2.Sorted

theorem sorted_fieldNodes {fields : Fields} (ordered : Ordered fields)
    (inside : ∀ field ∈ fields, field.2.toNode.Sorted) : Toml.Sorted (fieldNodes fields) := by
  rw [fieldNodes_eq]
  exact ⟨ordered.map _ fun _ _ less => less, List.forall_mem_map.mpr inside⟩

theorem Item.Sorted.toNode {item : Item} (sorted : item.Sorted) : item.toNode.Sorted := by
  induction sorted with
  | value sorted => exact sorted
  | table ordered _ inside => exact Node.sorted_table_iff.mpr (sorted_fieldNodes ordered inside)
  | tables closed ordered _ inside =>
    refine Node.sorted_array_iff.mpr fun node present => ?_
    rcases List.mem_append.mp present with earlier | last
    · exact closed node (List.mem_reverse.mp earlier)
    · cases List.mem_singleton.mp last
      exact Node.sorted_table_iff.mpr (sorted_fieldNodes ordered inside)

namespace Fields

theorem sorted_nil : Sorted [] := ⟨.nil, by simp⟩

theorem Sorted.nodes {fields : Fields} (sorted : Sorted fields) : Toml.Sorted (fieldNodes fields) :=
  sorted_fieldNodes sorted.ordered fun field present => (sorted.inside field present).toNode

theorem Sorted.table {fields : Fields} (sorted : Sorted fields) (mark : Mark) (origin : Origin) :
    (Item.table mark origin fields).Sorted := .table sorted.ordered sorted.inside

theorem sorted_of_table {mark : Mark} {origin : Origin} {fields : Fields}
    (sorted : (Item.table mark origin fields).Sorted) : Sorted fields := by
  cases sorted with
  | table ordered inside => exact ⟨ordered, inside⟩

variable {key : Key} {change : Option (Key × Item) → Option (Key × Item)} {fields after : Fields}

def Fits (key : Key) (field : Key × Item) : Prop := field.1.name = key.name ∧ field.2.Sorted

theorem Sorted.cons {field : Key × Item} (less : ∀ other ∈ fields, field.1.name < other.1.name)
    (inside : field.2.Sorted) (sorted : Sorted fields) : Sorted (field :: fields) :=
  ⟨sorted.ordered.cons less, List.forall_mem_cons.mpr ⟨inside, sorted.inside⟩⟩

-- By induction on the fields in front of the key; no other names come in.
theorem sorted_alter (sorted : Sorted fields)
    (changes : ∀ old new, (∀ field ∈ old, Fits key field) → change old = some new → Fits key new)
    (altered : fields.alter key change = some after) :
    Sorted after ∧
      ∀ field ∈ after, field.1.name = key.name ∨ ∃ old ∈ fields, old.1.name = field.1.name := by
  induction fields generalizing after with
  | nil =>
    obtain ⟨new, made, rfl⟩ := Option.map_eq_some_iff.mp altered
    obtain ⟨named, inside⟩ := changes none new nofun made
    exact ⟨⟨List.pairwise_singleton .., by simpa using inside⟩, by simpa using named⟩
  | cons field rest ih =>
    obtain ⟨first, later⟩ := List.pairwise_cons.mp sorted.ordered
    obtain ⟨sorted_field, inside_rest⟩ := List.forall_mem_cons.mp sorted.inside
    have sorted_rest : Sorted rest := ⟨later, inside_rest⟩
    rw [alter] at altered
    split at altered
    next less =>
      obtain ⟨new, made, rfl⟩ := Option.map_eq_some_iff.mp altered
      obtain ⟨named, inside⟩ := changes none new nofun made
      have others : ∀ other ∈ field :: rest, new.1.name < other.1.name := by
        rw [named]
        exact List.forall_mem_cons.mpr ⟨less, fun other present => less.trans (first other present)⟩
      refine ⟨sorted.cons others inside, ?_⟩
      exact List.forall_mem_cons.mpr ⟨.inl named, fun other present => .inr ⟨other, present, rfl⟩⟩
    next not_less =>
      split at altered
      next same =>
        obtain ⟨new, made, rfl⟩ := Option.map_eq_some_iff.mp altered
        have fits : ∀ known ∈ some field, Fits key known := by
          rintro _ ⟨⟩
          exact ⟨same.symm, sorted_field⟩
        obtain ⟨named, inside⟩ := changes (some field) new fits made
        have others : ∀ other ∈ rest, new.1.name < other.1.name := by
          rw [named, same]
          exact first
        refine ⟨sorted_rest.cons others inside, ?_⟩
        exact List.forall_mem_cons.mpr
          ⟨.inl named, fun other present => .inr ⟨other, List.mem_cons_of_mem _ present, rfl⟩⟩
      next differs =>
        obtain ⟨more, made, rfl⟩ := Option.map_eq_some_iff.mp altered
        obtain ⟨sorted_more, names⟩ := ih sorted_rest made
        have less : field.1.name < key.name := lt_of_le_of_ne (not_lt.mp not_less) (Ne.symm differs)
        have others : ∀ other ∈ more, field.1.name < other.1.name := by
          intro other present
          rcases names other present with named | ⟨old, stands, named⟩
          · exact named ▸ less
          · exact named ▸ first old stands
        refine ⟨sorted_more.cons others sorted_field,
          List.forall_mem_cons.mpr ⟨.inr ⟨field, List.mem_cons_self, rfl⟩, fun other present => ?_⟩⟩
        rcases names other present with named | ⟨old, stands, named⟩
        · exact .inl named
        · exact .inr ⟨old, List.mem_cons_of_mem _ stands, named⟩

def Keeps (add : Fields → Option Fields) : Prop :=
  ∀ fields after, Sorted fields → add fields = some after → Sorted after

theorem keeps_alter
    (changes : ∀ old new, (∀ field ∈ old, Fits key field) → change old = some new → Fits key new) :
    Keeps (alter key change) := fun _ _ sorted altered => (sorted_alter sorted changes altered).1

theorem keeps_foldlM {ι : Type} {add : Fields → ι → Option Fields} {xs : List ι}
    (each : ∀ x ∈ xs, Keeps (add · x)) : Keeps (xs.foldlM add) := by
  induction xs with
  | nil =>
    rintro fields _ sorted ⟨⟩
    exact sorted
  | cons x rest ih =>
    intro fields after sorted added
    simp only [List.foldlM_cons] at added
    obtain ⟨next, first, later⟩ := Option.bind_eq_some_iff.mp added
    exact ih (fun y present => each y (List.mem_cons_of_mem x present)) next after
      (each x List.mem_cons_self fields next sorted first) later

theorem keeps_put {node : Node} (key : Key) (sorted : node.Sorted) : Keeps (put key node) := by
  refine keeps_alter fun old new _ made => ?_
  cases old with
  | none => cases made; exact ⟨rfl, .value sorted⟩
  | some field => cases made

theorem sorted_of_tables {mark lastMark : Mark} {closed : List Node} {last : Fields}
    (sorted : (Item.tables mark closed lastMark last).Sorted) :
    (∀ node ∈ closed, node.Sorted) ∧ Sorted last := by
  cases sorted with
  | tables closed ordered inside => exact ⟨closed, ordered, inside⟩

theorem keeps_assign {node : Node} (path : List Key) (key : Key) (sorted : node.Sorted) :
    Keeps (assign path key node) := by
  induction path with
  | nil => exact keeps_put key sorted
  | cons part path ih =>
    refine keeps_alter fun old new fits made => ?_
    split at made
    next =>
      obtain ⟨inner, changed, rfl⟩ := Option.map_eq_some_iff.mp made
      exact ⟨rfl, (ih _ _ sorted_nil changed).table _ _⟩
    next => cases made
    next => cases made
    next known mark inner =>
      obtain ⟨named, before⟩ := fits _ rfl
      split at made
      · cases made
      · obtain ⟨inner, changed, rfl⟩ := Option.map_eq_some_iff.mp made
        exact ⟨named, (ih _ _ (sorted_of_table before) changed).table _ _⟩
    next known mark inner =>
      obtain ⟨named, before⟩ := fits _ rfl
      obtain ⟨inner, changed, rfl⟩ := Option.map_eq_some_iff.mp made
      exact ⟨named, (ih _ _ (sorted_of_table before) changed).table _ _⟩
    next known mark closed lastMark last =>
      obtain ⟨named, before⟩ := fits _ rfl
      obtain ⟨closed, before⟩ := sorted_of_tables before
      split at made
      · cases made
      · obtain ⟨inner, changed, rfl⟩ := Option.map_eq_some_iff.mp made
        have after := ih _ _ before changed
        exact ⟨named, .tables closed after.ordered after.inside⟩

-- A header adds to one table what is below it, wherever that table stands.
theorem keeps_descend {add : Fields → Option Fields} (path : List Key) (keeps : Keeps add) :
    Keeps (descend add path) := by
  induction path with
  | nil => exact keeps
  | cons part path ih =>
    refine keeps_alter fun old new fits made => ?_
    split at made
    next =>
      obtain ⟨inner, changed, rfl⟩ := Option.map_eq_some_iff.mp made
      exact ⟨rfl, (ih _ _ sorted_nil changed).table _ _⟩
    next => cases made
    next known mark origin inner =>
      obtain ⟨named, before⟩ := fits _ rfl
      obtain ⟨inner, changed, rfl⟩ := Option.map_eq_some_iff.mp made
      exact ⟨named, (ih _ _ (sorted_of_table before) changed).table _ _⟩
    next known mark closed lastMark last =>
      obtain ⟨named, before⟩ := fits _ rfl
      obtain ⟨closed, before⟩ := sorted_of_tables before
      obtain ⟨inner, changed, rfl⟩ := Option.map_eq_some_iff.mp made
      have after := ih _ _ before changed
      exact ⟨named, .tables closed after.ordered after.inside⟩

theorem keeps_addTable {body : Fields → Option Fields} (mark : Mark) (key : Key) (keeps : Keeps body) :
    Keeps (addTable mark key body) := by
  refine keeps_alter fun old new fits made => ?_
  split at made
  next =>
    obtain ⟨inner, changed, rfl⟩ := Option.map_eq_some_iff.mp made
    exact ⟨rfl, (keeps _ _ sorted_nil changed).table _ _⟩
  next =>
    obtain ⟨_, before⟩ := fits _ rfl
    obtain ⟨inner, changed, rfl⟩ := Option.map_eq_some_iff.mp made
    exact ⟨rfl, (keeps _ _ (sorted_of_table before) changed).table _ _⟩
  next => cases made

theorem keeps_addElement {body : Fields → Option Fields} (mark : Mark) (key : Key) (keeps : Keeps body) :
    Keeps (addElement mark key body) := by
  refine keeps_alter fun old new fits made => ?_
  split at made
  next =>
    obtain ⟨inner, changed, rfl⟩ := Option.map_eq_some_iff.mp made
    have after := keeps _ _ sorted_nil changed
    exact ⟨rfl, .tables (by simp) after.ordered after.inside⟩
  next known first closed lastMark last =>
    obtain ⟨named, before⟩ := fits _ rfl
    obtain ⟨closed, before⟩ := sorted_of_tables before
    obtain ⟨inner, changed, rfl⟩ := Option.map_eq_some_iff.mp made
    have after := keeps _ _ sorted_nil changed
    have ended : (Node.table lastMark (fieldNodes last)).Sorted := Node.sorted_table_iff.mpr before.nodes
    exact ⟨named, .tables (List.forall_mem_cons.mpr ⟨ended, closed⟩) after.ordered after.inside⟩
  next => cases made

end Fields

variable {limit depth : Nat} {cs rest : List Char}

theorem forall_readList {readOne : List Char → Option (α × List Char)} {means : α → Prop} {close : Char}
    (each : ∀ cs one rest, readOne cs = some (one, rest) → means one) {items : List α}
    (read : readList close readOne limit cs = some (items, rest)) : ∀ item ∈ items, means item := by
  induction limit generalizing cs items rest with
  | zero => cases read
  | succ limit ih =>
    rw [readList] at read
    obtain ⟨start, _, read⟩ := Option.bind_eq_some_iff.mp read
    split at read
    next => cases read
    next c text =>
      split at read
      next =>
        cases read
        exact List.forall_mem_nil means
      next =>
        obtain ⟨⟨one, left⟩, first, read⟩ := Option.bind_eq_some_iff.mp read
        obtain ⟨start, _, read⟩ := Option.bind_eq_some_iff.mp read
        have meant := each _ _ _ first
        split at read
        next => cases read
        next =>
          split at read
          next =>
            cases read
            simpa using meant
          next =>
            split at read
            next =>
              obtain ⟨⟨more, left⟩, later, read⟩ := Option.bind_eq_some_iff.mp read
              cases read
              exact List.forall_mem_cons.mpr ⟨meant, ih later⟩
            next => cases read

theorem sorted_readAssignment {readNode : List Char → Option (Node × List Char)} {a : Assignment}
    (each : ∀ cs node rest, readNode cs = some (node, rest) → node.Sorted)
    (read : readAssignment limit readNode cs = some (a, rest)) : a.node.Sorted := by
  unfold readAssignment at read
  obtain ⟨⟨path, key, left⟩, _, read⟩ := Option.bind_eq_some_iff.mp read
  dsimp only at read
  split at read
  next =>
    obtain ⟨⟨node, left⟩, value, read⟩ := Option.bind_eq_some_iff.mp read
    cases read
    exact each _ _ _ value
  next => cases read

theorem keeps_addTo {a : Assignment} (sorted : a.node.Sorted) : Fields.Keeps a.addTo :=
  Fields.keeps_assign a.path a.key sorted

theorem keeps_assignments {assignments : List Assignment} (sorted : ∀ a ∈ assignments, a.node.Sorted) :
    Fields.Keeps (assignments.foldlM Assignment.addTo) :=
  Fields.keeps_foldlM fun a present => keeps_addTo (sorted a present)

-- By induction on how deep the value may be.
theorem sorted_readNode {node : Node} (read : readNode limit depth cs = some (node, rest)) : node.Sorted := by
  induction depth generalizing cs node rest with
  | zero =>
    unfold readNode at read
    obtain ⟨⟨scalar, after⟩, _, read⟩ := Option.map_eq_some_iff.mp read
    cases read
    exact .scalar _ _
  | succ depth ih =>
    unfold readNode at read
    split at read
    next same =>
      cases same
      obtain ⟨⟨items, after⟩, listed, read⟩ := Option.bind_eq_some_iff.mp read
      cases read
      exact .array (forall_readList (fun _ _ _ => ih) listed)
    next same =>
      cases same
      obtain ⟨⟨assignments, after⟩, listed, read⟩ := Option.bind_eq_some_iff.mp read
      obtain ⟨fields, added, read⟩ := Option.bind_eq_some_iff.mp read
      cases read
      have sorted := forall_readList (fun _ _ _ => sorted_readAssignment fun _ _ _ => ih) listed
      exact Node.sorted_table_iff.mpr (keeps_assignments sorted _ _ Fields.sorted_nil added).nodes
    next =>
      obtain ⟨⟨scalar, after⟩, _, read⟩ := Option.map_eq_some_iff.mp read
      cases read
      exact .scalar _ _

def Statement.Sorted : Statement → Prop
  | .assignment a => a.node.Sorted
  | .table _ _ _ | .element _ _ _ => True

theorem sorted_readStatement {statement : Statement} (read : readStatement limit cs = some (statement, rest)) :
    statement.Sorted := by
  unfold readStatement at read
  split at read
  next =>
    obtain ⟨⟨path, key, left⟩, _, read⟩ := Option.bind_eq_some_iff.mp read
    dsimp only at read
    split at read
    · cases read
      trivial
    · cases read
  next =>
    obtain ⟨⟨path, key, left⟩, _, read⟩ := Option.bind_eq_some_iff.mp read
    dsimp only at read
    split at read
    · cases read
      trivial
    · cases read
  next =>
    obtain ⟨⟨a, left⟩, assigned, read⟩ := Option.map_eq_some_iff.mp read
    cases read
    exact sorted_readAssignment (fun _ _ _ => sorted_readNode) assigned

theorem sorted_readStatements {statements : List Statement}
    (read : readStatements limit cs = some statements) : ∀ statement ∈ statements, statement.Sorted := by
  induction limit generalizing cs statements with
  | zero => cases read
  | succ limit ih =>
    rw [readStatements] at read
    obtain ⟨start, _, read⟩ := Option.bind_eq_some_iff.mp read
    split at read
    next =>
      cases read
      nofun
    next =>
      obtain ⟨⟨statement, left⟩, first, read⟩ := Option.bind_eq_some_iff.mp read
      obtain ⟨left, _, read⟩ := Option.bind_eq_some_iff.mp read
      obtain ⟨more, later, read⟩ := Option.bind_eq_some_iff.mp read
      cases read
      exact List.forall_mem_cons.mpr ⟨sorted_readStatement first, ih later⟩

theorem sorted_sections {statements : List Statement} (sorted : ∀ statement ∈ statements, statement.Sorted) :
    (∀ a ∈ (sections statements).1, a.node.Sorted) ∧
      ∀ s ∈ (sections statements).2, ∀ a ∈ s.body, a.node.Sorted := by
  induction statements with
  | nil => exact ⟨nofun, nofun⟩
  | cons statement rest ih =>
    obtain ⟨first, later⟩ := List.forall_mem_cons.mp sorted
    obtain ⟨body, more⟩ := ih later
    cases statement with
    | assignment a => exact ⟨List.forall_mem_cons.mpr ⟨first, body⟩, more⟩
    | table | element => exact ⟨nofun, List.forall_mem_cons.mpr ⟨body, more⟩⟩

theorem keeps_section {s : Section} (sorted : ∀ a ∈ s.body, a.node.Sorted) : Fields.Keeps s.addTo := by
  refine Fields.keeps_descend s.path ?_
  split
  · exact Fields.keeps_addElement s.mark s.key (keeps_assignments sorted)
  · exact Fields.keeps_addTable s.mark s.key (keeps_assignments sorted)

theorem sorted_read {text : String} {fields : List (Key × Node)} (read : Toml.read text = some fields) :
    Sorted fields := by
  unfold Toml.read at read
  obtain ⟨statements, stated, read⟩ := Option.bind_eq_some_iff.mp read
  obtain ⟨after, assembled, read⟩ := Option.bind_eq_some_iff.mp read
  cases read
  obtain ⟨body, more⟩ := sorted_sections (sorted_readStatements stated)
  unfold assemble at assembled
  obtain ⟨first, added, assembled⟩ := Option.bind_eq_some_iff.mp assembled
  have head := keeps_assignments body _ _ Fields.sorted_nil added
  exact (Fields.keeps_foldlM (fun s present => keeps_section (more s present)) _ _ head assembled).nodes

end BuildPlan.Toml
