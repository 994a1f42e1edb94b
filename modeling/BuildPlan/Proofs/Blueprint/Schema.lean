import Mathlib.Data.List.Sort
import BuildPlan.Blueprint.Schema
import BuildPlan.Blueprint.Writing
import BuildPlan.Proofs.Toml.Values

namespace BuildPlan.Blueprint.Schema

open Toml Toml.Writing

variable {text : String} {texts : List String} {node : Node}

theorem mapM_of_forall₂ {m : Type → Type} [Monad m] [LawfulMonad m] {read : β → m α}
    {means : α → β → Prop} {all : List α} {found : List β} (each : ∀ a b, means a b → read b = pure a)
    (meant : List.Forall₂ means all found) : found.mapM read = pure all := by
  induction meant with
  | nil => rfl
  | cons first _ ih => rw [List.mapM_cons, each _ _ first, ih, pure_bind, pure_bind]

theorem string_of_isText (is_text : IsText text node) : string node = .ok text := by
  obtain ⟨mark, rfl⟩ := is_text
  rfl

theorem text?_of_isText (is_text : IsText text node) : text? node = some text := by
  obtain ⟨mark, rfl⟩ := is_text
  rfl

theorem strings_of_isArray (is_array : IsArray IsText texts node) : strings node = .ok texts := by
  obtain ⟨mark, nodes, rfl, meant⟩ := is_array
  exact mapM_of_forall₂ (fun _ _ => string_of_isText) meant

theorem readable_of_isText (is_text : IsText text node) : readable node = .ok () := by
  obtain ⟨mark, rfl⟩ := is_text
  rw [readable] <;> simp
  rfl

theorem readableItems_of_texts {nodes : List Node} (meant : List.Forall₂ IsText texts nodes) :
    readableItems nodes = .ok () := by
  induction meant with
  | nil => rw [readableItems]; rfl
  | cons first _ ih => rw [readableItems, readable_of_isText first, ih]; rfl

def IsSelection : Selection → Node → Prop
  | .group name => IsText name
  | .list targets => IsArray IsText targets

theorem selection_of_isSelection {targets : Selection} (meant : IsSelection targets node) :
    selection node = .ok targets := by
  cases targets with
  | group name =>
    obtain ⟨mark, rfl⟩ := meant
    rw [selection, readable_of_isText ⟨mark, rfl⟩]
    rfl
  | list targets =>
    obtain ⟨mark, nodes, rfl, meant⟩ := meant
    have texts : nodes.mapM text? = some targets := mapM_of_forall₂ (fun _ _ => text?_of_isText) meant
    rw [selection, readable, readableItems_of_texts meant]
    simp only [selection?, texts]
    rfl

-- Every field puts one thing in its place. Those still to come may differ from the goal.
theorem foldlM_of_put {read : σ → Key × Node → Accepting σ} {put : String → σ → σ}
    {agrees : String → σ → Prop} {goal : σ} {fields : List (Key × Node)}
    (reads : ∀ field ∈ fields, ∀ s, read s field = .ok (put field.1.name s))
    (placed : ∀ name s, agrees name (put name s))
    (kept : ∀ name other s, agrees other s → agrees other (put name s))
    (complete : ∀ s, (∀ name, agrees name s) → s = goal) {s : σ}
    (others : ∀ name, (∀ field ∈ fields, field.1.name ≠ name) → agrees name s) :
    fields.foldlM read s = .ok goal := by
  induction fields generalizing s with
  | nil => exact congrArg Except.ok (complete s fun name => others name (by simp))
  | cons field rest ih =>
    rw [List.foldlM_cons, reads field List.mem_cons_self s]
    refine ih (fun field present => reads field (List.mem_cons_of_mem _ present)) fun name absent => ?_
    by_cases same : field.1.name = name
    · exact same ▸ placed field.1.name s
    · exact kept _ name s (others name (by simpa [same] using absent))

inductive EntryMeans (e : Entry) : String → Node → Prop where
  | name {n : Node} : IsText e.name n → EntryMeans e "name" n
  | needs {n : Node} : IsArray IsText e.needs n → EntryMeans e "depends" n
  | targets {targets : Selection} {n : Node} : e.targets = some targets → IsSelection targets n →
      EntryMeans e "targets" n
  | exclude {n : Node} : IsArray IsText e.exclude n → EntryMeans e "exclude" n

def EntryAgrees (e : Entry) (name : String) (draft : EntryDraft) : Prop :=
  match name with
  | "name" => draft.name = some e.name
  | "depends" => draft.needs = e.needs
  | "targets" => draft.targets = e.targets
  | "exclude" => draft.exclude = e.exclude
  | _ => True

def putEntry (e : Entry) (name : String) (draft : EntryDraft) : EntryDraft :=
  match name with
  | "name" => { draft with name := some e.name }
  | "depends" => { draft with needs := e.needs }
  | "targets" => { draft with targets := e.targets }
  | "exclude" => { draft with exclude := e.exclude }
  | _ => draft

theorem entryAgrees_put (e : Entry) (name : String) (draft : EntryDraft) :
    EntryAgrees e name (putEntry e name draft) := by
  unfold EntryAgrees
  split <;> first | rfl | trivial

theorem entryAgrees_kept (e : Entry) (name other : String) (draft : EntryDraft)
    (agrees : EntryAgrees e other draft) : EntryAgrees e other (putEntry e name draft) := by
  unfold putEntry
  split
  all_goals
    unfold EntryAgrees at *
    split <;> simp_all

theorem read_of_entryMeans {e : Entry} {field : Key × Node} (means : EntryMeans e field.1.name field.2)
    (draft : EntryDraft) : draft.read field = .ok (putEntry e field.1.name draft) := by
  obtain ⟨⟨name, mark⟩, node⟩ := field
  cases means with
  | name meant => simp only [EntryDraft.read, string_of_isText meant]; rfl
  | needs meant => simp only [EntryDraft.read, strings_of_isArray meant]; rfl
  | targets known meant => simp only [EntryDraft.read, selection_of_isSelection meant, putEntry, known]; rfl
  | exclude meant => simp only [EntryDraft.read, strings_of_isArray meant]; rfl

def EntryTable (e : Entry) (node : Node) : Prop :=
  ∃ names, IsTable (EntryMeans e) names node ∧ ∀ f ∈ e.fields, f.key ∉ names → f.isDefault

variable {e : Entry} {names : List String}

theorem entryAgrees_default (defaults : ∀ f ∈ e.fields, f.key ∉ names → f.isDefault) {name : String}
    (absent : name ∉ names) : EntryAgrees e name {} := by
  unfold EntryAgrees
  split
  · exact (defaults ⟨"name", Quotes e.name, False⟩ (by simp [Entry.fields]) absent).elim
  · exact (defaults ⟨"depends", Strings e.needs, e.needs = []⟩ (by simp [Entry.fields]) absent).symm
  · cases known : e.targets with
    | none => rfl
    | some targets =>
      exact (defaults ⟨"targets", targets.Written, False⟩ (by simp [Entry.fields, known]) absent).elim
  · exact (defaults ⟨"exclude", Strings e.exclude, e.exclude = []⟩ (by simp [Entry.fields]) absent).symm
  · trivial

theorem eq_of_entryAgrees (draft : EntryDraft) (agrees : ∀ name, EntryAgrees e name draft) :
    draft = ⟨some e.name, e.needs, e.targets, e.exclude⟩ := by
  obtain ⟨name, needs, targets, exclude⟩ := draft
  have := agrees "name"
  have := agrees "depends"
  have := agrees "targets"
  have := agrees "exclude"
  simp_all [EntryAgrees]

theorem entry_of_entryTable (table : EntryTable e node) : entry node = .ok e := by
  obtain ⟨names, ⟨mark, fields, rfl, holds⟩, defaults⟩ := table
  have taken : fields.foldlM EntryDraft.read {} = .ok ⟨some e.name, e.needs, e.targets, e.exclude⟩ :=
    foldlM_of_put (fun field present => read_of_entryMeans (holds.each field present)) (entryAgrees_put e)
      (entryAgrees_kept e) eq_of_entryAgrees fun name absent =>
        entryAgrees_default defaults (holds.not_mem absent)
  rw [entry, taken]
  rfl

theorem reads_strings (texts : List String) : Reads 1 (Strings texts) (IsArray IsText texts) :=
  reads_array fun text _ => reads_quotes text

theorem reads_selection (targets : Selection) : Reads 1 targets.Written (IsSelection targets) := by
  cases targets with
  | group name => exact (reads_quotes name).deeper (Nat.zero_le 1)
  | list targets => exact reads_strings targets

theorem reads_entryField (e : Entry) : ∀ f ∈ e.fields, Reads 1 f.value (EntryMeans e f.key) := by
  intro f present
  simp only [Entry.fields, List.mem_append, List.mem_cons, List.not_mem_nil, or_false, List.mem_map,
    Option.mem_toList] at present
  rcases present with (rfl | rfl | rfl) | ⟨targets, known, rfl⟩
  · exact ((reads_quotes e.name).deeper (Nat.zero_le 1)).imp fun _ => .name
  · exact (reads_strings e.needs).imp fun _ => .needs
  · exact (reads_strings e.exclude).imp fun _ => .exclude
  · exact (reads_selection targets).imp fun _ => .targets known

theorem nodup_entryFields (e : Entry) : (e.fields.map Field.key).Nodup := by
  rw [Entry.fields]
  cases e.targets <;> simp

theorem reads_entry (e : Entry) : Reads 2 e.Inline (EntryTable e) := by
  intro depth deep limit cs written
  obtain ⟨chose, written⟩ := written
  have reads := reads_table (chose.nodup (nodup_entryFields e)) fun f present =>
    reads_entryField e f (chose.mem present)
  exact (reads.imp fun node table => ⟨_, table, fun f => chose.isDefault⟩) depth deep limit cs written

section groups

variable {groups ordered : List (Name × List Name)}

structure KeyOrder (groups ordered : List (Name × List Name)) : Prop where
  perm : ordered.Perm groups
  increasing : (ordered.map Prod.fst).Pairwise (· < ·)

def GroupMeans (groups : List (Name × List Name)) (name : String) (node : Node) : Prop :=
  ∃ targets, (name, targets) ∈ groups ∧ IsArray IsText targets node

theorem forall₂_of_exists {means : α → β → Prop} {found : List β} (each : ∀ b ∈ found, ∃ a, means a b) :
    ∃ all, List.Forall₂ means all found := by
  induction found with
  | nil => exact ⟨[], .nil⟩
  | cons b rest ih =>
    obtain ⟨a, meant⟩ := each b List.mem_cons_self
    obtain ⟨all, more⟩ := ih fun b present => each b (List.mem_cons_of_mem _ present)
    exact ⟨a :: all, .cons meant more⟩

theorem KeyOrder.distinct (order : KeyOrder groups ordered) : (groups.map Prod.fst).Nodup :=
  (order.perm.map Prod.fst).nodup_iff.mp (order.increasing.imp fun less => less.ne)

theorem KeyOrder.eq (order : KeyOrder groups ordered) {others : List (Name × List Name)}
    (increasing : (others.map Prod.fst).Pairwise (· < ·)) (known : ∀ group ∈ others, group ∈ groups)
    (complete : ∀ group ∈ groups, group.1 ∈ others.map Prod.fst) : others = ordered := by
  have members : ∀ group, group ∈ others ↔ group ∈ ordered := by
    intro group
    rw [order.perm.mem_iff]
    refine ⟨known group, fun present => ?_⟩
    obtain ⟨other, stands, same⟩ := List.mem_map.mp (complete group present)
    exact List.inj_on_of_nodup_map order.distinct (known other stands) present same ▸ stands
  have perm : others.Perm ordered :=
    (List.perm_ext_iff_of_nodup (.of_map _ (increasing.imp fun less => less.ne))
      (.of_map _ (order.increasing.imp fun less => less.ne))).mpr members
  exact perm.eq_of_pairwise (fun one other _ _ less more => absurd less more.asymm)
    (List.pairwise_map.mp increasing) (List.pairwise_map.mp order.increasing)

theorem groups_of_isTable (order : KeyOrder groups ordered) (table : IsTable (GroupMeans groups) names node)
    (complete : ∀ group ∈ groups, group.1 ∈ names) : Schema.groups node = .ok ordered := by
  obtain ⟨mark, fields, rfl, holds⟩ := table
  obtain ⟨all, matched⟩ : ∃ all, List.Forall₂ (fun (group : Name × List Name) (field : Key × Node) =>
      group ∈ groups ∧ group.1 = field.1.name ∧ IsArray IsText group.2 field.2) all fields := by
    refine forall₂_of_exists fun field present => ?_
    obtain ⟨targets, known, meant⟩ := holds.each field present
    exact ⟨_, known, rfl, meant⟩
  obtain ⟨known, matched⟩ := (List.forall₂_and_left _ _).mp matched
  have same_names : all.map Prod.fst = fields.map (·.1.name) := by
    rw [← List.forall₂_eq_eq_eq, List.forall₂_map_left_iff, List.forall₂_map_right_iff]
    exact matched.imp fun _ _ meant => meant.1
  have increasing : (all.map Prod.fst).Pairwise (· < ·) := by
    rw [same_names]
    exact List.pairwise_map.mpr holds.ordered
  have complete : ∀ group ∈ groups, group.1 ∈ all.map Prod.fst := by
    intro group present
    obtain ⟨field, stands, named⟩ := (holds.names _).mp (complete group present)
    exact same_names ▸ named ▸ List.mem_map_of_mem stands
  rw [← order.eq increasing known complete, Schema.groups]
  refine mapM_of_forall₂ ?_ matched
  rintro ⟨name, targets⟩ ⟨key, node⟩ ⟨⟨⟩, meant⟩
  simp only [strings_of_isArray meant]
  rfl

theorem keys_groupFields {fields : List Field} (order : fields.Perm (groups.map groupField)) :
    (fields.map Field.key).Perm (groups.map Prod.fst) := by
  have keys : (groups.map groupField).map Field.key = groups.map Prod.fst := List.map_map
  exact keys ▸ order.map Field.key

theorem reads_groupFields {fields : List Field} (order : fields.Perm (groups.map groupField)) :
    ∀ f ∈ fields, Reads 1 f.value (GroupMeans groups f.key) := by
  intro f present
  obtain ⟨group, known, rfl⟩ := List.mem_map.mp (order.subset present)
  exact (reads_strings group.2).imp fun _ meant => ⟨group.2, known, meant⟩

theorem reads_groups (order : KeyOrder groups ordered) :
    Reads 2 (InlineGroups groups) fun node => Schema.groups node = .ok ordered := by
  intro depth deep limit cs written
  obtain ⟨permuted, written⟩ := written
  have keys := keys_groupFields permuted
  have reads := reads_table (keys.nodup_iff.mpr order.distinct) (reads_groupFields permuted)
  refine (reads.imp fun node table => ?_) depth deep limit cs written
  exact groups_of_isTable order table fun group present => keys.mem_iff.mpr (List.mem_map_of_mem present)

end groups

inductive Means (b : Blueprint) (ordered : List (Name × List Name)) : String → Node → Prop where
  | assumed {n : Node} : IsArray IsText b.assumed n → Means b ordered "assume_provided" n
  | targetNeeds {n : Node} : IsArray IsText b.targetNeeds n → Means b ordered "target_depends" n
  | groups {n : Node} : Schema.groups n = .ok ordered → Means b ordered "targets" n
  | entries {n : Node} : IsArray EntryTable b.entries n → Means b ordered "task" n

def Agrees (b : Blueprint) (ordered : List (Name × List Name)) (name : String) (other : Blueprint) :
    Prop :=
  match name with
  | "assume_provided" => other.assumed = b.assumed
  | "target_depends" => other.targetNeeds = b.targetNeeds
  | "targets" => other.groups = ordered
  | "task" => other.entries = b.entries
  | _ => True

def put (b : Blueprint) (ordered : List (Name × List Name)) (name : String) (other : Blueprint) :
    Blueprint :=
  match name with
  | "assume_provided" => { other with assumed := b.assumed }
  | "target_depends" => { other with targetNeeds := b.targetNeeds }
  | "targets" => { other with groups := ordered }
  | "task" => { other with entries := b.entries }
  | _ => other

theorem entries_of_isArray {all : List Entry} (is_array : IsArray EntryTable all node) :
    entries node = .ok all := by
  obtain ⟨mark, nodes, rfl, meant⟩ := is_array
  exact mapM_of_forall₂ (fun _ _ => entry_of_entryTable) meant

variable {b : Blueprint} {ordered : List (Name × List Name)}

theorem agrees_put (b : Blueprint) (ordered : List (Name × List Name)) (name : String)
    (other : Blueprint) : Agrees b ordered name (put b ordered name other) := by
  unfold Agrees
  split <;> first | rfl | trivial

theorem agrees_kept (b : Blueprint) (ordered : List (Name × List Name)) (name kept : String)
    (other : Blueprint) (agrees : Agrees b ordered kept other) :
    Agrees b ordered kept (put b ordered name other) := by
  unfold put
  split
  all_goals
    unfold Agrees at *
    split <;> simp_all

theorem read_of_means {field : Key × Node} (means : Means b ordered field.1.name field.2)
    (other : Blueprint) : read other field = .ok (put b ordered field.1.name other) := by
  obtain ⟨⟨name, mark⟩, node⟩ := field
  cases means with
  | assumed meant => simp only [read, strings_of_isArray meant]; rfl
  | targetNeeds meant => simp only [read, strings_of_isArray meant]; rfl
  | groups meant => simp only [read, meant]; rfl
  | entries meant => simp only [read, entries_of_isArray meant]; rfl

theorem eq_of_agrees (other : Blueprint) (agrees : ∀ name, Agrees b ordered name other) :
    other = { b with groups := ordered } := by
  obtain ⟨assumed, targetNeeds, groups, entries⟩ := other
  have := agrees "assume_provided"
  have := agrees "target_depends"
  have := agrees "targets"
  have := agrees "task"
  cases b
  simp_all [Agrees]

theorem ofFields_of_holds {fields : List (Key × Node)} (holds : Holds (Means b ordered) names fields)
    (defaults : ∀ name ∉ names, Agrees b ordered name {}) :
    ofFields fields = .ok { b with groups := ordered } :=
  foldlM_of_put (fun field present => read_of_means (holds.each field present)) (agrees_put b ordered)
    (agrees_kept b ordered) eq_of_agrees fun name absent => defaults name (holds.not_mem absent)

end BuildPlan.Blueprint.Schema
