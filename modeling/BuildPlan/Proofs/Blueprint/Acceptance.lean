import Mathlib.Tactic.MkIffOfInductiveProp
import BuildPlan.Proofs.Blueprint.Schema
import BuildPlan.Proofs.Blueprint.Violations
import BuildPlan.Proofs.Toml.Sorted

namespace BuildPlan.Blueprint.Schema

open Toml Toml.Writing

attribute [mk_iff] EntryMeans

@[mk_iff] structure Tells (e : Entry) (told : List (String × Node)) : Prop where
  each : ∀ pair ∈ told, EntryMeans e pair.1 pair.2
  named : "name" ∈ told.map Prod.fst
  needs : "depends" ∉ told.map Prod.fst → e.needs = []
  targets : "targets" ∉ told.map Prod.fst → e.targets = none
  exclude : "exclude" ∉ told.map Prod.fst → e.exclude = []

-- A table, or an array of the values in the order of the keys; the items behind them are of no account.
inductive IsEntry (e : Entry) : Node → Prop where
  | table {mark : Mark} {fields : List (Key × Node)} :
      Tells e (fields.map fun field => (field.1.name, field.2)) → IsEntry e (.table mark fields)
  | array {mark : Mark} {items : List Node} : Tells e (entryKeys.zip items) → IsEntry e (.array mark items)

-- The groups of a table, in the order of its keys.
def IsGroups (groups : List (Name × List Name)) (node : Node) : Prop :=
  ∃ mark fields, node = .table mark fields ∧
    List.Forall₂ (fun group (field : Key × Node) => group.1 = field.1.name ∧ IsArray IsText group.2 field.2)
      groups fields

inductive HasPart (b : Blueprint) : String → Node → Prop where
  | assumed {n : Node} : IsArray IsText b.assumed n → HasPart b "assume_provided" n
  | targetNeeds {n : Node} : IsArray IsText b.targetNeeds n → HasPart b "target_depends" n
  | groups {n : Node} : IsGroups b.groups n → HasPart b "targets" n
  | entries {n : Node} : IsArray IsEntry b.entries n → HasPart b "task" n

structure IsDocument (b : Blueprint) (fields : List (Key × Node)) : Prop where
  each : ∀ field ∈ fields, HasPart b field.1.name field.2
  assumed : (∀ field ∈ fields, field.1.name ≠ "assume_provided") → b.assumed = []
  targetNeeds : (∀ field ∈ fields, field.1.name ≠ "target_depends") → b.targetNeeds = []
  groups : (∀ field ∈ fields, field.1.name ≠ "targets") → b.groups = []
  entries : (∀ field ∈ fields, field.1.name ≠ "task") → b.entries = []

section values

variable {ι α : Type} {node : Node} {text : String} {texts : List String}

theorem not_refuse {expected : Expected} {value : α} : refuse node expected ≠ .ok value := by
  unfold refuse
  cases foundIn node <;> nofun

theorem mapM_ok_iff {read : ι → Accepting α} {xs : List ι} {values : List α} :
    xs.mapM read = .ok values ↔ List.Forall₂ (fun value x => read x = .ok value) values xs := by
  constructor
  · intro made
    induction xs generalizing values with
    | nil => cases made; exact .nil
    | cons x rest ih =>
      rw [List.mapM_cons] at made
      cases first : read x with
      | error refusal => rw [first] at made; cases made
      | ok value =>
        rw [first] at made
        obtain ⟨more, later, rfl⟩ := exists_of_map made
        exact .cons first (ih later)
  · exact mapM_of_forall₂ (m := Accepting) fun _ _ taken => taken

theorem string_eq_ok_iff : string node = .ok text ↔ IsText text node := by
  constructor
  · intro made
    unfold string at made
    split at made
    · cases made
      exact ⟨_, rfl⟩
    · exact absurd made not_refuse
  · exact string_of_isText

theorem strings_eq_ok_iff : strings node = .ok texts ↔ IsArray IsText texts node := by
  constructor
  · intro made
    unfold strings at made
    split at made
    next mark items =>
      exact ⟨mark, items, rfl, (mapM_ok_iff.mp made).imp fun _ _ => string_eq_ok_iff.mp⟩
    · exact absurd made not_refuse
  · exact strings_of_isArray

theorem text?_eq_some_iff : text? node = some text ↔ IsText text node := by
  constructor
  · intro found
    unfold text? at found
    split at found
    · cases found
      exact ⟨_, rfl⟩
    · cases found
  · exact text?_of_isText

theorem mapM_some_iff {read : ι → Option α} {xs : List ι} {values : List α} :
    xs.mapM read = some values ↔ List.Forall₂ (fun value x => read x = some value) values xs := by
  constructor
  · intro made
    induction xs generalizing values with
    | nil => cases made; exact .nil
    | cons x rest ih =>
      simp only [List.mapM_cons, Option.bind_eq_bind, Option.pure_def, Option.bind_eq_some_iff,
        Option.some.injEq] at made
      obtain ⟨value, first, more, later, rfl⟩ := made
      exact .cons first (ih later)
  · exact mapM_of_forall₂ (m := Option) fun _ _ taken => taken

theorem isSelection_of_selection? {targets : Selection} (found : selection? node = some targets) :
    IsSelection targets node := by
  unfold selection? at found
  split at found
  · cases found
    exact ⟨_, rfl⟩
  next mark items =>
    obtain ⟨texts, read, rfl⟩ := Option.map_eq_some_iff.mp found
    exact ⟨mark, items, rfl, (mapM_some_iff.mp read).imp fun _ _ => text?_eq_some_iff.mp⟩
  · cases found

theorem selection_eq_ok_iff {targets : Selection} : selection node = .ok targets ↔ IsSelection targets node := by
  constructor
  · intro made
    unfold selection at made
    cases read : readable node with
    | error refusal => rw [read] at made; cases made
    | ok =>
      rw [read] at made
      cases found : selection? node with
      | none => simp only [found] at made; cases made
      | some selection =>
        simp only [found] at made
        cases made
        exact isSelection_of_selection? found
  · exact selection_of_isSelection

theorem groups_eq_ok_iff {groups : List (Name × List Name)} :
    Schema.groups node = .ok groups ↔ IsGroups groups node := by
  have each : ∀ (group : Name × List Name) (field : Key × Node),
      (do return (field.1.name, ← strings field.2) : Accepting _) = .ok group ↔
        group.1 = field.1.name ∧ IsArray IsText group.2 field.2 := by
    rintro ⟨name, targets⟩ ⟨key, node⟩
    rw [← strings_eq_ok_iff]
    cases strings node <;> simp [eq_comm]
  unfold Schema.groups
  split
  next mark fields =>
    rw [mapM_ok_iff]
    constructor
    · exact fun matched => ⟨mark, fields, rfl, matched.imp fun group field => (each group field).mp⟩
    · rintro ⟨_, _, ⟨⟩, matched⟩
      exact matched.imp fun group field => (each group field).mpr
  · exact ⟨nofun, by rintro ⟨_, _, ⟨⟩, _⟩⟩
  next no_table _ =>
    refine ⟨fun made => absurd made not_refuse, ?_⟩
    rintro ⟨_, _, rfl, _⟩
    exact absurd rfl (no_table _ _)

end values

-- Every field takes what it says into its place, by induction from the last field. What stood in a place
-- before is what stands there afterwards, unless a field took it.
theorem of_foldlM {σ : Type} {read : σ → Key × Node → Accepting σ} {agrees : String → σ → Prop}
    {means : String → Node → Prop} {goal : σ} {fields : List (Key × Node)} (ordered : Ordered fields)
    (taken : ∀ field ∈ fields, ∀ s next, read s field = .ok next → agrees field.1.name next →
      means field.1.name field.2)
    (kept : ∀ s field next name, read s field = .ok next → name ≠ field.1.name → agrees name next →
      agrees name s)
    (complete : ∀ name, agrees name goal) {s : σ} (made : fields.foldlM read s = .ok goal) :
    (∀ field ∈ fields, means field.1.name field.2) ∧
      ∀ name, (∀ field ∈ fields, field.1.name ≠ name) → agrees name s := by
  induction fields generalizing s with
  | nil =>
    cases made
    exact ⟨by simp, fun name _ => complete name⟩
  | cons field rest ih =>
    obtain ⟨less, ordered⟩ := List.pairwise_cons.mp ordered
    rw [List.foldlM_cons] at made
    cases first : read s field with
    | error refusal => rw [first] at made; cases made
    | ok next =>
      rw [first] at made
      obtain ⟨meant, others⟩ :=
        ih ordered (fun later present => taken later (List.mem_cons_of_mem _ present)) made
      have alone : ∀ other ∈ rest, other.1.name ≠ field.1.name := fun other present => (less other present).ne'
      have meant_first := taken field List.mem_cons_self s next first (others _ alone)
      refine ⟨List.forall_mem_cons.mpr ⟨meant_first, meant⟩, fun name absent => ?_⟩
      obtain ⟨differs, absent⟩ := List.forall_mem_cons.mp absent
      exact kept s field next name first differs.symm (others name absent)

section entry

variable {e : Entry} {draft next : EntryDraft} {field : Key × Node} {name : String}

theorem entryMeans_of_read (made : draft.read field = .ok next) (agrees : EntryAgrees e field.1.name next) :
    EntryMeans e field.1.name field.2 := by
  obtain ⟨⟨name, mark⟩, node⟩ := field
  unfold EntryDraft.read at made
  split at made
  case h_5 => cases made
  all_goals
    rename_i same
    cases same
    obtain ⟨value, read, rfl⟩ := exists_of_map made
  · cases agrees
    exact .name (string_eq_ok_iff.mp read)
  · cases agrees
    exact .needs (strings_eq_ok_iff.mp read)
  · exact .targets agrees.symm (selection_eq_ok_iff.mp read)
  · cases agrees
    exact .exclude (strings_eq_ok_iff.mp read)

theorem entryAgrees_of_read (made : draft.read field = .ok next) (other : name ≠ field.1.name)
    (agrees : EntryAgrees e name next) : EntryAgrees e name draft := by
  obtain ⟨⟨key, mark⟩, node⟩ := field
  unfold EntryDraft.read at made
  split at made
  case h_5 => cases made
  all_goals
    rename_i same
    cases same
    obtain ⟨value, read, rfl⟩ := exists_of_map made
    unfold EntryAgrees at *
    split <;> simp_all

theorem finish_eq_ok_iff {mark : Mark} : draft.finish mark = .ok e ↔ ∀ name, EntryAgrees e name draft := by
  constructor
  · intro made
    unfold EntryDraft.finish at made
    split at made
    · cases made
      intro name
      unfold EntryAgrees
      split <;> first | assumption | rfl | trivial
    · cases made
  · intro agrees
    rw [eq_of_entryAgrees draft agrees]
    rfl

theorem Tells.left_out {told : List (String × Node)} (tells : Tells e told) (absent : name ∉ told.map Prod.fst) :
    EntryAgrees e name {} := by
  unfold EntryAgrees
  split
  · exact absurd tells.named absent
  · exact (tells.needs absent).symm
  · exact (tells.targets absent).symm
  · exact (tells.exclude absent).symm
  · trivial

theorem entry_table_iff {mark : Mark} {fields : List (Key × Node)} (ordered : Ordered fields) :
    entry (.table mark fields) = .ok e ↔ Tells e (fields.map fun field => (field.1.name, field.2)) := by
  have absent_iff : ∀ name, name ∉ (fields.map fun field => (field.1.name, field.2)).map Prod.fst ↔
      ∀ field ∈ fields, field.1.name ≠ name := by simp
  rw [entry]
  constructor
  · intro made
    cases taken : fields.foldlM EntryDraft.read {} with
    | error refusal => rw [taken] at made; cases made
    | ok draft =>
      rw [taken] at made
      obtain ⟨meant, others⟩ := of_foldlM ordered (fun _ _ _ _ => entryMeans_of_read)
        (fun _ _ _ _ => entryAgrees_of_read) (finish_eq_ok_iff.mp made) taken
      have left_out := fun name absent => others name ((absent_iff name).mp absent)
      refine ⟨List.forall_mem_map.mpr meant, ?_, ?_, ?_, ?_⟩
      · by_contra absent
        cases left_out _ absent
      · exact fun absent => (left_out _ absent).symm
      · exact fun absent => (left_out _ absent).symm
      · exact fun absent => (left_out _ absent).symm
  · intro tells
    have meant := List.forall_mem_map.mp tells.each
    have taken : fields.foldlM EntryDraft.read {} = .ok ⟨some e.name, e.needs, e.targets, e.exclude⟩ :=
      foldlM_of_put (fun field present => read_of_entryMeans (meant field present)) (entryAgrees_put e)
        (entryAgrees_kept e) eq_of_entryAgrees fun name absent => tells.left_out ((absent_iff name).mpr absent)
    rw [taken]
    rfl

theorem bind_eq_ok_iff {α β : Type} {x : Accepting α} {f : α → Accepting β} {made : β} :
    x >>= f = .ok made ↔ ∃ value, x = .ok value ∧ f value = .ok made := by
  cases x with
  | error refusal => exact ⟨nofun, by rintro ⟨_, ⟨⟩, _⟩⟩
  | ok value => exact ⟨fun made => ⟨value, rfl, made⟩, by rintro ⟨_, ⟨⟩, made⟩; exact made⟩

theorem entry_items_iff {mark : Mark} {items : List Node} :
    entryOfItems mark items = .ok e ↔ Tells e (entryKeys.zip items) := by
  obtain ⟨name, needs, targets, exclude⟩ := e
  unfold entryOfItems
  split
  · simp [tells_iff]
  all_goals
    -- What is told under each key, and which keys nothing is told under.
    simp only [bind_eq_ok_iff, string_eq_ok_iff, strings_eq_ok_iff, selection_eq_ok_iff, tells_iff,
      entryMeans_iff, entryKeys, List.zip_cons_cons, List.zip_nil_left, List.zip_nil_right, List.map_cons,
      List.map_nil, List.mem_cons, List.not_mem_nil, forall_eq_or_imp, forall_eq, String.reduceEq, or_false,
      false_or, or_self, or_true, and_true, true_and, and_false, and_self, exists_false, not_true_eq_false,
      not_false_eq_true, IsEmpty.forall_iff, forall_const]
  case h_2 =>
    constructor
    · rintro ⟨_, meant, ⟨⟩⟩
      exact ⟨meant, rfl, rfl, rfl⟩
    · rintro ⟨meant, rfl, rfl, rfl⟩
      exact ⟨_, meant, rfl⟩
  case h_3 =>
    constructor
    · rintro ⟨_, meant, _, more, ⟨⟩⟩
      exact ⟨⟨meant, more⟩, rfl, rfl⟩
    · rintro ⟨⟨meant, more⟩, rfl, rfl⟩
      exact ⟨_, meant, _, more, rfl⟩
  case h_4 =>
    constructor
    · rintro ⟨_, meant, _, more, _, chosen, ⟨⟩⟩
      exact ⟨⟨meant, more, _, rfl, chosen⟩, rfl⟩
    · rintro ⟨⟨meant, more, _, rfl, chosen⟩, rfl⟩
      exact ⟨_, meant, _, more, _, chosen, rfl⟩
  case h_5 =>
    constructor
    · rintro ⟨_, meant, _, more, _, chosen, _, rest, ⟨⟩⟩
      exact ⟨meant, more, ⟨_, rfl, chosen⟩, rest⟩
    · rintro ⟨meant, more, ⟨_, rfl, chosen⟩, rest⟩
      exact ⟨_, meant, _, more, _, chosen, _, rest, rfl⟩

theorem entry_eq_ok_iff {node : Node} (sorted : node.Sorted) : entry node = .ok e ↔ IsEntry e node := by
  cases sorted with
  | scalar mark value =>
    refine ⟨fun made => ?_, nofun⟩
    cases value with
    | moment => cases made
    | string | integer | float | boolean => exact absurd made not_refuse
  | array inside =>
    rw [entry, entry_items_iff]
    exact ⟨.array, by rintro ⟨⟩; assumption⟩
  | table ordered inside =>
    rw [entry_table_iff ordered]
    exact ⟨.table, by rintro ⟨⟩; assumption⟩

end entry

section document

variable {b other next : Blueprint} {field : Key × Node} {name : String} {fields : List (Key × Node)}

theorem forall₂_congr_right {means weaker : α → β → Prop} {values : List α} {xs : List β}
    (same : ∀ x ∈ xs, ∀ value, means value x ↔ weaker value x) :
    List.Forall₂ means values xs ↔ List.Forall₂ weaker values xs := by
  induction xs generalizing values with
  | nil => cases values <;> simp
  | cons x rest ih =>
    cases values with
    | nil => simp
    | cons value more =>
      rw [List.forall₂_cons, List.forall₂_cons, same x List.mem_cons_self,
        ih fun y present => same y (List.mem_cons_of_mem x present)]

theorem entries_eq_ok_iff {node : Node} (sorted : node.Sorted) {all : List Entry} :
    entries node = .ok all ↔ IsArray IsEntry all node := by
  cases sorted with
  | scalar | table => exact ⟨fun made => absurd made not_refuse, by rintro ⟨_, _, ⟨⟩, _⟩⟩
  | @array mark items inside =>
    rw [entries, mapM_ok_iff, forall₂_congr_right fun item present _ => entry_eq_ok_iff (inside item present)]
    constructor
    · exact fun matched => ⟨mark, items, rfl, matched⟩
    · rintro ⟨_, _, ⟨⟩, matched⟩
      exact matched

theorem hasPart_of_read (sorted : field.2.Sorted) (made : read other field = .ok next)
    (agrees : Agrees b b.groups field.1.name next) : HasPart b field.1.name field.2 := by
  obtain ⟨⟨name, mark⟩, node⟩ := field
  unfold read at made
  split at made
  case h_5 => cases made
  all_goals
    rename_i same
    cases same
    obtain ⟨value, read, rfl⟩ := exists_of_map made
    cases agrees
  · exact .assumed (strings_eq_ok_iff.mp read)
  · exact .targetNeeds (strings_eq_ok_iff.mp read)
  · exact .groups (groups_eq_ok_iff.mp read)
  · exact .entries ((entries_eq_ok_iff sorted).mp read)

theorem agrees_of_read (made : read other field = .ok next) (differs : name ≠ field.1.name)
    (agrees : Agrees b b.groups name next) : Agrees b b.groups name other := by
  obtain ⟨⟨key, mark⟩, node⟩ := field
  unfold read at made
  split at made
  case h_5 => cases made
  all_goals
    rename_i same
    cases same
    obtain ⟨value, read, rfl⟩ := exists_of_map made
    unfold Agrees at *
    split <;> simp_all

theorem read_of_hasPart (sorted : field.2.Sorted) (part : HasPart b field.1.name field.2) (other : Blueprint) :
    read other field = .ok (put b b.groups field.1.name other) := by
  obtain ⟨⟨name, mark⟩, node⟩ := field
  cases part with
  | assumed meant => simp only [read, strings_eq_ok_iff.mpr meant]; rfl
  | targetNeeds meant => simp only [read, strings_eq_ok_iff.mpr meant]; rfl
  | groups meant => simp only [read, groups_eq_ok_iff.mpr meant]; rfl
  | entries meant => simp only [read, (entries_eq_ok_iff sorted).mpr meant]; rfl

theorem IsDocument.left_out (document : IsDocument b fields) (absent : ∀ field ∈ fields, field.1.name ≠ name) :
    Agrees b b.groups name {} := by
  unfold Agrees
  split
  · exact (document.assumed absent).symm
  · exact (document.targetNeeds absent).symm
  · exact (document.groups absent).symm
  · exact (document.entries absent).symm
  · trivial

theorem ofFields_eq_ok_iff (sorted : Toml.Sorted fields) : ofFields fields = .ok b ↔ IsDocument b fields := by
  constructor
  · intro made
    have whole : ∀ name, Agrees b b.groups name b := by
      intro name
      unfold Agrees
      split <;> trivial
    obtain ⟨parts, left_out⟩ := of_foldlM sorted.ordered
      (fun field present _ _ => hasPart_of_read (sorted.inside field present)) (fun _ _ _ _ => agrees_of_read)
      whole made
    exact ⟨parts, fun absent => (left_out _ absent).symm, fun absent => (left_out _ absent).symm,
      fun absent => (left_out _ absent).symm, fun absent => (left_out _ absent).symm⟩
  · intro document
    have parts := fun field present => read_of_hasPart (sorted.inside field present) (document.each field present)
    exact foldlM_of_put parts (agrees_put b b.groups) (agrees_kept b b.groups) eq_of_agrees
      fun _ absent => document.left_out absent

theorem parse_of_read {text : String} (read : Toml.read text = some fields) :
    parse text = (ofFields fields).mapError (problemOf text) := by
  simp only [parse, read]
  cases ofFields fields <;> rfl

-- A document is the blueprint that it says, or it is refused for the first violation in it; and so is a
-- text, with the place where the violation stands.
theorem accepted_exactly :
    (∀ fields, Toml.Sorted fields →
      (∀ b, ofFields fields = .ok b ↔ IsDocument b fields) ∧
      ∀ refusal, ofFields fields = .error refusal ↔ (Violations.ofDocument fields).head? = some refusal) ∧
    ∀ text fields, Toml.read text = some fields →
      (∀ b, parse text = .ok b ↔ IsDocument b fields) ∧
      ∀ problem, parse text = .error problem ↔
        ∃ refusal, (Violations.ofDocument fields).head? = some refusal ∧ problem = problemOf text refusal := by
  refine ⟨fun fields sorted => ⟨fun b => ofFields_eq_ok_iff sorted, reports_document fields⟩, ?_⟩
  intro text fields read
  rw [parse_of_read read]
  refine ⟨fun b => ?_, fun problem => ?_⟩
  · rw [← ofFields_eq_ok_iff (sorted_read read)]
    cases ofFields fields <;> simp [Except.mapError]
  · simp only [← reports_document fields _]
    cases ofFields fields <;> simp [Except.mapError, eq_comm]

end document

def listed (texts : List String) : Node := .array [] (texts.map fun text => .scalar [] (.string text))

def twoForms : List (Key × Node) :=
  [(⟨"target_depends", []⟩, listed ["gcc"]),
    (⟨"task", []⟩, .array []
      [.array [] [.scalar [] (.string "a"), listed ["b"], .scalar [] (.string "all"), listed [],
          .scalar [] (.boolean true)],
        .table [] [(⟨"exclude", []⟩, listed ["dos"]), (⟨"name", []⟩, .scalar [] (.string "c")),
          (⟨"targets", []⟩, listed ["dos", "win"])]])]

def spoiled : List (Key × Node) :=
  [(⟨"task", []⟩, .array []
      [.table ['x'] [(⟨"depends", []⟩, .array [] [.scalar ['y'] (.integer 5)]), (⟨"needs", ['z']⟩, listed [])]]),
    (⟨"tasks", []⟩, listed [])]

theorem sorted_twoForms : Toml.Sorted twoForms := by
  have second : Toml.Sorted [(⟨"exclude", []⟩, listed ["dos"]), (⟨"name", []⟩, .scalar [] (.string "c")),
      (⟨"targets", []⟩, listed ["dos", "win"])] := ⟨by decide, by simp [listed]⟩
  exact ⟨by decide, by simpa [twoForms, listed] using second⟩

theorem sorted_spoiled : Toml.Sorted spoiled := by
  have only : Toml.Sorted [(⟨"depends", []⟩, .array [] [.scalar ['y'] (.integer 5)]), (⟨"needs", ['z']⟩, listed [])] :=
    ⟨by decide, by simp [listed]⟩
  exact ⟨by decide, by simpa [spoiled, listed] using only⟩

theorem spoiled_refused :
    (Toml.Sorted twoForms ∧ IsDocument
      { targetNeeds := ["gcc"]
        entries := [{ name := "a", needs := ["b"], targets := some (.group "all") },
          { name := "c", targets := some (.list ["dos", "win"]), exclude := ["dos"] }] } twoForms) ∧
    (Toml.Sorted spoiled ∧ (Violations.ofDocument spoiled).length = 4 ∧
      ofFields spoiled = .error (.violation ['y'] (.invalidType (.integer 5) .string))) ∧
    parse "\nx=1" = .error (.violation "\nx=1" ⟨2, 1⟩ (.unknownField "x" documentKeys)) := by
  obtain ⟨trees, texts⟩ := accepted_exactly
  have accepted := (trees twoForms sorted_twoForms).1
  have refused := (trees spoiled sorted_spoiled).2
  have read : Toml.read "\nx=1" = some [(⟨"x", ['x', '=', '1']⟩, .scalar ['1'] (.integer 1))] := by rfl
  exact ⟨⟨sorted_twoForms, (accepted _).mp rfl⟩, ⟨sorted_spoiled, rfl, (refused _).mpr rfl⟩,
    ((texts _ _ read).2 _).mpr ⟨_, rfl, by rfl⟩⟩

end BuildPlan.Blueprint.Schema
