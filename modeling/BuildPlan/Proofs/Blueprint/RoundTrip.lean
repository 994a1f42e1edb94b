import BuildPlan.Proofs.Blueprint.Schema
import BuildPlan.Proofs.Toml.Document

namespace BuildPlan.Blueprint

open Toml Toml.Writing Schema

variable {b : Blueprint} {ordered : List (Name × List Name)} {names : List String} {fields : List Field}
  {blocks : List Block} {table : Fields} {part : Section} {parts : List Section}

theorem reads_headFields (b : Blueprint) (ordered : List (Name × List Name)) :
    ∀ f ∈ b.headFields, Reads depthLimit f.value (Means b ordered f.key) := by
  intro f present
  simp only [headFields, List.mem_cons, List.not_mem_nil, or_false] at present
  rcases present with rfl | rfl
  · exact ((reads_strings b.assumed).imp fun _ => .assumed).deeper (by decide)
  · exact ((reads_strings b.targetNeeds).imp fun _ => .targetNeeds).deeper (by decide)

theorem GroupPart.reads (written : GroupPart b.groups fields blocks) (order : KeyOrder b.groups ordered) :
    ∀ f ∈ fields, Reads depthLimit f.value (Means b ordered f.key) := by
  intro f present
  cases written with
  | inline =>
    obtain rfl := List.mem_singleton.mp present
    exact ((reads_groups order).imp fun _ => .groups).deeper (by decide)
  | block _ => cases present

theorem EntryPart.reads (written : EntryPart b.entries fields blocks) :
    ∀ f ∈ fields, Reads depthLimit f.value (Means b ordered f.key) := by
  intro f present
  cases written with
  | inline =>
    obtain rfl := List.mem_singleton.mp present
    have reads : Reads 3 (ArrayOf Entry.Inline b.entries) (IsArray EntryTable b.entries) :=
      reads_array fun entry _ => reads_entry entry
    exact (reads.imp fun _ => .entries).deeper (by decide)
  | blocks _ => cases present

theorem adds_of_entryBlock {entry : Entry} {block : Block} (written : EntryBlock entry block)
    (stands : Stands block part) : Adds "task" EntryTable entry part := by
  obtain ⟨chose⟩ := written
  obtain ⟨filled⟩ := stands
  obtain ⟨inner, made, holds⟩ := holds_of_fills filled (chose.nodup (nodup_entryFields entry))
    fun f present => (reads_entryField entry f (chose.mem present)).deeper (by decide)
  exact ⟨_, _, _, inner, rfl, made, _, ⟨_, _, rfl, holds.nodes⟩, fun f => chose.isDefault⟩

theorem adds_of_entryBlocks {entries : List Entry} (written : List.Forall₂ EntryBlock entries blocks)
    (stand : List.Forall₂ Stands blocks parts) :
    List.Forall₂ (Adds "task" EntryTable) entries parts := by
  induction written generalizing parts with
  | nil =>
    cases stand
    exact .nil
  | cons first _ ih =>
    cases stand with
    | cons stands more => exact .cons (adds_of_entryBlock first stands) (ih more)

theorem GroupPart.run {means : String → Item → Prop} (written : GroupPart b.groups fields blocks)
    (order : KeyOrder b.groups ordered) (stand : List.Forall₂ Stands blocks parts)
    (holds : Holds means names table) (fresh : blocks ≠ [] → "targets" ∉ names)
    (meant : ∀ item : Item, Schema.groups item.toNode = .ok ordered → means "targets" item) :
    ∃ after names', parts.foldlM Section.addTo table = some after ∧ Holds means names' after ∧
      ∀ name, name ∈ names' ↔ name ∈ names ∨ name = "targets" ∧ blocks ≠ [] := by
  cases written with
  | inline =>
    cases stand
    exact ⟨table, names, rfl, holds, by simp⟩
  | block permuted =>
    cases stand with
    | cons stands nothing =>
      cases nothing
      cases stands with
      | mk filled =>
        have keys := keys_groupFields permuted
        obtain ⟨inner, made, inner_holds⟩ := holds_of_fills filled (keys.nodup_iff.mpr order.distinct)
          fun f present => (reads_groupFields permuted f present).deeper (by decide)
        have taken (mark : Mark) : Schema.groups (Item.table mark .header inner).toNode = .ok ordered := by
          rw [Item.toNode]
          exact groups_of_isTable order ⟨mark, _, rfl, inner_holds.nodes⟩ fun group present =>
            keys.mem_iff.mpr (List.mem_map_of_mem present)
        obtain ⟨after, added, holds⟩ := holds.header (.mk filled) rfl (fresh (List.cons_ne_nil _ _)) made
          fun mark => meant _ (taken mark)
        exact ⟨after, _, by rw [List.foldlM_cons, added]; rfl, holds, by simp [or_comm]⟩

theorem forall₂_split {R : α → β → Prop} {first second : List α} {all : List β}
    (matched : List.Forall₂ R (first ++ second) all) :
    ∃ before after, all = before ++ after ∧ List.Forall₂ R first before ∧ List.Forall₂ R second after :=
  ⟨all.take first.length, all.drop first.length, (List.take_append_drop _ _).symm,
    (List.forall₂_take_append _ _ _ matched.flip).flip, (List.forall₂_drop_append _ _ _ matched.flip).flip⟩

theorem run_sections {gathered : List Entry} {before groupBlocks after : List Block}
    (groupPart : GroupPart b.groups fields groupBlocks) (order : KeyOrder b.groups ordered)
    (entryBlocks : List.Forall₂ EntryBlock gathered (before ++ after))
    (stand : List.Forall₂ Stands (before ++ groupBlocks ++ after) parts)
    (holds : Holds (fun name item => Means b ordered name item.toNode) names table)
    (fresh_groups : groupBlocks ≠ [] → "targets" ∉ names) (fresh : gathered ≠ [] → "task" ∉ names) :
    ∃ last names', parts.foldlM Section.addTo table = some last ∧
      Holds (Gathers "task" EntryTable gathered (Means b ordered)) names' last ∧
      ∀ name, name ∈ names' ↔
        name ∈ names ∨ name = "targets" ∧ groupBlocks ≠ [] ∨ name = "task" ∧ gathered ≠ [] := by
  obtain ⟨first, second, rfl, entries_before, entries_after⟩ :
      ∃ first second, gathered = first ++ second ∧ List.Forall₂ EntryBlock first before ∧
        List.Forall₂ EntryBlock second after := by
    obtain ⟨first, second, rfl, matched_first, matched_second⟩ := forall₂_split entryBlocks.flip
    exact ⟨first, second, rfl, matched_first.flip, matched_second.flip⟩
  obtain ⟨parts_first, parts_after, rfl, stand, stand_after⟩ := forall₂_split stand
  obtain ⟨parts_before, parts_groups, rfl, stand_before, stand_groups⟩ := forall₂_split stand
  have start : Holds (Gathers "task" EntryTable [] (Means b ordered)) names table :=
    holds.imp fun name _ item meant => by simpa [Gathers] using meant
  obtain ⟨one, names₁, run₁, holds₁, members₁⟩ := start.elements
    (by simpa using fun some => fresh (by simp [some])) (adds_of_entryBlocks entries_before stand_before)
  obtain ⟨two, names₂, run₂, holds₂, members₂⟩ := groupPart.run order stand_groups holds₁
    (by simpa [members₁] using fresh_groups) (fun item taken => by simpa [Gathers] using Means.groups taken)
  obtain ⟨three, names₃, run₃, holds₃, members₃⟩ := holds₂.elements
    (fun some => by simp [members₂, members₁, fresh (by simp [some])])
    (adds_of_entryBlocks entries_after stand_after)
  refine ⟨three, names₃, ?_, by simpa using holds₃, fun name => ?_⟩
  · simp [List.foldlM_append, run₁, run₂, run₃]
  · simp only [members₃, members₂, members₁, ne_eq, List.append_eq_nil_iff]
    grind

-- Which entries have sections, and what stands at the top for the others: all of them or none.
inductive InSections (entries : List Entry) : List Entry → List Field → Prop where
  | all : InSections entries entries []
  | none : InSections entries [] [⟨"task", ArrayOf Entry.Inline entries, entries = []⟩]

theorem EntryPart.inSections {entries : List Entry} (written : EntryPart entries fields blocks) :
    ∃ gathered, InSections entries gathered fields ∧ List.Forall₂ EntryBlock gathered blocks := by
  cases written with
  | inline => exact ⟨[], .none, .nil⟩
  | blocks written => exact ⟨entries, .all, written⟩

theorem GroupPart.readable (written : GroupPart b.groups fields blocks) :
    ∀ block ∈ blocks, ReadableFields block.fields := by
  cases written with
  | inline => simp
  | block permuted =>
    simp only [List.mem_singleton, forall_eq]
    exact fun f present => ⟨_, (reads_groupFields permuted f present).deeper (by decide)⟩

theorem readable_entryBlocks {entries : List Entry} (written : List.Forall₂ EntryBlock entries blocks) :
    ∀ block ∈ blocks, ReadableFields block.fields := by
  induction written with
  | nil => simp
  | @cons entry _ _ _ first _ ih =>
    obtain ⟨chose⟩ := first
    exact List.forall_mem_cons.mpr ⟨fun f present =>
      ⟨_, (reads_entryField entry f (chose.mem present)).deeper (by decide)⟩, ih⟩

section head

variable {gathered : List Entry} {groupFields entryFields head : List Field}

theorem InSections.means (inSections : InSections b.entries gathered entryFields) {name : String}
    {item : Item} (gathers : Gathers "task" EntryTable gathered (Means b ordered) name item) :
    Means b ordered name item.toNode := by
  unfold Gathers at gathers
  split at gathers
  next both =>
    obtain ⟨rfl, some⟩ := both
    cases inSections with
    | all => exact .entries gathers.isArray
    | none => exact absurd rfl some
  next => exact gathers

variable (groupPart : GroupPart b.groups groupFields blocks)
  (inSections : InSections b.entries gathered entryFields)
  (chose : Chosen (b.headFields ++ groupFields ++ entryFields) head)

include groupPart inSections chose

theorem head_distinct : (head.map Field.key).Nodup := by
  apply chose.nodup
  cases groupPart <;> cases inSections <;> simp [headFields]

theorem groups_once (some : blocks ≠ []) : "targets" ∉ head.map Field.key := by
  intro present
  have known := chose.mem_keys present
  cases groupPart with
  | inline => exact some rfl
  | block _ => cases inSections <;> simp [headFields] at known

theorem entries_once (some : gathered ≠ []) : "task" ∉ head.map Field.key := by
  intro present
  have known := chose.mem_keys present
  cases inSections with
  | all => cases groupPart <;> simp [headFields] at known
  | none => exact some rfl

theorem agrees_default (order : KeyOrder b.groups ordered) {name : String}
    (absent : ¬(name ∈ head.map Field.key ∨ name = "targets" ∧ blocks ≠ [] ∨
      name = "task" ∧ gathered ≠ [])) : Agrees b ordered name {} := by
  simp only [not_or, not_and, not_not] at absent
  obtain ⟨absent, no_blocks, none_gathered⟩ := absent
  unfold Agrees
  split
  · exact (chose.isDefault (f := ⟨"assume_provided", Strings b.assumed, b.assumed = []⟩)
      (by simp [headFields]) absent).symm
  · exact (chose.isDefault (f := ⟨"target_depends", Strings b.targetNeeds, b.targetNeeds = []⟩)
      (by simp [headFields]) absent).symm
  · cases groupPart with
    | inline =>
      have empty : b.groups = [] :=
        chose.isDefault (f := ⟨"targets", InlineGroups b.groups, b.groups = []⟩) (by simp) absent
      exact (List.Perm.nil_eq (empty ▸ order.perm).symm)
    | block _ => simp at no_blocks
  · cases inSections with
    | all => exact (none_gathered rfl).symm
    | none =>
      exact (chose.isDefault (f := ⟨"task", ArrayOf Entry.Inline b.entries, b.entries = []⟩) (by simp)
        absent).symm
  · trivial

end head

theorem ofText_of_writes {text : String} (written : b.Writes text.toList)
    (order : KeyOrder b.groups ordered) (origin : String) :
    ofText text origin = .ok { b with groups := ordered } := by
  obtain @⟨groupFields, groupBlocks, entryFields, before, after, head, _, groupPart, entryPart, chose,
    document⟩ := written
  have reads : ∀ f ∈ head, Reads depthLimit f.value (Means b ordered f.key) := by
    intro f present
    rcases List.mem_append.mp (chose.mem present) with present | present
    · rcases List.mem_append.mp present with present | present
      · exact reads_headFields b ordered f present
      · exact groupPart.reads order f present
    · exact entryPart.reads f present
  obtain ⟨gathered, inSections, entryBlocks⟩ := entryPart.inSections
  have readable_blocks : ∀ block ∈ before ++ groupBlocks ++ after, ReadableFields block.fields := by
    have := readable_entryBlocks entryBlocks
    have := groupPart.readable
    simp_all [or_imp, forall_and]
  obtain ⟨body, parts, filled, stand, read⟩ :=
    read_of_document document (fun f present => ⟨_, reads f present⟩) readable_blocks
  -- first the fields at the top, then section by section
  obtain ⟨table, added, holds⟩ := holds_of_fills filled (head_distinct groupPart inSections chose) reads
  obtain ⟨last, names, run, holds, members⟩ :=
    run_sections groupPart order entryBlocks stand holds (groups_once groupPart inSections chose)
      (entries_once groupPart inSections chose)
  have final := holds.imp fun name _ item => inSections.means
  have taken : ofFields (fieldNodes last) = .ok { b with groups := ordered } :=
    ofFields_of_holds final.nodes fun name absent =>
      agrees_default groupPart inSections chose order ((members name).not.mp absent)
  rw [ofText, parse, read, added]
  simp only [Option.bind_eq_bind, Option.bind_some, run, taken]
  rfl

theorem exists_keyOrder {groups : List (Name × List Name)} (distinct : (groups.map Prod.fst).Nodup) :
    ∃ ordered, KeyOrder groups ordered := by
  have sorted : (groups.mergeSort fun one other => one.1 ≤ other.1).Pairwise
      fun one other => decide (one.1 ≤ other.1) = true :=
    List.pairwise_mergeSort (fun a b c => by simpa using le_trans)
      (fun a b => by simpa using le_total a.1 b.1) groups
  have perm := groups.mergeSort_perm fun one other => decide (one.1 ≤ other.1)
  have differ := List.pairwise_map.mp ((perm.map Prod.fst).nodup_iff.mpr distinct)
  refine ⟨_, perm, List.pairwise_map.mpr ((sorted.and differ).imp fun both => ?_)⟩
  exact lt_of_le_of_ne (of_decide_eq_true both.1) both.2

-- A blueprint with distinct groups is read back from whatever document it was written as, with its
-- groups by increasing names.
theorem survives_writing (distinct : (b.groups.map Prod.fst).Nodup) {text : String}
    (written : b.Writes text.toList) (origin : String) :
    ∃ ordered, ofText text origin = .ok { b with groups := ordered } ∧ ordered.Perm b.groups ∧
      (ordered.map Prod.fst).Pairwise (· < ·) := by
  obtain ⟨ordered, order⟩ := exists_keyOrder distinct
  exact ⟨ordered, ofText_of_writes written order origin, order.perm, order.increasing⟩

def terse : Blueprint :=
  { groups := [("b", []), ("a", ["x\x00"])], entries := [{ name := "q\"\\", targets := some (.list []) }] }

def terseText : String :=
  "targets = \x7b\"b\" = [], \"a\" = [\"x\\u0000\"]\x7d\n[[task]]\ntargets = []\nname = \"q\\\"\\\\\"\n"

theorem terse_survives_writing : (terse.groups.map Prod.fst).Nodup ∧ terse.Writes terseText.toList ∧
    ∃ ordered, ofText terseText "terse" = .ok { terse with groups := ordered } ∧
      ordered.Perm terse.groups ∧ (ordered.map Prod.fst).Pairwise (· < ·) := by
  have groups : InlineGroups terse.groups ('{' :: (commaSeparated (terse.groups.map groupRow) ++ ['}'])) :=
    .mk .rfl (.mk (listed_commaSeparated (assigned_groups _) blanks_nil))
  have entry : Chosen (Entry.fields { name := "q\"\\", targets := some (.list []) })
      [⟨"targets", Strings [], False⟩, ⟨"name", Quotes "q\"\\", False⟩] :=
    ⟨_, .keep (.drop rfl (.drop rfl (.keep .nil))), .swap _ _ _⟩
  have entries : EntryPart terse.entries [] ([] ++ [_]) := .blocks (.cons ⟨entry⟩ .nil)
  have head : Chosen (terse.headFields ++ [⟨"targets", InlineGroups terse.groups, terse.groups = []⟩] ++ [])
      [⟨"targets", InlineGroups terse.groups, terse.groups = []⟩] :=
    ⟨_, .drop rfl (.drop rfl (.keep .nil)), .rfl⟩
  have written : terse.Writes terseText.toList :=
    .mk .inline entries head <| lines_lines <|
      .cons (written_bare (by decide) groups) <|
      .cons (.element blanks_nil (keyName_bare (by decide)) blanks_nil) <|
      .cons (written_bare (by decide) (strings_strings [])) <|
      .cons (written_bare (by decide) (quotes_quoted _)) .nil
  exact ⟨by decide, written, survives_writing (by decide) written "terse"⟩

end BuildPlan.Blueprint
