import BuildPlan.Blueprint
import BuildPlan.Toml.Writing

namespace BuildPlan.Blueprint

open Toml.Writing

def Selection.Written : Selection → Form
  | .group name => Quotes name
  | .list targets => Strings targets

def Entry.fields (entry : Entry) : List Field :=
  [⟨"name", Quotes entry.name, False⟩, ⟨"depends", Strings entry.needs, entry.needs = []⟩,
    ⟨"exclude", Strings entry.exclude, entry.exclude = []⟩] ++
  entry.targets.toList.map fun targets => ⟨"targets", targets.Written, False⟩

inductive Entry.Inline (entry : Entry) : List Char → Prop where
  | mk {fields cs} : Chosen entry.fields fields → InlineTable fields cs → Inline entry cs

def groupField (group : Name × List Name) : Field := ⟨group.1, Strings group.2, False⟩

inductive InlineGroups (groups : List (Name × List Name)) : List Char → Prop where
  | mk {fields cs} : fields.Perm (groups.map groupField) → InlineTable fields cs →
      InlineGroups groups cs

def headFields (b : Blueprint) : List Field :=
  [⟨"assume_provided", Strings b.assumed, b.assumed = []⟩,
    ⟨"target_depends", Strings b.targetNeeds, b.targetNeeds = []⟩]

inductive GroupPart (groups : List (Name × List Name)) : List Field → List Block → Prop where
  | inline : GroupPart groups [⟨"targets", InlineGroups groups, groups = []⟩] []
  | block {fields} : fields.Perm (groups.map groupField) →
      GroupPart groups [] [⟨false, "targets", fields⟩]

inductive EntryBlock (entry : Entry) : Block → Prop where
  | mk {fields} : Chosen entry.fields fields → EntryBlock entry ⟨true, "task", fields⟩

inductive EntryPart (entries : List Entry) : List Field → List Block → Prop where
  | inline : EntryPart entries [⟨"task", ArrayOf Entry.Inline entries, entries = []⟩] []
  | blocks {blocks} : List.Forall₂ EntryBlock entries blocks → EntryPart entries [] blocks

-- The documents that say just what a blueprint does. The section of the groups may stand anywhere
-- between those of the entries.
inductive Writes (b : Blueprint) : List Char → Prop where
  | mk {groupFields groupBlocks entryFields before after head cs} :
      GroupPart b.groups groupFields groupBlocks → EntryPart b.entries entryFields (before ++ after) →
      Chosen (b.headFields ++ groupFields ++ entryFields) head →
      Document head (before ++ groupBlocks ++ after) cs → Writes b cs

def Selection.text : Selection → List Char
  | .group name => quoted name
  | .list targets => strings targets

def Entry.rows (entry : Entry) : List (List Char) :=
  [assignment "name".toList (quoted entry.name), assignment "depends".toList (strings entry.needs),
    assignment "exclude".toList (strings entry.exclude)] ++
  entry.targets.toList.map fun targets => assignment "targets".toList targets.text

def groupRow (group : Name × List Name) : List Char := assignment (quoted group.1) (strings group.2)

def rows (b : Blueprint) : List (List Char) :=
  [assignment "assume_provided".toList (strings b.assumed),
    assignment "target_depends".toList (strings b.targetNeeds)] ++
  ("[targets]".toList :: b.groups.map groupRow ++
    b.entries.flatMap fun entry => "[[task]]".toList :: entry.rows)

-- Everything in its usual order, defaults included.
def toToml (b : Blueprint) : String := String.ofList (lines b.rows)

theorem kept_all (fields : List Field) : Kept fields fields := by
  induction fields with
  | nil => exact .nil
  | cons f rest ih => exact .keep ih

theorem chosen_all (fields : List Field) : Chosen fields fields := ⟨fields, kept_all fields, .rfl⟩

theorem written_bare {name : String} {form : Form} {isDefault : Prop} {value : List Char}
    (bare : name ≠ "" ∧ name.toList.all Toml.isBareKeyChar = true) (written : form value) :
    Line.Written (.field ⟨name, form, isDefault⟩) (assignment name.toList value) :=
  .field (assigned_assignment (keyName_bare bare) written)

theorem written_selection (targets : Selection) : targets.Written targets.text := by
  cases targets with
  | group name => exact quotes_quoted name
  | list targets => exact strings_strings targets

theorem written_entry (entry : Entry) :
    List.Forall₂ Line.Written (entry.fields.map .field) entry.rows := by
  rw [Entry.fields, Entry.rows, List.map_append]
  refine List.rel_append ?_ ?_
  · exact .cons (written_bare (by decide) (quotes_quoted _)) <|
      .cons (written_bare (by decide) (strings_strings _)) <|
      .cons (written_bare (by decide) (strings_strings _)) .nil
  · cases entry.targets with
    | none => exact .nil
    | some targets => exact .cons (written_bare (by decide) (written_selection targets)) .nil

theorem assigned_groups (groups : List (Name × List Name)) :
    List.Forall₂ Assigned (groups.map groupField) (groups.map groupRow) := by
  induction groups with
  | nil => exact .nil
  | cons group rest ih =>
    exact .cons (assigned_assignment (.quoted (quotes_quoted _)) (strings_strings _)) ih

theorem written_groups (groups : List (Name × List Name)) :
    List.Forall₂ Line.Written ((groups.map groupField).map .field) (groups.map groupRow) :=
  List.forall₂_map_left_iff.mpr ((assigned_groups groups).imp fun _ _ => .field)

def entryBlock (entry : Entry) : Block := ⟨true, "task", entry.fields⟩

theorem written_entries (entries : List Entry) :
    List.Forall₂ Line.Written ((entries.map entryBlock).flatMap Block.lines)
      (entries.flatMap fun entry => "[[task]]".toList :: entry.rows) := by
  induction entries with
  | nil => exact .nil
  | cons entry rest ih =>
    have header : Line.Written (.element "task") "[[task]]".toList :=
      .element blanks_nil (keyName_bare (by decide)) blanks_nil
    exact List.rel_append (.cons header (written_entry entry)) ih

theorem entryBlocks (entries : List Entry) : List.Forall₂ EntryBlock entries (entries.map entryBlock) := by
  induction entries with
  | nil => exact .nil
  | cons entry rest ih => exact .cons ⟨chosen_all _⟩ ih

theorem writes_toToml (b : Blueprint) : b.Writes b.toToml.toList := by
  have header : Line.Written (.table "targets") "[targets]".toList :=
    .table blanks_nil (keyName_bare (by decide)) blanks_nil
  have head : List.Forall₂ Line.Written (b.headFields.map .field) _ :=
    .cons (written_bare (by decide) (strings_strings _)) <|
      .cons (written_bare (by decide) (strings_strings _)) .nil
  have entries : EntryPart b.entries [] ([] ++ b.entries.map entryBlock) := .blocks (entryBlocks b.entries)
  rw [toToml, String.toList_ofList]
  refine .mk (.block .rfl) entries (chosen_all _) (lines_lines ?_)
  simp only [List.append_nil, List.nil_append, List.flatMap_append, List.flatMap_singleton]
  exact List.rel_append head <|
    List.rel_append (.cons header (written_groups b.groups)) (written_entries b.entries)

end BuildPlan.Blueprint
