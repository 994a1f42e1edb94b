import BuildPlan.Blueprint.Violations

namespace BuildPlan.Blueprint.Schema

open Toml (Node Key Mark)

-- The first of these violations comes out, and a value if there are none.
def Reports (result : Accepting α) (violations : List Refusal) : Prop :=
  ∀ refusal, result = .error refusal ↔ violations.head? = some refusal

namespace Reports

variable {α β σ ι : Type} {x : Accepting α} {next : α → Accepting β} {first later : List Refusal}

theorem accepted (value : α) : Reports (.ok value) [] := by simp [Reports]

theorem refused (refusal : Refusal) : Reports (.error refusal : Accepting α) [refusal] := by simp [Reports]

theorem nil_of_ok {value : α} (reports : Reports x first) (ended : x = .ok value) : first = [] := by
  cases first with
  | nil => rfl
  | cons refusal rest => exact absurd (ended.symm.trans ((reports refusal).mpr rfl)) nofun

theorem andThen (one : Reports x first) (two : ∀ value, x = .ok value → Reports (next value) later) :
    Reports (x >>= next) (first ++ later) := by
  intro refusal
  cases ended : x with
  | error other =>
    have stopped : (.error other : Accepting α) >>= next = .error other := rfl
    rw [stopped, List.head?_append, (one other).mp ended]
    simp
  | ok value =>
    rw [one.nil_of_ok ended]
    exact two value ended refusal

theorem map (one : Reports x first) (f : α → β) : Reports (x >>= fun value => pure (f value)) first := by
  have both := one.andThen fun value _ => accepted (f value)
  rwa [List.append_nil] at both

theorem mapM {read : ι → Accepting α} {violations : ι → List Refusal} {xs : List ι}
    (each : ∀ x ∈ xs, Reports (read x) (violations x)) : Reports (xs.mapM read) (xs.flatMap violations) := by
  induction xs with
  | nil => exact accepted []
  | cons x rest ih =>
    rw [List.mapM_cons, List.flatMap_cons]
    exact (each x List.mem_cons_self).andThen fun _ _ =>
      (ih fun y present => each y (List.mem_cons_of_mem x present)).map _

theorem foldlM {read : σ → ι → Accepting σ} {violations : ι → List Refusal} {xs : List ι}
    (each : ∀ x ∈ xs, ∀ s, Reports (read s x) (violations x)) (s : σ) :
    Reports (xs.foldlM read s) (xs.flatMap violations) := by
  induction xs generalizing s with
  | nil => exact accepted s
  | cons x rest ih =>
    rw [List.foldlM_cons, List.flatMap_cons]
    exact (each x List.mem_cons_self s).andThen fun next _ =>
      ih (fun y present => each y (List.mem_cons_of_mem x present)) next

end Reports

open Violations

variable {node : Node}

theorem reports_refuse (node : Node) (expected : Expected) :
    Reports (refuse node expected : Accepting α) [mismatch node expected] := by
  unfold refuse mismatch
  cases foundIn node with
  | ok found => exact .refused _
  | error refusal => exact .refused refusal

theorem isText_of_other (other : ∀ mark text, node = .scalar mark (.string text) → False) :
    isText node = false := by
  rw [isText]
  exact other

theorem reports_string (node : Node) : Reports (string node) (ofString node) := by
  unfold string
  split
  · exact .accepted _
  next other =>
    rw [ofString, isText_of_other other]
    exact reports_refuse node .string

theorem reports_strings (node : Node) : Reports (strings node) (ofStrings node) := by
  unfold strings
  split
  · exact .mapM fun item _ => reports_string item
  next other =>
    have mismatched : ofStrings node = [mismatch node .sequence] := by
      rw [ofStrings]
      exact other
    rw [mismatched]
    exact reports_refuse node .sequence

theorem reports_groups (node : Node) : Reports (groups node) (ofGroups node) := by
  unfold groups
  split
  · exact .mapM fun field _ => (reports_strings field.2).map _
  · exact .refused _
  next no_table no_moment =>
    have mismatched : ofGroups node = [mismatch node .map] := by
      rw [ofGroups]
      · exact no_table
      · exact no_moment
    rw [mismatched]
    exact reports_refuse node .map

mutual

theorem reports_readable : ∀ node, Reports (readable node) (ofNumbers node)
  | .scalar mark (.integer value) => by
    rw [readable, ofNumbers]
    cases integerFound value with
    | error refusal => exact .refused refusal
    | ok found => cases found <;> first | exact .refused _ | exact .accepted ()
  | .scalar mark (.float value) => by
    rw [readable, ofNumbers]
    cases floatFound value with
    | error refusal => exact .refused refusal
    | ok found => exact .accepted ()
  | .scalar mark (.string text) => by
    simp only [readable, ofNumbers]
    exact .accepted ()
  | .scalar mark (.boolean value) => by
    simp only [readable, ofNumbers]
    exact .accepted ()
  | .scalar mark (.moment value) => by
    simp only [readable, ofNumbers]
    exact .accepted ()
  | .array mark items => by
    rw [readable, ofNumbers]
    exact reports_readableItems items
  | .table mark fields => by
    rw [readable, ofNumbers]
    exact reports_readableFields fields

theorem reports_readableItems : ∀ items, Reports (readableItems items) (ofItemNumbers items)
  | [] => by
    rw [readableItems, ofItemNumbers]
    exact .accepted ()
  | node :: rest => by
    rw [readableItems, ofItemNumbers]
    exact (reports_readable node).andThen fun _ _ => reports_readableItems rest

theorem reports_readableFields : ∀ fields, Reports (readableFields fields) (ofFieldNumbers fields)
  | [] => by
    rw [readableFields, ofFieldNumbers]
    exact .accepted ()
  | (_, node) :: rest => by
    rw [readableFields, ofFieldNumbers]
    exact (reports_readable node).andThen fun _ _ => reports_readableFields rest

end

theorem text?_isSome (node : Node) : (text? node).isSome = isText node := by
  unfold text?
  split
  · rfl
  next other => rw [isText_of_other other]; rfl

theorem mapM_text?_isSome (items : List Node) : (items.mapM text?).isSome = items.all isText := by
  induction items with
  | nil => rfl
  | cons node rest ih =>
    rw [List.mapM_cons, List.all_cons, ← ih, ← text?_isSome]
    cases text? node with
    | none => rfl
    | some text => cases rest.mapM text? <;> rfl

theorem selection?_isSome (node : Node) : (selection? node).isSome = isSelection node := by
  unfold selection?
  split
  · rfl
  next items => rw [Option.isSome_map, mapM_text?_isSome, isSelection]
  next no_text no_array =>
    have neither : isSelection node = isText node := by
      rw [isSelection]
      exact no_array
    rw [neither, isText_of_other no_text]
    rfl

theorem reports_selection (node : Node) : Reports (selection node) (ofSelection node) := by
  refine (reports_readable node).andThen fun _ _ => ?_
  have same := selection?_isSome node
  cases chosen : selection? node with
  | none =>
    rw [chosen] at same
    rw [← same]
    exact .refused _
  | some selection =>
    rw [chosen] at same
    rw [← same]
    exact .accepted _

theorem reports_entryField (draft : EntryDraft) (field : Key × Node) :
    Reports (draft.read field) (ofEntryField field) := by
  obtain ⟨⟨name, mark⟩, node⟩ := field
  unfold EntryDraft.read
  split
  next same => cases same; exact (reports_string node).map _
  next same => cases same; exact (reports_strings node).map _
  next same => cases same; exact (reports_selection node).map _
  next same => cases same; exact (reports_strings node).map _
  next no_name no_needs no_targets no_exclude =>
    have unknown : name ∉ entryKeys := by
      simpa [entryKeys] using ⟨no_name, no_needs, no_targets, no_exclude⟩
    rw [ofEntryField, if_neg unknown]
    exact .refused _

theorem exists_of_map {x : Accepting α} {f : α → β} {made : β} (ended : (do return f (← x)) = .ok made) :
    ∃ value, x = .ok value ∧ made = f value := by
  cases x with
  | error refusal => cases ended
  | ok value => exact ⟨value, rfl, (Except.ok.inj ended).symm⟩

theorem name_of_read {draft after : EntryDraft} {field : Key × Node} (made : draft.read field = .ok after) :
    after.name.isSome = (draft.name.isSome || decide (field.1.name = "name")) := by
  obtain ⟨⟨name, mark⟩, node⟩ := field
  unfold EntryDraft.read at made
  split at made
  case h_5 => cases made
  all_goals
    rename_i same
    cases same
    obtain ⟨_, _, rfl⟩ := exists_of_map made
    simp

theorem name_of_foldlM {fields : List (Key × Node)} {draft after : EntryDraft}
    (made : fields.foldlM EntryDraft.read draft = .ok after) :
    after.name.isSome = (draft.name.isSome || fields.any fun field => field.1.name = "name") := by
  induction fields generalizing draft with
  | nil =>
    cases made
    simp
  | cons field rest ih =>
    rw [List.foldlM_cons] at made
    cases first : draft.read field with
    | error refusal => rw [first] at made; cases made
    | ok next =>
      rw [first] at made
      rw [ih made, name_of_read first, List.any_cons, Bool.or_assoc]

theorem reports_finish {mark : Mark} {fields : List (Key × Node)} {draft : EntryDraft}
    (made : fields.foldlM EntryDraft.read {} = .ok draft) :
    Reports (draft.finish mark) (ofMissing mark fields) := by
  have named := name_of_foldlM made
  rw [Option.isSome_none, Bool.false_or] at named
  unfold EntryDraft.finish ofMissing
  rw [← named]
  cases draft.name with
  | none => exact .refused _
  | some name => exact .accepted _

theorem reports_items (mark : Mark) (items : List Node) : Reports (entryOfItems mark items) (ofItems mark items) := by
  unfold entryOfItems
  split
  next => exact .refused _
  next name =>
    have violations : ofItems mark [name] = ofString name := List.append_nil _
    rw [violations]
    exact (reports_string name).map _
  next name needs =>
    have violations : ofItems mark [name, needs] = ofString name ++ (ofStrings needs ++ []) := rfl
    rw [violations, List.append_nil]
    exact (reports_string name).andThen fun _ _ => (reports_strings needs).map _
  next name needs targets =>
    have violations : ofItems mark [name, needs, targets] =
      ofString name ++ (ofStrings needs ++ (ofSelection targets ++ [])) := rfl
    rw [violations, List.append_nil]
    exact (reports_string name).andThen fun _ _ => (reports_strings needs).andThen fun _ _ =>
      (reports_selection targets).map _
  next name needs targets exclude rest =>
    have violations : ofItems mark (name :: needs :: targets :: exclude :: rest) =
      ofString name ++ (ofStrings needs ++ (ofSelection targets ++ (ofStrings exclude ++ []))) := rfl
    rw [violations, List.append_nil]
    exact (reports_string name).andThen fun _ _ => (reports_strings needs).andThen fun _ _ =>
      (reports_selection targets).andThen fun _ _ => (reports_strings exclude).map _

theorem reports_entry (node : Node) : Reports (entry node) (ofEntry node) := by
  unfold entry
  split
  next mark fields =>
    exact (Reports.foldlM (fun field _ draft => reports_entryField draft field) {}).andThen fun draft made =>
      reports_finish made
  next mark items => exact reports_items mark items
  next mark _ => exact .refused _
  next no_table no_array no_moment =>
    have mismatched : ofEntry node = [mismatch node .entry] := by
      rw [ofEntry]
      · exact no_table
      · exact no_array
      · exact no_moment
    rw [mismatched]
    exact reports_refuse node .entry

theorem reports_entries (node : Node) : Reports (entries node) (ofEntries node) := by
  unfold entries
  split
  · exact .mapM fun item _ => reports_entry item
  next other =>
    have mismatched : ofEntries node = [mismatch node .sequence] := by
      rw [ofEntries]
      exact other
    rw [mismatched]
    exact reports_refuse node .sequence

theorem reports_field (b : Blueprint) (field : Key × Node) : Reports (read b field) (ofField field) := by
  obtain ⟨⟨name, mark⟩, node⟩ := field
  unfold read
  split
  next same => cases same; exact (reports_strings node).map _
  next same => cases same; exact (reports_strings node).map _
  next same => cases same; exact (reports_groups node).map _
  next same => cases same; exact (reports_entries node).map _
  next no_assumed no_needs no_groups no_entries =>
    have unknown : name ∉ documentKeys := by
      simpa [documentKeys] using ⟨no_assumed, no_needs, no_groups, no_entries⟩
    rw [ofField, if_neg unknown]
    exact .refused _

theorem reports_document (fields : List (Key × Node)) : Reports (ofFields fields) (ofDocument fields) :=
  .foldlM (fun field _ b => reports_field b field) {}

end BuildPlan.Blueprint.Schema
