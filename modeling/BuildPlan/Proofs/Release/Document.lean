import BuildPlan.Proofs.Blueprint.RoundTrip
import BuildPlan.Release

namespace BuildPlan.Toml.Writing

variable {all more : List Line} {texts rest : List (List Char)}

-- Rows that say one line after the other, with blank rows and comments between them.
inductive Rows : List Line → List (List Char) → Prop where
  | nil : Rows [] []
  | told {line cs more rest} : line.Written cs → Rows more rest → Rows (line :: more) (cs :: rest)
  | aside {cs more rest} : Remark cs → Rows more rest → Rows more (cs :: rest)

theorem Lines.under {remark cs : List Char} (remarks : Remark remark) (written : Lines all cs) :
    Lines all (remark ++ '\n' :: cs) := by
  cases written with
  | nil between remarks' => simpa using Lines.nil (.line remarks .feed between) remarks'
  | last between written remarks' => simpa using Lines.last (.line remarks .feed between) written remarks'
  | cons between written remarks' ends others =>
    simpa using Lines.cons (.line remarks .feed between) written remarks' ends others

namespace Rows

theorem append (first : Rows all texts) (second : Rows more rest) : Rows (all ++ more) (texts ++ rest) := by
  induction first with
  | nil => exact second
  | told written _ ih => exact .told written ih
  | aside remarks _ ih => exact .aside remarks ih

theorem lines_written (rows : Rows all texts) : Lines all (lines texts) := by
  induction rows with
  | nil => exact .nil (.blanks blanks_nil) (.blanks blanks_nil)
  | told written _ ih =>
    simpa [lines] using Lines.cons (.blanks blanks_nil) written (.blanks blanks_nil) .feed ih
  | aside remarks _ ih => simpa [lines] using ih.under remarks

end Rows

-- The bytes of a text are at hand, while its characters have to be read from them first.
def bytes (text : String) : List UInt8 := text.toByteArray.data.toList

def isTextByte (b : UInt8) : Bool := 0x20 ≤ b && b < 0x7f

def isPlain (text : String) : Bool := (bytes text).all fun b => isTextByte b && b != 0x22 && b != 0x5c

theorem bytes_eq (text : String) : bytes text = text.toList.flatMap String.utf8EncodeChar := by
  rw [bytes, ← String.utf8Encode_toList, List.utf8Encode, List.toList_data_toByteArray]

theorem isTextByte_iff {n : Nat} (small : n < 256) : isTextByte (UInt8.ofNat n) = true ↔ 0x20 ≤ n ∧ n < 0x7f := by
  simp [isTextByte, UInt8.le_iff_toNat_le, UInt8.lt_iff_toNat_lt, Nat.mod_eq_of_lt small]

-- The last byte of a character that takes several is none that text is made of.
theorem utf8EncodeChar_of_text {c : Char} (texts : ∀ b ∈ String.utf8EncodeChar c, isTextByte b = true) :
    isText c = true ∧ String.utf8EncodeChar c = [UInt8.ofNat c.toNat] := by
  by_cases ascii : c.toNat ≤ 0x7f
  · have alone : String.utf8EncodeChar c = [UInt8.ofNat c.toNat] := if_pos ascii
    obtain ⟨least, most⟩ := (isTextByte_iff (by omega)).mp (texts _ (alone ▸ List.mem_singleton_self _))
    have text : isText c = true := by
      simp only [isText, Bool.or_eq_true, Bool.and_eq_true, decide_eq_true_eq, bne_iff_ne]
      omega
    exact ⟨text, alone⟩
  · have last : UInt8.ofNat (c.toNat % 64 + 128) ∈ String.utf8EncodeChar c := by
      have several : ¬c.val.toNat ≤ 127 := ascii
      simp only [String.utf8EncodeChar, if_neg several]
      split
      · exact List.mem_cons_of_mem _ List.mem_cons_self
      · split <;> simp
    obtain ⟨_, most⟩ := (isTextByte_iff (by omega)).mp (texts _ last)
    omega

theorem isText_of_bytes {text : String} {c : Char} (texts : (bytes text).all isTextByte = true)
    (present : c ∈ text.toList) : isText c = true ∧ UInt8.ofNat c.toNat ∈ bytes text := by
  have encoded : ∀ b ∈ String.utf8EncodeChar c, b ∈ bytes text := fun b member =>
    bytes_eq text ▸ List.mem_flatMap.mpr ⟨c, present, member⟩
  obtain ⟨isText, alone⟩ := utf8EncodeChar_of_text fun b member => List.all_eq_true.mp texts b (encoded b member)
  exact ⟨isText, encoded _ (alone ▸ List.mem_singleton_self _)⟩

theorem spells_self {text : List Char} (plain : ∀ c ∈ text, isText c = true ∧ c ≠ '"' ∧ c ≠ '\\') :
    Spells text text := by
  induction text with
  | nil => exact .nil
  | cons c rest ih =>
    obtain ⟨first, others⟩ := List.forall_mem_cons.mp plain
    exact .cons (.plain first.1 first.2.1 first.2.2) (ih others)

theorem spells_of_isPlain {text : String} (plain : isPlain text = true) : Spells text.toList text.toList := by
  simp only [isPlain, List.all_eq_true, Bool.and_eq_true, bne_iff_ne] at plain
  refine spells_self fun c present => ?_
  have texts : (bytes text).all isTextByte = true := List.all_eq_true.mpr fun b member => (plain b member).1.1
  obtain ⟨isText, member⟩ := isText_of_bytes texts present
  refine ⟨isText, ?_, ?_⟩
  · rintro rfl
    exact (plain _ member).1.2 rfl
  · rintro rfl
    exact (plain _ member).2 rfl

-- With a comma behind the last of some things, others may follow on the next row.
theorem listed_row {form : ι → Form} {items others : List ι} {pieces : List (List Char)} {gap later : List Char}
    (written : List.Forall₂ form items pieces) (some : items ≠ []) (between : Gap gap)
    (further : Listed form others later) :
    Listed form (items ++ others) (gap ++ (commaSeparated pieces ++ ',' :: later)) := by
  induction written generalizing gap with
  | nil => exact absurd rfl some
  | cons first more ih =>
    cases more with
    | nil => simpa [commaSeparated] using Listed.cons between first (.blanks blanks_nil) further
    | cons =>
      simpa [commaSeparated] using
        Listed.cons between first (.blanks blanks_nil) (ih (List.cons_ne_nil _ _) (.blanks blanks_space))

end BuildPlan.Toml.Writing

namespace BuildPlan.Release

open Blueprint Toml.Writing

def inQuotes (text : String) : String := "\"" ++ text ++ "\""

def commas : List String → String
  | [] => ""
  | [piece] => piece
  | piece :: rest => piece ++ ", " ++ commas rest

def onOneRow (texts : List String) : String := "[" ++ commas (texts.map inQuotes) ++ "]"

def onTwoRows (first second : List String) : String :=
  "[\n    " ++ commas (first.map inQuotes) ++ ",\n    " ++ commas (second.map inQuotes) ++ ",\n]"

-- Long lists take two rows.
def listing (texts : List String) : String :=
  if texts.length < 8 then onOneRow texts
  else onTwoRows (texts.take ((texts.length + 1) / 2)) (texts.drop ((texts.length + 1) / 2))

def equation (key value : String) : String := key ++ " = " ++ value

def selected : Selection → String
  | .group name => inQuotes name
  | .list targets => listing targets

def unlessEmpty (texts : List String) (row : α) : List α := if texts = [] then [] else [row]

def entryRows (entry : Entry) : List String :=
  "" :: "[[task]]" :: equation "name" (inQuotes entry.name) ::
    (unlessEmpty entry.needs (equation "depends" (listing entry.needs)) ++
      entry.targets.toList.map (equation "targets" <| selected ·) ++
      unlessEmpty entry.exclude (equation "exclude" (listing entry.exclude)))

def groupRow (group : Name × List Name) : String := equation group.1 (onOneRow group.2)

def comment (text : String) : String := "#" ++ text

def sectionRows (part : String × List Entry) : List String := "" :: comment part.1 :: part.2.flatMap entryRows

def introduction : List String :=
  [ " Cross-compilation release pipeline.",
    "",
    " Libraries are built once per target platform. A library task `zlib` with",
    " `targets = \"all\"` expands to `zlib-native`, `zlib-lingnu32`, ... and each",
    " expanded task depends on the matching cross compiler (`target_depends`)",
    " plus its own dependencies suffixed with the same target." ]

def sections : List (String × List Entry) :=
  [ (" Arbitrary precision arithmetic, needed by gcc itself", arithmetic), (" Compression", compression),
    (" Images", images), (" Terminal", terminal), (" Fonts", fonts), (" X11", windowSystem),
    (" OpenGL", graphics), (" Toolchains", toolchains), (" The compiler itself", compiler) ]

theorem rows_eq : rows = introduction.map comment ++
    ("" :: equation "assume_provided" (listing blueprint.assumed) ::
      equation "target_depends" (listing blueprint.targetNeeds) ::
      "" :: "[targets]" :: blueprint.groups.map groupRow ++ sections.flatMap sectionRows) := by decide +kernel

-- The fields of an entry that say something new, in the order of the document.
def told (entry : Entry) : List Field :=
  ⟨"name", Quotes entry.name, False⟩ ::
    (unlessEmpty entry.needs ⟨"depends", Strings entry.needs, entry.needs = []⟩ ++
      entry.targets.toList.map (fun targets => ⟨"targets", targets.Written, False⟩) ++
      unlessEmpty entry.exclude ⟨"exclude", Strings entry.exclude, entry.exclude = []⟩)

def isPlainSelection : Selection → Bool
  | .group name => isPlain name
  | .list targets => targets.all isPlain

def isPlainEntry (entry : Entry) : Bool :=
  isPlain entry.name && entry.needs.all isPlain && entry.targets.all isPlainSelection && entry.exclude.all isPlain

theorem plain_blueprint : blueprint.entries.all isPlainEntry = true ∧
    (∀ group ∈ blueprint.groups, group.2.all isPlain = true) ∧
    ∀ text ∈ introduction ++ sections.map Prod.fst, (bytes text).all isTextByte = true := by decide

section

variable {piece key value : String} {texts first second : List String} {entry : Entry}

theorem toList_inQuotes (text : String) : (inQuotes text).toList = '"' :: (text.toList ++ ['"']) := by
  simp [inQuotes, String.toList_append]

theorem toList_commas (pieces : List String) :
    (commas pieces).toList = commaSeparated (pieces.map String.toList) := by
  induction pieces with
  | nil => rfl
  | cons piece rest ih =>
    cases rest with
    | nil => rfl
    | cons => simpa [commas, commaSeparated, String.toList_append] using ih

theorem toList_equation (key value : String) :
    (equation key value).toList = assignment key.toList value.toList := by
  simp [equation, assignment, String.toList_append]

theorem quotes_inQuotes (plain : isPlain piece = true) : Quotes piece (inQuotes piece).toList := by
  rw [toList_inQuotes]
  exact .mk (spells_of_isPlain plain)

theorem quotes_each (plain : texts.all isPlain = true) :
    List.Forall₂ Quotes texts ((texts.map inQuotes).map String.toList) := by
  rw [List.map_map]
  refine List.forall₂_map_right_iff.mpr (List.forall₂_same.mpr fun text present => ?_)
  exact quotes_inQuotes (List.all_eq_true.mp plain text present)

theorem strings_onOneRow (plain : texts.all isPlain = true) : Strings texts (onOneRow texts).toList := by
  have written : Listed Quotes texts (commas (texts.map inQuotes)).toList := by
    rw [toList_commas]
    exact listed_commaSeparated (quotes_each plain) blanks_nil
  simpa [Strings, onOneRow, String.toList_append] using ArrayOf.mk written

theorem gap_indented : Gap ['\n', ' ', ' ', ' ', ' '] :=
  .line (.blanks blanks_nil) .feed (.blanks (by simp [Blanks, Toml.isBlank]))

theorem strings_onTwoRows (plain : (first ++ second).all isPlain = true) (some : first ≠ []) (more : second ≠ []) :
    Strings (first ++ second) (onTwoRows first second).toList := by
  rw [List.all_append, Bool.and_eq_true] at plain
  have upper := quotes_each plain.1
  have lower := quotes_each plain.2
  have closing : Listed Quotes [] ['\n'] := .nil (.line (.blanks blanks_nil) .feed (.blanks blanks_nil))
  have written := listed_row upper some gap_indented (listed_row lower more gap_indented closing)
  rw [List.append_nil] at written
  simpa [Strings, onTwoRows, String.toList_append, toList_commas] using ArrayOf.mk written

theorem strings_listing (plain : texts.all isPlain = true) : Strings texts (listing texts).toList := by
  unfold listing
  split
  · exact strings_onOneRow plain
  · rename_i long
    generalize half : (texts.length + 1) / 2 = n
    have halves := List.take_append_drop n texts
    have upper : texts.take n ≠ [] := by
      rw [ne_eq, List.take_eq_nil_iff]
      rintro (none | rfl)
      · omega
      · exact long (by decide)
    have lower : texts.drop n ≠ [] := by
      rw [ne_eq, List.drop_eq_nil_iff]
      omega
    have written := strings_onTwoRows (halves.symm ▸ plain) upper lower
    rwa [halves] at written

theorem written_equation {form : Form} {isDefault : Prop} (bare : key ≠ "" ∧ key.toList.all Toml.isBareKeyChar = true)
    (written : form value.toList) : Line.Written (.field ⟨key, form, isDefault⟩) (equation key value).toList := by
  rw [toList_equation]
  exact written_bare bare written

theorem selected_written {targets : Selection} (plain : isPlainSelection targets = true) :
    targets.Written (selected targets).toList := by
  cases targets with
  | group name => exact quotes_inQuotes plain
  | list targets => exact strings_listing plain

theorem kept_unlessEmpty {f : Field} {fields kept : List Field} (isDefault : texts = [] → f.isDefault)
    (keeps : Kept fields kept) : Kept (f :: fields) (unlessEmpty texts f ++ kept) := by
  unfold unlessEmpty
  split
  · exact .drop (isDefault ‹_›) keeps
  · exact .keep keeps

theorem rows_unlessEmpty {f : Field} {row : String} (written : Line.Written (.field f) row.toList) :
    Rows ((unlessEmpty texts f).map .field) ((unlessEmpty texts row).map String.toList) := by
  unfold unlessEmpty
  split
  · exact .nil
  · exact .told written .nil

theorem told_chosen (entry : Entry) : Chosen entry.fields (told entry) := by
  refine ⟨_, .keep (kept_unlessEmpty id (kept_unlessEmpty id (kept_all _))), .cons _ ?_⟩
  rw [List.append_assoc]
  exact List.perm_append_comm.append_left _

theorem entry_rows (plain : isPlainEntry entry = true) :
    Rows (Block.lines ⟨true, "task", told entry⟩) ((entryRows entry).map String.toList) := by
  simp only [isPlainEntry, Bool.and_eq_true] at plain
  obtain ⟨⟨⟨name, needs⟩, targets⟩, exclude⟩ := plain
  have header : Line.Written (.element "task") "[[task]]".toList :=
    .element blanks_nil (keyName_bare (by decide)) blanks_nil
  have chosen : Rows (entry.targets.toList.map fun targets => .field ⟨"targets", targets.Written, False⟩)
      ((entry.targets.toList.map (equation "targets" <| selected ·)).map String.toList) := by
    cases known : entry.targets with
    | none => exact .nil
    | some selection =>
      rw [known, Option.all_some] at targets
      exact .told (written_equation (by decide) (selected_written targets)) .nil
  refine .aside (.blanks blanks_nil) (.told header (.told (written_equation (by decide) (quotes_inQuotes name)) ?_))
  simp only [List.map_append, List.map_map, Function.comp_def]
  simp only [List.map_map, Function.comp_def] at chosen
  exact ((rows_unlessEmpty (written_equation (by decide) (strings_listing needs))).append chosen).append
    (rows_unlessEmpty (written_equation (by decide) (strings_listing exclude)))

theorem entries_rows {entries : List Entry} (plain : entries.all isPlainEntry = true) :
    Rows ((entries.map fun entry => ⟨true, "task", told entry⟩).flatMap Block.lines)
      ((entries.flatMap entryRows).map String.toList) := by
  induction entries with
  | nil => exact .nil
  | cons entry rest ih =>
    rw [List.all_cons, Bool.and_eq_true] at plain
    rw [List.flatMap_cons, List.map_append]
    exact (entry_rows plain.1).append (ih plain.2)

theorem remark_comment {text : String} (texts : (bytes text).all isTextByte = true) :
    Remark (comment text).toList := by
  rw [comment, String.toList_append]
  exact .comment blanks_nil fun c present => (isText_of_bytes texts present).1

theorem comment_rows {comments : List String} (texts : ∀ text ∈ comments, (bytes text).all isTextByte = true) :
    Rows [] ((comments.map comment).map String.toList) := by
  induction comments with
  | nil => exact .nil
  | cons text rest ih =>
    obtain ⟨first, others⟩ := List.forall_mem_cons.mp texts
    exact .aside (remark_comment first) (ih others)

theorem sections_rows {parts : List (String × List Entry)}
    (titles : ∀ text ∈ parts.map Prod.fst, (bytes text).all isTextByte = true)
    (plain : (parts.flatMap Prod.snd).all isPlainEntry = true) :
    Rows (((parts.flatMap Prod.snd).map fun entry => ⟨true, "task", told entry⟩).flatMap Block.lines)
      ((parts.flatMap sectionRows).map String.toList) := by
  induction parts with
  | nil => exact .nil
  | cons part rest ih =>
    obtain ⟨title, others⟩ := List.forall_mem_cons.mp titles
    rw [List.flatMap_cons, List.all_append, Bool.and_eq_true] at plain
    rw [List.flatMap_cons, List.flatMap_cons, List.map_append, List.map_append, List.flatMap_append]
    exact (Rows.aside (.blanks blanks_nil) (.aside (remark_comment title) (entries_rows plain.1))).append
      (ih others plain.2)

theorem group_rows {groups : List (Name × List Name)} (plain : ∀ group ∈ groups, group.2.all isPlain = true)
    (bare : ∀ group ∈ groups, group.1 ≠ "" ∧ group.1.toList.all Toml.isBareKeyChar = true) :
    Rows ((groups.map groupField).map .field) ((groups.map groupRow).map String.toList) := by
  induction groups with
  | nil => exact .nil
  | cons group rest ih =>
    obtain ⟨first, others⟩ := List.forall_mem_cons.mp plain
    obtain ⟨key, keys⟩ := List.forall_mem_cons.mp bare
    exact .told (written_equation key (strings_onOneRow first)) (ih others keys)

theorem head_rows : Rows (blueprint.headFields.map .field ++
      Block.lines ⟨false, "targets", blueprint.groups.map groupField⟩)
    (("" :: equation "assume_provided" (listing blueprint.assumed) ::
      equation "target_depends" (listing blueprint.targetNeeds) ::
      "" :: "[targets]" :: blueprint.groups.map groupRow).map String.toList) := by
  have header : Line.Written (.table "targets") "[targets]".toList :=
    .table blanks_nil (keyName_bare (by decide)) blanks_nil
  exact .aside (.blanks blanks_nil) <|
    .told (written_equation (by decide) (strings_listing (by decide))) <|
    .told (written_equation (by decide) (strings_listing (by decide))) <|
    .aside (.blanks blanks_nil) <| .told header (group_rows plain_blueprint.2.1 (by decide))

theorem toList_text : text.toList = lines (rows.map String.toList) := by
  rw [text, String.toList_join, List.flatMap_map, lines, List.flatMap_map]
  simp only [String.toList_append]
  rfl

theorem text_written : blueprint.Writes text.toList := by
  have blocks : List.Forall₂ EntryBlock blueprint.entries
      (blueprint.entries.map fun entry => ⟨true, "task", told entry⟩) :=
    List.forall₂_map_right_iff.mpr (List.forall₂_same.mpr fun entry _ => ⟨told_chosen entry⟩)
  have entries : EntryPart blueprint.entries []
      ([] ++ blueprint.entries.map fun entry => ⟨true, "task", told entry⟩) := .blocks blocks
  obtain ⟨plain, _, comments⟩ := plain_blueprint
  obtain ⟨first, titles⟩ := List.forall_mem_append.mp comments
  have listed : sections.flatMap Prod.snd = blueprint.entries := rfl
  have below := sections_rows titles (listed ▸ plain)
  rw [listed] at below
  have written := (comment_rows first).append (head_rows.append below)
  refine .mk (.block .rfl) entries (chosen_all _) ?_
  rw [toList_text, rows_eq]
  simpa only [Document, List.map_append, List.append_nil, List.nil_append, List.flatMap_append, List.flatMap_singleton,
    List.append_assoc] using written.lines_written

-- So parsing the built-in document cannot fail, and it gives just what the program works with.
theorem ofText_text (origin : String) : ofText text origin = .ok blueprint :=
  ofText_of_writes text_written ⟨.rfl, by decide⟩ origin

end

end BuildPlan.Release
