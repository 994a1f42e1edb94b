import Mathlib.Data.List.Forall2
import BuildPlan.Toml.Document

namespace BuildPlan.Toml.Writing

-- The texts by which something can be written.
abbrev Form := List Char → Prop

def Blanks (cs : List Char) : Prop := ∀ c ∈ cs, isBlank c = true

theorem blanks_nil : Blanks [] := by simp [Blanks]

inductive LineEnd : List Char → Prop where
  | feed : LineEnd ['\n']
  | returnFeed : LineEnd ['\r', '\n']

inductive Remark : List Char → Prop where
  | blanks {cs} : Blanks cs → Remark cs
  | comment {cs text} : Blanks cs → (∀ c ∈ text, isText c = true) → Remark (cs ++ '#' :: text)

-- What may stand between the things in brackets, and between lines that say something.
inductive Gap : List Char → Prop where
  | blanks {cs} : Blanks cs → Gap cs
  | line {remark ending cs} : Remark remark → LineEnd ending → Gap cs → Gap (remark ++ (ending ++ cs))

def shortEscapes : List (Char × Char) :=
  [('b', '\x08'), ('t', '\t'), ('n', '\n'), ('f', '\x0c'), ('r', '\r'), ('e', '\x1b'), ('"', '"'),
    ('\\', '\\')]

-- Letters in front of the code point of any character, and how many digits it takes.
def codeEscapes : List (Char × Nat) := [('x', 2), ('u', 4), ('U', 8)]

def IsHexDigit (d : Nat) (c : Char) : Prop := d < 16 ∧ (c = d.digitChar ∨ c = d.digitChar.toUpper)

inductive Spelled (c : Char) : List Char → Prop where
  | plain : isText c = true → c ≠ '"' → c ≠ '\\' → Spelled c [c]
  | short {letter} : (letter, c) ∈ shortEscapes → Spelled c ['\\', letter]
  | code {letter digits cs} : (letter, digits.length) ∈ codeEscapes →
      digits.foldl (16 * · + ·) 0 = c.toNat → List.Forall₂ IsHexDigit digits cs →
      Spelled c ('\\' :: letter :: cs)

inductive Spells : List Char → List Char → Prop where
  | nil : Spells [] []
  | cons {c text cs more} : Spelled c cs → Spells text more → Spells (c :: text) (cs ++ more)

-- A string on one line, whatever it holds.
inductive Quotes (text : String) : List Char → Prop where
  | mk {cs} : Spells text.toList cs → Quotes text ('"' :: (cs ++ ['"']))

-- A key may do without quotes if it is nothing but letters, digits, hyphens and underscores.
inductive KeyName (name : String) : List Char → Prop where
  | bare : name ≠ "" → (∀ c ∈ name.toList, isBareKeyChar c = true) → KeyName name name.toList
  | quoted {cs} : Quotes name cs → KeyName name cs

-- Things between commas, on any number of lines; the last may have a comma, too.
inductive Listed (form : ι → Form) : List ι → List Char → Prop where
  | nil {gap} : Gap gap → Listed form [] gap
  | last {gap one cs after} : Gap gap → form one cs → Gap after → Listed form [one] (gap ++ (cs ++ after))
  | cons {gap one cs after more rest} : Gap gap → form one cs → Gap after → Listed form more rest →
      Listed form (one :: more) (gap ++ (cs ++ (after ++ ',' :: rest)))

inductive ArrayOf (form : ι → Form) (items : List ι) : List Char → Prop where
  | mk {cs} : Listed form items cs → ArrayOf form items ('[' :: (cs ++ [']']))

def Strings (texts : List String) : Form := ArrayOf Quotes texts

structure Field where
  key : String
  value : Form
  -- Leaving the field out says the same.
  isDefault : Prop

inductive Assigned (f : Field) : List Char → Prop where
  | mk {key before after value} : KeyName f.key key → Blanks before → Blanks after → f.value value →
      Assigned f (key ++ (before ++ '=' :: (after ++ value)))

inductive InlineTable (fields : List Field) : List Char → Prop where
  | mk {cs} : Listed Assigned fields cs → InlineTable fields ('{' :: (cs ++ ['}']))

inductive Kept : List Field → List Field → Prop where
  | nil : Kept [] []
  | keep {f fields kept} : Kept fields kept → Kept (f :: fields) (f :: kept)
  | drop {f fields kept} : f.isDefault → Kept fields kept → Kept (f :: fields) kept

-- Some of the fields, in any order; only defaults are left out.
def Chosen (fields chosen : List Field) : Prop := ∃ kept, Kept fields kept ∧ chosen.Perm kept

section

variable {fields kept chosen : List Field} {f : Field}

theorem Kept.sublist (keeps : Kept fields kept) : kept.Sublist fields := by
  induction keeps with
  | nil => exact .slnil
  | keep _ ih => exact ih.cons_cons _
  | drop _ _ ih => exact ih.cons _

theorem Kept.isDefault (keeps : Kept fields kept) (present : f ∈ fields)
    (absent : f.key ∉ kept.map Field.key) : f.isDefault := by
  induction keeps with
  | nil => cases present
  | keep _ ih =>
    simp only [List.map_cons, List.mem_cons, not_or] at absent
    rcases List.mem_cons.mp present with rfl | present
    · exact absurd rfl absent.1
    · exact ih present absent.2
  | drop isDefault _ ih =>
    rcases List.mem_cons.mp present with rfl | present
    · exact isDefault
    · exact ih present absent

theorem Chosen.mem (chose : Chosen fields chosen) (present : f ∈ chosen) : f ∈ fields := by
  obtain ⟨kept, keeps, order⟩ := chose
  exact keeps.sublist.subset (order.subset present)

theorem Chosen.mem_keys (chose : Chosen fields chosen) {name : String}
    (present : name ∈ chosen.map Field.key) : name ∈ fields.map Field.key := by
  obtain ⟨f, stands, rfl⟩ := List.mem_map.mp present
  exact List.mem_map_of_mem (chose.mem stands)

theorem Chosen.nodup (chose : Chosen fields chosen) (distinct : (fields.map Field.key).Nodup) :
    (chosen.map Field.key).Nodup := by
  obtain ⟨kept, keeps, order⟩ := chose
  exact (order.map Field.key).nodup_iff.mpr (distinct.sublist (keeps.sublist.map Field.key))

theorem Chosen.isDefault (chose : Chosen fields chosen) (present : f ∈ fields)
    (absent : f.key ∉ chosen.map Field.key) : f.isDefault := by
  obtain ⟨kept, keeps, order⟩ := chose
  exact keeps.isDefault present fun kept => absent ((order.map Field.key).mem_iff.mpr kept)

end

inductive Line where
  | field (f : Field)
  | table (name : String)
  | element (name : String)

inductive Line.Written : Line → List Char → Prop where
  | field {f cs} : Assigned f cs → Written (.field f) cs
  | table {name before key after} : Blanks before → KeyName name key → Blanks after →
      Written (.table name) ('[' :: (before ++ (key ++ (after ++ [']']))))
  | element {name before key after} : Blanks before → KeyName name key → Blanks after →
      Written (.element name) ('[' :: '[' :: (before ++ (key ++ (after ++ [']', ']']))))

inductive Lines : List Line → List Char → Prop where
  | nil {gap remark} : Gap gap → Remark remark → Lines [] (gap ++ remark)
  | last {gap line cs remark} : Gap gap → line.Written cs → Remark remark →
      Lines [line] (gap ++ (cs ++ remark))
  | cons {gap line cs remark ending more rest} : Gap gap → line.Written cs → Remark remark →
      LineEnd ending → Lines more rest →
      Lines (line :: more) (gap ++ (cs ++ (remark ++ (ending ++ rest))))

structure Block where
  element : Bool
  name : String
  fields : List Field

def Block.header (b : Block) : Line := if b.element then .element b.name else .table b.name

def Block.lines (b : Block) : List Line := b.header :: b.fields.map .field

def Document (head : List Field) (blocks : List Block) : Form :=
  Lines (head.map .field ++ blocks.flatMap Block.lines)

def hexDigits (c : Char) : List Nat := [0, 0, c.toNat / 16, c.toNat % 16]

def escaped (c : Char) : List Char :=
  match shortEscapes.find? (·.2 = c) with
  | some (letter, _) => ['\\', letter]
  | none => if isText c then [c] else '\\' :: 'u' :: (hexDigits c).map Nat.digitChar

def quoted (text : String) : List Char := '"' :: (text.toList.flatMap escaped ++ ['"'])

def commaSeparated : List (List Char) → List Char
  | [] => []
  | [piece] => piece
  | piece :: rest => piece ++ ',' :: ' ' :: commaSeparated rest

def strings (texts : List String) : List Char := '[' :: (commaSeparated (texts.map quoted) ++ [']'])

def assignment (key value : List Char) : List Char := key ++ ' ' :: '=' :: ' ' :: value

def lines (texts : List (List Char)) : List Char := texts.flatMap (· ++ ['\n'])

theorem blanks_space : Blanks [' '] := by simp [Blanks, isBlank]

theorem toNat_lt_of_not_isText {c : Char} (control : isText c = false) : c.toNat < 128 := by
  simp only [isText, Bool.or_eq_false_iff, Bool.and_eq_false_iff, decide_eq_false_iff_not,
    bne_eq_false_iff_eq] at control
  omega

theorem spelled_escaped (c : Char) : Spelled c (escaped c) := by
  rw [escaped]
  split
  next letter d found =>
    obtain rfl : d = c := by simpa using List.find?_some found
    exact .short (List.mem_of_find?_eq_some found)
  next missing =>
    split
    next plain =>
      have absent (letter : Char) : (letter, c) ∉ shortEscapes := fun known => by
        simpa using List.find?_eq_none.mp missing _ known
      refine .plain plain ?_ ?_ <;> rintro rfl
      · exact absent '"' (by decide)
      · exact absent '\\' (by decide)
    next control =>
      have small := toNat_lt_of_not_isText (by simpa using control)
      have known : ('u', (hexDigits c).length) ∈ codeEscapes := by simp [hexDigits, codeEscapes]
      refine .code known ?_ ?_
      · simp only [hexDigits, List.foldl_cons, List.foldl_nil]
        omega
      · have digit (d : Nat) (less : d < 16) : IsHexDigit d d.digitChar := ⟨less, .inl rfl⟩
        exact .cons (digit _ (by omega)) (.cons (digit _ (by omega)) (.cons (digit _ (by omega))
          (.cons (digit _ (by omega)) .nil)))

theorem spells_escaped (text : List Char) : Spells text (text.flatMap escaped) := by
  induction text with
  | nil => exact .nil
  | cons c rest ih => exact .cons (spelled_escaped c) ih

theorem quotes_quoted (text : String) : Quotes text (quoted text) := .mk (spells_escaped _)

theorem listed_commaSeparated {form : ι → Form} {items : List ι} {pieces : List (List Char)}
    (written : List.Forall₂ form items pieces) {gap : List Char} (between : Blanks gap) :
    Listed form items (gap ++ commaSeparated pieces) := by
  induction written generalizing gap with
  | nil => simpa [commaSeparated] using Listed.nil (Gap.blanks between)
  | cons first more ih =>
    cases more with
    | nil => simpa [commaSeparated] using Listed.last (.blanks between) first (.blanks blanks_nil)
    | cons =>
      simpa [commaSeparated] using Listed.cons (.blanks between) first (.blanks blanks_nil) (ih blanks_space)

theorem strings_strings (texts : List String) : Strings texts (strings texts) := by
  have each : List.Forall₂ Quotes texts (texts.map quoted) :=
    List.forall₂_map_right_iff.mpr (List.forall₂_same.mpr fun text _ => quotes_quoted text)
  exact .mk (listed_commaSeparated each blanks_nil)

theorem keyName_bare {name : String} (bare : name ≠ "" ∧ name.toList.all isBareKeyChar = true) :
    KeyName name name.toList := .bare bare.1 (List.all_eq_true.mp bare.2)

theorem assigned_assignment {f : Field} {key value : List Char} (named : KeyName f.key key)
    (written : f.value value) : Assigned f (assignment key value) :=
  .mk named blanks_space blanks_space written

theorem lines_lines {all : List Line} {texts : List (List Char)}
    (written : List.Forall₂ Line.Written all texts) : Lines all (lines texts) := by
  induction written with
  | nil => exact .nil (.blanks blanks_nil) (.blanks blanks_nil)
  | cons first _ ih =>
    simpa [lines] using Lines.cons (.blanks blanks_nil) first (.blanks blanks_nil) .feed ih

end BuildPlan.Toml.Writing
