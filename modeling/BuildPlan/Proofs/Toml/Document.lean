import BuildPlan.Proofs.Toml.Values

namespace BuildPlan.Toml

open Writing

variable {limit : Nat} {form : Form} {f : Field} {fields : List Field} {line : Line} {lines : List Line}
  {block : Block} {blocks : List Block} {cs gap after rest : List Char} {statement : Statement}
  {statements : List Statement}

-- Whatever the values of a form mean, this one does.
def Told (form : Form) (node : Node) : Prop := ∀ means, Reads depthLimit form means → means node

def Readable (form : Form) : Prop := ∃ means, Reads depthLimit form means

theorem readAs_told (readable : Readable form) :
    ReadAs limit (readNode limit depthLimit) form (Told form) := by
  intro cs written
  obtain ⟨means, reads⟩ := readable
  obtain ⟨opening, taken⟩ := reads depthLimit le_rfl limit cs written
  refine ⟨opening, fun rest free room => ?_⟩
  obtain ⟨node, taken, -⟩ := taken rest free room
  refine ⟨node, taken, fun means reads => ?_⟩
  obtain ⟨same, again, meant⟩ := (reads depthLimit le_rfl limit cs written).2 rest free room
  rw [taken] at again
  cases again
  exact meant

def Fills (f : Field) (a : Assignment) : Prop := Assigns (fun _ => Told f.value) f.key a

inductive States : Line → Statement → Prop where
  | field {f a} : Fills f a → States (.field f) (.assignment a)
  | table {name keyMark mark} : States (.table name) (.table mark [] ⟨name, keyMark⟩)
  | element {name keyMark mark} : States (.element name) (.element mark [] ⟨name, keyMark⟩)

def ReadableFields (fields : List Field) : Prop := ∀ f ∈ fields, Readable f.value

def ReadableLines (lines : List Line) : Prop := ∀ f, .field f ∈ lines → Readable f.value

theorem readStatement_plain {c : Char} (plain : c ≠ '[') : readStatement limit (c :: cs) =
    (readAssignment limit (readNode limit depthLimit) (c :: cs)).map
      fun (a, rest) => (.assignment a, rest) := by
  rw [readStatement.eq_def]
  split <;> simp_all

theorem readStatement_table {tail : List Char} (single : ∀ more, tail ≠ '[' :: more) {key : Key}
    (keyed : readKey limit tail = some ([], key, ']' :: rest)) :
    readStatement limit ('[' :: tail) = some (.table ('[' :: tail) [] key, rest) := by
  rw [readStatement.eq_def]
  split <;> simp_all

theorem keyName_single {name : String} {before key : List Char} (leading : Blanks before)
    (named : KeyName name key) (more : List Char) : before ++ (key ++ rest) ≠ '[' :: more := by
  intro same
  cases before with
  | nil =>
    obtain ⟨c, others, rfl, -, plain⟩ := keyName_head named
    have bracket : c = '[' := (List.cons.inj same).1
    simp [bracket] at plain
  | cons c others =>
    have bracket : c = '[' := (List.cons.inj same).1
    have blank := leading c List.mem_cons_self
    rw [bracket] at blank
    cases blank

theorem readAs_line (readable : ∀ f, line = .field f → Readable f.value) :
    ReadAs limit (readStatement limit) line.Written (States line) := by
  intro cs written
  cases written with
  | @field f cs written =>
    obtain ⟨opening, taken⟩ := readAs_assigned (readAs_told (readable f rfl)) cs written
    refine ⟨opening, fun rest free room => ?_⟩
    obtain ⟨a, taken, fills⟩ := taken rest free room
    refine ⟨.assignment a, ?_, .field fills⟩
    obtain ⟨named, -, -, -⟩ := written
    obtain ⟨c, more, rfl, -, plain⟩ := keyName_head named
    simp only [List.cons_append] at taken ⊢
    rw [readStatement_plain (by simp_all), taken, Option.map_some]
  | @table name before key after leading named trailing =>
    refine ⟨⟨'[', _, rfl, by decide, by decide⟩, fun rest free room => ?_⟩
    simp only [List.append_assoc, List.cons_append, List.nil_append, List.length_cons, List.length_append]
      at room ⊢
    have inner : (key ++ (after ++ ']' :: rest)).length < limit := by simp; omega
    obtain ⟨mark, keyed⟩ := readKey_of_keyName named leading trailing (.inr rfl) inner
    exact ⟨_, readStatement_table (keyName_single leading named) keyed, .table⟩
  | @element name before key after leading named trailing =>
    refine ⟨⟨'[', _, rfl, by decide, by decide⟩, fun rest free room => ?_⟩
    simp only [List.append_assoc, List.cons_append, List.nil_append, List.length_cons, List.length_append]
      at room ⊢
    have inner : (key ++ (after ++ ']' :: ']' :: rest)).length < limit := by simp; omega
    obtain ⟨mark, keyed⟩ := readKey_of_keyName named leading trailing (.inr rfl) inner
    exact ⟨_, by simp only [readStatement, keyed]; rfl, .element⟩

theorem ReadableLines.first (readable : ReadableLines (line :: lines)) (limit : Nat) :
    ReadAs limit (readStatement limit) line.Written (States line) :=
  readAs_line fun f same => readable f (by simp [same])

theorem readStatements_end (between : skipLines false cs = some []) :
    readStatements (limit + 1) cs = some [] := by simp [readStatements, between]

theorem readStatements_line (between : Gap gap) (opening : Opening cs)
    (taken : readStatement (limit + 1) (cs ++ after) = some (statement, after))
    (ended : endOfLine after = some rest) : readStatements (limit + 1) (gap ++ (cs ++ after)) =
      (do let more ← readStatements limit rest; some (statement :: more)) := by
  obtain ⟨c, more, rfl, solid, -⟩ := opening
  rw [List.cons_append] at taken ⊢
  simp [readStatements, skipLines_gap between, skipLines_solid solid, taken, ended]

theorem readStatements_of_lines (written : Lines lines cs) (readable : ReadableLines lines)
    (room : cs.length < limit) :
    ∃ statements, readStatements limit cs = some statements ∧ List.Forall₂ States lines statements := by
  induction written generalizing limit with
  | nil between remarks =>
    obtain ⟨limit, rfl⟩ := Nat.exists_eq_add_one_of_ne_zero (Nat.ne_zero_of_lt room)
    exact ⟨[], readStatements_end (by rw [skipLines_gap between, skipLines_last remarks]), .nil⟩
  | @last gap line cs remark between written remarks =>
    obtain ⟨limit, rfl⟩ := Nat.exists_eq_add_one_of_ne_zero (Nat.ne_zero_of_lt room)
    have free : NoQuote remark := by
      simpa using noQuote_remark remarks (show NoQuote [] by simp [NoQuote])
    simp only [List.length_append] at room
    obtain ⟨opening, taken⟩ := readable.first (limit + 1) cs written
    obtain ⟨statement, taken, states⟩ := taken remark free (by rw [List.length_append]; omega)
    have present : 0 < cs.length := by
      obtain ⟨c, more, rfl, -⟩ := opening
      exact Nat.succ_pos _
    obtain ⟨limit, rfl⟩ : ∃ less, limit = less + 1 := Nat.exists_eq_add_one_of_ne_zero (by omega)
    exact ⟨[statement], by
      rw [readStatements_line between opening taken (endOfLine_last remarks), readStatements_end rfl]; rfl,
      .cons states .nil⟩
  | @cons gap line cs remark ending more rest between written remarks ends _ ih =>
    obtain ⟨limit, rfl⟩ := Nat.exists_eq_add_one_of_ne_zero (Nat.ne_zero_of_lt room)
    simp only [List.length_append] at room
    obtain ⟨opening, taken⟩ := readable.first (limit + 1) cs written
    obtain ⟨statement, taken, states⟩ := taken (remark ++ (ending ++ rest))
      (noQuote_remark remarks (noQuote_lineEnd ends)) (by simp only [List.length_append]; omega)
    have inner : rest.length < limit := by
      have : 0 < ending.length := by cases ends <;> decide
      omega
    obtain ⟨statements, others, matched⟩ :=
      ih (fun f present => readable f (List.mem_cons_of_mem _ present)) inner
    refine ⟨statement :: statements, ?_, .cons states matched⟩
    rw [readStatements_line between opening taken (endOfLine_remark remarks ends rest), others]
    rfl

theorem sections_fields (fields : List Field)
    (matched : List.Forall₂ States (fields.map .field ++ lines) statements) :
    ∃ body more, List.Forall₂ Fills fields body ∧ List.Forall₂ States lines more ∧
      sections statements = (body ++ (sections more).1, (sections more).2) := by
  induction fields generalizing statements with
  | nil => exact ⟨[], statements, .nil, matched, rfl⟩
  | cons f rest ih =>
    rw [List.map_cons, List.cons_append] at matched
    cases matched with
    | cons states matched =>
      obtain ⟨body, more, filled, left, parts⟩ := ih matched
      cases states with
      | field fills => exact ⟨_ :: body, more, .cons fills filled, left, by rw [sections, parts]; rfl⟩

inductive Stands : Block → Section → Prop where
  | mk {element mark name keyMark fields body} : List.Forall₂ Fills fields body →
      Stands ⟨element, name, fields⟩ ⟨element, mark, [], ⟨name, keyMark⟩, body⟩

theorem sections_blocks (matched : List.Forall₂ States (blocks.flatMap Block.lines) statements) :
    ∃ parts, sections statements = ([], parts) ∧ List.Forall₂ Stands blocks parts := by
  induction blocks generalizing statements with
  | nil =>
    cases matched
    exact ⟨[], rfl, .nil⟩
  | cons block rest ih =>
    rw [List.flatMap_cons, Block.lines, List.cons_append] at matched
    cases matched with
    | @cons _ header _ others states matched =>
      obtain ⟨body, more, filled, left, split⟩ := sections_fields block.fields matched
      obtain ⟨parts, later, stand⟩ := ih left
      simp only [later, List.append_nil] at split
      obtain ⟨element, name, fields⟩ := block
      cases element with
      | false =>
        cases (show States (.table name) header from states) with
        | @table _ keyMark mark =>
          exact ⟨⟨false, mark, [], ⟨name, keyMark⟩, body⟩ :: parts, by rw [sections, split],
            .cons (.mk filled) stand⟩
      | true =>
        cases (show States (.element name) header from states) with
        | @element _ keyMark mark =>
          exact ⟨⟨true, mark, [], ⟨name, keyMark⟩, body⟩ :: parts, by rw [sections, split],
            .cons (.mk filled) stand⟩

theorem readStatements_mark (limit : Nat) (rest : List Char) :
    readStatements limit ('\ufeff' :: rest) = none := by
  have solid : Solid '\ufeff' := by decide
  have no_key : isBareKeyChar '\ufeff' = false := by decide
  cases limit with
  | zero => rfl
  | succ limit =>
    simp [readStatements, skipLines_solid solid, readStatement_plain, readAssignment, readKey,
      skipBlanks_solid solid.1, readKeyPart, no_key]

theorem dropByteOrderMark_of_readStatements (taken : readStatements (cs.length + 1) cs = some statements) :
    dropByteOrderMark cs = cs := by
  rw [dropByteOrderMark.eq_def]
  split
  · rw [readStatements_mark] at taken
    cases taken
  · rfl

theorem read_of_document {text : String} {head : List Field} (written : Document head blocks text.toList)
    (readable : ReadableFields head) (readable_blocks : ∀ block ∈ blocks, ReadableFields block.fields) :
    ∃ body parts, List.Forall₂ Fills head body ∧ List.Forall₂ Stands blocks parts ∧
      read text = (do
        let fields ← body.foldlM Assignment.addTo []
        let fields ← parts.foldlM Section.addTo fields
        some (fieldNodes fields)) := by
  have readable_lines : ReadableLines (head.map .field ++ blocks.flatMap Block.lines) := by
    intro f present
    simp only [List.mem_append, List.mem_map, List.mem_flatMap] at present
    rcases present with ⟨_, present, ⟨⟩⟩ | ⟨block, known, present⟩
    · exact readable f present
    · rw [Block.lines, Block.header] at present
      exact readable_blocks block known f (by split at present <;> simpa using present)
  obtain ⟨statements, taken, matched⟩ :=
    readStatements_of_lines written readable_lines (Nat.lt_succ_self _)
  obtain ⟨body, more, filled, left, split⟩ := sections_fields head matched
  obtain ⟨parts, later, stand⟩ := sections_blocks left
  rw [later, List.append_nil] at split
  refine ⟨body, parts, filled, stand, ?_⟩
  simp only [read, dropByteOrderMark_of_readStatements taken, taken, Option.bind_eq_bind, Option.bind_some,
    assemble, split, Option.bind_assoc]

section

variable {names : List String} {body : List Assignment} {inner table : Fields} {part : Section}

theorem assigns_of_fills {means : String → Node → Prop} (filled : List.Forall₂ Fills fields body)
    (reads : ∀ f ∈ fields, Reads depthLimit f.value (means f.key)) :
    List.Forall₂ (Assigns means) (fields.map Field.key) body := by
  induction filled with
  | nil => exact .nil
  | cons fills _ ih =>
    obtain ⟨mark, node, made, told⟩ := fills
    exact .cons ⟨mark, node, made, told _ (reads _ List.mem_cons_self)⟩
      (ih fun f present => reads f (List.mem_cons_of_mem _ present))

theorem holds_of_fills {means : String → Node → Prop} (filled : List.Forall₂ Fills fields body)
    (distinct : (fields.map Field.key).Nodup)
    (reads : ∀ f ∈ fields, Reads depthLimit f.value (means f.key)) :
    ∃ inner, body.foldlM Assignment.addTo [] = some inner ∧
      Holds (fun name item => means name item.toNode) (fields.map Field.key) inner := by
  obtain ⟨inner, added, holds⟩ :=
    holds_nil.assignments (assigns_of_fills filled reads) (by simpa using distinct)
  exact ⟨inner, added, holds.congr (by simp)⟩

variable {means : String → Item → Prop}

theorem Holds.header (holds : Holds means names table) (stands : Stands block part)
    (single : block.element = false) (fresh : block.name ∉ names)
    (made : part.body.foldlM Assignment.addTo [] = some inner)
    (meant : ∀ mark, means block.name (.table mark .header inner)) :
    ∃ after, part.addTo table = some after ∧ Holds means (block.name :: names) after := by
  obtain @⟨element, mark, name, keyMark, fields, body, filled⟩ := stands
  obtain rfl : element = false := single
  exact holds.add fresh (show (body.foldlM Assignment.addTo []).map _ = _ by rw [made]; rfl) (meant mark)
    fun _ _ _ already => already

end

def IsTables (means : ι → Node → Prop) (items : List ι) (item : Item) : Prop :=
  ∃ mark closed lastMark last, item = .tables mark closed lastMark last ∧
    List.Forall₂ means items (closed.reverse ++ [.table lastMark (fieldNodes last)])

-- What is said of all fields while the tables under one header are gathered.
def Gathers (name : String) (means : ι → Node → Prop) (items : List ι) (others : String → Node → Prop)
    (other : String) (item : Item) : Prop :=
  if other = name ∧ items ≠ [] then IsTables means items item else others other item.toNode

def Adds (name : String) (means : ι → Node → Prop) (item : ι) (part : Section) : Prop :=
  ∃ mark keyMark body inner, part = ⟨true, mark, [], ⟨name, keyMark⟩, body⟩ ∧
    body.foldlM Assignment.addTo [] = some inner ∧ means item (.table mark (fieldNodes inner))

section

variable {means : ι → Node → Prop} {others : String → Node → Prop} {item : ι} {items done : List ι}
  {name : String} {names : List String} {table : Fields} {part : Section} {parts : List Section}

theorem IsTables.isArray {tables : Item} (gathered : IsTables means items tables) :
    IsArray means items tables.toNode := by
  obtain ⟨mark, closed, lastMark, last, rfl, meant⟩ := gathered
  exact ⟨mark, _, by rw [Item.toNode], meant⟩

theorem Gathers.other {other : String} (differs : other ≠ name) {stands : Item}
    (gathers : Gathers name means done others other stands) (items : List ι) :
    Gathers name means items others other stands := by simpa [Gathers, differs] using gathers

theorem gathers_snoc {stands : Item} (tables : IsTables means (done ++ [item]) stands) :
    Gathers name means (done ++ [item]) others name stands := (if_pos (by simp)).mpr tables

theorem Holds.element (holds : Holds (Gathers name means done others) names table)
    (known : name ∈ names ↔ done ≠ []) (adds : Adds name means item part) :
    ∃ after, part.addTo table = some after ∧
      Holds (Gathers name means (done ++ [item]) others) (name :: names) after := by
  obtain ⟨mark, keyMark, body, inner, rfl, made, meant⟩ := adds
  have kept : ∀ other ≠ name, ∀ stands, Gathers name means done others other stands →
      Gathers name means (done ++ [item]) others other stands :=
    fun other differs stands gathers => gathers.other differs _
  change ∃ after, table.addElement mark ⟨name, keyMark⟩ (fun inner => body.foldlM Assignment.addTo inner) =
    some after ∧ _
  rw [Fields.addElement, made]
  by_cases first : done = []
  · subst first
    exact holds.add (fun present => known.mp present rfl) rfl
      (gathers_snoc ⟨mark, [], mark, inner, rfl, .cons meant .nil⟩) kept
  · have present : (⟨name, keyMark⟩ : Key).name ∈ names := known.mpr first
    refine (holds.update present ?_ kept).imp fun after => And.imp_right fun holds => holds.congr ?_
    · rintro ⟨k, _⟩ _ gathers
      obtain ⟨mark, closed, lastMark, last, rfl, before⟩ := (if_pos ⟨rfl, first⟩).mp gathers
      refine ⟨_, rfl, gathers_snoc ⟨_, _, _, _, rfl, ?_⟩⟩
      rw [List.reverse_cons]
      exact List.rel_append before (.cons meant .nil)
    · exact fun other =>
        ⟨fun stands => (List.mem_cons.mp stands).elim (· ▸ present) id, List.mem_cons_of_mem _⟩

theorem Holds.elements (holds : Holds (Gathers name means done others) names table)
    (known : items ≠ [] → (name ∈ names ↔ done ≠ [])) (adds : List.Forall₂ (Adds name means) items parts) :
    ∃ after names', parts.foldlM Section.addTo table = some after ∧
      Holds (Gathers name means (done ++ items) others) names' after ∧
      ∀ other, other ∈ names' ↔ other ∈ names ∨ other = name ∧ items ≠ [] := by
  induction adds generalizing table names done with
  | nil => exact ⟨table, names, rfl, by simpa using holds, by simp⟩
  | cons first _ ih =>
    obtain ⟨next, added, holds⟩ := holds.element (known (List.cons_ne_nil _ _)) first
    obtain ⟨after, names', run, holds, members⟩ := ih holds (by simp)
    refine ⟨after, names', ?_, by simpa using holds, fun other => ?_⟩
    · rw [List.foldlM_cons, added, Option.bind_eq_bind, Option.bind_some, run]
    · rw [members, List.mem_cons]
      grind

end

end BuildPlan.Toml
