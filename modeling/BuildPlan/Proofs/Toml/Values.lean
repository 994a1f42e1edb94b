import Mathlib.Data.String.Basic
import BuildPlan.Proofs.Toml.Strings

namespace BuildPlan.Toml

def Ordered (fields : List (Key × α)) : Prop := fields.Pairwise fun one other => one.1.name < other.1.name

structure Holds (means : String → α → Prop) (names : List String) (fields : List (Key × α)) : Prop where
  ordered : Ordered fields
  each : ∀ field ∈ fields, means field.1.name field.2
  names : ∀ name, name ∈ names ↔ ∃ field ∈ fields, field.1.name = name

variable {key : Key} {node : Node} {item : Item} {fields : Fields} {names : List String}
  {change : Option (Key × Item) → Option (Key × Item)} {new : Key × Item}

theorem holds_nil {means : String → α → Prop} : Holds means [] ([] : List (Key × α)) :=
  ⟨.nil, by simp, by simp⟩

theorem Holds.congr {means : String → α → Prop} {names others : List String} {fields : List (Key × α)}
    (holds : Holds means names fields) (same : ∀ name, name ∈ others ↔ name ∈ names) :
    Holds means others fields :=
  ⟨holds.ordered, holds.each, fun name => (same name).trans (holds.names name)⟩

theorem Holds.imp {means weaker : String → α → Prop} {names : List String} {fields : List (Key × α)}
    (holds : Holds means names fields) (follows : ∀ name ∈ names, ∀ x, means name x → weaker name x) :
    Holds weaker names fields :=
  ⟨holds.ordered, fun field present =>
    follows _ ((holds.names _).mpr ⟨field, present, rfl⟩) _ (holds.each field present), holds.names⟩

theorem Holds.not_mem {means : String → α → Prop} {fields : List (Key × α)} {name : String}
    (holds : Holds means names fields) (absent : ∀ field ∈ fields, field.1.name ≠ name) : name ∉ names := by
  intro present
  obtain ⟨field, stands, named⟩ := (holds.names name).mp present
  exact absent field stands named

theorem fieldNodes_eq (fields : Fields) : fieldNodes fields = fields.map fun f => (f.1, f.2.toNode) := by
  induction fields with
  | nil => rfl
  | cons field rest ih => rw [fieldNodes, ih, List.map_cons]

theorem Holds.nodes {means : String → Node → Prop}
    (holds : Holds (fun name item => means name item.toNode) names fields) :
    Holds means names (fieldNodes fields) := by
  rw [fieldNodes_eq]
  refine ⟨holds.ordered.map _ fun _ _ less => less, ?_, ?_⟩
  · rintro _ present
    obtain ⟨field, stands, rfl⟩ := List.mem_map.mp present
    exact holds.each field stands
  · simpa using holds.names

namespace Fields

theorem alter_ordered (ordered : Ordered fields)
    (changed : change (fields.find? (·.1.name = key.name)) = some new) (named : new.1.name = key.name) :
    ∃ after, fields.alter key change = some after ∧ Ordered after ∧
      ∀ field, field ∈ after ↔ field = new ∨ field ∈ fields ∧ field.1.name ≠ key.name := by
  induction fields with
  | nil => exact ⟨[new], by simpa [alter] using changed, List.pairwise_singleton _ _, by simp⟩
  | cons field rest ih =>
    obtain ⟨first, later⟩ := List.pairwise_cons.mp ordered
    rw [alter]
    split
    next less =>
      have others : ∀ other ∈ field :: rest, key.name < other.1.name := by
        rintro other (_ | ⟨_, present⟩)
        · exact less
        · exact less.trans (first other present)
      have absent : (field :: rest).find? (·.1.name = key.name) = none := by
        simpa using fun other present => (others other present).ne'
      rw [absent] at changed
      refine ⟨new :: field :: rest, by simp [changed], ordered.cons (named ▸ others), fun other => ?_⟩
      rw [List.mem_cons, and_iff_left_of_imp fun present => (others other present).ne']
    next not_less =>
      split
      next same =>
        have found : (field :: rest).find? (·.1.name = key.name) = some field := by simp [same]
        rw [found] at changed
        refine ⟨new :: rest, by simp [changed], List.pairwise_cons.mpr ⟨?_, later⟩, fun other => ?_⟩
        · simpa [named, same] using first
        · have : ∀ other ∈ rest, other.1.name ≠ key.name := fun other present =>
            same ▸ (first other present).ne'
          simp only [List.mem_cons]
          grind
      next differs =>
        have skipped : (field :: rest).find? (·.1.name = key.name) = rest.find? (·.1.name = key.name) := by
          simp [Ne.symm differs]
        obtain ⟨after, made, sorted, members⟩ := ih later (skipped ▸ changed)
        refine ⟨field :: after, by simp [made], List.pairwise_cons.mpr ⟨fun other present => ?_, sorted⟩,
          fun other => ?_⟩
        · rcases (members other).mp present with rfl | ⟨present, -⟩
          · exact named ▸ lt_of_le_of_ne (not_lt.mp not_less) (Ne.symm differs)
          · exact first other present
        · simp only [List.mem_cons, members]
          grind

end Fields

variable {means : String → Item → Prop}

theorem Holds.alter {now : String → Item → Prop} (holds : Holds means names fields)
    (changed : change (fields.find? (·.1.name = key.name)) = some new) (named : new.1.name = key.name)
    (meant : now key.name new.2) (kept : ∀ name ≠ key.name, ∀ item, means name item → now name item) :
    ∃ after, fields.alter key change = some after ∧ Holds now (key.name :: names) after := by
  obtain ⟨after, altered, ordered, members⟩ := Fields.alter_ordered holds.ordered changed named
  refine ⟨after, altered, ordered, fun field present => ?_, fun name => ?_⟩
  · rcases (members field).mp present with rfl | ⟨present, other⟩
    · exact named ▸ meant
    · exact kept _ other _ (holds.each field present)
  · simp only [List.mem_cons, holds.names, members]
    grind

theorem Holds.add {now : String → Item → Prop} (holds : Holds means names fields) (fresh : key.name ∉ names)
    (made : change none = some (key, item)) (meant : now key.name item)
    (kept : ∀ name ≠ key.name, ∀ item, means name item → now name item) :
    ∃ after, fields.alter key change = some after ∧ Holds now (key.name :: names) after := by
  have absent : fields.find? (·.1.name = key.name) = none := by
    simpa using fun k item present same => fresh ((holds.names _).mpr ⟨_, present, same⟩)
  exact holds.alter (by rw [absent, made]) rfl meant kept

theorem Holds.update {now : String → Item → Prop} (holds : Holds means names fields)
    (known : key.name ∈ names)
    (changed : ∀ field : Key × Item, field.1.name = key.name → means key.name field.2 →
      ∃ item, change (some field) = some (field.1, item) ∧ now key.name item)
    (kept : ∀ name ≠ key.name, ∀ item, means name item → now name item) :
    ∃ after, fields.alter key change = some after ∧ Holds now names after := by
  obtain ⟨field, present, named⟩ := (holds.names _).mp known
  have found : (fields.find? (·.1.name = key.name)).isSome :=
    List.find?_isSome.mpr ⟨field, present, by simpa using named⟩
  obtain ⟨field, found⟩ := Option.isSome_iff_exists.mp found
  have named : field.1.name = key.name := by simpa using List.find?_some found
  have meant := holds.each field (List.mem_of_find?_eq_some found)
  obtain ⟨item, made, now_meant⟩ := changed field named (named ▸ meant)
  have changed : change (fields.find? (·.1.name = key.name)) = some (field.1, item) := by rw [found, made]
  obtain ⟨after, altered, holds⟩ := holds.alter changed named now_meant kept
  exact ⟨after, altered, holds.congr fun name => by simp; rintro rfl; exact known⟩

theorem Holds.put (holds : Holds means names fields) (fresh : key.name ∉ names)
    (meant : means key.name (.value node)) :
    ∃ after, fields.put key node = some after ∧ Holds means (key.name :: names) after :=
  holds.add fresh rfl meant fun _ _ _ already => already

def Assigns (means : String → Node → Prop) (name : String) (a : Assignment) : Prop :=
  ∃ mark node, a = ⟨[], ⟨name, mark⟩, node⟩ ∧ means name node

theorem Holds.assign {means : String → Node → Prop} {a : Assignment} {name : String}
    (holds : Holds (fun name item => means name item.toNode) names fields) (fresh : name ∉ names)
    (assigns : Assigns means name a) : ∃ after, a.addTo fields = some after ∧
      Holds (fun name item => means name item.toNode) (name :: names) after := by
  obtain ⟨mark, node, rfl, meant⟩ := assigns
  exact holds.put fresh meant

theorem Holds.assignments {means : String → Node → Prop} {new : List String}
    {assignments : List Assignment}
    (holds : Holds (fun name item => means name item.toNode) names fields)
    (assigns : List.Forall₂ (Assigns means) new assignments) (fresh : (new ++ names).Nodup) :
    ∃ after, assignments.foldlM Assignment.addTo fields = some after ∧
      Holds (fun name item => means name item.toNode) (new ++ names) after := by
  induction assigns generalizing fields names with
  | nil => exact ⟨fields, rfl, holds⟩
  | @cons name a more assignments first _ ih =>
    have moved : (name :: more ++ names).Perm (more ++ name :: names) := List.perm_middle.symm
    have absent : name ∉ names := fun present => by simp_all
    obtain ⟨next, added, holds⟩ := holds.assign absent first
    obtain ⟨after, run, holds⟩ := ih holds (moved.nodup_iff.mp fresh)
    exact ⟨after, by rw [List.foldlM_cons, added, Option.bind_eq_bind, Option.bind_some, run],
      holds.congr fun other => moved.mem_iff⟩

open Writing

variable {limit bound depth height : Nat} {cs : List Char}

-- What stands in brackets begins with something that is not skipped and that closes no bracket.
def Opening (cs : List Char) : Prop := ∃ c more, cs = c :: more ∧ Solid c ∧ c ∉ [']', '}']

-- A reader takes all of a text of some form, and no more, for a thing with some meaning.
def ReadAs (limit : Nat) (read : List Char → Option (α × List Char)) (form : Form) (means : α → Prop) :
    Prop :=
  ∀ cs, form cs → Opening cs ∧ ∀ rest, NoQuote rest → (cs ++ rest).length < limit →
    ∃ one, read (cs ++ rest) = some (one, rest) ∧ means one

-- A form of values with some meaning, with arrays and tables nested no deeper than `height`.
def Reads (height : Nat) (form : Form) (means : Node → Prop) : Prop :=
  ∀ depth, height ≤ depth → ∀ limit, ReadAs limit (readNode limit depth) form means

section list

variable {read : List Char → Option (α × List Char)} {close d : Char} {gap after rest : List Char} {one : α}

theorem readList_end (solid : Solid close) (between : Gap gap) :
    readList close read (limit + 1) (gap ++ close :: rest) = some ([], rest) := by
  simp [readList, skipLines_gap between, skipLines_solid solid]

theorem readList_item (closes : close = ']' ∨ close = '}') (between : Gap gap) (opening : Opening cs)
    (behind : Gap after) (solid : Solid d)
    (taken : read (cs ++ (after ++ d :: rest)) = some (one, after ++ d :: rest)) :
    readList close read (limit + 1) (gap ++ (cs ++ (after ++ d :: rest))) =
      if d = close then some ([one], rest)
      else if d = ',' then do let (more, rest) ← readList close read limit rest; some (one :: more, rest)
      else none := by
  obtain ⟨c, others, rfl, first, no_close⟩ := opening
  have differs : c ≠ close := by rcases closes with rfl | rfl <;> rintro rfl <;> simp at no_close
  rw [List.cons_append] at taken ⊢
  simp [readList, skipLines_gap between, skipLines_solid first, differs, taken, skipLines_gap behind,
    skipLines_solid solid]

theorem readList_of_listed {form : ι → Form} {means : ι → α → Prop} {items : List ι}
    (closes : close = ']' ∨ close = '}') (reads : ∀ item ∈ items, ReadAs bound read (form item) (means item))
    (listed : Listed form items cs) (room : (cs ++ close :: rest).length < limit) (within : limit ≤ bound) :
    ∃ all, readList close read limit (cs ++ close :: rest) = some (all, rest) ∧
      List.Forall₂ means items all := by
  have solid : Solid close := by rcases closes with rfl | rfl <;> decide
  have free : NoQuote (close :: rest) := by rcases closes with rfl | rfl <;> simp [NoQuote]
  induction listed generalizing limit with
  | nil between =>
    obtain ⟨limit, rfl⟩ := Nat.exists_eq_add_one_of_ne_zero (Nat.ne_zero_of_lt room)
    exact ⟨[], readList_end solid between, .nil⟩
  | @last gap item cs after between written behind =>
    obtain ⟨limit, rfl⟩ := Nat.exists_eq_add_one_of_ne_zero (Nat.ne_zero_of_lt room)
    obtain ⟨opening, taken⟩ := reads item List.mem_cons_self cs written
    simp only [List.append_assoc, List.length_append] at room ⊢
    obtain ⟨one, taken, meant⟩ := taken (after ++ close :: rest) (noQuote_gap behind free) (by
      simp only [List.length_append]; omega)
    exact ⟨[one], by rw [readList_item closes between opening behind solid taken, if_pos rfl],
      .cons meant .nil⟩
  | @cons gap item cs after items text between written behind _ ih =>
    obtain ⟨limit, rfl⟩ := Nat.exists_eq_add_one_of_ne_zero (Nat.ne_zero_of_lt room)
    obtain ⟨opening, taken⟩ := reads item List.mem_cons_self cs written
    simp only [List.append_assoc, List.cons_append, List.length_append, List.length_cons] at room ⊢
    obtain ⟨one, taken, meant⟩ := taken (after ++ ',' :: (text ++ close :: rest))
      (noQuote_gap behind (by simp [NoQuote])) (by
        simp only [List.length_append, List.length_cons]; omega)
    have inner : (text ++ close :: rest).length < limit := by
      simp only [List.length_append, List.length_cons]; omega
    obtain ⟨more, listed, meant_more⟩ :=
      ih (fun item present => reads item (List.mem_cons_of_mem _ present)) inner (by omega)
    have comma : ',' ≠ close := by rcases closes with rfl | rfl <;> decide
    refine ⟨one :: more, ?_, .cons meant meant_more⟩
    rw [readList_item closes between opening behind (by decide) taken, if_neg comma, if_pos rfl, listed]
    rfl

end list

def IsText (text : String) (node : Node) : Prop := ∃ mark, node = .scalar mark (.string text)

def IsArray (means : ι → Node → Prop) (items : List ι) (node : Node) : Prop :=
  ∃ mark nodes, node = .array mark nodes ∧ List.Forall₂ means items nodes

def IsTable (means : String → Node → Prop) (names : List String) (node : Node) : Prop :=
  ∃ mark fields, node = .table mark fields ∧ Holds means names fields

variable {form : Form} {means : Node → Prop}

theorem Reads.deeper (reads : Reads height form means) {more : Nat} (within : height ≤ more) :
    Reads more form means := fun depth deep => reads depth (within.trans deep)

theorem Reads.imp (reads : Reads height form means) {weaker : Node → Prop}
    (follows : ∀ node, means node → weaker node) : Reads height form weaker := by
  intro depth deep limit cs written
  obtain ⟨opening, taken⟩ := reads depth deep limit cs written
  refine ⟨opening, fun rest free room => ?_⟩
  obtain ⟨node, taken, meant⟩ := taken rest free room
  exact ⟨node, taken, follows node meant⟩

theorem readNode_quote {text : String} {rest : List Char}
    (taken : Quoted.read limit ('"' :: cs) = some (text.toList, rest)) :
    readNode limit depth ('"' :: cs) = some (.scalar ('"' :: cs) (.string text), rest) := by
  have scalar : readScalar limit ('"' :: cs) = some (.string text, rest) := by
    simp only [readScalar, taken, Option.map_some, String.ofList_toList]
  cases depth <;>
    exact congrArg (Option.map fun read => (Node.scalar ('"' :: cs) read.1, read.2)) scalar

theorem reads_quotes (text : String) : Reads 0 (Quotes text) (IsText text) := by
  intro depth _ limit cs quotes
  refine ⟨?_, fun rest free room => ?_⟩
  · obtain ⟨_⟩ := quotes
    exact ⟨'"', _, rfl, by decide, by decide⟩
  · have taken := read_of_quotes quotes free room.le
    obtain ⟨_⟩ := quotes
    exact ⟨_, readNode_quote taken, _, rfl⟩

theorem reads_array {form : ι → Form} {means : ι → Node → Prop} {items : List ι}
    (reads : ∀ item ∈ items, Reads height (form item) (means item)) :
    Reads (height + 1) (ArrayOf form items) (IsArray means items) := by
  intro depth deep limit cs written
  obtain ⟨listed⟩ := written
  refine ⟨⟨'[', _, rfl, by decide, by decide⟩, fun rest free room => ?_⟩
  obtain ⟨depth, rfl⟩ := Nat.exists_eq_add_one_of_ne_zero (Nat.ne_zero_of_lt deep)
  simp only [List.cons_append, List.append_assoc, List.nil_append, List.length_cons] at room ⊢
  obtain ⟨nodes, taken, meant⟩ := readList_of_listed (.inl rfl)
    (fun item present => reads item present depth (Nat.le_of_succ_le_succ deep) limit) listed
    (Nat.lt_of_succ_lt room) le_rfl
  exact ⟨_, by rw [readNode, taken]; rfl, _, nodes, rfl, meant⟩

theorem readAs_assigned {f : Field} {means : Node → Prop}
    (reads : ReadAs limit (readNode limit depth) f.value means) :
    ReadAs limit (readAssignment limit (readNode limit depth)) (Assigned f)
      (Assigns (fun _ => means) f.key) := by
  intro cs written
  obtain @⟨key, before, after, value, named, leading, trailing, written⟩ := written
  obtain ⟨⟨d, others, rfl, solid, -⟩, taken⟩ := reads value written
  refine ⟨?_, fun rest free room => ?_⟩
  · obtain ⟨c, more, rfl, solid, no_close⟩ := keyName_head named
    exact ⟨c, _, rfl, solid, by simp_all⟩
  · simp only [List.append_assoc, List.cons_append] at room taken ⊢
    have inner : (key ++ (before ++ '=' :: (after ++ d :: (others ++ rest)))).length < limit := by
      simpa using room
    obtain ⟨mark, keyed⟩ := readKey_of_keyName named blanks_nil leading (.inl rfl) inner
    obtain ⟨node, taken, meant⟩ := taken rest free (by
      simp only [List.length_append, List.length_cons] at room ⊢; omega)
    refine ⟨⟨[], ⟨f.key, mark⟩, node⟩, ?_, mark, node, rfl, meant⟩
    rw [List.nil_append] at keyed
    simp only [readAssignment, keyed, Option.bind_eq_bind, Option.bind_some, skipBlanks_append trailing,
      skipBlanks_solid solid.1, taken]

theorem reads_table {fields : List Field} {means : String → Node → Prop}
    (fresh : (fields.map Field.key).Nodup)
    (reads : ∀ f ∈ fields, Reads height f.value (means f.key)) :
    Reads (height + 1) (InlineTable fields) (IsTable means (fields.map Field.key)) := by
  intro depth deep limit cs written
  obtain @⟨cs, listed⟩ := written
  refine ⟨⟨'{', _, rfl, by decide, by decide⟩, fun rest free room => ?_⟩
  obtain ⟨depth, rfl⟩ := Nat.exists_eq_add_one_of_ne_zero (Nat.ne_zero_of_lt deep)
  simp only [List.cons_append, List.append_assoc, List.nil_append, List.length_cons] at room ⊢
  obtain ⟨assignments, taken, assigns⟩ := readList_of_listed (.inr rfl)
    (fun f present => readAs_assigned (reads f present depth (Nat.le_of_succ_le_succ deep) limit)) listed
    (Nat.lt_of_succ_lt room) le_rfl
  have assigns : List.Forall₂ (Assigns means) (fields.map Field.key) assignments :=
    List.forall₂_map_left_iff.mpr assigns
  obtain ⟨inner, added, holds⟩ := holds_nil.assignments assigns (by simpa using fresh)
  have holds : Holds _ (fields.map Field.key) inner := holds.congr (by simp)
  refine ⟨.table ('{' :: (cs ++ '}' :: rest)) (fieldNodes inner), ?_, _, _, rfl, holds.nodes⟩
  simp only [readNode, taken, added, Option.bind_eq_bind, Option.bind_some]

end BuildPlan.Toml
