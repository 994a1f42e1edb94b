import Mathlib.Data.List.TakeWhile
import BuildPlan.Toml.Writing

namespace BuildPlan.Toml

open Writing

variable {c : Char} {cs rest blanks text remark ending gap : List Char}

-- A character at which everything that skips stops.
def Solid (c : Char) : Prop := isBlank c = false ∧ c ≠ '\n' ∧ c ≠ '\r' ∧ c ≠ '#'

instance : DecidablePred Solid := fun _ => inferInstanceAs (Decidable (_ ∧ _))

-- What follows the quotes of an empty string tells it from the opening quotes of a longer form.
def NoQuote (cs : List Char) : Prop := cs.head? ≠ some '"'

theorem ne_of_isBlank (blank : isBlank c = true) : c ≠ '\n' ∧ c ≠ '\r' ∧ c ≠ '#' ∧ c ≠ '"' := by
  refine ⟨?_, ?_, ?_, ?_⟩ <;> rintro rfl <;> exact absurd blank (by decide)

theorem ne_of_isText (plain : isText c = true) : c ≠ '\n' ∧ c ≠ '\r' := by
  refine ⟨?_, ?_⟩ <;> rintro rfl <;> exact absurd plain (by decide)

theorem skipBlanks_append (blank : Blanks blanks) (rest : List Char) :
    skipBlanks (blanks ++ rest) = skipBlanks rest := List.dropWhile_append_of_pos blank

theorem skipBlanks_solid (solid : isBlank c = false) : skipBlanks (c :: rest) = c :: rest := by
  simp [skipBlanks, solid]

theorem skipLines_blank (blank : isBlank c = true) : skipLines false (c :: cs) = skipLines false cs := by
  obtain ⟨no_feed, no_return, -⟩ := ne_of_isBlank blank
  rw [skipLines.eq_def]
  split <;> simp_all

theorem skipLines_text (plain : isText c = true) : skipLines true (c :: cs) = skipLines true cs := by
  obtain ⟨no_feed, no_return⟩ := ne_of_isText plain
  rw [skipLines.eq_def]
  split <;> simp_all

theorem skipLines_solid (solid : Solid c) : skipLines false (c :: rest) = some (c :: rest) := by
  obtain ⟨no_blank, no_feed, no_return, no_hash⟩ := solid
  rw [skipLines.eq_def]
  split <;> simp_all

theorem skipLines_blanks (blank : Blanks blanks) (rest : List Char) :
    skipLines false (blanks ++ rest) = skipLines false rest := by
  induction blanks with
  | nil => rfl
  | cons c cs ih =>
    rw [List.cons_append, skipLines_blank (blank c List.mem_cons_self)]
    exact ih fun d present => blank d (List.mem_cons_of_mem _ present)

theorem skipLines_comment (plain : ∀ c ∈ text, isText c = true) (rest : List Char) :
    skipLines true (text ++ rest) = skipLines true rest := by
  induction text with
  | nil => rfl
  | cons c cs ih =>
    rw [List.cons_append, skipLines_text (plain c List.mem_cons_self)]
    exact ih fun d present => plain d (List.mem_cons_of_mem _ present)

theorem skipLines_lineEnd (ends : LineEnd ending) (inComment : Bool) (rest : List Char) :
    skipLines inComment (ending ++ rest) = skipLines false rest := by
  cases ends <;> cases inComment <;> rfl

theorem skipLines_remark (remarks : Remark remark) (ends : LineEnd ending) (rest : List Char) :
    skipLines false (remark ++ (ending ++ rest)) = skipLines false rest := by
  cases remarks with
  | blanks blank => rw [skipLines_blanks blank, skipLines_lineEnd ends]
  | comment blank plain =>
    rw [List.append_assoc, skipLines_blanks blank]
    exact (skipLines_comment plain _).trans (skipLines_lineEnd ends _ _)

theorem skipLines_last (remarks : Remark remark) : skipLines false remark = some [] := by
  cases remarks with
  | blanks blank =>
    rw [← List.append_nil remark, skipLines_blanks blank]
    rfl
  | @comment _ text blank plain =>
    rw [← List.append_nil text, skipLines_blanks blank]
    exact skipLines_comment plain []

theorem skipLines_gap (between : Gap gap) (rest : List Char) :
    skipLines false (gap ++ rest) = skipLines false rest := by
  induction between with
  | blanks blank => exact skipLines_blanks blank rest
  | line remarks ends _ ih => rw [List.append_assoc, List.append_assoc, skipLines_remark remarks ends, ih]

theorem endOfLine_remark (remarks : Remark remark) (ends : LineEnd ending) (rest : List Char) :
    endOfLine (remark ++ (ending ++ rest)) = some rest := by
  cases remarks with
  | blanks blank =>
    rw [endOfLine, skipBlanks_append blank]
    cases ends <;> rfl
  | comment blank plain =>
    rw [endOfLine, List.append_assoc, skipBlanks_append blank]
    have dropped (after : List Char) : List.dropWhile isText (_ ++ after) = List.dropWhile isText after :=
      List.dropWhile_append_of_pos plain
    cases ends <;> simp [skipBlanks, isBlank, dropped, isText, lineEnd?]

theorem endOfLine_last (remarks : Remark remark) : endOfLine remark = some [] := by
  cases remarks with
  | blanks blank =>
    rw [endOfLine, ← List.append_nil remark, skipBlanks_append blank]
    rfl
  | @comment _ text blank plain =>
    have dropped : text.dropWhile isText = [] := List.dropWhile_eq_nil_iff.mpr plain
    rw [endOfLine, skipBlanks_append blank]
    simp [skipBlanks, isBlank, dropped]

theorem noQuote_blanks (blank : Blanks blanks) (free : NoQuote rest) : NoQuote (blanks ++ rest) := by
  cases blanks with
  | nil => exact free
  | cons c cs => simpa [NoQuote] using (ne_of_isBlank (blank c List.mem_cons_self)).2.2.2

theorem noQuote_remark (remarks : Remark remark) (free : NoQuote rest) : NoQuote (remark ++ rest) := by
  cases remarks with
  | blanks blank => exact noQuote_blanks blank free
  | comment blank plain =>
    rw [List.append_assoc]
    exact noQuote_blanks blank (by simp [NoQuote])

theorem noQuote_lineEnd (ends : LineEnd ending) : NoQuote (ending ++ rest) := by
  cases ends <;> simp [NoQuote]

theorem noQuote_gap (between : Gap gap) (free : NoQuote rest) : NoQuote (gap ++ rest) := by
  cases between with
  | blanks blank => exact noQuote_blanks blank free
  | line remarks ends more =>
    rw [List.append_assoc, List.append_assoc]
    exact noQuote_remark remarks (noQuote_lineEnd ends)

variable {name key : String} {letter : Char} {count limit : Nat} {before after : List Char}

theorem hexDigit?_of_isHexDigit {d : Nat} (hex : IsHexDigit d c) : Quoted.hexDigit? c = some d := by
  have both : ∀ d < 16, Quoted.hexDigit? d.digitChar = some d ∧
      Quoted.hexDigit? d.digitChar.toUpper = some d := by decide
  obtain ⟨small, rfl | rfl⟩ := hex
  · exact (both d small).1
  · exact (both d small).2

theorem readCodePoint_of_digits {digits : List Nat} (hex : List.Forall₂ IsHexDigit digits cs)
    (value : Nat) (rest : List Char) : Quoted.readCodePoint digits.length value (cs ++ rest) =
      Quoted.readCodePoint 0 (digits.foldl (16 * · + ·) value) rest := by
  induction hex generalizing value with
  | nil => rfl
  | cons first _ ih =>
    simp only [List.length_cons, List.cons_append, Quoted.readCodePoint, hexDigit?_of_isHexDigit first]
    exact ih _

theorem readCodePoint_toNat (c : Char) (rest : List Char) :
    Quoted.readCodePoint 0 c.toNat rest = some (c, rest) := by
  have valid : c.toNat.isValidChar := c.valid
  simp [Quoted.readCodePoint, valid]

theorem readEscape_short (known : (letter, c) ∈ shortEscapes) (rest : List Char) :
    Quoted.readEscape (letter :: rest) = some (c, rest) := by
  simp only [shortEscapes, List.mem_cons, Prod.mk.injEq, List.not_mem_nil, or_false] at known
  rcases known with ⟨rfl, rfl⟩ | ⟨rfl, rfl⟩ | ⟨rfl, rfl⟩ | ⟨rfl, rfl⟩ | ⟨rfl, rfl⟩ | ⟨rfl, rfl⟩ |
    ⟨rfl, rfl⟩ | ⟨rfl, rfl⟩ <;> rfl

theorem readEscape_code (known : (letter, count) ∈ codeEscapes) (rest : List Char) :
    Quoted.readEscape (letter :: rest) = Quoted.readCodePoint count 0 rest := by
  simp only [codeEscapes, List.mem_cons, Prod.mk.injEq, List.not_mem_nil, or_false] at known
  rcases known with ⟨rfl, rfl⟩ | ⟨rfl, rfl⟩ | ⟨rfl, rfl⟩ <;> rfl

theorem readBasic_plain (plain : isText c = true) (no_quote : c ≠ '"') (no_backslash : c ≠ '\\')
    (limit : Nat) (rest : List Char) : Quoted.readBasic (limit + 1) (c :: rest) =
      (do let (text, rest) ← Quoted.readBasic limit rest; some (c :: text, rest)) := by
  rw [Quoted.readBasic.eq_def]
  split <;> simp_all

theorem readBasic_escape {escape rest : List Char} (read : Quoted.readEscape escape = some (c, rest))
    (limit : Nat) : Quoted.readBasic (limit + 1) ('\\' :: escape) =
      (do let (text, rest) ← Quoted.readBasic limit rest; some (c :: text, rest)) := by
  simp [Quoted.readBasic, read]

theorem readBasic_spelled (spelled : Spelled c cs) (limit : Nat) (rest : List Char) :
    Quoted.readBasic (limit + 1) (cs ++ rest) =
      (do let (text, rest) ← Quoted.readBasic limit rest; some (c :: text, rest)) := by
  cases spelled with
  | plain plain no_quote no_backslash => exact readBasic_plain plain no_quote no_backslash limit rest
  | short known => exact readBasic_escape (readEscape_short known rest) limit
  | code known value hex =>
    apply readBasic_escape
    exact (readEscape_code known _).trans <| (readCodePoint_of_digits hex 0 rest).trans <|
      value ▸ readCodePoint_toNat c rest

theorem spelled_head (spelled : Spelled c cs) : ∃ d more, cs = d :: more ∧ d ≠ '"' := by
  cases spelled with
  | plain _ no_quote _ => exact ⟨_, _, rfl, no_quote⟩
  | short | code => exact ⟨_, _, rfl, by decide⟩

theorem readBasic_of_spells (spells : Spells text cs) {rest : List Char}
    (room : (cs ++ '"' :: rest).length < limit) :
    Quoted.readBasic limit (cs ++ '"' :: rest) = some (text, rest) := by
  induction spells generalizing limit with
  | nil =>
    cases limit with
    | zero => cases room
    | succ limit => rfl
  | @cons c text first others spelled _ ih =>
    obtain ⟨d, more, rfl, -⟩ := spelled_head spelled
    cases limit with
    | zero => cases room
    | succ limit =>
      simp only [List.append_assoc, List.length_append, List.length_cons] at room
      have inner : (others ++ '"' :: rest).length < limit := by
        rw [List.length_append, List.length_cons]
        omega
      rw [List.append_assoc, readBasic_spelled spelled, ih inner]
      rfl

theorem readLine_of_quotes (quotes : Quotes name cs) {rest : List Char}
    (room : (cs ++ rest).length ≤ limit) :
    Quoted.readLine limit (cs ++ rest) = some (name.toList, rest) := by
  obtain ⟨spells⟩ := quotes
  simp only [List.cons_append, List.append_assoc, List.nil_append, List.length_cons] at room ⊢
  exact readBasic_of_spells spells (by omega)

theorem read_eq_readLine {tail : List Char} (single : ∀ more, tail ≠ '"' :: '"' :: more) :
    Quoted.read limit ('"' :: tail) = Quoted.readLine limit ('"' :: tail) := by
  rw [Quoted.read.eq_def]
  split <;> simp_all

-- Three quotes would open a string on several lines; two of them are one that is empty.
theorem spells_single (spells : Spells text cs) {rest : List Char} (free : NoQuote rest)
    (more : List Char) : cs ++ '"' :: rest ≠ '"' :: '"' :: more := by
  cases spells with
  | nil =>
    rintro ⟨⟩
    exact free rfl
  | cons spelled _ =>
    obtain ⟨d, others, rfl, no_quote⟩ := spelled_head spelled
    intro same
    exact no_quote (List.cons.inj same).1

theorem read_of_quotes (quotes : Quotes name cs) {rest : List Char} (free : NoQuote rest)
    (room : (cs ++ rest).length ≤ limit) :
    Quoted.read limit (cs ++ rest) = some (name.toList, rest) := by
  rw [← readLine_of_quotes quotes room]
  obtain ⟨spells⟩ := quotes
  simp only [List.cons_append, List.append_assoc, List.nil_append]
  exact read_eq_readLine (spells_single spells free)

-- A key without quotes ends at the first character that could not belong to it.
def KeyEnd (cs : List Char) : Prop := ∀ c ∈ cs.head?, isBareKeyChar c = false

theorem keyEnd_blanks (blank : Blanks before) (stop : KeyEnd cs) : KeyEnd (before ++ cs) := by
  cases before with
  | nil => exact stop
  | cons d more =>
    rintro c ⟨⟩
    have : isBlank d = true := blank d List.mem_cons_self
    simp only [isBlank, Bool.or_eq_true, decide_eq_true_eq] at this
    rcases this with rfl | rfl <;> decide

theorem takeWhile_key (bare : ∀ c ∈ text, isBareKeyChar c = true) (stop : KeyEnd cs) :
    (text ++ cs).takeWhile isBareKeyChar = text ∧ (text ++ cs).dropWhile isBareKeyChar = cs := by
  rw [List.takeWhile_append_of_pos bare, List.dropWhile_append_of_pos bare]
  cases cs with
  | nil => simp
  | cons c more =>
    have : isBareKeyChar c = false := stop c rfl
    simp [this]

theorem not_mem_of_isBareKeyChar (bare : isBareKeyChar c = true) :
    c ∉ [' ', '\t', '\n', '\r', '#', '"', '\'', '[', ']', '}'] := by
  have others : [' ', '\t', '\n', '\r', '#', '"', '\'', '[', ']', '}'].all (!isBareKeyChar ·) = true := rfl
  intro present
  have := List.all_eq_true.mp others c present
  simp [bare] at this

theorem keyName_head (named : KeyName name cs) :
    ∃ c more, cs = c :: more ∧ Solid c ∧ c ∉ ['[', ']', '}'] := by
  cases named with
  | bare present bare =>
    obtain ⟨c, more, spelled⟩ := List.exists_cons_of_ne_nil (show name.toList ≠ [] by simpa using present)
    have := not_mem_of_isBareKeyChar (bare c (by simp [spelled]))
    refine ⟨c, more, spelled, ?_, ?_⟩
    all_goals simp_all [Solid, isBlank]
  | quoted quotes =>
    obtain ⟨_⟩ := quotes
    exact ⟨'"', _, rfl, by decide, by decide⟩

theorem readKeyPart_of_keyName (named : KeyName name cs) {rest : List Char} (stop : KeyEnd rest)
    (room : (cs ++ rest).length ≤ limit) :
    readKeyPart limit (cs ++ rest) = some (⟨name, cs ++ rest⟩, rest) := by
  cases named with
  | bare present bare =>
    obtain ⟨taken, dropped⟩ := takeWhile_key bare stop
    obtain ⟨c, more, spelled⟩ := List.exists_cons_of_ne_nil (show name.toList ≠ [] by simpa using present)
    have first := not_mem_of_isBareKeyChar (bare c (by simp [spelled]))
    have whole : String.ofList (c :: more) = name := by rw [← spelled, String.ofList_toList]
    rw [spelled, List.cons_append] at taken dropped ⊢
    rw [readKeyPart.eq_def]
    split
    · simp_all
    · simp_all
    · simp only [taken, dropped, whole]
  | quoted quotes =>
    have read := readLine_of_quotes quotes room
    obtain ⟨spells⟩ := quotes
    rw [List.cons_append] at read ⊢
    simp only [readKeyPart, read, Option.map_some, String.ofList_toList]

theorem readKey_of_keyName (named : KeyName name cs) (leading : Blanks before) (trailing : Blanks after)
    {d : Char} (stop : d = '=' ∨ d = ']') {rest : List Char}
    (room : (cs ++ (after ++ d :: rest)).length < limit) : ∃ mark,
      readKey limit (before ++ (cs ++ (after ++ d :: rest))) = some ([], ⟨name, mark⟩, d :: rest) := by
  have ends : KeyEnd (d :: rest) := by
    rcases stop with rfl | rfl <;> rintro c ⟨⟩ <;> decide
  have reached : skipBlanks (before ++ (cs ++ (after ++ d :: rest))) = cs ++ (after ++ d :: rest) := by
    obtain ⟨c, more, rfl, solid, -⟩ := keyName_head named
    rw [skipBlanks_append leading]
    exact skipBlanks_solid solid.1
  cases limit with
  | zero => cases room
  | succ limit =>
    have part := readKeyPart_of_keyName named (keyEnd_blanks trailing ends) (Nat.le_of_lt_succ room)
    refine ⟨cs ++ (after ++ d :: rest), ?_⟩
    simp only [readKey, reached, part, Option.bind_eq_bind, Option.bind_some, skipBlanks_append trailing]
    rcases stop with rfl | rfl <;> rfl

end BuildPlan.Toml
