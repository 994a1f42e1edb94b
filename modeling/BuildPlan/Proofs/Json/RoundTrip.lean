import BuildPlan.Json

namespace BuildPlan.Json

theorem hexValue?_digitChar : ∀ d < 16, hexValue? (Nat.digitChar d) = some d := by decide

theorem codePoint?_control {c : Char} (control : c.toNat < 0x20) :
    codePoint? '0' '0' (Nat.digitChar (c.toNat / 16)) (Nat.digitChar (c.toNat % 16)) = some c := by
  have high := hexValue?_digitChar (c.toNat / 16) (by omega)
  have low := hexValue?_digitChar (c.toNat % 16) (by omega)
  have zero : hexValue? '0' = some 0 := by decide
  have value : 4096 * 0 + 256 * 0 + 16 * (c.toNat / 16) + c.toNat % 16 = c.toNat := by omega
  have valid : c.toNat.isValidChar := c.valid
  simp only [codePoint?, zero, high, low, Option.bind_eq_bind, Option.bind_some, value]
  rw [if_pos valid, Char.ofNat_toNat]

theorem readString_escaped (c : Char) (rest : List Char) :
    readString (escaped c ++ rest) = (readString rest).map fun read => (c :: read.1, read.2) := by
  unfold escaped
  split
  case h_8 no_quote no_backslash _ _ _ _ _ =>
    split
    next control =>
      simp only [List.cons_append, List.nil_append, readString, codePoint?_control control]
      cases readString rest <;> rfl
    next plain =>
      have stands : ¬(c = '\\' ∨ c.toNat < 0x20) := fun either => either.elim no_backslash plain
      rw [List.singleton_append, readString]
      · rw [if_neg stands]
        cases readString rest <;> rfl
      all_goals simp_all
  all_goals
    simp only [List.cons_append, List.nil_append, readString]
    cases readString rest <;> rfl

theorem readString_quoted (text rest : List Char) :
    readString (text.flatMap escaped ++ '"' :: rest) = some (text, rest) := by
  induction text with
  | nil => rfl
  | cons c text ih => rw [List.flatMap_cons, List.append_assoc, readString_escaped, ih]; rfl

-- What stands behind a number must not go on with it.
def StopsNumber (rest : List Char) : Prop := ∀ c, rest.head? = some c → c.isDigit = false

theorem stopsNumber_cons {c : Char} (other : c.isDigit = false) (rest : List Char) : StopsNumber (c :: rest) := by
  rintro _ ⟨⟩
  exact other

theorem isDigit_of_mem {value : Nat} : ∀ c ∈ Nat.toDigits 10 value, c.isDigit = true :=
  fun _ => Nat.isDigit_of_mem_toDigits (by decide) (by decide)

theorem readNumber_digits (value : Nat) {rest : List Char} (stops : StopsNumber rest) :
    readNumber (Nat.toDigits 10 value ++ rest) = some (value, rest) := by
  have none_more : rest.takeWhile Char.isDigit = [] ∧ rest.dropWhile Char.isDigit = rest := by
    cases rest with
    | nil => exact ⟨rfl, rfl⟩
    | cons c rest => simp [stops c rfl]
  rw [readNumber, List.takeWhile_append_of_pos isDigit_of_mem, List.dropWhile_append_of_pos isDigit_of_mem,
    none_more.1, none_more.2, List.append_nil]
  split
  next none => exact absurd none Nat.toDigits_ne_nil
  next => rw [Nat.ofDigitChars_toDigits (by decide) (by decide)]

theorem chars_first (value : Json) : ∃ c rest, value.chars = c :: rest ∧ c ≠ ']' := by
  cases value with
  | string text => exact ⟨_, _, rfl, by decide⟩
  | number value =>
    obtain ⟨c, rest, digits⟩ := List.exists_cons_of_ne_nil (Nat.toDigits_ne_nil (b := 10) (n := value))
    refine ⟨c, rest, by rw [chars, digits], ?_⟩
    rintro rfl
    have := isDigit_of_mem ']' (digits ▸ List.mem_cons_self)
    cases this
  | boolean value => cases value <;> exact ⟨_, _, rfl, by decide⟩
  | array items => exact ⟨_, _, rfl, by decide⟩
  | object fields => exact ⟨_, _, rfl, by decide⟩

theorem itemChars_first (item : Json) (items : List Json) :
    ∃ c rest, itemChars (item :: items) = c :: rest ∧ c ≠ ']' := by
  obtain ⟨c, rest, first, other⟩ := chars_first item
  cases items with
  | nil => exact ⟨c, _, first, other⟩
  | cons => exact ⟨c, _, congrArg (· ++ _) first, other⟩

theorem fieldChars_first (field : String × Json) (fields : List (String × Json)) :
    ∃ rest, fieldChars (field :: fields) = '"' :: rest := by
  cases fields <;> exact ⟨_, rfl⟩

theorem readValue_digits {c : Char} (digit : c.isDigit = true) (limit : Nat) (rest : List Char) :
    readValue (limit + 1) (c :: rest) = (readNumber (c :: rest)).map fun read => (number read.1, read.2) := by
  have others : c ≠ '"' ∧ c ≠ 't' ∧ c ≠ 'f' ∧ c ≠ '[' ∧ c ≠ '{' := by
    refine ⟨?_, ?_, ?_, ?_, ?_⟩ <;> (rintro rfl; cases digit)
  rw [readValue]
  · cases readNumber (c :: rest) <;> rfl
  all_goals simp_all

mutual

theorem readValue_chars : ∀ (value : Json) (limit : Nat) (rest : List Char),
    value.chars.length ≤ limit → StopsNumber rest → readValue limit (value.chars ++ rest) = some (value, rest)
  | value, 0, rest, room, _ => by
    obtain ⟨c, more, first, _⟩ := chars_first value
    simp [first] at room
  | .string text, limit + 1, rest, _, _ => by
    simp only [chars, quotedChars, List.cons_append, List.append_assoc, List.nil_append, readValue]
    rw [readString_quoted]
    simp
  | .number value, limit + 1, rest, _, stops => by
    obtain ⟨c, more, digits⟩ := List.exists_cons_of_ne_nil (Nat.toDigits_ne_nil (b := 10) (n := value))
    have digit : c.isDigit = true := isDigit_of_mem c (digits ▸ List.mem_cons_self)
    have read := readNumber_digits value stops
    rw [digits, List.cons_append] at read
    rw [chars, digits, List.cons_append, readValue_digits digit, read]
    rfl
  | .boolean true, limit + 1, rest, _, _ => by simp [chars, readValue]
  | .boolean false, limit + 1, rest, _, _ => by simp [chars, readValue]
  | .array [], limit + 1, rest, _, _ => by simp [chars, itemChars, readValue]
  | .array (item :: items), limit + 1, rest, room, _ => by
    simp only [chars, List.length_cons, List.length_append, List.length_nil] at room
    have read := readItems_chars item items limit rest (by omega)
    obtain ⟨c, more, first, other⟩ := itemChars_first item items
    rw [first, List.cons_append] at read
    rw [chars, first, List.cons_append, List.cons_append, List.cons_append, List.append_assoc,
      List.singleton_append, readValue]
    · rw [read]
      rfl
    · rintro _ ⟨⟩
      exact other rfl
  | .object [], limit + 1, rest, _, _ => by simp [chars, fieldChars, readValue]
  | .object (field :: fields), limit + 1, rest, room, _ => by
    simp only [chars, List.length_cons, List.length_append, List.length_nil] at room
    have read := readFields_chars field fields limit rest (by omega)
    obtain ⟨more, first⟩ := fieldChars_first field fields
    rw [first, List.cons_append] at read
    rw [chars, first, List.cons_append, List.cons_append, List.cons_append, List.append_assoc,
      List.singleton_append, readValue]
    · rw [read]
      rfl
    · rintro _ ⟨⟩

theorem readItems_chars : ∀ (item : Json) (items : List Json) (limit : Nat) (rest : List Char),
    (itemChars (item :: items)).length < limit →
    readItems limit (itemChars (item :: items) ++ ']' :: rest) = some (item :: items, rest)
  | item, [], limit + 1, rest, room => by
    rw [itemChars] at room
    have read := readValue_chars item limit (']' :: rest) (by omega) (stopsNumber_cons (by decide) _)
    rw [itemChars, readItems, read]
    rfl
  | item, next :: items, limit + 1, rest, room => by
    simp only [itemChars, List.length_append, List.length_cons] at room
    have read := readValue_chars item limit (',' :: (itemChars (next :: items) ++ ']' :: rest)) (by omega)
      (stopsNumber_cons (by decide) _)
    have more := readItems_chars next items limit rest (by omega)
    rw [itemChars, List.append_assoc, List.cons_append, readItems, read]
    simp only [Option.bind_eq_bind, Option.bind_some, more]
    · rintro ⟨⟩

theorem readFields_chars : ∀ (field : String × Json) (fields : List (String × Json)) (limit : Nat)
    (rest : List Char), (fieldChars (field :: fields)).length < limit →
    readFields limit (fieldChars (field :: fields) ++ '}' :: rest) = some (field :: fields, rest)
  | (key, value), [], limit + 1, rest, room => by
    simp only [fieldChars, List.length_append, List.length_cons] at room
    have read := readValue_chars value limit ('}' :: rest) (by omega) (stopsNumber_cons (by decide) _)
    simp only [fieldChars, quotedChars, List.cons_append, List.append_assoc, List.nil_append, readFields,
      readString_quoted, Option.bind_eq_bind, Option.bind_some, read, String.ofList_toList]
  | (key, value), next :: fields, limit + 1, rest, room => by
    simp only [fieldChars, List.length_append, List.length_cons] at room
    have read := readValue_chars value limit (',' :: (fieldChars (next :: fields) ++ '}' :: rest)) (by omega)
      (stopsNumber_cons (by decide) _)
    have more := readFields_chars next fields limit rest (by omega)
    simp only [fieldChars, quotedChars, List.cons_append, List.append_assoc, List.nil_append, readFields,
      readString_quoted, Option.bind_eq_bind, Option.bind_some, read, more, String.ofList_toList]

end

theorem ofText?_render (value : Json) : ofText? value.render = some value := by
  have size : value.render.length = value.chars.length := String.length_ofList
  have read := readValue_chars value (value.chars.length + 1) [] (by omega) (by rintro _ ⟨⟩)
  rw [List.append_nil] at read
  rw [ofText?, size, render, String.toList_ofList, read]

def Plain (cs : List Char) : Prop := ∀ c ∈ cs, 0x20 ≤ c.toNat

@[simp] theorem plain_nil : Plain [] := by rintro _ ⟨⟩

@[simp] theorem plain_cons {c : Char} {cs : List Char} : Plain (c :: cs) ↔ 0x20 ≤ c.toNat ∧ Plain cs :=
  List.forall_mem_cons

@[simp] theorem plain_append {a b : List Char} : Plain (a ++ b) ↔ Plain a ∧ Plain b := List.forall_mem_append

theorem plain_of_isDigit {c : Char} (digit : c.isDigit = true) : 0x20 ≤ c.toNat := by
  have low : '0'.toNat ≤ c.toNat := by
    simp only [Char.isDigit, Bool.and_eq_true, decide_eq_true_eq] at digit
    exact digit.1
  exact Nat.le_trans (by decide) low

theorem plain_digits (value : Nat) : Plain (Nat.toDigits 10 value) :=
  fun c mem => plain_of_isDigit (isDigit_of_mem c mem)

theorem plain_digitChar : ∀ d < 16, 0x20 ≤ (Nat.digitChar d).toNat := by decide

theorem plain_escaped (c : Char) : Plain (escaped c) := by
  unfold escaped
  split
  case h_8 =>
    split
    next control =>
      have high := plain_digitChar (c.toNat / 16) (by omega)
      have low := plain_digitChar (c.toNat % 16) (by omega)
      simp [high, low]
    next plain => simpa using plain
  all_goals simp

theorem plain_quoted (text : String) : Plain (quotedChars text) := by
  have inside : Plain (text.toList.flatMap escaped) := by
    intro c mem
    obtain ⟨d, _, mem⟩ := List.mem_flatMap.mp mem
    exact plain_escaped d c mem
  simp [quotedChars, inside]

mutual

theorem plain_chars : ∀ value : Json, Plain value.chars
  | .string text => plain_quoted text
  | .number value => plain_digits value
  | .boolean true => by simp [chars]
  | .boolean false => by simp [chars]
  | .array items => by simp [chars, plain_items items]
  | .object fields => by simp [chars, plain_fields fields]

theorem plain_items : ∀ items : List Json, Plain (itemChars items)
  | [] => plain_nil
  | [item] => plain_chars item
  | item :: next :: items => by simp [itemChars, plain_chars item, plain_items (next :: items)]

theorem plain_fields : ∀ fields : List (String × Json), Plain (fieldChars fields)
  | [] => plain_nil
  | [(key, value)] => by simp [fieldChars, plain_quoted key, plain_chars value]
  | (key, value) :: next :: fields => by
    simp [fieldChars, plain_quoted key, plain_chars value, plain_fields (next :: fields)]

end

theorem newline_not_mem_render (value : Json) : '\n' ∉ value.render.toList := by
  rw [render, String.toList_ofList]
  intro mem
  have printable : 0x20 ≤ '\n'.toNat := plain_chars value _ mem
  exact absurd printable (by decide)

end BuildPlan.Json
