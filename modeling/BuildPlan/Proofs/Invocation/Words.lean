import Mathlib.Data.List.Basic
import Mathlib.Data.Option.Basic
import BuildPlan.Invocation.Spelling

namespace BuildPlan.Invocation

-- What a word says, unless it is a question, a stray one or an option without its value.
def Word.item? : Word → Option Item
  | .switch s => some (.switch s)
  | .attached s value | .separate s (some value) => some (.setting s value)
  | .task name => some (.task name)
  | .separate _ none | .question _ | .stray _ => none

def WordsSay (words : List Word) (items : List Item) : Prop := words.map Word.item? = items.map some

variable {words more : List Word} {items others : List Item} {argument value : String}
  {arguments rest : List String} {waiting : Option Setting} {setting : Setting} {cs : List Char}

theorem WordsSay.append (first : WordsSay words items) (second : WordsSay more others) :
    WordsSay (words ++ more) (items ++ others) := by
  rw [WordsSay, List.map_append, List.map_append, first, second]

theorem wordsSay_nil_iff : WordsSay [] items ↔ items = [] := by
  cases items <;> simp [WordsSay]

theorem wordsSay_cons_iff {word : Word} : WordsSay (word :: words) items ↔
    ∃ item rest, word.item? = some item ∧ WordsSay words rest ∧ items = item :: rest := by
  cases items with
  | nil => simp [WordsSay]
  | cons item rest =>
    constructor
    · intro say
      obtain ⟨first, later⟩ := List.cons.inj say
      exact ⟨item, rest, first, later, rfl⟩
    · rintro ⟨_, _, first, later, same⟩
      cases same
      rw [WordsSay, List.map_cons, List.map_cons, first, later]

theorem WordsSay.item {word : Word} (say : WordsSay (word :: words) items) : word.item?.isSome := by
  obtain ⟨item, _, said, _⟩ := wordsSay_cons_iff.mp say
  rw [said]
  rfl

theorem WordsSay.unique (say : WordsSay words items) (other : WordsSay words others) : others = items :=
  List.map_injective_iff.mpr (Option.some_injective _) (other.symm.trans say)

theorem wordsSay_single {word : Word} {item : Item} (said : word.item? = some item)
    (say : WordsSay [word] items) : items = [item] := by
  obtain ⟨other, rest, same, nothing, rfl⟩ := wordsSay_cons_iff.mp say
  rw [wordsSay_nil_iff.mp nothing, Option.some.inj (said.symm.trans same)]

theorem wordsSay_append_iff : WordsSay (words ++ more) items ↔
    ∃ first second, WordsSay words first ∧ WordsSay more second ∧ items = first ++ second := by
  constructor
  · intro say
    rw [WordsSay, List.map_append, eq_comm, List.map_eq_append_iff] at say
    obtain ⟨first, second, rfl, said, later⟩ := say
    exact ⟨first, second, said.symm, later.symm, rfl⟩
  · rintro ⟨first, second, said, later, rfl⟩
    exact said.append later

theorem wordsSay_tasks (names : List Name) : WordsSay (names.map .task) (names.map .task) := by
  simp [WordsSay, Word.item?, Function.comp_def]

theorem exists_hyphens_of_not_plain (not_plain : isPlain argument = false) :
    ∃ c cs, argument = String.ofList ('-' :: c :: cs) := by
  unfold isPlain at not_plain
  split at not_plain
  next c cs same => exact ⟨c, cs, by rw [← same, String.ofList_toList]⟩
  next => cases not_plain

theorem argumentWords_plain (plain : isPlain argument = true) :
    argumentWords argument = ([.task argument], none) := by
  unfold isPlain at plain
  unfold argumentWords
  split
  · simp_all
  · simp_all
  · rfl

theorem words_cons (not_end : argument ≠ "--") (rest : List String) :
    Invocation.words none (argument :: rest) =
      (argumentWords argument).1 ++ Invocation.words (argumentWords argument).2 rest := by
  rw [Invocation.words]
  · simp [not_end]
  · simp

theorem words_waiting (plain : isPlain value = true) (rest : List String) :
    Invocation.words (some setting) (value :: rest) =
      .separate setting (some value) :: Invocation.words none rest := by
  rw [Invocation.words]
  simp [plain]

theorem words_unmet (not_plain : isPlain value = false) (rest : List String) :
    Invocation.words (some setting) (value :: rest) =
      .separate setting none :: Invocation.words none (value :: rest) := by
  rw [Invocation.words.eq_def, Invocation.words.eq_def none]
  simp only [not_plain]
  split
  · rfl
  · rfl

theorem setting_of_ofName? {name : String} {s : Setting} (named : ofName? name = some (.setting s)) :
    name = s.name := by
  unfold ofName? at named
  split at named <;> cases named <;> rfl

theorem switch_of_ofName? {name : String} {s : Switch} (named : ofName? name = some (.switch s)) :
    name = s.name := by
  unfold ofName? at named
  split at named <;> cases named <;> rfl

theorem letter_of_switch {c : Char} {s : Switch} (named : ofLetter? c = some (.switch s)) :
    s.letter? = some c := by
  unfold ofLetter? at named
  split at named <;> cases named
  rfl

theorem letter_of_setting {c : Char} {s : Setting} (named : ofLetter? c = some (.setting s)) :
    s.letter? = some c := by
  unfold ofLetter? at named
  split at named <;> cases named <;> rfl

-- One argument, the items it spells, and the option that still waits for its value behind it.
inductive ArgumentSpells : List Item → Option Setting → String → Prop where
  | task {name : Name} : isPlain name = true → ArgumentSpells [.task name] none name
  | switch {s : Switch} : ArgumentSpells [.switch s] none ("--" ++ s.name)
  | attached {s : Setting} {value : String} :
      ArgumentSpells [.setting s value] none ("--" ++ s.name ++ "=" ++ value)
  | setting {s : Setting} : ArgumentSpells [] (some s) ("--" ++ s.name)
  | letters {items : List Item} {cs : List Char} : Letters items cs →
      ArgumentSpells items none (String.ofList ('-' :: cs))
  | openLetters {items : List Item} {s : Setting} {cs : List Char} : OpenLetters items s cs →
      ArgumentSpells items (some s) (String.ofList ('-' :: cs))

theorem argumentWords_switch (s : Switch) : argumentWords ("--" ++ s.name) = ([.switch s], none) := by
  cases s <;> rfl

theorem argumentWords_setting (s : Setting) : argumentWords ("--" ++ s.name) = ([], some s) := by
  cases s <;> rfl

theorem no_sign_in_name (s : Setting) : ∀ c ∈ s.name.toList, decide (c ≠ '=') = true := by
  have no_sign : '=' ∉ s.name.toList := by cases s <;> decide
  intro c member
  exact decide_eq_true fun same => no_sign (same ▸ member)

theorem argumentWords_attached (s : Setting) (value : String) :
    argumentWords ("--" ++ s.name ++ "=" ++ value) = ([.attached s value], none) := by
  have chars : ("--" ++ s.name ++ "=" ++ value).toList =
      '-' :: '-' :: (s.name.toList ++ '=' :: value.toList) := by simp
  have name : (s.name.toList ++ '=' :: value.toList).takeWhile (· ≠ '=') = s.name.toList := by
    rw [List.takeWhile_append_of_pos (no_sign_in_name s)]
    simp
  have after : (s.name.toList ++ '=' :: value.toList).dropWhile (· ≠ '=') = '=' :: value.toList := by
    rw [List.dropWhile_append_of_pos (no_sign_in_name s)]
    simp
  rw [argumentWords, chars]
  simp only [nameWords, name, after, String.ofList_toList, ofName?_setting]

theorem argumentWords_one_hyphen {c : Char} (other : c ≠ '-') (cs : List Char) :
    argumentWords (String.ofList ('-' :: c :: cs)) = letterWords (c :: cs) := by
  unfold argumentWords
  rw [String.toList_ofList]
  split
  next same => cases same; exact absurd rfl other
  next same => cases same; rfl
  next none_such => exact absurd rfl (none_such c cs)

theorem argumentWords_letters {c : Char} {cs : List Char} {meaning : Meaning}
    (named : ofLetter? c = some meaning) :
    argumentWords (String.ofList ('-' :: c :: cs)) = letterWords (c :: cs) := by
  refine argumentWords_one_hyphen ?_ cs
  rintro rfl
  cases named

theorem letterWords_switch {c : Char} {s : Switch} (named : ofLetter? c = some (.switch s)) (rest : List Char) :
    letterWords (c :: rest) = (.switch s :: (letterWords rest).1, (letterWords rest).2) := by
  rw [letterWords, named]

theorem letterWords_setting {c : Char} {s : Setting} (named : ofLetter? c = some (.setting s))
    (rest : List Char) : letterWords (c :: rest) =
      match rest with
      | [] => ([], some s)
      | '=' :: value => ([.attached s (String.ofList value)], none)
      | value => ([.attached s (String.ofList value)], none) := by
  have opened := letterWords.eq_def (c :: rest)
  simp only [named] at opened
  exact opened

theorem Letters.taken_apart (spelled : Letters items cs) : ∃ found,
    letterWords cs = (found, none) ∧ WordsSay found items := by
  induction spelled with
  | @switch s c named =>
    refine ⟨[.switch s], ?_, rfl⟩
    simp [letterWords, ofLetter?_switch named]
  | @cons s c _ _ named _ ih =>
    obtain ⟨found, read, say⟩ := ih
    refine ⟨.switch s :: found, ?_, wordsSay_cons_iff.mpr ⟨_, _, rfl, say, rfl⟩⟩
    simp [letterWords, ofLetter?_switch named, read]
  | @joined s c first rest named no_sign =>
    refine ⟨[.attached s (String.ofList (first :: rest))], ?_, rfl⟩
    simp [letterWords, ofLetter?_setting named, no_sign]
  | @equals s c value named =>
    refine ⟨[.attached s (String.ofList value)], ?_, rfl⟩
    simp [letterWords, ofLetter?_setting named]

theorem OpenLetters.taken_apart (spelled : OpenLetters items setting cs) : ∃ found,
    letterWords cs = (found, some setting) ∧ WordsSay found items := by
  induction spelled with
  | @setting s c named =>
    refine ⟨[], ?_, rfl⟩
    simp [letterWords, ofLetter?_setting named]
  | @cons s c _ _ _ named _ ih =>
    obtain ⟨found, read, say⟩ := ih
    refine ⟨.switch s :: found, ?_, wordsSay_cons_iff.mpr ⟨_, _, rfl, say, rfl⟩⟩
    simp [letterWords, ofLetter?_switch named, read]

theorem Letters.exists_first (spelled : Letters items cs) :
    ∃ c rest meaning, cs = c :: rest ∧ ofLetter? c = some meaning := by
  cases spelled with
  | switch named | cons named _ => exact ⟨_, _, _, rfl, ofLetter?_switch named⟩
  | joined named _ | equals named => exact ⟨_, _, _, rfl, ofLetter?_setting named⟩

theorem OpenLetters.exists_first (spelled : OpenLetters items setting cs) :
    ∃ c rest meaning, cs = c :: rest ∧ ofLetter? c = some meaning := by
  cases spelled with
  | setting named => exact ⟨_, _, _, rfl, ofLetter?_setting named⟩
  | cons named _ => exact ⟨_, _, _, rfl, ofLetter?_switch named⟩

theorem ArgumentSpells.taken_apart (spelled : ArgumentSpells items waiting argument) :
    ∃ found, argumentWords argument = (found, waiting) ∧ WordsSay found items := by
  cases spelled with
  | task plain => exact ⟨_, argumentWords_plain plain, rfl⟩
  | switch => exact ⟨_, argumentWords_switch _, rfl⟩
  | attached => exact ⟨_, argumentWords_attached _ _, rfl⟩
  | setting => exact ⟨_, argumentWords_setting _, rfl⟩
  | letters spelled =>
    obtain ⟨c, rest, meaning, rfl, named⟩ := spelled.exists_first
    rw [argumentWords_letters named]
    exact spelled.taken_apart
  | openLetters spelled =>
    obtain ⟨c, rest, meaning, rfl, named⟩ := spelled.exists_first
    rw [argumentWords_letters named]
    exact spelled.taken_apart

theorem ArgumentSpells.ne_hyphens (spelled : ArgumentSpells items waiting argument) : argument ≠ "--" := by
  rintro rfl
  obtain ⟨found, read, say⟩ := spelled.taken_apart
  cases read
  cases say.item

-- By induction on the letters: only the last of them may be an option.
theorem letters_of_letterWords (some_letter : cs ≠ []) (say : WordsSay (letterWords cs).1 items) :
    match (letterWords cs).2 with
    | none => Letters items cs
    | some setting => OpenLetters items setting cs := by
  induction cs generalizing items with
  | nil => exact absurd rfl some_letter
  | cons c rest ih =>
    cases named : ofLetter? c with
    | none =>
      rw [letterWords, named] at say
      cases say.item
    | some meaning =>
      cases meaning with
      | question stop =>
        rw [letterWords, named] at say
        cases say.item
      | switch s =>
        rw [letterWords_switch named] at say ⊢
        obtain ⟨item, later, said, further, rfl⟩ := wordsSay_cons_iff.mp say
        cases said
        have letter := letter_of_switch named
        cases rest with
        | nil =>
          obtain rfl := wordsSay_nil_iff.mp further
          exact .switch letter
        | cons next more =>
          have spelled := ih (List.cons_ne_nil _ _) further
          dsimp only
          split at spelled
          next => exact .cons letter spelled
          next => exact .cons letter spelled
      | setting s =>
        rw [letterWords_setting named] at say ⊢
        have letter := letter_of_setting named
        split at say
        next =>
          obtain rfl := wordsSay_nil_iff.mp say
          exact .setting letter
        next =>
          obtain rfl := wordsSay_single rfl say
          exact .equals letter
        next some_value no_sign =>
          obtain rfl := wordsSay_single rfl say
          cases rest with
          | nil => exact absurd rfl some_value
          | cons first more =>
            have other : first ≠ '=' := by
              rintro rfl
              exact no_sign more rfl
            exact .joined letter other

-- A name runs up to the first equals sign.
theorem nameWords_split (cs : List Char) : ∃ name value, cs = name ++ value ∧
    cs.takeWhile (· ≠ '=') = name ∧ cs.dropWhile (· ≠ '=') = value ∧ ∀ c rest, value = c :: rest → c = '=' := by
  refine ⟨_, _, List.takeWhile_append_dropWhile.symm, rfl, rfl, fun c rest stops => ?_⟩
  have first := List.head?_dropWhile_not (· ≠ '=') cs
  rw [stops] at first
  simpa using first

theorem argumentSpells_of_nameWords (say : WordsSay (nameWords cs).1 items) :
    ArgumentSpells items (nameWords cs).2 ("--" ++ String.ofList cs) := by
  obtain ⟨name, value, rfl, before, after, sign⟩ := nameWords_split cs
  rw [nameWords, before, after] at say ⊢
  rw [String.ofList_append, ← String.append_assoc]
  cases named : ofName? (String.ofList name) with
  | none =>
    rw [named] at say
    cases say.item
  | some meaning =>
    rw [named] at say
    cases meaning with
    | question stop =>
      cases value with
      | nil => cases say.item
      | cons => cases say.item
    | switch s =>
      cases value with
      | nil =>
        obtain rfl := wordsSay_single rfl say
        rw [switch_of_ofName? named]
        simpa using ArgumentSpells.switch
      | cons c rest => cases say.item
    | setting s =>
      rw [setting_of_ofName? named]
      cases value with
      | nil =>
        obtain rfl := wordsSay_nil_iff.mp say
        simpa using ArgumentSpells.setting
      | cons c rest =>
        obtain rfl := sign c rest rfl
        obtain rfl := wordsSay_single rfl say
        have sign_first : String.ofList ('=' :: rest) = "=" ++ String.ofList rest :=
          @String.ofList_append ['='] rest
        rw [sign_first, ← String.append_assoc]
        exact .attached

theorem argumentSpells_of_words (not_end : argument ≠ "--") (say : WordsSay (argumentWords argument).1 items) :
    ArgumentSpells items (argumentWords argument).2 argument := by
  cases plain : isPlain argument with
  | true =>
    rw [argumentWords_plain plain] at say ⊢
    obtain rfl := wordsSay_single rfl say
    exact .task plain
  | false =>
    obtain ⟨c, cs, rfl⟩ := exists_hyphens_of_not_plain plain
    by_cases hyphen : c = '-'
    · subst hyphen
      have hyphens : String.ofList ('-' :: '-' :: cs) = "--" ++ String.ofList cs :=
        @String.ofList_append ['-', '-'] cs
      rw [argumentWords, String.toList_ofList] at say ⊢
      rw [hyphens]
      exact argumentSpells_of_nameWords say
    · rw [argumentWords_one_hyphen hyphen] at say ⊢
      have spelled := letters_of_letterWords (List.cons_ne_nil c cs) say
      split at spelled
      next none => rw [none]; exact .letters spelled
      next waits => rw [waits]; exact .openLetters spelled

theorem spells_cons {first : List Item} (spelled : ArgumentSpells first none argument)
    (later : Spells items rest) : Spells (first ++ items) (argument :: rest) := by
  cases spelled with
  | task plain => exact .task plain later
  | switch => exact .switch later
  | attached => exact .attached later
  | letters spelled => exact .letters spelled later

theorem spells_waiting {first : List Item} (spelled : ArgumentSpells first (some setting) argument)
    (plain : isPlain value = true) (later : Spells items rest) :
    Spells (first ++ .setting setting value :: items) (argument :: value :: rest) := by
  cases spelled with
  | setting => exact .separate plain later
  | openLetters spelled => exact .openLetters spelled plain later

theorem wordsSay_cons {first : List Item} (spelled : ArgumentSpells first none argument)
    (later : WordsSay (Invocation.words none rest) items) :
    WordsSay (Invocation.words none (argument :: rest)) (first ++ items) := by
  obtain ⟨found, read, say⟩ := spelled.taken_apart
  rw [words_cons spelled.ne_hyphens, read]
  exact say.append later

theorem wordsSay_waiting {first : List Item} (spelled : ArgumentSpells first (some setting) argument)
    (plain : isPlain value = true) (later : WordsSay (Invocation.words none rest) items) :
    WordsSay (Invocation.words none (argument :: value :: rest)) (first ++ .setting setting value :: items) := by
  obtain ⟨found, read, say⟩ := spelled.taken_apart
  rw [words_cons spelled.ne_hyphens, read, words_waiting plain]
  exact say.append (wordsSay_cons_iff.mpr ⟨_, _, rfl, later, rfl⟩)

theorem Spells.wordsSay (spelled : Spells items arguments) :
    WordsSay (Invocation.words none arguments) items := by
  induction spelled with
  | nil => rfl
  | tasks names => simpa [Invocation.words, isPlain] using wordsSay_tasks names
  | task plain _ ih => exact wordsSay_cons (.task plain) ih
  | switch _ ih => exact wordsSay_cons .switch ih
  | attached _ ih => exact wordsSay_cons .attached ih
  | separate plain _ ih => exact wordsSay_waiting .setting plain ih
  | letters spelled _ ih => exact wordsSay_cons (.letters spelled) ih
  | openLetters spelled plain _ ih => exact wordsSay_waiting (.openLetters spelled) plain ih

theorem value_of_waiting (say : WordsSay (Invocation.words (some setting) rest) items) :
    ∃ value after, rest = value :: after ∧ isPlain value = true := by
  cases rest with
  | nil => cases WordsSay.item say
  | cons value after =>
    refine ⟨value, after, rfl, ?_⟩
    cases plain : isPlain value with
    | true => rfl
    | false =>
      rw [words_unmet plain] at say
      cases say.item

-- By induction on the arguments, two at a time where the second is the value of an option.
theorem spells_of_wordsSay (say : WordsSay (Invocation.words none arguments) items) :
    Spells items arguments := by
  induction length : arguments.length using Nat.strongRecOn generalizing arguments items with
  | ind n ih =>
    cases arguments with
    | nil =>
      obtain rfl := wordsSay_nil_iff.mp say
      exact .nil
    | cons argument rest =>
      by_cases is_end : argument = "--"
      · subst is_end
        obtain rfl := (wordsSay_tasks rest).unique say
        exact .tasks rest
      · rw [words_cons is_end] at say
        obtain ⟨first, later, said, further, rfl⟩ := wordsSay_append_iff.mp say
        have spelled := argumentSpells_of_words is_end said
        cases waits : (argumentWords argument).2 with
        | none =>
          rw [waits] at spelled further
          exact spells_cons spelled (ih _ (by simp [← length]) further rfl)
        | some setting =>
          rw [waits] at spelled further
          obtain ⟨value, after, rfl, plain⟩ := value_of_waiting further
          rw [words_waiting plain] at further
          obtain ⟨item, later, told, more, rfl⟩ := wordsSay_cons_iff.mp further
          cases told
          refine spells_waiting spelled plain (ih _ ?_ more rfl)
          simp only [← length, List.length_cons]
          omega

theorem spells_iff : Spells items arguments ↔ WordsSay (Invocation.words none arguments) items :=
  ⟨Spells.wordsSay, spells_of_wordsSay⟩

end BuildPlan.Invocation
