import BuildPlan.Proofs.Invocation.Tally

namespace BuildPlan.Invocation

variable {i : Invocation} {items : List Item} {said : Said}

theorem contradicts_eq_false_iff : said.contradicts = false ↔ said.invocation.OneMode := by
  obtain ⟨tasks, _, _, _, check, list, _, _, _, _⟩ := said
  cases check <;> cases list <;> simp [Said.contradicts, Said.invocation, OneMode]

theorem saidOnce_iff {word : α → String} {read : String → Option α} {value default : α} {values : List String}
    (exact : ∀ text value, read text = some value ↔ word value = text) :
    SaidOnce (word value) (word default) values ↔ values.length ≤ 1 ∧ (∀ text ∈ values, (read text).isSome) ∧
      value = (values.head?.bind read).getD default := by
  have known : ∀ value, read (word value) = some value := fun value => (exact _ value).mpr rfl
  constructor
  · rintro (rfl | ⟨rfl, same⟩)
    · simp [known]
    · have : value = default := Option.some.inj ((known value).symm.trans (same ▸ known default))
      simp [this]
  · rintro ⟨once, readable, rfl⟩
    match values, once with
    | [], _ => exact .inr ⟨rfl, rfl⟩
    | [text], _ =>
      obtain ⟨value, found⟩ := Option.isSome_iff_exists.mp (readable text List.mem_cons_self)
      left
      simp [found, (exact text value).mp found]

theorem find?_word_iff {all : List α} {word : α → String}
    (known : ∀ value, all.find? (fun other => word other = word value) = some value) (text : String) (value : α) :
    all.find? (fun other => word other = text) = some value ↔ word value = text := by
  constructor
  · intro found
    simpa using List.find?_some found
  · rintro rfl
    exact known value

theorem output_iff : ∀ text output, Output.ofWord? text = some output ↔ output.word = text :=
  find?_word_iff fun output => by cases output <;> rfl

theorem level_iff : ∀ text level, Log.Level.ofWord? text = some level ↔ level.word = text :=
  find?_word_iff fun level => by cases level <;> rfl

theorem format_iff : ∀ text format, Log.Format.ofWord? text = some format ↔ format.word = text :=
  find?_word_iff fun format => by cases format <;> rfl

theorem path?_eq_some {text : String} (some_text : text ≠ "") : Said.path? text = some text := if_neg some_text

theorem catalog_iff {values : List String} {catalog : Option String} :
    values = catalog.toList ∧ catalog ≠ some "" ↔
      values.length ≤ 1 ∧ (∀ text ∈ values, (Said.path? text).isSome) ∧ catalog = values.head?.bind Said.path? := by
  constructor
  · rintro ⟨rfl, some_text⟩
    cases catalog with
    | none => simp
    | some text => simp [path?_eq_some fun empty => some_text (congrArg some empty)]
  · rintro ⟨once, readable, rfl⟩
    match values, once with
    | [], _ => simp
    | [text], _ =>
      have some_text : text ≠ "" := by
        rintro rfl
        simpa [Said.path?] using readable "" List.mem_cons_self
      simp [path?_eq_some some_text, some_text]

theorem switch_iff {s : Switch} {on : Bool} : items.count (.switch s) = (if on then 1 else 0) ↔
    items.count (.switch s) ≤ 1 ∧ on = decide (.switch s ∈ items) := by
  have counted := List.count_pos_iff (a := Item.switch s) (l := items)
  by_cases present : Item.switch s ∈ items
  · have := counted.mpr present
    cases on <;> simp [present] <;> omega
  · have absent := List.count_eq_zero.mpr present
    cases on <;> simp [present, absent]

theorem says_iff : Says items i ∧ i.Legal ↔
    Consistent items ∧ (tally items).contradicts = false ∧ i = (tally items).invocation := by
  constructor
  · rintro ⟨said, one_mode, some_text⟩
    have catalog := catalog_iff.mp ⟨said.catalog, some_text⟩
    have output := (saidOnce_iff output_iff).mp said.output
    have level := (saidOnce_iff level_iff).mp said.level
    have format := (saidOnce_iff format_iff).mp said.logFormat
    have switches := fun s => switch_iff.mp (said.switches s)
    have tallied : i = (tally items).invocation := by
      cases i
      simp only [tally, Said.invocation, Invocation.mk.injEq]
      exact ⟨said.tasks.symm, catalog.2.2, said.assumed.symm, output.2.2, (switches .check).2,
        (switches .list).2, (switches .quiet).2, level.2.2, format.2.2, (switches .json).2⟩
    have consistent : Consistent items := by
      refine ⟨fun s => (switches s).1, fun s single => ?_, fun s => ?_⟩
      · cases s with
        | assume => exact absurd rfl single
        | catalog => exact catalog.1
        | output => exact output.1
        | level => exact level.1
        | logFormat => exact format.1
      · cases s with
        | assume => exact fun _ _ => trivial
        | catalog => exact catalog.2.1
        | output => exact output.2.1
        | level => exact level.2.1
        | logFormat => exact format.2.1
    exact ⟨consistent, contradicts_eq_false_iff.mpr (tallied ▸ one_mode), tallied⟩
  · rintro ⟨consistent, calm, rfl⟩
    have catalog := catalog_iff.mpr
      ⟨consistent.settings .catalog (by decide), consistent.readable .catalog, rfl⟩
    refine ⟨⟨rfl, rfl, catalog.1, ?_, ?_, ?_, ?_⟩, contradicts_eq_false_iff.mp calm, catalog.2⟩
    · exact (saidOnce_iff output_iff).mpr
        ⟨consistent.settings .output (by decide), consistent.readable .output, rfl⟩
    · exact (saidOnce_iff level_iff).mpr
        ⟨consistent.settings .level (by decide), consistent.readable .level, rfl⟩
    · exact (saidOnce_iff format_iff).mpr
        ⟨consistent.settings .logFormat (by decide), consistent.readable .logFormat, rfl⟩
    · intro s
      exact switch_iff.mpr ⟨consistent.switches s, by cases s <;> rfl⟩

theorem renders_iff {arguments : List String} : i.Legal ∧ i.Renders arguments ↔
    ∃ said, Said.takeAll {} (words none arguments) = .ok said ∧ said.contradicts = false ∧ i = said.invocation := by
  simp only [takeAll_iff, ← spells_iff]
  constructor
  · rintro ⟨legal, items, said, spelled⟩
    obtain ⟨consistent, calm, same⟩ := says_iff.mp ⟨said, legal⟩
    exact ⟨_, ⟨items, spelled, consistent, rfl⟩, calm, same⟩
  · rintro ⟨_, ⟨items, spelled, consistent, rfl⟩, calm, same⟩
    obtain ⟨said, legal⟩ := says_iff.mpr ⟨consistent, calm, same⟩
    exact ⟨legal, items, said, spelled⟩

theorem ofArguments_eq_ok_iff {arguments : List String} {path : Option String} :
    ofArguments arguments path = .ok i ↔ ∃ said after, Said.takeAll {} (words none arguments) = .ok said ∧
      said.withEnvironment path = .ok after ∧ after.contradicts = false ∧ i = after.invocation := by
  unfold ofArguments
  cases Said.takeAll {} (words none arguments) with
  | error stop => simp [bind, Except.bind]
  | ok said =>
    cases environment : said.withEnvironment path with
    | error stop => simp [bind, Except.bind, environment]
    | ok after =>
      cases contradicts : after.contradicts <;>
        simp [bind, Except.bind, environment, contradicts, @eq_comm _ i]

theorem withEnvironment_none (said : Said) : said.withEnvironment none = .ok said := by
  obtain ⟨_, catalog, _, _, _, _, _, _, _, _⟩ := said
  cases catalog <;> rfl

theorem withEnvironment_some {path : String} (some_text : path ≠ "") (said : Said) :
    said.withEnvironment (some path) = .ok { said with catalog := some (said.catalog.getD path) } := by
  obtain ⟨_, catalog, _, _, _, _, _, _, _, _⟩ := said
  cases catalog with
  | none => simp [Said.withEnvironment, path?_eq_some some_text, Said.once, Except.map]
  | some text => rfl

-- Arguments are accepted exactly if they render an invocation that can be asked for, and that one is
-- what they ask for.
theorem accepted_iff_rendering (arguments : List String) :
    (∀ i, ofArguments arguments none = .ok i ↔ i.Legal ∧ i.Renders arguments) ∧
    (∀ path, path ≠ "" → ∀ i, ofArguments arguments (some path) = .ok i ↔
      ∃ asked : Invocation, asked.Legal ∧ asked.Renders arguments ∧
        i = { asked with catalog := some (asked.catalog.getD path) }) ∧
    ∀ path i, ofArguments arguments path = .ok i → i.OneMode := by
  refine ⟨fun i => ?_, fun path some_text i => ?_, fun path i accepted => ?_⟩
  · simp only [ofArguments_eq_ok_iff, renders_iff, withEnvironment_none]
    simp
  · rw [ofArguments_eq_ok_iff]
    constructor
    · rintro ⟨said, after, taken, found, calm, rfl⟩
      cases (withEnvironment_some some_text said).symm.trans found
      obtain ⟨legal, renders⟩ := renders_iff.mpr ⟨said, taken, calm, rfl⟩
      exact ⟨said.invocation, legal, renders, rfl⟩
    · rintro ⟨asked, legal, renders, rfl⟩
      obtain ⟨said, taken, calm, rfl⟩ := renders_iff.mp ⟨legal, renders⟩
      exact ⟨said, _, taken, withEnvironment_some some_text said, calm, rfl⟩
  · obtain ⟨said, after, _, _, calm, rfl⟩ := ofArguments_eq_ok_iff.mp accepted
    exact contradicts_eq_false_iff.mp calm

def crowded : Invocation :=
  { tasks := ["mpc-dos", "--check"], assumed := ["host-cc", "p=q"], output := .json, quiet := true
    logFormat := .pretty }

def crowdedArguments : List String :=
  ["-qa", "host-cc", "mpc-dos", "--output=json", "-ap=q", "--log-format", "pretty", "--", "--check"]

theorem crowded_rendered : crowded.Renders crowdedArguments := by
  refine ⟨[.switch .quiet, .setting .assume "host-cc", .task "mpc-dos", .setting .output "json",
    .setting .assume "p=q", .setting .logFormat "pretty", .task "--check"], ?_, ?_⟩
  · exact ⟨rfl, rfl, rfl, .inl rfl, .inr ⟨rfl, rfl⟩, .inl rfl, fun s => by cases s <;> rfl⟩
  · exact .openLetters (.cons rfl (.setting rfl)) rfl <| .task rfl <| .attached <|
      .letters (.joined rfl (by decide)) <| .separate rfl <| .tasks ["--check"]

theorem crowded_accepted : crowded.Legal ∧ crowded.Renders crowdedArguments ∧ "here.toml" ≠ "" ∧
    ofArguments crowdedArguments none = .ok crowded ∧
    ofArguments crowdedArguments (some "here.toml") = .ok { crowded with catalog := some "here.toml" } ∧
    crowded.OneMode := by
  obtain ⟨accepted, with_path, one_mode⟩ := accepted_iff_rendering crowdedArguments
  have legal : crowded.Legal := ⟨⟨nofun, nofun⟩, nofun⟩
  have some_text : "here.toml" ≠ "" := by decide
  have asked := (accepted crowded).mpr ⟨legal, crowded_rendered⟩
  exact ⟨legal, crowded_rendered, some_text, asked,
    (with_path _ some_text _).mpr ⟨crowded, legal, crowded_rendered, rfl⟩, one_mode _ _ asked⟩

end BuildPlan.Invocation
