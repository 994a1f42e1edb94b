import Mathlib.Data.List.Induction
import BuildPlan.Proofs.Invocation.Words

namespace BuildPlan.Invocation

namespace Said

def add (s : Said) : Item → Except Stop Said
  | .switch switch => s.turnOn switch
  | .setting setting value => s.assign setting value
  | .task name => .ok { s with tasks := s.tasks ++ [name] }

variable {s t : Said} {words : List Word} {items : List Item}

theorem take_of_item {word : Word} {item : Item} (said : word.item? = some item) : s.take word = s.add item := by
  cases word with
  | switch | attached | task => cases said; rfl
  | separate setting value =>
    cases value with
    | none => cases said
    | some value => cases said; rfl
  | question | stray => cases said

-- Only a stray word is looked at out of its turn.
theorem takeAll_cons {word : Word} (calm : ∀ stop rest, words ≠ .stray stop :: rest) :
    s.takeAll (word :: words) = (s.take word).bind (takeAll · words) := by
  cases word with
  | separate setting value => rw [takeAll]; exact calm
  | switch | attached | task | question | stray => simp [takeAll]

theorem calm_of_wordsSay (say : WordsSay words items) : ∀ stop rest, words ≠ .stray stop :: rest := by
  rintro stop rest rfl
  cases say.item

theorem calm_of_takeAll {word : Word} (ended : s.takeAll (word :: words) = .ok t) :
    ∀ stop rest, words ≠ .stray stop :: rest := by
  rintro stop rest rfl
  cases word with
  | separate setting value => cases ended
  | switch | attached | task | question | stray =>
    simp only [takeAll] at ended
    generalize s.take _ = taken at ended
    cases taken <;> cases ended

theorem takeAll_of_wordsSay (say : WordsSay words items) : s.takeAll words = items.foldlM add s := by
  induction words generalizing s items with
  | nil =>
    obtain rfl := wordsSay_nil_iff.mp say
    rfl
  | cons word rest ih =>
    obtain ⟨item, later, said, further, rfl⟩ := wordsSay_cons_iff.mp say
    rw [takeAll_cons (calm_of_wordsSay further), take_of_item said, List.foldlM_cons]
    cases s.add item with
    | error stop => rfl
    | ok after => exact ih further

theorem item_of_take {word : Word} (taken : s.take word = .ok t) : word.item?.isSome := by
  cases word with
  | switch | attached | task => rfl
  | separate setting value =>
    cases value with
    | none => cases taken
    | some value => rfl
  | question | stray => cases taken

theorem wordsSay_of_takeAll (ended : s.takeAll words = .ok t) : ∃ items, WordsSay words items := by
  induction words generalizing s with
  | nil => exact ⟨[], rfl⟩
  | cons word rest ih =>
    rw [takeAll_cons (calm_of_takeAll ended)] at ended
    cases taken : s.take word with
    | error stop => rw [taken] at ended; cases ended
    | ok after =>
      rw [taken] at ended
      obtain ⟨items, say⟩ := ih ended
      obtain ⟨item, said⟩ := Option.isSome_iff_exists.mp (item_of_take taken)
      exact ⟨item :: items, wordsSay_cons_iff.mpr ⟨_, _, said, say, rfl⟩⟩

theorem takeAll_eq_ok_iff : s.takeAll words = .ok t ↔
    ∃ items, WordsSay words items ∧ items.foldlM add s = .ok t := by
  constructor
  · intro ended
    obtain ⟨items, say⟩ := wordsSay_of_takeAll ended
    exact ⟨items, say, takeAll_of_wordsSay say ▸ ended⟩
  · rintro ⟨items, say, ended⟩
    rw [takeAll_of_wordsSay say, ended]

end Said

def Setting.Takes : Setting → String → Prop
  | .assume, _ => True
  | .catalog, text => (Said.path? text).isSome
  | .output, text => (Output.ofWord? text).isSome
  | .level, text => (Log.Level.ofWord? text).isSome
  | .logFormat, text => (Log.Format.ofWord? text).isSome

structure Consistent (items : List Item) : Prop where
  switches : ∀ s : Switch, items.count (.switch s) ≤ 1
  settings : ∀ s ≠ Setting.assume, (Item.valuesOf s items).length ≤ 1
  readable : ∀ s : Setting, ∀ text ∈ Item.valuesOf s items, s.Takes text

def Item.Fits (items : List Item) : Item → Prop
  | .switch s => .switch s ∉ items
  | .setting s text => s.Takes text ∧ (s ≠ .assume → Item.valuesOf s items = [])
  | .task _ => True

def tally (items : List Item) : Said :=
  { tasks := items.filterMap Item.task?
    catalog := (Item.valuesOf .catalog items).head?.bind Said.path?
    assumed := Item.valuesOf .assume items
    output := (Item.valuesOf .output items).head?.bind Output.ofWord?
    check := decide (.switch .check ∈ items)
    list := decide (.switch .list ∈ items)
    quiet := decide (.switch .quiet ∈ items)
    level := (Item.valuesOf .level items).head?.bind Log.Level.ofWord?
    logFormat := (Item.valuesOf .logFormat items).head?.bind Log.Format.ofWord?
    json := decide (.switch .json ∈ items) }

variable {items : List Item} {item : Item} {said : Said}

theorem valuesOf_append (s : Setting) (items others : List Item) :
    Item.valuesOf s (items ++ others) = Item.valuesOf s items ++ Item.valuesOf s others :=
  List.filterMap_append

theorem valuesOf_switch (s : Setting) (switch : Switch) : Item.valuesOf s [.switch switch] = [] := rfl

theorem valuesOf_task (s : Setting) (name : Name) : Item.valuesOf s [.task name] = [] := rfl

theorem valuesOf_setting (s other : Setting) (text : String) :
    Item.valuesOf s [.setting other text] = if other = s then [text] else [] := by
  by_cases same : other = s <;> simp [Item.valuesOf, same]

theorem Consistent.before (consistent : Consistent (items ++ [item])) : Consistent items where
  switches s := by
    have := consistent.switches s
    rw [List.count_append] at this
    omega
  settings s single := by
    have := consistent.settings s single
    rw [valuesOf_append, List.length_append] at this
    omega
  readable s text present :=
    consistent.readable s text (valuesOf_append s items _ ▸ List.mem_append_left _ present)

theorem Consistent.fits (consistent : Consistent (items ++ [item])) : item.Fits items := by
  cases item with
  | task name => trivial
  | switch s =>
    have once := consistent.switches s
    rw [List.count_append, List.count_singleton_self] at once
    exact fun present => absurd (List.count_pos_iff.mpr present) (by omega)
  | setting s text =>
    have values : Item.valuesOf s (items ++ [.setting s text]) = Item.valuesOf s items ++ [text] := by
      rw [valuesOf_append, valuesOf_setting, if_pos rfl]
    refine ⟨consistent.readable s text (by simp [values]), fun single => ?_⟩
    have once := consistent.settings s single
    rw [values, List.length_append, List.length_singleton] at once
    exact List.length_eq_zero_iff.mp (by omega)

theorem Consistent.snoc (consistent : Consistent items) (fits : item.Fits items) :
    Consistent (items ++ [item]) where
  switches s := by
    rw [List.count_append]
    have once := consistent.switches s
    by_cases same : item = .switch s
    · subst same
      simp [List.count_eq_zero.mpr fits]
    · rw [List.count_singleton, beq_eq_false_iff_ne.mpr same]
      simpa using once
  settings s single := by
    rw [valuesOf_append]
    have once := consistent.settings s single
    cases item with
    | switch | task => simpa [valuesOf_switch, valuesOf_task] using once
    | setting other text =>
      rw [valuesOf_setting]
      split
      next same => simp [fits.2 (same ▸ single), ← same]
      next => simpa using once
  readable s text present := by
    rw [valuesOf_append, List.mem_append] at present
    rcases present with earlier | last
    · exact consistent.readable s text earlier
    · cases item with
      | switch | task => cases last
      | setting other value =>
        rw [valuesOf_setting] at last
        split at last
        next same =>
          obtain rfl := List.mem_singleton.mp last
          exact same ▸ fits.1
        next => cases last

theorem consistent_snoc_iff : Consistent (items ++ [item]) ↔ Consistent items ∧ item.Fits items :=
  ⟨fun consistent => ⟨consistent.before, consistent.fits⟩, fun both => both.1.snoc both.2⟩

theorem map_once_eq_ok_iff {old new : Option α} {put : Option α → Said} :
    (Said.once old new).map put = .ok said ↔ old = none ∧ new.isSome ∧ said = put new := by
  cases old with
  | some value => simp [Said.once, Except.map]
  | none =>
    cases new with
    | none => simp [Said.once, Except.map]
    | some value => simp [Said.once, Except.map, eq_comm]

theorem first_eq_none_iff {read : String → Option α} {values : List String}
    (readable : ∀ text ∈ values, (read text).isSome) : values.head?.bind read = none ↔ values = [] := by
  cases values with
  | nil => simp
  | cons text rest => simpa using (Option.isSome_iff_ne_none.mp (readable text List.mem_cons_self))

theorem tally_task (items : List Item) (name : Name) :
    tally (items ++ [.task name]) = { tally items with tasks := (tally items).tasks ++ [name] } := by
  simp [tally, valuesOf_append, valuesOf_task, Item.task?]

theorem tally_assume (items : List Item) (text : String) : tally (items ++ [.setting .assume text]) =
    { tally items with assumed := (tally items).assumed ++ [text] } := by
  simp [tally, valuesOf_append, valuesOf_setting, Item.task?]

theorem turnOn_tally_iff (s : Switch) :
    (tally items).turnOn s = .ok said ↔ .switch s ∉ items ∧ said = tally (items ++ [.switch s]) := by
  have no_task : [Item.switch s].filterMap Item.task? = [] := rfl
  by_cases present : .switch s ∈ items
  · cases s <;> simp [Said.turnOn, tally, present]
  · cases s <;> simp [Said.turnOn, tally, present, valuesOf_append, valuesOf_switch, no_task, @eq_comm _ said]

theorem once_tally_iff {setting : Setting} {text : String} {old new : Option α} {put : Option α → Said}
    (single : setting ≠ .assume) (free : old = none ↔ Item.valuesOf setting items = [])
    (takes : new.isSome ↔ setting.Takes text)
    (counted : Item.valuesOf setting items = [] → tally (items ++ [.setting setting text]) = put new) :
    (Said.once old new).map put = .ok said ↔
      Item.Fits items (.setting setting text) ∧ said = tally (items ++ [.setting setting text]) := by
  rw [map_once_eq_ok_iff, free, takes]
  constructor
  · rintro ⟨first, readable, rfl⟩
    exact ⟨⟨readable, fun _ => first⟩, (counted first).symm⟩
  · rintro ⟨⟨readable, first⟩, rfl⟩
    exact ⟨first single, readable, counted (first single)⟩

theorem add_tally_iff (consistent : Consistent items) :
    (tally items).add item = .ok said ↔ item.Fits items ∧ said = tally (items ++ [item]) := by
  cases item with
  | task name => simp [Said.add, Item.Fits, tally_task, @eq_comm _ said]
  | switch s => exact turnOn_tally_iff s
  | setting s text =>
    cases s with
    | assume => simp [Said.add, Said.assign, Item.Fits, Setting.Takes, tally_assume, @eq_comm _ said]
    | catalog =>
      refine once_tally_iff (by decide) (first_eq_none_iff (consistent.readable .catalog)) Iff.rfl fun first => ?_
      simp [tally, valuesOf_append, valuesOf_setting, first, Item.task?]
    | output =>
      refine once_tally_iff (by decide) (first_eq_none_iff (consistent.readable .output)) Iff.rfl fun first => ?_
      simp [tally, valuesOf_append, valuesOf_setting, first, Item.task?]
    | level =>
      refine once_tally_iff (by decide) (first_eq_none_iff (consistent.readable .level)) Iff.rfl fun first => ?_
      simp [tally, valuesOf_append, valuesOf_setting, first, Item.task?]
    | logFormat =>
      refine once_tally_iff (by decide) (first_eq_none_iff (consistent.readable .logFormat)) Iff.rfl fun first => ?_
      simp [tally, valuesOf_append, valuesOf_setting, first, Item.task?]

theorem foldlM_add_snoc (items : List Item) (item : Item) :
    (items ++ [item]).foldlM Said.add {} = (items.foldlM Said.add {}).bind (·.add item) := by
  simp only [List.foldlM_append, List.foldlM_cons, List.foldlM_nil, bind_pure]
  rfl

theorem foldlM_add_iff : items.foldlM Said.add {} = .ok said ↔ Consistent items ∧ said = tally items := by
  induction items using List.reverseRecOn generalizing said with
  | nil =>
    have nothing : Consistent [] := ⟨by simp, by simp [Item.valuesOf], by simp [Item.valuesOf]⟩
    constructor
    · intro ended
      cases ended
      exact ⟨nothing, rfl⟩
    · rintro ⟨_, rfl⟩
      rfl
  | append_singleton items item ih =>
    rw [foldlM_add_snoc, consistent_snoc_iff, and_assoc]
    constructor
    · intro ended
      cases before : items.foldlM Said.add {} with
      | error stop => rw [before] at ended; cases ended
      | ok earlier =>
        obtain ⟨consistent, rfl⟩ := ih.mp before
        rw [before] at ended
        exact ⟨consistent, (add_tally_iff consistent).mp ended⟩
    · rintro ⟨consistent, accepted⟩
      rw [ih.mpr ⟨consistent, rfl⟩]
      exact (add_tally_iff consistent).mpr accepted

theorem takeAll_iff {words : List Word} : Said.takeAll {} words = .ok said ↔
    ∃ items, WordsSay words items ∧ Consistent items ∧ said = tally items := by
  simp only [Said.takeAll_eq_ok_iff, foldlM_add_iff]

end BuildPlan.Invocation
