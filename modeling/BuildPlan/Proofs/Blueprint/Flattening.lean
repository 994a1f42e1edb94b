import BuildPlan.Proofs.Blueprint.Registration
import BuildPlan.Proofs.NameSet
import BuildPlan.Proofs.Text.Placeholder

namespace BuildPlan

open Text (Placeholder.isIn Placeholder.fill)

namespace Family

variable {f : Family} {target : Name}

-- Behind the hyphen stands the whole target, before it a name without a place.
theorem isIn_variant_of_suffix (suffix : f.isTemplate = false) :
    Placeholder.isIn (f.variant target).name = true ↔ Placeholder.isIn target = true := by
  have apart : '-' ∉ Text.Placeholder.hole := by decide
  have plain : Text.Placeholder.occurs f.name.toList ≠ true := by
    intro occurring
    exact absurd (suffix.symm.trans occurring) nofun
  have parted : Text.Placeholder.occurs (f.name.toList ++ '-' :: target.toList) = true ↔ _ :=
    Text.Placeholder.occurs_parted apart
  rw [variant, suffix]
  simpa [withTarget, Placeholder.isIn, plain] using parted

theorem isIn_variant_of_isIn (again : Placeholder.isIn target = true) :
    Placeholder.isIn (f.variant target).name = true := by
  cases mode : f.isTemplate with
  | false => exact (isIn_variant_of_suffix mode).mpr again
  | true =>
    rw [variant, if_pos mode, Placeholder.isIn, Placeholder.fill, String.toList_ofList,
      Text.Placeholder.occurs_iff]
    exact (Text.Placeholder.occurs_iff.mp again).trans (Text.Placeholder.infix_fillFrom mode)

-- The braces of a place come with the target, or stood in the name outside its places.
theorem brace_of_isIn_variant (template : f.isTemplate = true)
    (again : Placeholder.isIn (f.variant target).name = true) {brace : Char} (part : brace ∈ Text.Placeholder.hole) :
    brace ∈ target.toList ∨ brace ∈ (Placeholder.fill "" f.name).toList := by
  rw [variant, if_pos template, Placeholder.isIn, Placeholder.fill, String.toList_ofList,
    Text.Placeholder.occurs_iff] at again
  rw [Placeholder.fill, String.toList_ofList]
  exact Text.Placeholder.mem_fillFrom 0 (again.subset part)

end Family

theorem Catalog.assumeAll_eq (c : Catalog) (names : List Name) :
    c.assumeAll names = { c with assumed := c.assumed.insertAll names } := by
  induction names generalizing c with
  | nil => rfl
  | cons name rest ih => exact ih (c.assume name)

namespace Blueprint

variable {b : Blueprint} {c d : Catalog} {error : LoadError}

theorem tasks_of_toCatalog (made : b.toCatalog = .ok c) :
    (∀ entry ∈ b.entries, b.Sound entry) ∧ c.tasks = b.tasks ∧ c.assumed = NameSet.empty.insertAll b.assumed := by
  have ran := (b.run_register Draft.empty).trans (toCatalog_eq_ok_iff.mp made)
  obtain ⟨ended, rfl⟩ := Prod.mk.inj ran
  exact ⟨(register_ok_iff.mp ended).1, tasks_register_of_ok ended, assumed_register b .empty⟩

def requestFor (task : Task) : Request :=
  if Placeholder.isIn task.name then .refusal (.invalidEntry task.name .templateWithoutTargets) else .task task

theorem requestFor_open {task : Task} (again : Placeholder.isIn task.name = true) :
    requestFor task = .refusal (.invalidEntry task.name .templateWithoutTargets) := if_pos again

theorem map_requestFor {tasks : List Task} (plain : ∀ task ∈ tasks, Placeholder.isIn task.name = false) :
    tasks.map requestFor = tasks.map .task :=
  List.map_congr_left fun task member => if_neg (ne_true_of_eq_false (plain task member))

theorem requests_ofCatalog (c : Catalog) : (ofCatalog c).requests = c.tasks.map requestFor := by
  rw [requests, ofCatalog, List.flatMap_map]
  refine (List.flatMap_congr fun task _ => ?_).trans List.map_eq_flatMap.symm
  cases again : Placeholder.isIn task.name <;> simp [requestsOf, requestFor, again]

theorem start_ofCatalog (made : b.toCatalog = .ok c) :
    Catalog.empty.assumeAll (ofCatalog c).assumed = Catalog.empty.assumeAll b.assumed := by
  obtain ⟨_, _, assumed⟩ := tasks_of_toCatalog made
  have nothing : NameSet.empty.Remade := rfl
  have remade := nothing.insertAll b.assumed
  rw [Catalog.assumeAll_eq, Catalog.assumeAll_eq, ofCatalog, assumed, Catalog.assumed_empty, remade]

theorem toCatalog_ofCatalog_plain (made : b.toCatalog = .ok c)
    (plain : ∀ task ∈ c.tasks, Placeholder.isIn task.name = false) : (ofCatalog c).toCatalog = .ok c := by
  obtain ⟨sound, tasks, _⟩ := tasks_of_toCatalog made
  have asked : (ofCatalog c).requests = b.requests := by
    rw [requests_ofCatalog, requests_of_sound sound, map_requestFor plain, tasks]
  rw [toCatalog_eq_ok_iff, start_ofCatalog made, asked]
  exact toCatalog_eq_ok_iff.mp made

theorem toCatalog_ofCatalog_open {before after : List Task} {task : Task}
    (split : c.tasks = before ++ task :: after)
    (plain : ∀ earlier ∈ before, Placeholder.isIn earlier.name = false)
    (again : Placeholder.isIn task.name = true) :
    (ofCatalog c).toCatalog = .error (.invalidEntry task.name .templateWithoutTargets) := by
  have names : (Catalog.empty.assumeAll (ofCatalog c).assumed).names = [] := by
    rw [Catalog.names_assumeAll]
    rfl
  have distinct := c.names_nodup
  rw [Catalog.names, split, List.map_append, List.nodup_append] at distinct
  refine toCatalog_eq_error_iff.mpr (Catalog.pass_error_iff.mpr ⟨before, ⟨?_, ?_⟩⟩)
  · refine ⟨requestFor task, after.map requestFor, ?_, ?_⟩
    · rw [requests_ofCatalog, split, List.map_append, map_requestFor plain, List.map_cons]
    · rw [requestFor_open again]
      exact .refused _
  · rw [names, List.nil_append]
    exact distinct.1

theorem exists_first_open (tasks : List Task) :
    (∀ task ∈ tasks, Placeholder.isIn task.name = false) ∨
    ∃ before task after, tasks = before ++ task :: after ∧
      (∀ earlier ∈ before, Placeholder.isIn earlier.name = false) ∧ Placeholder.isIn task.name = true := by
  cases found : tasks.find? (fun task => Placeholder.isIn task.name) with
  | none => exact .inl (by simpa using found)
  | some task =>
    obtain ⟨again, before, after, split, plain⟩ := List.find?_eq_some_iff_append.mp found
    exact .inr ⟨before, task, after, split, by simpa using plain, again⟩

theorem toCatalog_ofCatalog (made : b.toCatalog = .ok c) :
    (∀ d, (ofCatalog c).toCatalog = .ok d ↔ d = c ∧ ∀ task ∈ c.tasks, Placeholder.isIn task.name = false) ∧
    (∀ error, (ofCatalog c).toCatalog = .error error ↔ ∃ before task after, c.tasks = before ++ task :: after ∧
      (∀ earlier ∈ before, Placeholder.isIn earlier.name = false) ∧ Placeholder.isIn task.name = true ∧
      error = .invalidEntry task.name .templateWithoutTargets) := by
  rcases exists_first_open c.tasks with plain | ⟨before, task, after, split, plain, again⟩
  · have same := toCatalog_ofCatalog_plain made plain
    refine ⟨fun d => ?_, fun error => ?_⟩
    · rw [same]
      exact ⟨fun equal => ⟨(Except.ok.inj equal).symm, plain⟩, fun ⟨equal, _⟩ => equal ▸ rfl⟩
    · rw [same]
      refine ⟨nofun, ?_⟩
      rintro ⟨before, task, after, split, _, again, _⟩
      have member : task ∈ c.tasks := split ▸ List.mem_append_right before List.mem_cons_self
      exact absurd again (ne_true_of_eq_false (plain task member))
  · have refused := toCatalog_ofCatalog_open split plain again
    refine ⟨fun d => ?_, fun error => ?_⟩
    · rw [refused]
      refine ⟨nofun, ?_⟩
      rintro ⟨_, all_plain⟩
      have member : task ∈ c.tasks := split ▸ List.mem_append_right before List.mem_cons_self
      exact absurd again (ne_true_of_eq_false (all_plain task member))
    · constructor
      · intro failed
        exact ⟨before, task, after, split, plain, again, (Except.error.inj (refused.symm.trans failed)).symm⟩
      · rintro ⟨_, _, _, split, plain, again, rfl⟩
        exact toCatalog_ofCatalog_open split plain again

theorem tasksOf_of_sound {entry : Entry} (sound : b.Sound entry) :
    (b.targetsFor entry = .ok none ∧ b.tasksOf entry = [⟨entry.name, entry.needs⟩] ∧
      Placeholder.isIn entry.name = false) ∨
    ∃ targets, b.targetsFor entry = .ok (some targets) ∧
      b.tasksOf entry = (b.familyOf entry targets).variants := by
  unfold targetsFor tasksOf
  cases chosen : entry.targets with
  | none => exact .inl ⟨rfl, rfl, (sound.single chosen).2⟩
  | some selection =>
    cases selection with
    | list targets => exact .inr ⟨targets, rfl, rfl⟩
    | group group =>
      cases found : b.groups.lookup group with
      | none => exact absurd (sound.declared group chosen) (lookup_eq_none_iff.mp found)
      | some targets => exact .inr ⟨targets, by simp only [found], by simp only [found, Option.getD_some]⟩

-- A registered task is the one task of its entry, or the variant for one of the targets that remain.
theorem origin (made : b.toCatalog = .ok c) {task : Task} (member : task ∈ c.tasks) : ∃ entry ∈ b.entries,
    (b.targetsFor entry = .ok none ∧ task = ⟨entry.name, entry.needs⟩ ∧ Placeholder.isIn task.name = false) ∨
    ∃ targets target, b.targetsFor entry = .ok (some targets) ∧
      target ∈ (b.familyOf entry targets).remainingTargets ∧ task = (b.familyOf entry targets).variant target := by
  obtain ⟨sound, tasks, _⟩ := tasks_of_toCatalog made
  rw [tasks] at member
  obtain ⟨entry, known, member⟩ := List.mem_flatMap.mp member
  refine ⟨entry, known, ?_⟩
  rcases tasksOf_of_sound (sound entry known) with ⟨chosen, single, plain⟩ | ⟨targets, chosen, variants⟩
  · rw [single] at member
    cases List.mem_singleton.mp member
    exact .inl ⟨chosen, rfl, plain⟩
  · rw [variants] at member
    obtain ⟨target, remains, same⟩ := List.mem_map.mp member
    exact .inr ⟨targets, target, chosen, remains, same.symm⟩

-- Around a target that is put in, the name could make up a place.
def CanReopen (name target : Name) : Prop :=
  Placeholder.isIn name = true ∧
    ∀ part ∈ Text.Placeholder.hole, part ∈ target.toList ∨ part ∈ (Placeholder.fill "" name).toList

theorem isIn_variant (b : Blueprint) (entry : Entry) (targets : List Name) {target : Name}
    (again : Placeholder.isIn ((b.familyOf entry targets).variant target).name = true) :
    Placeholder.isIn target = true ∨ CanReopen entry.name target := by
  cases mode : (b.familyOf entry targets).isTemplate with
  | false => exact .inl ((Family.isIn_variant_of_suffix mode).mp again)
  | true => exact .inr ⟨mode, fun _ => Family.brace_of_isIn_variant mode again⟩

-- Only a target brings a place into the name of a task; and a catalog without such a task, and no other,
-- can be written down task by task and is made from that again.
theorem flattens_without_places (b : Blueprint) (c : Catalog) (made : b.toCatalog = .ok c) :
    (∀ task ∈ c.tasks, ∃ entry ∈ b.entries,
      (b.targetsFor entry = .ok none ∧ task = ⟨entry.name, entry.needs⟩ ∧
        Placeholder.isIn task.name = false) ∨
      ∃ targets target, b.targetsFor entry = .ok (some targets) ∧
        target ∈ (b.familyOf entry targets).remainingTargets ∧
        task = (b.familyOf entry targets).variant target ∧
        (Placeholder.isIn target = true → Placeholder.isIn task.name = true) ∧
        (Placeholder.isIn task.name = true → Placeholder.isIn target = true ∨ CanReopen entry.name target)) ∧
    (∀ d, (ofCatalog c).toCatalog = .ok d ↔ d = c ∧ ∀ task ∈ c.tasks, Placeholder.isIn task.name = false) ∧
    (∀ error, (ofCatalog c).toCatalog = .error error ↔ ∃ before task after, c.tasks = before ++ task :: after ∧
      (∀ earlier ∈ before, Placeholder.isIn earlier.name = false) ∧ Placeholder.isIn task.name = true ∧
      error = .invalidEntry task.name .templateWithoutTargets) := by
  refine ⟨fun task member => ?_, toCatalog_ofCatalog made⟩
  obtain ⟨entry, known, single | ⟨targets, target, chosen, remains, rfl⟩⟩ := origin made member
  · exact ⟨entry, known, .inl single⟩
  · exact ⟨entry, known, .inr ⟨targets, target, chosen, remains, rfl, Family.isIn_variant_of_isIn,
      b.isIn_variant entry targets⟩⟩

-- A target that is itself a place, and one that closes a place around it.
def reopening : Blueprint :=
  { entries := [{ name := "cc" },
      { name := "x", targets := some (.list ["win", "\x7btarget\x7d"]) },
      { name := "\x7btar\x7btarget\x7d\x7d", targets := some (.list ["get"]) }] }

theorem reopening_not_flattened : ∃ c, reopening.toCatalog = .ok c ∧
    c.names = ["cc", "x-win", "x-\x7btarget\x7d", "\x7btarget\x7d"] ∧
    (∃ task ∈ c.tasks, Placeholder.isIn task.name = true) ∧
    (ofCatalog c).toCatalog = .error (.invalidEntry "x-\x7btarget\x7d" .templateWithoutTargets) :=
  ⟨_, rfl, rfl, ⟨⟨"x-\x7btarget\x7d", []⟩, by decide, rfl⟩, rfl⟩

def closed : Blueprint :=
  { assumed := ["cc", "cc"]
    targetNeeds := ["gcc-\x7btarget\x7d"]
    entries := [{ name := "gcc-\x7btarget\x7d", needs := ["cc"], targets := some (.list ["win", "dos"]) },
      { name := "zlib", targets := some (.list ["win", "dos"]), exclude := ["dos"] }] }

theorem closed_flattened : ∃ c, closed.toCatalog = .ok c ∧ c.names = ["gcc-win", "gcc-dos", "zlib-win"] ∧
    (ofCatalog c).toCatalog = .ok c := by
  refine ⟨_, rfl, rfl, ?_⟩
  obtain ⟨_, accepted, _⟩ := flattens_without_places closed _ rfl
  exact (accepted _).mpr ⟨rfl, by decide⟩

end Blueprint
end BuildPlan
