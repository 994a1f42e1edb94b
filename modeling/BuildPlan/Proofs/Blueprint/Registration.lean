import Mathlib.Data.List.Basic
import Mathlib.Tactic.ByContra
import BuildPlan.Blueprint
import BuildPlan.Failure
import BuildPlan.Proofs.Draft.Pass

namespace BuildPlan.Blueprint

variable {b : Blueprint} {entry : Entry} {draft : Draft} {error : LoadError}

-- What is asked of a draft by an entry: a group is looked up before anything else.
def requestsOf (b : Blueprint) (entry : Entry) : List Request :=
  match entry.targets with
  | none =>
    if entry.exclude ≠ [] then [.refusal (.invalidEntry entry.name .excludeWithoutTargets)]
    else if Text.Placeholder.isIn entry.name then
      [.refusal (.invalidEntry entry.name .templateWithoutTargets)]
    else [.task ⟨entry.name, entry.needs⟩]
  | some (.list targets) => (b.familyOf entry targets).variants.map .task
  | some (.group group) =>
    match b.groups.lookup group with
    | none => [.refusal (.unknownGroup entry.name group)]
    | some targets => (b.familyOf entry targets).variants.map .task

def requests (b : Blueprint) : List Request := b.entries.flatMap b.requestsOf

structure Sound (b : Blueprint) (entry : Entry) : Prop where
  declared : ∀ group, entry.targets = some (.group group) → group ∈ b.groups.map Prod.fst
  single : entry.targets = none → entry.exclude = [] ∧ Text.Placeholder.isIn entry.name = false

theorem sound_iff : b.Sound entry ↔
    match entry.targets with
    | none => entry.exclude = [] ∧ Text.Placeholder.isIn entry.name = false
    | some (.list _) => True
    | some (.group group) => group ∈ b.groups.map Prod.fst := by
  cases chosen : entry.targets with
  | none => exact ⟨fun sound => sound.single chosen, fun single => ⟨by simp [chosen], fun _ => single⟩⟩
  | some selection =>
    cases selection with
    | list targets => exact ⟨fun _ => trivial, fun _ => ⟨by simp [chosen], by simp [chosen]⟩⟩
    | group group =>
      refine ⟨fun sound => sound.declared group chosen, fun declared => ⟨?_, by simp [chosen]⟩⟩
      intro other same
      cases chosen.symm.trans same
      exact declared

instance (b : Blueprint) (entry : Entry) : Decidable (b.Sound entry) :=
  match chosen : entry.targets with
  | none =>
    decidable_of_iff (entry.exclude = [] ∧ Text.Placeholder.isIn entry.name = false) (by simp [sound_iff, chosen])
  | some (.list _) => isTrue (by simp [sound_iff, chosen])
  | some (.group group) => decidable_of_iff (group ∈ b.groups.map Prod.fst) (by simp [sound_iff, chosen])

def tasksOf (b : Blueprint) (entry : Entry) : List Task :=
  match entry.targets with
  | none => [⟨entry.name, entry.needs⟩]
  | some (.list targets) => (b.familyOf entry targets).variants
  | some (.group group) => (b.familyOf entry ((b.groups.lookup group).getD [])).variants

def tasks (b : Blueprint) : List Task := b.entries.flatMap b.tasksOf

theorem lookup_eq_none_iff {groups : List (Name × List Name)} {group : Name} :
    groups.lookup group = none ↔ group ∉ groups.map Prod.fst := by
  rw [List.lookup_eq_none_iff, List.mem_map]
  constructor
  · rintro absent ⟨pair, member, rfl⟩
    simpa using absent pair member
  · intro absent pair member
    have different : group ≠ pair.1 := fun same => absent ⟨pair, member, same.symm⟩
    simpa using different

theorem requestsOf_sound (sound : b.Sound entry) : b.requestsOf entry = (b.tasksOf entry).map .task := by
  unfold requestsOf tasksOf
  cases chosen : entry.targets with
  | none =>
    obtain ⟨no_exclude, plain⟩ := sound.single chosen
    simp [no_exclude, plain]
  | some selection =>
    cases selection with
    | list targets => rfl
    | group group =>
      cases found : b.groups.lookup group with
      | none => exact absurd (sound.declared group chosen) (lookup_eq_none_iff.mp found)
      | some targets => simp [found]

theorem requestsOf_unsound (unsound : ¬ b.Sound entry) :
    ∃ error, b.requestsOf entry = [.refusal error] := by
  unfold requestsOf
  cases chosen : entry.targets with
  | none =>
    by_cases no_exclude : entry.exclude = []
    · cases plain : Text.Placeholder.isIn entry.name with
      | true => simp [no_exclude]
      | false => exact absurd ⟨by simp [chosen], fun _ => ⟨no_exclude, plain⟩⟩ unsound
    · simp [no_exclude]
  | some selection =>
    cases selection with
    | list targets => exact absurd ⟨by simp [chosen], by simp [chosen]⟩ unsound
    | group group =>
      cases found : b.groups.lookup group with
      | none => simp [found]
      | some targets =>
        refine absurd ⟨?_, by simp [chosen]⟩ unsound
        intro other same
        cases chosen.symm.trans same
        by_contra lost
        rw [lookup_eq_none_iff.mpr lost] at found
        cases found

theorem requests_of_sound (sound : ∀ entry ∈ b.entries, b.Sound entry) :
    b.requests = b.tasks.map .task := by
  rw [requests, tasks, List.map_flatMap]
  exact List.flatMap_congr fun entry member => requestsOf_sound (sound entry member)

theorem requests_eq_iff {planned : List Task} :
    b.requests = planned.map .task ↔ (∀ entry ∈ b.entries, b.Sound entry) ∧ planned = b.tasks := by
  have injective : Function.Injective Request.task := fun _ _ same => Request.task.inj same
  constructor
  · intro same
    have sound : ∀ entry ∈ b.entries, b.Sound entry := by
      intro entry member
      by_contra unsound
      obtain ⟨error, refused⟩ := requestsOf_unsound unsound
      have asked : Request.refusal error ∈ b.requests :=
        List.mem_flatMap.mpr ⟨entry, member, refused ▸ List.mem_singleton.mpr rfl⟩
      rw [same] at asked
      obtain ⟨task, _, equal⟩ := List.mem_map.mp asked
      cases equal
    rw [requests_of_sound sound] at same
    exact ⟨sound, (List.map_injective_iff.mpr injective same).symm⟩
  · rintro ⟨sound, rfl⟩
    exact requests_of_sound sound

open Drafting

theorem registerEntry_passes (b : Blueprint) (entry : Entry) :
    Passes (b.registerEntry entry) (b.requestsOf entry) := by
  unfold registerEntry requestsOf targetsFor
  cases entry.targets with
  | none =>
    unfold Entry.defect?
    by_cases no_exclude : entry.exclude = []
    · cases plain : Text.Placeholder.isIn entry.name with
      | true => simpa [no_exclude] using Passes.fail _
      | false => simpa [no_exclude] using Passes.register _
    · simpa [no_exclude] using Passes.fail _
  | some selection =>
    cases selection with
    | list targets => exact Passes.family _
    | group group =>
      cases found : b.groups.lookup group with
      | none => simpa [found] using Passes.fail _
      | some targets => simpa [found] using Passes.family _

theorem run_assumeAll (names : List Name) (draft : Draft) :
    (Draft.assumeAll names).run.run draft = (.ok (), { draft with catalog := draft.catalog.assumeAll names }) := by
  induction names generalizing draft with
  | nil => rfl
  | cons name rest ih => exact ih { draft with catalog := draft.catalog.assume name }

theorem run_register (b : Blueprint) (draft : Draft) :
    ((b.register.run.run draft).1, (b.register.run.run draft).2.catalog) =
      (draft.catalog.assumeAll b.assumed).pass b.requests := by
  have entries : Passes (b.entries.forM b.registerEntry) b.requests :=
    Passes.forM fun entry _ => b.registerEntry_passes entry
  rw [register, run_seq, run_assumeAll]
  exact entries _

theorem answer_register (b : Blueprint) (draft : Draft) : (b.register.run.run draft).1 =
    ((draft.catalog.assumeAll b.assumed).pass b.requests).1 := congrArg Prod.fst (b.run_register draft)

theorem catalog_register (b : Blueprint) (draft : Draft) : (b.register.run.run draft).2.catalog =
    ((draft.catalog.assumeAll b.assumed).pass b.requests).2 := congrArg Prod.snd (b.run_register draft)

theorem assumed_register (b : Blueprint) (draft : Draft) :
    (b.register.run.run draft).2.catalog.assumed = draft.catalog.assumed.insertAll b.assumed := by
  rw [catalog_register, Catalog.assumed_pass, Catalog.assumed_assumeAll]

theorem register_ok_iff : (b.register.run.run draft).1 = .ok () ↔
    (∀ entry ∈ b.entries, b.Sound entry) ∧ (draft.catalog.names ++ b.tasks.map Task.name).Nodup := by
  rw [answer_register, Catalog.pass_ok_iff, Catalog.names_assumeAll]
  simp only [requests_eq_iff, and_assoc, exists_and_left, exists_eq_left]

theorem tasks_register_of_ok (ended : (b.register.run.run draft).1 = .ok ()) :
    (b.register.run.run draft).2.catalog.tasks = draft.catalog.tasks ++ b.tasks := by
  obtain ⟨sound, distinct⟩ := register_ok_iff.mp ended
  rw [← Catalog.names_assumeAll draft.catalog b.assumed] at distinct
  rw [catalog_register, requests_of_sound sound, (Catalog.pass_tasks distinct).2, Catalog.tasks_assumeAll]

theorem register_error_iff : (b.register.run.run draft).1 = .error error ↔
    ∃ done, draft.catalog.StopsAt b.requests done error ∧
      (b.register.run.run draft).2.catalog.tasks = draft.catalog.tasks ++ done := by
  have same := Catalog.tasks_assumeAll draft.catalog b.assumed
  rw [answer_register, catalog_register, Catalog.pass_error_iff]
  constructor
  · rintro ⟨done, stops⟩
    exact ⟨done, stops.congr same, by rw [stops.pass.2, same]⟩
  · rintro ⟨done, stops, _⟩
    exact ⟨done, stops.congr same.symm⟩

-- Whatever the draft holds already, it keeps; what is asked for comes behind it, up to the first offence.
theorem registration_is_one_pass (b : Blueprint) (draft : Draft) :
    let answer := (b.register.run.run draft).1
    let after := (b.register.run.run draft).2.catalog
    (answer, after) = (draft.catalog.assumeAll b.assumed).pass b.requests ∧
    after.assumed = draft.catalog.assumed.insertAll b.assumed ∧
    (answer = .ok () ↔ (∀ entry ∈ b.entries, b.Sound entry) ∧
      (draft.catalog.names ++ b.tasks.map Task.name).Nodup) ∧
    (answer = .ok () → after.tasks = draft.catalog.tasks ++ b.tasks) ∧
    (∀ error, answer = .error error ↔
      ∃ done, draft.catalog.StopsAt b.requests done error ∧ after.tasks = draft.catalog.tasks ++ done) := by
  intro answer after
  exact ⟨b.run_register draft, b.assumed_register draft, register_ok_iff, tasks_register_of_ok,
    fun _ => register_error_iff⟩

-- Good from scratch; a draft that knows the second variant of its family stops it in the middle.
def ports : Blueprint :=
  { assumed := ["cc"]
    targetNeeds := ["gcc-\x7btarget\x7d"]
    groups := [("all", ["win", "mac", "dos"])]
    entries := [{ name := "base" },
      { name := "lib", needs := ["z"], targets := some (.group "all"), exclude := ["mac"] }] }

def settled : Draft := .ofCatalog (Catalog.empty.add ⟨"lib-dos", ["old"]⟩ rfl)

theorem ports_in_one_pass :
    ((ports.register.run.run Draft.empty).1 = .ok () ∧
      (ports.register.run.run Draft.empty).2.catalog.tasks =
        [⟨"base", []⟩, ⟨"lib-win", ["gcc-win", "z-win"]⟩, ⟨"lib-dos", ["gcc-dos", "z-dos"]⟩]) ∧
    (ports.register.run.run settled).1 = .error (.fault (.duplicate "lib-dos")) ∧
      ∃ done, settled.catalog.StopsAt ports.requests done (.fault (.duplicate "lib-dos")) ∧
        (ports.register.run.run settled).2.catalog.tasks = settled.catalog.tasks ++ done := by
  obtain ⟨_, _, _, complete, _⟩ := registration_is_one_pass ports Draft.empty
  obtain ⟨_, _, _, _, failing⟩ := registration_is_one_pass ports settled
  have good : (ports.register.run.run Draft.empty).1 = .ok () := by rfl
  have bad : (ports.register.run.run settled).1 = .error (.fault (.duplicate "lib-dos")) := by rfl
  exact ⟨⟨good, (complete good).trans (by rfl)⟩, bad, (failing _).mp bad⟩

variable {c : Catalog}

theorem toCatalog_eq (b : Blueprint) : b.toCatalog =
    match (Catalog.empty.assumeAll b.assumed).pass b.requests with
    | (.ok (), c) => .ok c
    | (.error error, _) => .error error := by
  have ran := b.run_register Draft.empty
  change _ = (Catalog.empty.assumeAll b.assumed).pass b.requests at ran
  rw [← ran, toCatalog, expand]
  rcases b.register.run.run Draft.empty with ⟨_ | _, draft⟩ <;> rfl

theorem toCatalog_eq_ok_iff :
    b.toCatalog = .ok c ↔ (Catalog.empty.assumeAll b.assumed).pass b.requests = (.ok (), c) := by
  rw [toCatalog_eq]
  rcases (Catalog.empty.assumeAll b.assumed).pass b.requests with ⟨_ | _, d⟩ <;> simp

theorem toCatalog_eq_error_iff :
    b.toCatalog = .error error ↔ ((Catalog.empty.assumeAll b.assumed).pass b.requests).1 = .error error := by
  rw [toCatalog_eq]
  rcases (Catalog.empty.assumeAll b.assumed).pass b.requests with ⟨_ | _, d⟩ <;> simp

theorem exists_toCatalog_iff : (∃ c, b.toCatalog = .ok c) ↔
    (∀ entry ∈ b.entries, b.Sound entry) ∧ (b.tasks.map Task.name).Nodup := by
  have registered : (b.register.run.run Draft.empty).1 = .ok () ↔
      (∀ entry ∈ b.entries, b.Sound entry) ∧ (b.tasks.map Task.name).Nodup := register_ok_iff
  rw [answer_register] at registered
  rw [← registered, toCatalog_eq]
  change _ ↔ ((Catalog.empty.assumeAll b.assumed).pass b.requests).1 = _
  rcases (Catalog.empty.assumeAll b.assumed).pass b.requests with ⟨_ | _, c⟩ <;> simp

theorem refusal_blame (asked : Request.refusal error ∈ b.requests) :
    Failure.Kind.ofLoadError error = .config := by
  obtain ⟨entry, _, mem⟩ := List.mem_flatMap.mp asked
  have no_task : ∀ tasks : List Task, Request.refusal error ∉ tasks.map .task := by simp
  unfold requestsOf at mem
  split at mem
  · split at mem
    · cases List.mem_singleton.mp mem
      rfl
    · split at mem
      · cases List.mem_singleton.mp mem
        rfl
      · cases List.mem_singleton.mp mem
  · exact absurd mem (no_task _)
  · split at mem
    · cases List.mem_singleton.mp mem
      rfl
    · exact absurd mem (no_task _)

theorem toCatalog_blame (failed : b.toCatalog = .error error) : Failure.Kind.ofLoadError error = .config := by
  obtain ⟨done, ⟨request, later, split, offends⟩, _⟩ :=
    Catalog.pass_error_iff.mp (toCatalog_eq_error_iff.mp failed)
  cases offends with
  | refused =>
    have asked : Request.refusal error ∈ b.requests := by
      rw [split]
      exact List.mem_append_right _ List.mem_cons_self
    exact refusal_blame asked
  | duplicate => rfl

end BuildPlan.Blueprint
