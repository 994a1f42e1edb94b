import Mathlib.Data.List.Nodup
import BuildPlan.Proofs.Blueprint.Grounding

namespace BuildPlan

namespace Family

variable {f : Family} {target : Name} {targets : List Name}

theorem variant_name_injective (f : Family) : Function.Injective fun target => (f.variant target).name := by
  intro one two same
  cases mode : f.isTemplate with
  | true =>
    simp only [variant, mode, if_true] at same
    exact (Text.Placeholder.fill_inj mode).mp same
  | false =>
    -- Behind the name and the hyphen stands the whole target, whatever it holds itself.
    simp only [variant, mode] at same
    have chars := congrArg String.toList same
    rw [if_neg Bool.false_ne_true, if_neg Bool.false_ne_true, toList_withTarget, toList_withTarget] at chars
    exact String.toList_inj.mp (List.cons.inj (List.append_cancel_left chars)).2

theorem nodup_names_iff (f : Family) : ((targets.map f.variant).map Task.name).Nodup ↔ targets.Nodup := by
  rw [List.map_map]
  exact List.nodup_map_iff f.variant_name_injective

theorem mem_names_iff (f : Family) :
    (f.variant target).name ∈ (targets.map f.variant).map Task.name ↔ target ∈ targets := by
  rw [List.map_map]
  exact List.mem_map_of_injective f.variant_name_injective

-- The first target that was there before, and the targets in front of it.
structure FirstRepeated (targets before : List Name) (target : Name) : Prop where
  split : ∃ later, targets = before ++ target :: later
  distinct : before.Nodup
  again : target ∈ before

end Family

namespace Draft

open Family (FirstRepeated)

variable {f : Family} {c : Catalog} {tasks done : List Task} {error : LoadError}

theorem requests_inj {tasks others : List Task} :
    tasks.map Request.task = others.map Request.task ↔ tasks = others :=
  (List.map_injective_iff.mpr fun _ _ same => Request.task.inj same).eq_iff

theorem pass_variants_ok_iff (f : Family) (nothing : c.names = []) :
    (c.pass (f.variants.map .task)).1 = .ok () ↔ f.remainingTargets.Nodup := by
  rw [Catalog.pass_ok_iff, nothing]
  simp only [requests_inj, List.nil_append, exists_eq_left', Family.variants, f.nodup_names_iff]

theorem stopsAt_variants_iff (f : Family) (nothing : c.names = []) :
    c.StopsAt (f.variants.map .task) done error ↔ ∃ before target,
      FirstRepeated f.remainingTargets before target ∧ done = before.map f.variant ∧
        error = .fault (.duplicate (f.variant target).name) := by
  constructor
  · rintro ⟨⟨request, later, split, offends⟩, distinct⟩
    rw [nothing, List.nil_append] at distinct offends
    rw [Family.variants, List.map_map, List.map_eq_append_iff] at split
    obtain ⟨before, rest, split, front, back⟩ := split
    obtain ⟨target, later, rfl, rfl, _⟩ := List.map_eq_cons_iff.mp back
    rw [← List.map_map, requests_inj] at front
    subst front
    cases offends with
    | duplicate taken =>
      exact ⟨before, target, ⟨⟨later, split⟩, f.nodup_names_iff.mp distinct, f.mem_names_iff.mp taken⟩, rfl, rfl⟩
  · rintro ⟨before, target, ⟨⟨later, split⟩, distinct, again⟩, rfl, rfl⟩
    constructor
    · refine ⟨.task (f.variant target), (later.map f.variant).map .task, ?_, ?_⟩
      · rw [Family.variants, split, List.map_append, List.map_append, List.map_cons, List.map_cons]
      · rw [nothing, List.nil_append]
        exact .duplicate (f.mem_names_iff.mpr again)
    · rw [nothing, List.nil_append]
      exact f.nodup_names_iff.mpr distinct

theorem run_multiply (f : Family) (draft : Draft) :
    (((multiply f).run.run draft).1, ((multiply f).run.run draft).2.catalog) =
      ((draft.catalog.pass (f.variants.map .task)).1.map fun _ => f.variants.length,
        (draft.catalog.pass (f.variants.map .task)).2) := by
  have passes := Drafting.Passes.family f draft
  rw [← passes, multiply, Drafting.run_seq]
  rcases (registerFamily f).run.run draft with ⟨_ | _, after⟩ <;> rfl

end Draft

-- Into a draft without tasks: all variants in the order of their targets, or all up to the first target
-- that comes again.
theorem Family.multiplies_without_collision (f : Family) :
    ((f.variants.map Task.name).Nodup ↔ f.remainingTargets.Nodup) ∧
    ∀ draft : Draft, draft.catalog.tasks = [] →
      let answer := ((Draft.multiply f).run.run draft).1
      let registered := ((Draft.multiply f).run.run draft).2.catalog.tasks
      (∀ count, answer = .ok count ↔ f.remainingTargets.Nodup ∧ count = f.remainingTargets.length) ∧
      (f.remainingTargets.Nodup → registered = f.remainingTargets.map f.variant) ∧
      ∀ error, answer = .error error ↔ ∃ before target, FirstRepeated f.remainingTargets before target ∧
        error = .fault (.duplicate (f.variant target).name) ∧ registered = before.map f.variant := by
  refine ⟨f.nodup_names_iff, fun draft nothing => ?_⟩
  have free : draft.catalog.names = [] := by rw [Catalog.names, nothing, List.map_nil]
  obtain ⟨answered, filled⟩ := Prod.mk.inj (Draft.run_multiply f draft)
  rw [answered, filled]
  refine ⟨fun count => ?_, fun distinct => ?_, fun error => ?_⟩
  · rw [← Draft.pass_variants_ok_iff f free, Family.variants, List.length_map]
    cases (draft.catalog.pass ((f.remainingTargets.map f.variant).map .task)).1 <;> simp [Except.map, eq_comm]
  · have fits : (draft.catalog.names ++ f.variants.map Task.name).Nodup := by
      rw [free]
      exact f.nodup_names_iff.mpr distinct
    rw [(Catalog.pass_tasks fits).2, nothing]
    rfl
  · have failed : (draft.catalog.pass (f.variants.map .task)).1.map (fun _ => f.variants.length) = .error error ↔
        (draft.catalog.pass (f.variants.map .task)).1 = .error error := by
      cases (draft.catalog.pass (f.variants.map .task)).1 <;> simp [Except.map]
    rw [failed, Catalog.pass_error_iff]
    constructor
    · rintro ⟨done, stops⟩
      obtain ⟨before, target, repeated, rfl, rfl⟩ := (Draft.stopsAt_variants_iff f free).mp stops
      exact ⟨before, target, repeated, rfl, by rw [stops.pass.2, nothing, List.nil_append]⟩
    · rintro ⟨before, target, repeated, rfl, _⟩
      exact ⟨_, (Draft.stopsAt_variants_iff f free).mpr ⟨before, target, repeated, rfl, rfl⟩⟩

def echoing : Family :=
  { name := "lib\x7btarget\x7d\x7btarget\x7d", needs := ["cc", "z-\x7btarget\x7d"],
    targets := ["win", "\x7btarget\x7d", "mac", "win", "dos", "mac"], exclude := ["mac"], targetNeeds := [] }

def echoingOnce : Family := { echoing with exclude := ["win", "mac"] }

theorem Family.echoing_stops_at_win :
    Draft.empty.catalog.tasks = [] ∧ FirstRepeated echoing.remainingTargets ["win", "\x7btarget\x7d"] "win" ∧
    ((Draft.multiply echoing).run.run .empty).1 = .error (.fault (.duplicate "libwinwin")) ∧
    ((Draft.multiply echoing).run.run .empty).2.catalog.tasks =
      [⟨"libwinwin", ["cc", "z-win"]⟩, ⟨"lib\x7btarget\x7d\x7btarget\x7d", ["cc", "z-\x7btarget\x7d"]⟩] ∧
    echoingOnce.remainingTargets.Nodup ∧ ((Draft.multiply echoingOnce).run.run .empty).1 = .ok 2 ∧
    ((Draft.multiply echoingOnce).run.run .empty).2.catalog.names =
      ["lib\x7btarget\x7d\x7btarget\x7d", "libdosdos"] := by
  have nothing : Draft.empty.catalog.tasks = [] := rfl
  have first : FirstRepeated echoing.remainingTargets ["win", "\x7btarget\x7d"] "win" :=
    ⟨⟨["dos"], by decide⟩, by decide, by decide⟩
  have once : echoingOnce.remainingTargets.Nodup := by decide
  obtain ⟨_, _, stopped⟩ := (multiplies_without_collision echoing).2 .empty nothing
  obtain ⟨whole, filled, _⟩ := (multiplies_without_collision echoingOnce).2 .empty nothing
  refine ⟨nothing, first, (stopped _).mpr ⟨_, _, first, rfl, by rfl⟩, by rfl, once, (whole 2).mpr ⟨once, rfl⟩, ?_⟩
  rw [Catalog.names, filled once]
  rfl

end BuildPlan
