import Mathlib.Data.List.Basic
import Mathlib.Data.List.Nodup
import BuildPlan.Proofs.Blueprint.Flattening
import BuildPlan.Proofs.Catalog.Needs

namespace BuildPlan

open Text (Placeholder.fill)

namespace Family

variable {stem stem' target target' : Name}

theorem toList_withTarget (stem target : Name) :
    (withTarget stem target).toList = stem.toList ++ '-' :: target.toList := by
  simp [withTarget]

theorem withTarget_inj (whole : '-' ∉ target.toList) (whole' : '-' ∉ target'.toList) :
    withTarget stem target = withTarget stem' target' ↔ stem = stem' ∧ target = target' := by
  constructor
  · intro same
    have chars := congrArg String.toList same
    rw [toList_withTarget, toList_withTarget, List.append_eq_append_iff] at chars
    rcases chars with ⟨more, longer, behind⟩ | ⟨more, longer, behind⟩
    · rcases List.cons_eq_append_iff.mp behind with ⟨rfl, rest⟩ | ⟨further, rfl, rest⟩
      · simp_all [String.toList_inj]
      · exact absurd (by simp [rest]) whole
    · rcases List.cons_eq_append_iff.mp behind with ⟨rfl, rest⟩ | ⟨further, rfl, rest⟩
      · simp_all [String.toList_inj]
      · exact absurd (by simp [rest]) whole'
  · rintro ⟨rfl, rfl⟩
    rfl

theorem fill_withTarget (plain : '{' ∉ stem.toList) :
    Placeholder.fill target (withTarget stem "\x7btarget\x7d") = withTarget stem target := by
  have place : "\x7btarget\x7d".toList = Text.Placeholder.hole := by decide
  have filled : Text.Placeholder.fillFrom target.toList 0 ('-' :: Text.Placeholder.hole) = '-' :: target.toList := by
    simp [Text.Placeholder.hole, Text.Placeholder.fillFrom]
  rw [← String.toList_inj, toList_withTarget, Placeholder.fill, String.toList_ofList, toList_withTarget, place,
    Text.Placeholder.fillFrom_append plain, filled]

end Family

structure Naming where
  stem : Name
  lasts : List Name

namespace Naming

def names (n : Naming) : List Name := n.lasts.map (Family.withTarget n.stem)

-- No last part can be taken apart again, and none comes twice.
structure Tidy (n : Naming) : Prop where
  distinct : n.lasts.Nodup
  whole : ∀ last ∈ n.lasts, '-' ∉ last.toList

def Apart (one two : Naming) : Prop := one.stem ≠ two.stem ∨ ∀ last ∈ one.lasts, last ∉ two.lasts

instance (n : Naming) : Decidable n.Tidy :=
  decidable_of_iff (n.lasts.Nodup ∧ ∀ last ∈ n.lasts, '-' ∉ last.toList)
    ⟨fun ⟨distinct, whole⟩ => ⟨distinct, whole⟩, fun ⟨distinct, whole⟩ => ⟨distinct, whole⟩⟩

instance (one two : Naming) : Decidable (one.Apart two) :=
  inferInstanceAs (Decidable (_ ∨ _))

variable {n one two : Naming} {namings : List Naming}

theorem Tidy.nodup_names (tidy : n.Tidy) : n.names.Nodup := by
  refine tidy.distinct.map_on fun last member other member' same => ?_
  exact ((Family.withTarget_inj (tidy.whole last member) (tidy.whole other member')).mp same).2

theorem Apart.disjoint_names (apart : one.Apart two) (tidy : one.Tidy) (tidy' : two.Tidy) :
    one.names.Disjoint two.names := by
  intro name member member'
  obtain ⟨last, listed, rfl⟩ := List.mem_map.mp member
  obtain ⟨other, listed', same⟩ := List.mem_map.mp member'
  obtain ⟨stems, rfl⟩ := (Family.withTarget_inj (tidy'.whole other listed') (tidy.whole last listed)).mp same
  rcases apart with different | apart
  · exact different stems.symm
  · exact apart other listed listed'

theorem nodup_flatMap_names (tidy : ∀ n ∈ namings, n.Tidy) (apart : namings.Pairwise Apart) :
    (namings.flatMap names).Nodup := by
  refine List.nodup_flatMap.mpr ⟨fun n member => (tidy n member).nodup_names, ?_⟩
  exact apart.imp_of_mem fun member member' apart => apart.disjoint_names (tidy _ member) (tidy _ member')

end Naming
namespace Family

variable {families done waiting : List Family} {f : Family} {target need stem : Name} {rounds : Nat}

-- For the target there is everything that the family of this name needs, as far down as it goes.
inductive Grounded (families : List Family) (target : Name) : Name → Prop where
  | family {f : Family} : f ∈ families → target ∈ f.remainingTargets →
      (∀ need ∈ f.needs, Grounded families target need) → Grounded families target f.name

def coveredBy (done : List Family) (f : Family) (need : Name) : Bool :=
  done.any fun other => other.name == need && f.remainingTargets.all (other.remainingTargets.contains ·)

-- One round through those that wait: what can be taken is taken, the rest keeps waiting.
def settle (done : List Family) : List Family → List Family × List Family
  | [] => (done, [])
  | f :: rest =>
    if f.needs.all (coveredBy done f) then settle (f :: done) rest
    else
      let (done, waiting) := settle done rest
      (done, f :: waiting)

def settles : (rounds : Nat) → (done waiting : List Family) → Bool
  | 0, _, waiting => waiting.isEmpty
  | rounds + 1, done, waiting => settles rounds (settle done waiting).1 (settle done waiting).2

def AllGrounded (families done : List Family) : Prop :=
  ∀ f ∈ done, ∀ target ∈ f.remainingTargets, Grounded families target f.name

theorem coveredBy_iff : coveredBy done f need = true ↔
    ∃ other ∈ done, other.name = need ∧ ∀ target ∈ f.remainingTargets, target ∈ other.remainingTargets := by
  simp [coveredBy]

theorem AllGrounded.cons (grounded : AllGrounded families done) (known : f ∈ families)
    (covered : ∀ need ∈ f.needs, coveredBy done f need = true) : AllGrounded families (f :: done) := by
  intro other member target remains
  rcases List.mem_cons.mp member with rfl | earlier
  · refine .family known remains fun need declared => ?_
    obtain ⟨below, taken, rfl, wide⟩ := coveredBy_iff.mp (covered need declared)
    exact grounded below taken target (wide target remains)
  · exact grounded other earlier target remains

theorem AllGrounded.perm {others : List Family} (grounded : AllGrounded families done) (same : done.Perm others) :
    AllGrounded families others :=
  fun f member => grounded f (same.mem_iff.mpr member)

theorem settle_grounded (grounded : AllGrounded families done) (known : ∀ f ∈ waiting, f ∈ families) :
    AllGrounded families (settle done waiting).1 := by
  induction waiting generalizing done with
  | nil => exact grounded
  | cons f rest ih =>
    have known' : ∀ other ∈ rest, other ∈ families := fun other member => known other (List.mem_cons_of_mem _ member)
    rw [settle]
    split
    next covered => exact ih (grounded.cons (known f List.mem_cons_self) (List.all_eq_true.mp covered)) known'
    next => exact ih grounded known'

theorem settle_perm (done waiting : List Family) :
    ((settle done waiting).1 ++ (settle done waiting).2).Perm (done ++ waiting) := by
  induction waiting generalizing done with
  | nil => exact .refl _
  | cons f rest ih =>
    rw [settle]
    split
    · exact (ih (f :: done)).trans List.perm_middle.symm
    · exact List.perm_middle.trans (((ih done).cons f).trans List.perm_middle.symm)

theorem settles_grounded (grounded : AllGrounded families done) (known : ∀ f ∈ done ++ waiting, f ∈ families)
    (settled : settles rounds done waiting = true) : AllGrounded families (done ++ waiting) := by
  induction rounds generalizing done waiting with
  | zero =>
    rw [settles, List.isEmpty_iff] at settled
    rw [settled, List.append_nil]
    exact grounded
  | succ rounds ih =>
    have round := settle_perm done waiting
    have further : AllGrounded families (settle done waiting).1 :=
      settle_grounded grounded fun f member => known f (List.mem_append_right _ member)
    exact (ih further (fun f member => known f (round.mem_iff.mp member)) settled).perm round

theorem allGrounded_of_settles (settled : settles rounds [] families = true) : AllGrounded families families :=
  settles_grounded (fun _ listed => absurd listed List.not_mem_nil) (fun _ => id) settled

end Family

namespace Blueprint

open Family (Grounded withTarget)

variable {b : Blueprint} {c : Catalog} {entry : Entry} {task : Task} {families : List Family} {f : Family}
  {target stem : Name}

def targetsOf (b : Blueprint) (entry : Entry) : List Name :=
  match b.targetsFor entry with
  | .ok (some targets) => targets
  | _ => []

def family (b : Blueprint) (entry : Entry) : Family := b.familyOf entry (b.targetsOf entry)

theorem Sound.tasksOf (sound : b.Sound entry) (multiplied : entry.targets ≠ none) :
    b.tasksOf entry = (b.family entry).variants := by
  rcases tasksOf_of_sound sound with ⟨single, _⟩ | ⟨targets, chosen, tasks⟩
  · unfold targetsFor at single
    cases selected : entry.targets with
    | none => exact absurd selected multiplied
    | some selection => cases selection <;> simp [selected] at single; split at single <;> cases single
  · rw [tasks, family, targetsOf, chosen]

def HasFamily (b : Blueprint) (f : Family) : Prop := ∃ entry ∈ b.entries, entry.targets ≠ none ∧ f = b.family entry

theorem buildable_of_mem_tasks (made : b.toCatalog = .ok c) (member : task ∈ b.tasks)
    (needs : ∀ need ∈ task.needs, c.Buildable need) : c.Buildable task.name := by
  rw [← (tasks_of_toCatalog made).2.1] at member
  exact .task (Catalog.find?_eq_some_iff.mpr ⟨member, rfl⟩) needs

theorem HasFamily.buildable (has : b.HasFamily f) (made : b.toCatalog = .ok c) (remains : target ∈ f.remainingTargets)
    (needs : ∀ need ∈ (f.variant target).needs, c.Buildable need) : c.Buildable (f.variant target).name := by
  obtain ⟨entry, known, multiplied, rfl⟩ := has
  have tasks := ((tasks_of_toCatalog made).1 entry known).tasksOf multiplied
  have member : (b.family entry).variant target ∈ b.tasks :=
    List.mem_flatMap.mpr ⟨entry, known, tasks ▸ List.mem_map_of_mem remains⟩
  exact buildable_of_mem_tasks made member needs

theorem HasFamily.buildable_of_template (has : b.HasFamily f) (made : b.toCatalog = .ok c)
    (template : f.isTemplate = true) (remains : target ∈ f.remainingTargets)
    (needs : ∀ need ∈ f.needs, c.Buildable (Placeholder.fill target need)) :
    c.Buildable (Placeholder.fill target f.name) := by
  have built : f.variant target = ⟨Placeholder.fill target f.name, f.needs.map (Placeholder.fill target)⟩ := by
    rw [Family.variant, template]
    rfl
  have buildable := has.buildable made remains
  rw [built] at buildable
  exact buildable (List.forall_mem_map.mpr needs)

-- With what every task of the target needs, all that is grounded for the target can be built for it.
theorem buildable_of_grounded (made : b.toCatalog = .ok c)
    (known : ∀ f ∈ families, b.HasFamily f ∧ f.isTemplate = false)
    (ready : ∀ need ∈ b.targetNeeds, c.Buildable (Placeholder.fill target need))
    (grounded : Grounded families target stem) : c.Buildable (withTarget stem target) := by
  induction grounded with
  | @family f listed remains _ ih =>
    obtain ⟨has, suffix⟩ := known f listed
    have common : f.targetNeeds = b.targetNeeds := by
      obtain ⟨entry, _, _, rfl⟩ := has
      rfl
    have built : f.variant target = ⟨withTarget f.name target,
        b.targetNeeds.map (Placeholder.fill target) ++ f.needs.map (withTarget · target)⟩ := by
      rw [Family.variant, suffix, common]
      rfl
    have buildable := has.buildable made remains
    rw [built] at buildable
    refine buildable fun need declared => ?_
    rcases List.mem_append.mp declared with shared | own
    · obtain ⟨pattern, listed, rfl⟩ := List.mem_map.mp shared
      exact ready pattern listed
    · obtain ⟨below, listed, rfl⟩ := List.mem_map.mp own
      exact ih below listed

end Blueprint
end BuildPlan
