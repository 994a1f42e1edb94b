import BuildPlan.Proofs.Blueprint.Flattening
import BuildPlan.Proofs.Graph.Image
import BuildPlan.Proofs.Program.Work

namespace BuildPlan

namespace Catalog

variable {c d : Catalog}

theorem assumeAll_append (c : Catalog) (names more : List Name) :
    c.assumeAll (names ++ more) = (c.assumeAll names).assumeAll more := List.foldl_append

-- All that counts for a task is whether its name is taken.
theorem register_assume (c : Catalog) (name : Name) (task : Task) :
    (c.assume name).register task = (c.register task).map (·.assume name) := by
  have known : (c.assume name).contains task.name = c.contains task.name := rfl
  unfold register
  split
  · next taken =>
    split
    · rfl
    · next free => exact absurd ((known.trans free).symm.trans taken) Bool.false_ne_true
  · next free =>
    split
    · next taken => exact absurd (free.symm.trans (known.trans taken)) Bool.false_ne_true
    · rfl

theorem pass_assume (c : Catalog) (name : Name) (requests : List Request) :
    (c.assume name).pass requests = ((c.pass requests).1, (c.pass requests).2.assume name) := by
  induction requests generalizing c with
  | nil => rfl
  | cons request rest ih =>
    cases request with
    | refusal error => rfl
    | task task =>
      rw [pass, pass, register_assume]
      cases c.register task with
      | error fault => rfl
      | ok after => exact ih after

theorem pass_assumeAll (c : Catalog) (names : List Name) (requests : List Request) :
    (c.assumeAll names).pass requests = ((c.pass requests).1, (c.pass requests).2.assumeAll names) := by
  induction names generalizing c with
  | nil => rfl
  | cons name rest ih =>
    have later := ih (c.assume name)
    rw [pass_assume] at later
    exact later

section Congruent

variable (tasks : d.tasks = c.tasks) (assumed : ∀ name, d.isAssumed name = c.isAssumed name)
include tasks assumed

theorem image_of_congr : c.Image d (fun _ => true) id fun _ => True := by
  refine ⟨Function.injective_id, by simp, fun name _ _ => assumed name, ?_, fun _ _ _ _ => trivial⟩
  intro name _ _
  rw [Task.image_id, Option.map_id, id, id, find?_eq, find?_eq, tasks]

theorem schedule_congr (roots : List Name) : d.schedule roots = c.schedule roots := by
  have asked : d.rootsOf roots = ((c.rootsOf roots).filter fun _ => true).map id := by
    simp [rootsOf, names, tasks]
  rw [(image_of_congr tasks assumed).schedule (fun _ _ => trivial) asked, renameOutcome_id]

theorem faults_congr : d.faults = c.faults := by
  have built : d.buildable = c.buildable.map (Task.image (fun _ => true) id) := by
    simp [buildable, tasks, assumed]
  rw [faults, Graph.ofCatalog_image (image_of_congr tasks assumed) built, Graph.rename_id, faults]

end Congruent

end Catalog

namespace Blueprint

variable {b : Blueprint} {extra other : List Name}

def provide (b : Blueprint) (names : List Name) : Blueprint := { b with assumed := b.assumed ++ names }

theorem provide_nil (b : Blueprint) : b.provide [] = b := by simp [provide]

theorem toCatalog_provide (b : Blueprint) (names : List Name) :
    (b.provide names).toCatalog = b.toCatalog.map (·.assumeAll names) := by
  have asked : (b.provide names).requests = b.requests := rfl
  rw [toCatalog_eq, toCatalog_eq, asked, provide, Catalog.assumeAll_append, Catalog.pass_assumeAll]
  rcases (Catalog.empty.assumeAll b.assumed).pass b.requests with ⟨_ | _, c⟩ <;> rfl

theorem toCatalog_provide_congr (same : (b.assumed ++ other).eraseDups = (b.assumed ++ extra).eraseDups) :
    (b.provide other).toCatalog = (b.provide extra).toCatalog := by
  have nothing : NameSet.empty.Remade := rfl
  have filled : NameSet.empty.insertAll (b.assumed ++ other) = NameSet.empty.insertAll (b.assumed ++ extra) :=
    nothing.insertAll_congr same
  have start : Catalog.empty.assumeAll (b.assumed ++ other) = Catalog.empty.assumeAll (b.assumed ++ extra) := by
    rw [Catalog.assumeAll_eq, Catalog.assumeAll_eq, Catalog.assumed_empty, filled]
  have asked : (b.provide other).requests = (b.provide extra).requests := rfl
  rw [toCatalog_eq, toCatalog_eq, asked, provide, provide, start]

theorem contents_provide (b : Blueprint) (names : List Name) :
    (b.provide names).toCatalog.map (fun c => (c.tasks, c.assumed.toList)) =
      b.toCatalog.map fun c => (c.tasks, (b.assumed ++ names).eraseDups) := by
  rw [toCatalog_provide]
  cases made : b.toCatalog with
  | error error => rfl
  | ok c =>
    have assumed : (c.assumeAll names).assumed.toList = (b.assumed ++ names).eraseDups := by
      rw [Catalog.assumed_assumeAll, (tasks_of_toCatalog made).2.2, ← NameSet.insertAll_append,
        NameSet.toList_insertAll, NameSet.toList_empty, List.nil_append]
    exact congrArg Except.ok (Prod.ext (Catalog.tasks_assumeAll c names) assumed)

theorem answers_provide_perm (b : Blueprint) (perm : other.Perm extra) (roots : List Name) :
    (b.provide other).toCatalog.map (fun c => (c.schedule roots, c.faults)) =
      (b.provide extra).toCatalog.map fun c => (c.schedule roots, c.faults) := by
  rw [toCatalog_provide, toCatalog_provide]
  cases b.toCatalog with
  | error error => rfl
  | ok c =>
    have tasks : (c.assumeAll other).tasks = (c.assumeAll extra).tasks := by
      rw [Catalog.tasks_assumeAll, Catalog.tasks_assumeAll]
    have assumed : ∀ name, (c.assumeAll other).isAssumed name = (c.assumeAll extra).isAssumed name := by
      intro name
      rw [Bool.eq_iff_iff, Catalog.isAssumed_iff, Catalog.isAssumed_iff, Catalog.mem_assumed_assumeAll,
        Catalog.mem_assumed_assumeAll, perm.mem_iff]
    simp [Except.map, Catalog.schedule_congr tasks assumed, Catalog.faults_congr tasks assumed]

end Blueprint

namespace Command

variable {files : Files} {path : Option String} {b : Blueprint}

theorem load_chosen (chosen : (chooseBlueprint files path).ComesTo (.ok b)) (extra : List Name) :
    (load files path extra).ComesTo
      ((b.provide extra).toCatalog.mapError fun error => .ofCause (.loading error)) := by
  let i : Invocation := { catalog := path, assumed := extra }
  have found : i.blueprint files = .ok b := by
    have same := (chosen #[]).symm.trans (chooseBlueprint_comesTo files i #[])
    cases known : i.blueprint files with
    | error error => rw [known] at same; cases same
    | ok other => rw [known] at same; cases same; rfl
  have loaded := load_comesTo files i
  rw [Invocation.loaded, found] at loaded
  rw [Blueprint.toCatalog_provide]
  exact loaded

theorem extend_parts (c : Catalog) (parts : List (List Name)) :
    (parts.foldlM extend c).ComesTo (.ok (c.assumeAll parts.flatten)) := by
  induction parts generalizing c with
  | nil => exact .said c
  | cons part rest ih =>
    rw [List.foldlM_cons, List.flatten_cons, Catalog.assumeAll_append]
    exact ComesTo.andThen (Catalog.extend_eq c part) (ih _)

theorem load_parts (chosen : (chooseBlueprint files path).ComesTo (.ok b)) (first : List Name)
    (parts : List (List Name)) : (load files path first >>= parts.foldlM extend).ComesTo
      ((b.provide (first ++ parts.flatten)).toCatalog.mapError fun error => .ofCause (.loading error)) := by
  have loaded := load_chosen chosen first
  rw [Blueprint.toCatalog_provide] at loaded ⊢
  cases made : b.toCatalog with
  | error error =>
    rw [made] at loaded
    exact loaded.stop
  | ok c =>
    rw [made] at loaded
    rw [Except.map, Catalog.assumeAll_append]
    exact loaded.andThen (extend_parts _ parts)

end Command

open Command in
-- Beside the blueprint or in it, at once or in parts, once or repeated: the catalog is the same, or the
-- error is. In another order only the list of provided names is another.
theorem Blueprint.provided_as_written (b : Blueprint) (extra : List Name) :
    let written := b.provide extra
    let answer := written.toCatalog.mapError fun error => Failure.ofCause (.loading error)
    (∀ files path, (chooseBlueprint files path).ComesTo (.ok b) → (load files path extra).ComesTo answer) ∧
    (∀ files path, (chooseBlueprint files path).ComesTo (.ok written) → (load files path []).ComesTo answer) ∧
    written.toCatalog.map (fun c => (c.tasks, c.assumed.toList)) =
      b.toCatalog.map (fun c => (c.tasks, (b.assumed ++ extra).eraseDups)) ∧
    (∀ files path first (parts : List (List Name)), (chooseBlueprint files path).ComesTo (.ok b) →
      first ++ parts.flatten = extra → (load files path first >>= parts.foldlM extend).ComesTo answer) ∧
    (∀ other, (b.assumed ++ other).eraseDups = (b.assumed ++ extra).eraseDups →
      (b.provide other).toCatalog = written.toCatalog) ∧
    (∀ other roots, other.Perm extra →
      (b.provide other).toCatalog.map (fun c => (c.schedule roots, c.faults)) =
        written.toCatalog.map fun c => (c.schedule roots, c.faults)) := by
  intro written answer
  refine ⟨fun files path chosen => load_chosen chosen extra, ?_, b.contents_provide extra, ?_,
    fun other => toCatalog_provide_congr, fun other roots perm => b.answers_provide_perm perm roots⟩
  · intro files path chosen
    have loaded := load_chosen chosen []
    rwa [provide_nil] at loaded
  · rintro files path first parts chosen rfl
    exact load_parts chosen first parts

namespace Blueprint

def undocumented : Blueprint :=
  { assumed := ["cc"], entries := [{ name := "app", needs := ["doc", "lib"] }, { name := "lib", needs := ["cc"] }] }

def bothWays : Files := fun path =>
  if path = "short.toml" then
    .ok "assume_provided=['cc']\n[[task]]\nname='app'\ndepends=['doc','lib']\n[[task]]\nname='lib'\ndepends=['cc']"
  else
    .ok "assume_provided=['cc','doc','cc']\n[[task]]\nname='app'\ndepends=['doc','lib']\n[[task]]\nname='lib'\ndepends=['cc']"

theorem chosen_of_read {files : Files} {path : String} {b : Blueprint} (read : files.blueprint path = .ok b) :
    (Command.chooseBlueprint files (some path)).ComesTo (.ok b) := by
  have chosen := Command.readBlueprint_comesTo files path
  rw [read] at chosen
  exact chosen

open Command in
theorem undocumented_provided_as_written :
    (chooseBlueprint bothWays (some "short.toml")).ComesTo (.ok undocumented) ∧
    (chooseBlueprint bothWays (some "long.toml")).ComesTo (.ok (undocumented.provide ["doc", "cc"])) ∧
    ["doc"] ++ [["cc"], []].flatten = ["doc", "cc"] ∧ ["cc", "doc"].Perm ["doc", "cc"] ∧
    (∃ c, (load bothWays (some "short.toml") ["doc", "cc"]).ComesTo (.ok c) ∧
      (load bothWays (some "long.toml") []).ComesTo (.ok c) ∧
      (load bothWays (some "short.toml") ["doc"] >>= [["cc"], []].foldlM extend).ComesTo (.ok c) ∧
      c.names = ["app", "lib"] ∧ c.assumed.toList = ["cc", "doc"]) ∧
    (undocumented.provide ["doc"]).toCatalog = (undocumented.provide ["doc", "cc"]).toCatalog ∧
    (undocumented.provide ["cc", "doc"]).toCatalog.map (fun c => (c.schedule [], c.faults)) =
      .ok (.ok ⟨["lib", "app"]⟩, []) := by
  obtain ⟨beside, inside, _, parted, repeated, permuted⟩ :=
    provided_as_written undocumented ["doc", "cc"]
  have short : (chooseBlueprint bothWays (some "short.toml")).ComesTo (.ok undocumented) :=
    chosen_of_read (by decide +kernel)
  have long : (chooseBlueprint bothWays (some "long.toml")).ComesTo (.ok (undocumented.provide ["doc", "cc"])) :=
    chosen_of_read (by decide +kernel)
  have split : ["doc"] ++ [["cc"], []].flatten = ["doc", "cc"] := by rfl
  have turned : ["cc", "doc"].Perm ["doc", "cc"] := .swap ..
  refine ⟨short, long, split, turned, ⟨_, beside _ _ short, inside _ _ long, parted _ _ _ _ short split, ?_, ?_⟩,
    repeated _ (by decide), (permuted _ [] turned).trans (by rfl)⟩
  · rfl
  · rfl

end Blueprint

end BuildPlan
