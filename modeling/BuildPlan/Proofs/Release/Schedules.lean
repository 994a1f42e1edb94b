import Mathlib.Data.List.Perm.Basic
import BuildPlan.Proofs.Blueprint.Grounding
import BuildPlan.Proofs.Program.Answers

namespace BuildPlan.Release

open Blueprint (Entry)

def libraries : List Entry :=
  arithmetic ++ compression ++ images ++ [each "linux" "ncurses" []] ++ fonts ++ windowSystem ++ graphics

def tools : List Entry := single "gpm-header" :: (toolchains ++ compiler)

variable {entry : Entry}

theorem entries_perm : blueprint.entries.Perm (libraries ++ tools) := by
  have moved : (single "gpm-header" :: (fonts ++ windowSystem ++ graphics ++ (toolchains ++ compiler))).Perm
      (fonts ++ windowSystem ++ graphics ++ tools) := List.perm_middle.symm
  have before := List.Perm.append_left (arithmetic ++ compression ++ images ++ [each "linux" "ncurses" []]) moved
  simpa [blueprint, libraries, terminal] using before

theorem sound : ∀ entry ∈ blueprint.entries, blueprint.Sound entry := by decide

theorem suffixed : ∀ entry ∈ libraries, Text.Placeholder.isIn entry.name = false := by decide

theorem multiplied : ∀ entry ∈ libraries, entry.targets ≠ none := by decide

def naming (entry : Entry) : Naming := ⟨entry.name, (blueprint.family entry).remainingTargets⟩

theorem mem_entries_of_library (listed : entry ∈ libraries) : entry ∈ blueprint.entries :=
  entries_perm.mem_iff.mpr (List.mem_append_left _ listed)

theorem names_library (listed : entry ∈ libraries) :
    (blueprint.tasksOf entry).map Task.name = (naming entry).names := by
  have suffix : (blueprint.family entry).isTemplate = false := suffixed entry listed
  have whole := sound entry (mem_entries_of_library listed)
  rw [whole.tasksOf (multiplied entry listed), Naming.names, Family.variants, List.map_map]
  refine List.map_congr_left fun target _ => ?_
  rw [Function.comp, Family.variant, suffix]
  rfl

def targetsIn (group : Name) : List Name := (blueprint.groups.lookup group).getD []

def toolNamings : List Naming :=
  [ ⟨"gpm", ["header"]⟩,
    ⟨"binutils-native-to", targetsIn "cross"⟩, ⟨"gcc-native-to", targetsIn "cross"⟩,
    ⟨"binutils-win32-to", ["win32"]⟩, ⟨"binutils-win64-to", ["win64"]⟩,
    ⟨"gcc-win32-to", ["win32"]⟩, ⟨"gcc-win64-to", ["win64"]⟩,
    ⟨"fbc", ["native"]⟩, ⟨"fbc", targetsIn "linux"⟩,
    ⟨"fbc", ["win32"]⟩, ⟨"fbc-win32", ["standalone"]⟩,
    ⟨"fbc", ["win64"]⟩, ⟨"fbc-win64", ["standalone"]⟩,
    ⟨"fbc", ["dos"]⟩, ⟨"fbc-dos", ["standalone"]⟩ ]

theorem names_tools : (tools.flatMap blueprint.tasksOf).map Task.name = toolNamings.flatMap Naming.names := by
  decide

def namings : List Naming := libraries.map naming ++ toolNamings

theorem names_perm : (blueprint.tasks.map Task.name).Perm (namings.flatMap Naming.names) := by
  have reordered := (entries_perm.flatMap_right blueprint.tasksOf).map Task.name
  have named : (libraries.flatMap blueprint.tasksOf).map Task.name = (libraries.map naming).flatMap Naming.names := by
    rw [List.map_flatMap, List.flatMap_map]
    exact List.flatMap_congr fun entry listed => names_library listed
  rw [List.flatMap_append, List.map_append, named, names_tools] at reordered
  rwa [namings, List.flatMap_append]

theorem tidy : ∀ n ∈ namings, n.Tidy := by decide

theorem apart : namings.Pairwise Naming.Apart := by decide

theorem exists_catalog : ∃ c, blueprint.toCatalog = .ok c :=
  Blueprint.exists_toCatalog_iff.mpr
    ⟨sound, names_perm.nodup_iff.mpr (Naming.nodup_flatMap_names tidy apart)⟩

open Family (Grounded withTarget)
open Text (Placeholder.fill Placeholder.isIn)

variable {c : Catalog} {target stem name : Name}

def Offers (stem target : Name) : Prop :=
  ∃ entry ∈ libraries, entry.name = stem ∧ target ∈ (blueprint.family entry).remainingTargets

instance (stem target : Name) : Decidable (Offers stem target) :=
  inferInstanceAs (Decidable (∃ entry ∈ libraries, _))

theorem libraries_settle : Family.settles 5 [] (libraries.map blueprint.family) = true := by decide

theorem grounded_of_offers (offers : Offers stem target) : Grounded (libraries.map blueprint.family) target stem := by
  obtain ⟨entry, listed, rfl, remains⟩ := offers
  exact Family.allGrounded_of_settles libraries_settle (blueprint.family entry) (List.mem_map_of_mem listed)
    target remains

theorem fill_compiler (target : Name) :
    Placeholder.fill target "gcc-native-to-\x7btarget\x7d" = withTarget "gcc-native-to" target := by
  have named : "gcc-native-to-\x7btarget\x7d" = withTarget "gcc-native-to" "\x7btarget\x7d" := by decide
  rw [named]
  exact Family.fill_withTarget (by decide)

-- A target for which there is a compiler gets its libraries.
theorem buildable_library (made : blueprint.toCatalog = .ok c)
    (compiler : c.Buildable (withTarget "gcc-native-to" target)) (offers : Offers stem target) :
    c.Buildable (withTarget stem target) := by
  refine Blueprint.buildable_of_grounded made ?_ ?_ (grounded_of_offers offers)
  · intro f member
    obtain ⟨entry, listed, rfl⟩ := List.mem_map.mp member
    exact ⟨⟨entry, mem_entries_of_library listed, multiplied entry listed, rfl⟩, suffixed entry listed⟩
  · intro need common
    cases List.mem_singleton.mp common
    rw [fill_compiler]
    exact compiler

theorem buildable_native (made : blueprint.toCatalog = .ok c) :
    c.Buildable (withTarget "gcc-native-to" "native") := by
  refine .assumed (Catalog.isAssumed_iff.mpr ?_)
  rw [(Blueprint.tasks_of_toCatalog made).2.2, NameSet.mem_insertAll]
  exact .inr (by decide)

-- The tools that have a place for their target in the name.
def crossBinutils : Entry := toolchains[0]

def crossCompiler : Entry := toolchains[1]

def linuxCompiler : Entry := compiler[1]

theorem mem_entries_of_tool (listed : entry ∈ tools) : entry ∈ blueprint.entries :=
  entries_perm.mem_iff.mpr (List.mem_append_right _ listed)

theorem mem_tasks_of_single (listed : single name ∈ tools) : ⟨name, []⟩ ∈ blueprint.tasks :=
  List.mem_flatMap.mpr ⟨_, mem_entries_of_tool listed, List.mem_singleton.mpr rfl⟩

theorem buildable_single (made : blueprint.toCatalog = .ok c) (listed : single name ∈ tools) : c.Buildable name :=
  Blueprint.buildable_of_mem_tasks made (mem_tasks_of_single listed) nofun

theorem buildable_template (made : blueprint.toCatalog = .ok c) (listed : entry ∈ tools)
    (multiplied : entry.targets ≠ none) (template : Placeholder.isIn entry.name = true)
    (remains : target ∈ (blueprint.family entry).remainingTargets)
    (needs : ∀ need ∈ entry.needs, c.Buildable (Placeholder.fill target need)) :
    c.Buildable (Placeholder.fill target entry.name) := by
  have has : blueprint.HasFamily (blueprint.family entry) := ⟨entry, mem_entries_of_tool listed, multiplied, rfl⟩
  exact has.buildable_of_template made template remains needs

theorem buildable_crossBinutils (made : blueprint.toCatalog = .ok c) (cross : target ∈ targetsIn "cross") :
    c.Buildable (Placeholder.fill target crossBinutils.name) :=
  buildable_template made (by decide) (by decide) (by decide) cross nofun

-- The other compilers are built by it, with its arithmetic.
theorem buildable_crossCompiler (made : blueprint.toCatalog = .ok c) (cross : target ∈ targetsIn "cross") :
    c.Buildable (Placeholder.fill target crossCompiler.name) := by
  have needs : ∀ need ∈ crossCompiler.needs, need = crossBinutils.name ∨ Placeholder.isIn need = false ∧
      ∃ stem ∈ ["gmp", "mpfr", "mpc"], need = withTarget stem "native" ∧ Offers stem "native" := by decide
  refine buildable_template made (by decide) (by decide) (by decide) cross fun need declared => ?_
  rcases needs need declared with rfl | ⟨plain, stem, _, rfl, offers⟩
  · exact buildable_crossBinutils made cross
  · rw [Text.Placeholder.fill_of_not_isIn plain]
    exact buildable_library made (buildable_native made) offers

theorem buildable_compiler (made : blueprint.toCatalog = .ok c) (listed : target ∈ targetsIn "all") :
    c.Buildable (withTarget "gcc-native-to" target) := by
  have parted : targetsIn "all" = "native" :: targetsIn "cross" := by decide
  rw [parted] at listed
  rcases List.mem_cons.mp listed with rfl | cross
  · exact buildable_native made
  · rw [← fill_compiler]
    exact buildable_crossCompiler made cross

theorem buildable_linuxCompiler (made : blueprint.toCatalog = .ok c) (linux : target ∈ targetsIn "linux") :
    c.Buildable (Placeholder.fill target linuxCompiler.name) := by
  have parted : ∀ target ∈ targetsIn "linux", target ∈ targetsIn "all" := by decide
  have needs : ∀ need ∈ linuxCompiler.needs, need = "gpm-header" ∨
      ∃ stem ∈ ["libffi", "ncurses", "libX11", "libXext", "libXrandr", "libXrender", "libXpm", "mesa"],
        need = withTarget stem "\x7btarget\x7d" ∧ '{' ∉ stem.toList ∧
          ∀ target ∈ targetsIn "linux", Offers stem target := by
    decide
  refine buildable_template made (by decide) (by decide) (by decide) linux fun need declared => ?_
  rcases needs need declared with rfl | ⟨stem, _, rfl, plain, offers⟩
  · have whole : Placeholder.isIn "gpm-header" = false := by decide
    rw [Text.Placeholder.fill_of_not_isIn whole]
    exact buildable_single made List.mem_cons_self
  · rw [Family.fill_withTarget plain]
    exact buildable_library made (buildable_compiler made (parted target linux)) (offers target linux)

theorem buildable_tool {task : Task} (made : blueprint.toCatalog = .ok c) (listed : entry ∈ tools)
    (member : task ∈ blueprint.tasksOf entry) : c.Buildable task.name := by
  have kinds : ∀ entry ∈ tools, entry = single entry.name ∨ entry = crossBinutils ∨ entry = crossCompiler ∨
      entry = linuxCompiler := by decide
  rcases kinds entry listed with alone | rfl | rfl | rfl
  · rw [alone] at listed member
    cases List.mem_singleton.mp member
    exact buildable_single made listed
  · obtain ⟨target, remains, rfl⟩ := List.mem_map.mp member
    exact buildable_crossBinutils made remains
  · obtain ⟨target, remains, rfl⟩ := List.mem_map.mp member
    exact buildable_crossCompiler made remains
  · obtain ⟨target, remains, rfl⟩ := List.mem_map.mp member
    exact buildable_linuxCompiler made remains

theorem buildable_task {task : Task} (made : blueprint.toCatalog = .ok c) (member : task ∈ blueprint.tasks) :
    c.Buildable task.name := by
  obtain ⟨entry, known, member⟩ := List.mem_flatMap.mp member
  rcases List.mem_append.mp (entries_perm.mem_iff.mp known) with library | tool
  · have covered : ∀ entry ∈ libraries, ∀ target ∈ (blueprint.family entry).remainingTargets,
        target ∈ targetsIn "all" := by decide
    have named := List.mem_map_of_mem (f := Task.name) member
    rw [names_library library] at named
    obtain ⟨target, remains, same⟩ := List.mem_map.mp named
    rw [← same]
    exact buildable_library made (buildable_compiler made (covered entry library target remains))
      ⟨entry, library, rfl, remains⟩
  · exact buildable_tool made tool member

theorem valid (made : blueprint.toCatalog = .ok c) : c.isValid = true := by
  refine Catalog.isValid_iff_buildable.mpr fun name registered => ?_
  obtain ⟨task, member, rfl⟩ := List.mem_map.mp registered
  rw [(Blueprint.tasks_of_toCatalog made).2.1] at member
  exact buildable_task made member

-- Registered in the catalog, provided by it, or one of the further names.
inductive Known (c : Catalog) (extra : List Name) (name : Name) : Prop where
  | registered : name ∈ c.names → Known c extra name
  | provided : c.isAssumed name = true → Known c extra name
  | further : name ∈ extra → Known c extra name

variable {extra roots : List Name} {files : Files} {i : Invocation}

theorem buildable_known (valid : c.isValid = true) (known : Known c extra name) :
    (c.assumeAll extra).Buildable name := by
  cases known with
  | registered registered => exact (Catalog.isValid_iff_buildable.mp valid name registered).assumeAll extra
  | provided provided => exact (Catalog.Buildable.assumed provided).assumeAll extra
  | further further => exact .assumed (Catalog.isAssumed_iff.mpr (Catalog.mem_assumed_assumeAll.mpr (.inr further)))

theorem exists_schedule (valid : c.isValid = true) (known : ∀ root ∈ roots, Known c extra root) :
    ∃ s, (c.assumeAll extra).schedule roots = .ok s := by
  refine Catalog.schedule_ok_iff_buildable.mpr fun root asked => buildable_known valid ?_
  rw [Catalog.rootsOf_assumeAll, Catalog.rootsOf] at asked
  split at asked
  · exact .registered asked
  · exact known root asked

theorem loaded (made : blueprint.toCatalog = .ok c) (release : i.catalog = none) :
    i.loaded files = .ok (c.assumeAll i.assumed) := by
  have found : i.blueprint files = .ok blueprint := by rw [Invocation.blueprint, release]
  rw [Invocation.loaded, found, Except.bind, made]
  rfl

theorem exists_report (files : Files) (made : blueprint.toCatalog = .ok c) (release : i.catalog = none)
    (known : ∀ task ∈ i.tasks, Known c i.assumed task) : ∃ report, (i.report files).1 = .ok report := by
  have ready : i.loaded files = .ok (c.assumeAll i.assumed) := loaded made release
  have faultless : (c.assumeAll i.assumed).faults = [] :=
    List.isEmpty_iff.mp (Catalog.isValid_assumeAll (valid made) i.assumed)
  obtain ⟨s, scheduled⟩ := exists_schedule (valid made) known
  cases check : i.check with
  | true => exact ⟨_, Command.report_eq_iff.mpr (.valid ready check faultless)⟩
  | false =>
    cases list : i.list with
    | true => exact ⟨_, Command.report_eq_iff.mpr (.listed ready check list)⟩
    | false => exact ⟨_, Command.report_eq_iff.mpr (.scheduled ready check list scheduled)⟩

theorem never_fails : ∃ c, blueprint.toCatalog = .ok c ∧ c.tasks = blueprint.tasks ∧
    (∀ files extra, (Command.load files none extra).ComesTo (.ok (c.assumeAll extra)) ∧
      (c.assumeAll extra).isValid = true ∧
      ∀ roots, (∀ root ∈ roots, Known c extra root) → ∃ s, (c.assumeAll extra).schedule roots = .ok s ∧
        (c.assumeAll extra).ValidOrder s.names ∧
        ∀ root ∈ (c.assumeAll extra).rootsOf roots, (c.assumeAll extra).isAssumed root = false → root ∈ s.names) ∧
    (∀ words files env arguments i, Invocation.ofArguments arguments env.catalogPath = .ok i → i.catalog = none →
      (∀ task ∈ i.tasks, Known c i.assumed task) →
      ∃ outcome, Program.run words files env arguments = .ok outcome ∧ outcome.exitCode = 0) := by
  obtain ⟨c, made⟩ := exists_catalog
  refine ⟨c, made, (Blueprint.tasks_of_toCatalog made).2.1, fun files extra => ⟨?_, ?_, ?_⟩, ?_⟩
  · have comes := Command.load_comesTo files { assumed := extra }
    rw [loaded made rfl] at comes
    exact comes
  · exact Catalog.isValid_assumeAll (valid made) extra
  · intro roots known
    obtain ⟨s, scheduled⟩ := exists_schedule (valid made) known
    refine ⟨s, scheduled, Catalog.schedule_order scheduled, fun root asked built => ?_⟩
    exact (Catalog.mem_schedule_iff scheduled).mpr ⟨built, root, asked, .refl _⟩
  · intro words files env arguments i accepted release known
    obtain ⟨report, reported⟩ := exists_report files made release known
    have ran : Program.run words files env arguments = .ok (Program.perform words files env i) := by
      rw [Program.run, accepted]
      rfl
    exact ⟨_, ran, (Program.perform_made words env reported).1⟩

def arguments : List String := ["-a", "host-cc", "fbc-win32", "gcc-native-to-native", "host-cc"]

def request : Invocation := { tasks := ["fbc-win32", "gcc-native-to-native", "host-cc"], assumed := ["host-cc"] }

def noFiles : Files := fun _ => .error .absent

theorem known_request (made : blueprint.toCatalog = .ok c) : ∀ task ∈ request.tasks, Known c request.assumed task := by
  obtain ⟨_, tasks, assumed⟩ := Blueprint.tasks_of_toCatalog made
  simp only [request, List.forall_mem_cons, List.not_mem_nil, false_imp_iff, implies_true, and_true]
  refine ⟨.registered ?_, .provided ?_, .further List.mem_cons_self⟩
  · have listed : single "fbc-win32" ∈ tools := by decide
    rw [Catalog.names, tasks]
    exact List.mem_map.mpr ⟨_, mem_tasks_of_single listed, rfl⟩
  · rw [Catalog.isAssumed_iff, assumed, NameSet.mem_insertAll]
    exact .inr List.mem_cons_self

theorem request_never_fails : Invocation.ofArguments arguments none = .ok request ∧
    ∃ c s outcome, blueprint.toCatalog = .ok c ∧ (∀ task ∈ request.tasks, Known c request.assumed task) ∧
      (c.assumeAll ["host-cc"]).schedule request.tasks = .ok s ∧ (c.assumeAll ["host-cc"]).ValidOrder s.names ∧
      Program.run Program.wordless noFiles ⟨none, none⟩ arguments = .ok outcome ∧ outcome.exitCode = 0 := by
  have accepted : Invocation.ofArguments arguments none = .ok request := by rfl
  obtain ⟨c, made, _, schedules, runs⟩ := never_fails
  have known := known_request made
  obtain ⟨s, scheduled, order, _⟩ := (schedules noFiles ["host-cc"]).2.2 request.tasks known
  obtain ⟨outcome, ran, fine⟩ := runs Program.wordless noFiles ⟨none, none⟩ arguments request accepted rfl known
  exact ⟨accepted, c, s, outcome, made, known, scheduled, order, ran, fine⟩

end BuildPlan.Release
