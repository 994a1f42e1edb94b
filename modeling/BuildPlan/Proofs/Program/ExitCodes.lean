import BuildPlan.Proofs.Invocation.Rendering
import BuildPlan.Proofs.Program.Answers

namespace BuildPlan

inductive Invocation.Unloadable (files : Files) (i : Invocation) : Prop where
  | unreadable {path : String} {fault : ReadFault} : i.catalog = some path → files path = .error fault →
      Unloadable files i
  | malformed {path text : String} {problem : Blueprint.Problem} : i.catalog = some path →
      files path = .ok text → Blueprint.parse text = .error problem → Unloadable files i
  | unsound {b : Blueprint} {entry : Blueprint.Entry} : i.blueprint files = .ok b → entry ∈ b.entries →
      ¬ b.Sound entry → Unloadable files i
  | repeated {b : Blueprint} : i.blueprint files = .ok b → ¬ (b.tasks.map Task.name).Nodup → Unloadable files i

def Catalog.Flawed (c : Catalog) : Prop :=
  (∃ task need, c.Needs task need ∧ c.isAssumed need = false ∧ need ∉ c.names) ∨ ∃ name, c.OnCycle name

theorem Catalog.faults_ne_nil_iff {c : Catalog} : c.faults ≠ [] ↔ c.Flawed := by
  have clean : c.faults = [] ↔ (Graph.ofCatalog c).missing = [] ∧ (Graph.ofCatalog c).cycles = [] := by
    rw [← isValid_iff_clean, isValid, List.isEmpty_iff]
  have lost : (Graph.ofCatalog c).missing ≠ [] ↔
      ∃ task need, c.Needs task need ∧ c.isAssumed need = false ∧ need ∉ c.names := by
    simp [← Graph.mem_missing_iff, List.eq_nil_iff_forall_not_mem]
  have circular : (Graph.ofCatalog c).cycles ≠ [] ↔ ∃ name, c.OnCycle name := by
    constructor
    · intro some
      obtain ⟨members, listed⟩ := List.exists_mem_of_ne_nil _ some
      have cycle := Graph.cycles_sound listed
      obtain ⟨name, member⟩ := List.exists_mem_of_ne_nil _ cycle.some_member
      exact ⟨name, cycle.onCycle name member⟩
    · rintro ⟨name, around⟩
      obtain ⟨members, listed, _⟩ := Graph.exists_cycle around
      exact List.ne_nil_of_mem listed
  rw [Flawed, ← lost, ← circular, ne_eq, clean, not_and_or]

variable {files : Files} {i j : Invocation} {c : Catalog}

theorem Invocation.blueprint_error_iff : (∃ error, i.blueprint files = .error error) ↔
    ∃ path, i.catalog = some path ∧ ((∃ fault, files path = .error fault) ∨
      ∃ text problem, files path = .ok text ∧ Blueprint.parse text = .error problem) := by
  unfold blueprint Files.blueprint Blueprint.ofText
  cases i.catalog with
  | none => simp
  | some path =>
    cases read : files path with
    | error fault => simp [read]
    | ok text => cases parsed : Blueprint.parse text <;> simp [read, parsed, Except.mapError]

theorem Invocation.loaded_error_iff : (∃ error, i.loaded files = .error error) ↔ i.Unloadable files := by
  have fails : (∃ error, i.loaded files = .error error) ↔ (∃ error, i.blueprint files = .error error) ∨
      ∃ b, i.blueprint files = .ok b ∧ ¬ ∃ c, b.toCatalog = .ok c := by
    unfold loaded
    cases i.blueprint files with
    | error error => simp [Except.bind]
    | ok b => cases made : b.toCatalog <;> simp [Except.bind, Except.map, made]
  rw [fails, blueprint_error_iff]
  constructor
  · rintro (⟨path, chosen, ⟨fault, unreadable⟩ | ⟨text, problem, read, malformed⟩⟩ | ⟨b, found, failing⟩)
    · exact .unreadable chosen unreadable
    · exact .malformed chosen read malformed
    · rw [Blueprint.exists_toCatalog_iff, not_and_or] at failing
      rcases failing with unsound | repeated
      · push Not at unsound
        obtain ⟨entry, listed, unsound⟩ := unsound
        exact .unsound found listed unsound
      · exact .repeated found repeated
  · intro unloadable
    cases unloadable with
    | unreadable chosen unreadable => exact .inl ⟨_, chosen, .inl ⟨_, unreadable⟩⟩
    | malformed chosen read malformed => exact .inl ⟨_, chosen, .inr ⟨_, _, read, malformed⟩⟩
    | unsound found listed unsound =>
      exact .inr ⟨_, found, fun made => unsound ((Blueprint.exists_toCatalog_iff.mp made).1 _ listed)⟩
    | repeated found repeated =>
      exact .inr ⟨_, found, fun made => repeated (Blueprint.exists_toCatalog_iff.mp made).2⟩

theorem Invocation.exists_loaded_iff : (∃ c, i.loaded files = .ok c) ↔ ¬ i.Unloadable files := by
  rw [← loaded_error_iff]
  cases i.loaded files <;> simp

namespace Command

theorem ComesTo.unique {work : Command α} {one two : Except Failure α} (first : ComesTo work one)
    (second : ComesTo work two) : one = two := (first #[]).symm.trans (second #[])

theorem load_ok_iff : (load files i.catalog i.assumed).ComesTo (.ok c) ↔ i.loaded files = .ok c := by
  have comes := load_comesTo files i
  constructor
  · intro made
    have same := comes.unique made
    cases ready : i.loaded files <;> simp_all [Except.mapError]
  · intro ready
    rwa [ready] at comes

-- Why loading fails, and that the catalog is always to blame for it.
theorem load_error_iff : (∃ failure, (load files i.catalog i.assumed).ComesTo (.error failure)) ↔
    i.Unloadable files := by
  have comes := load_comesTo files i
  rw [← Invocation.loaded_error_iff]
  constructor
  · rintro ⟨failure, failed⟩
    have same := comes.unique failed
    cases ready : i.loaded files with
    | error error => exact ⟨error, rfl⟩
    | ok c => rw [ready] at same; cases same
  · rintro ⟨error, failed⟩
    rw [failed] at comes
    exact ⟨_, comes⟩

theorem load_blame {failure : Failure} (failed : (load files i.catalog i.assumed).ComesTo (.error failure)) :
    failure.kind = .config := by
  have same := (load_comesTo files i).unique failed
  cases ready : i.loaded files with
  | error error =>
    rw [ready] at same
    cases same
    exact i.loaded_blame ready
  | ok c => rw [ready] at same; cases same

end Command

namespace Program

open Command (Reports)

variable {env : Environment}

def exitCodeOf : Except Failure Report → Nat
  | .ok _ => 0
  | .error failure => failure.exitCode

theorem perform_exitCode (words : Blueprint.Wording) (files : Files) (env : Environment) (i : Invocation) :
    (perform words files env i).exitCode = exitCodeOf (i.report files).1 := by
  unfold perform
  rcases i.report files with ⟨_ | _, events⟩ <;> rfl

theorem exitCode_unloaded {error : LoadError} (failed : i.loaded files = .error error) :
    (Failure.ofCause (.loading error)).exitCode = 2 :=
  congrArg Failure.Kind.exitCode (i.loaded_blame failed)

theorem exitCode_unscheduled {roots : List Name} {fault : Fault} (failed : c.schedule roots = .error fault) :
    (Failure.ofCause (.scheduling fault)).exitCode = 3 :=
  congrArg Failure.Kind.exitCode (c.schedule_blame failed)

theorem exitCode_invalid (faults : List Fault) : (Failure.ofCause (.invalid faults)).exitCode = 2 := rfl

def BlamesCatalog (files : Files) (i : Invocation) : Prop :=
  i.Unloadable files ∨ i.check = true ∧ ∃ c, i.loaded files = .ok c ∧ c.Flawed

def BlamesRequest (files : Files) (i : Invocation) : Prop :=
  i.check = false ∧ i.list = false ∧
    ∃ c, i.loaded files = .ok c ∧ ∃ root ∈ c.rootsOf i.tasks, ¬ c.Buildable root

theorem blamesCatalog_of_loaded (ready : i.loaded files = .ok c) :
    BlamesCatalog files i ↔ i.check = true ∧ c.Flawed := by
  have loadable := Invocation.exists_loaded_iff.mp ⟨c, ready⟩
  simp [BlamesCatalog, loadable, ready]

theorem blamesRequest_of_loaded (ready : i.loaded files = .ok c) :
    BlamesRequest files i ↔ i.check = false ∧ i.list = false ∧ ¬ ∃ s, c.schedule i.tasks = .ok s := by
  simp [BlamesRequest, ready, Catalog.schedule_ok_iff_buildable]

theorem exitCode_iff {answer : Except Failure Report} (reports : Reports files i answer) :
    (exitCodeOf answer = 2 ↔ BlamesCatalog files i) ∧ (exitCodeOf answer = 3 ↔ BlamesRequest files i) ∧
      (exitCodeOf answer = 0 ∨ exitCodeOf answer = 2 ∨ exitCodeOf answer = 3) := by
  cases reports with
  | unloaded failed =>
    have unloadable := Invocation.loaded_error_iff.mp ⟨_, failed⟩
    simp [exitCodeOf, exitCode_unloaded failed, BlamesCatalog, unloadable, BlamesRequest, failed]
  | valid ready check none =>
    have flawless := mt Catalog.faults_ne_nil_iff.mpr (not_not_intro none)
    simp [exitCodeOf, blamesCatalog_of_loaded ready, blamesRequest_of_loaded ready, check, flawless]
  | invalid ready check some =>
    have flawed := Catalog.faults_ne_nil_iff.mp some
    simp [exitCodeOf, exitCode_invalid, blamesCatalog_of_loaded ready, blamesRequest_of_loaded ready, check, flawed]
  | listed ready check list =>
    simp [exitCodeOf, blamesCatalog_of_loaded ready, blamesRequest_of_loaded ready, check, list]
  | scheduled ready check list made =>
    simp [exitCodeOf, blamesCatalog_of_loaded ready, blamesRequest_of_loaded ready, check, made]
  | unscheduled ready check list failed =>
    simp [exitCodeOf, exitCode_unscheduled failed, blamesCatalog_of_loaded ready,
      blamesRequest_of_loaded ready, check, list, failed]

theorem flawed_iff_unscheduled : c.Flawed ↔ ¬ ∃ s, c.schedule [] = .ok s := by
  rw [← (Catalog.validity_agrees c).1, ← Catalog.faults_ne_nil_iff, Catalog.isValid, List.isEmpty_iff]

theorem check_agrees {code code' : Except Failure Report} (reports : Reports files i code)
    (reports' : Reports files j code') (loadable : ¬ i.Unloadable files) (catalog : j.catalog = i.catalog)
    (assumed : j.assumed = i.assumed) (checks : i.check = true) (check : j.check = false)
    (list : j.list = false) (everything : j.tasks = []) :
    exitCodeOf code = 2 ↔ exitCodeOf code' = 3 := by
  obtain ⟨c, ready⟩ := Invocation.exists_loaded_iff.mpr loadable
  have ready' := (Invocation.loaded_congr catalog assumed).trans ready
  rw [(exitCode_iff reports).1, (exitCode_iff reports').2.1, blamesCatalog_of_loaded ready,
    blamesRequest_of_loaded ready', everything, flawed_iff_unscheduled]
  simp [checks, check, list]

-- The exit code tells whether the catalog or the request is to blame, or that nothing is.
theorem exit_code_classifies (words : Blueprint.Wording) (files : Files) (env : Environment)
    (arguments : List String) (i : Invocation)
    (accepted : Invocation.ofArguments arguments env.catalogPath = .ok i) :
    ((∃ failure, (Command.load files i.catalog i.assumed).ComesTo (.error failure)) ↔ i.Unloadable files) ∧
    (∀ failure, (Command.load files i.catalog i.assumed).ComesTo (.error failure) → failure.kind = .config) ∧
    (∀ c, (Command.load files i.catalog i.assumed).ComesTo (.ok c) ↔ i.loaded files = .ok c) ∧
    ∃ outcome, run words files env arguments = .ok outcome ∧
      (outcome.exitCode = 2 ↔ BlamesCatalog files i) ∧ (outcome.exitCode = 3 ↔ BlamesRequest files i) ∧
      (outcome.exitCode = 0 ↔ ¬ BlamesCatalog files i ∧ ¬ BlamesRequest files i) ∧
      (i.list = true → ¬ i.Unloadable files → outcome.exitCode = 0) ∧
      (i.check = true → ¬ i.Unloadable files → ∀ (env' : Environment) (j : Invocation),
        j.catalog = i.catalog → j.assumed = i.assumed → j.check = false → j.list = false → j.tasks = [] →
        (outcome.exitCode = 2 ↔ (perform words files env' j).exitCode = 3)) := by
  have ran : run words files env arguments = .ok (perform words files env i) := by rw [run, accepted]; rfl
  have reports : Reports files i (i.report files).1 := Command.report_eq_iff.mp rfl
  obtain ⟨catalog, request, codes⟩ := exitCode_iff reports
  have fine : exitCodeOf (i.report files).1 = 0 ↔ ¬ BlamesCatalog files i ∧ ¬ BlamesRequest files i := by
    rw [← catalog, ← request]
    omega
  refine ⟨Command.load_error_iff, fun _ => Command.load_blame, fun _ => Command.load_ok_iff, _, ran, ?_⟩
  rw [perform_exitCode]
  refine ⟨catalog, request, fine, ?_, ?_⟩
  · intro list loadable
    obtain ⟨c, ready⟩ := Invocation.exists_loaded_iff.mpr loadable
    have one_mode := (Invocation.accepted_iff_rendering arguments).2.2 _ _ accepted
    have check : i.check = false := by
      rw [Bool.eq_false_iff]
      intro checks
      exact Bool.noConfusion (list.symm.trans (one_mode.1 checks).1)
    rw [fine, blamesCatalog_of_loaded ready, blamesRequest_of_loaded ready]
    simp [check, list]
  · intro checks loadable env' j same_catalog same_assumed check list everything
    have reports' : Reports files j (j.report files).1 := Command.report_eq_iff.mp rfl
    rw [perform_exitCode]
    exact check_agrees reports reports' loadable same_catalog same_assumed checks check list everything

def asking : Invocation := { catalog := some "odd.toml", tasks := ["lost"] }

theorem lost_not_buildable (ready : asking.loaded quoting = .ok c) : ¬ c.Buildable "lost" := by
  obtain ⟨d, listed, names, assumed⟩ := quoting_loaded
  have same : asking.loaded quoting = listing.loaded quoting := Invocation.loaded_congr rfl rfl
  cases Except.ok.inj ((same.symm.trans ready).symm.trans listed)
  have built : c.isAssumed "lost" = false := by
    rw [Bool.eq_false_iff, ne_eq, Catalog.isAssumed_iff, NameSet.mem_def, assumed]
    exact List.not_mem_nil
  intro buildable
  have known := buildable.registered built
  rw [names] at known
  exact absurd known (by decide)

theorem lost_blames_request : Invocation.ofArguments ["-c", "odd.toml", "lost"] none = .ok asking ∧
    BlamesRequest quoting asking ∧
    ∃ outcome, run wordless quoting ⟨none, none⟩ ["-c", "odd.toml", "lost"] = .ok outcome ∧ outcome.exitCode = 3 := by
  have accepted : Invocation.ofArguments ["-c", "odd.toml", "lost"] none = .ok asking := by rfl
  obtain ⟨_, _, _, outcome, ran, _, request, _⟩ :=
    exit_code_classifies wordless quoting ⟨none, none⟩ _ asking accepted
  obtain ⟨c, ready, _⟩ := quoting_loaded
  have ready' : asking.loaded quoting = .ok c := (Invocation.loaded_congr rfl rfl).trans ready
  have blamed : BlamesRequest quoting asking :=
    ⟨rfl, rfl, c, ready', "lost", List.mem_singleton.mpr rfl, lost_not_buildable ready'⟩
  exact ⟨accepted, blamed, outcome, ran, request.mpr blamed⟩

end Program
end BuildPlan
