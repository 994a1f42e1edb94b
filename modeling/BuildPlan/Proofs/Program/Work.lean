import BuildPlan.Proofs.Blueprint.Registration
import BuildPlan.Proofs.Catalog.Assuming
import BuildPlan.Proofs.Release.Document

namespace BuildPlan

def Files.blueprint (files : Files) (path : String) : Except LoadError Blueprint :=
  match files path with
  | .error fault => .error (.unreadable path fault.message)
  | .ok text => Blueprint.ofText text path

def Invocation.blueprint (files : Files) (i : Invocation) : Except LoadError Blueprint :=
  match i.catalog with
  | none => .ok Release.blueprint
  | some path => files.blueprint path

def Invocation.loaded (files : Files) (i : Invocation) : Except LoadError Catalog :=
  (i.blueprint files).bind fun blueprint => blueprint.toCatalog.map (·.assumeAll i.assumed)

theorem Invocation.loaded_congr {files : Files} {i j : Invocation} (catalog : i.catalog = j.catalog)
    (assumed : i.assumed = j.assumed) : i.loaded files = j.loaded files := by
  rw [loaded, loaded, blueprint, blueprint, catalog, assumed]

namespace Command

variable {α β ε : Type} {work : Command α} {next : α → Command β} {value : α} {failure : Failure}
  {result : Except Failure β}

def ComesTo (work : Command α) (result : Except Failure α) : Prop :=
  ∀ told, (work.run.run told).1 = result

theorem run_bind (work : Command α) (next : α → Command β) (told : Array Event) :
    (work >>= next).run.run told =
      match work.run.run told with
      | (.ok value, told) => (next value).run.run told
      | (.error failure, told) => (.error failure, told) := by
  have opened : (work >>= next).run.run told =
      (ExceptT.bindCont next (work.run.run told).1).run (work.run.run told).2 := rfl
  rw [opened]
  rcases work.run.run told with ⟨_ | _, after⟩ <;> rfl

namespace ComesTo

theorem said (value : α) : ComesTo (pure value) (.ok value) := fun _ => rfl

theorem failed (cause : Failure.Cause) : ComesTo (fail cause : Command α) (.error (.ofCause cause)) :=
  fun _ => rfl

theorem told (event : Event) : ComesTo (tell event) (.ok ()) := fun _ => rfl

theorem andThen (first : ComesTo work (.ok value)) (second : ComesTo (next value) result) :
    ComesTo (work >>= next) result := by
  intro told
  have made := first told
  rw [run_bind]
  rcases ended : work.run.run told with ⟨answer, after⟩
  rw [ended] at made
  cases made
  exact second after

theorem stop (first : ComesTo work (.error failure)) : ComesTo (work >>= next) (.error failure) := by
  intro told
  have made := first told
  rw [run_bind]
  rcases ended : work.run.run told with ⟨answer, after⟩
  rw [ended] at made
  cases made
  rfl

theorem ofPair (cause : ε → Failure.Cause) {pair : Except ε α × Array Event} {answer : Except ε α}
    (ended : pair.1 = answer) :
    ComesTo (ofPair cause pair) (answer.mapError fun error => .ofCause (cause error)) := by
  intro told
  subst ended
  rcases pair with ⟨_ | _, events⟩ <;> rfl

end ComesTo

variable {files : Files} {i : Invocation} {error : LoadError} {fault : Fault} {c : Catalog}

theorem readBlueprint_comesTo (files : Files) (path : String) :
    ComesTo (readBlueprint files path)
      ((files.blueprint path).mapError fun error => .ofCause (.loading error)) := by
  unfold readBlueprint Files.blueprint
  cases files path with
  | error fault => exact ComesTo.failed _
  | ok text =>
    dsimp only
    cases Blueprint.ofText text path with
    | error error => exact ComesTo.failed _
    | ok blueprint => exact ComesTo.andThen (.told _) (.said _)

theorem chooseBlueprint_comesTo (files : Files) (i : Invocation) :
    ComesTo (chooseBlueprint files i.catalog)
      ((i.blueprint files).mapError fun error => .ofCause (.loading error)) := by
  unfold Invocation.blueprint chooseBlueprint
  cases i.catalog with
  | none =>
    rw [Release.ofText_text]
    exact ComesTo.andThen (.told _) (.said _)
  | some path => exact readBlueprint_comesTo files path

theorem load_comesTo (files : Files) (i : Invocation) :
    ComesTo (load files i.catalog i.assumed)
      ((i.loaded files).mapError fun error => .ofCause (.loading error)) := by
  have chosen := chooseBlueprint_comesTo files i
  unfold load Invocation.loaded
  cases found : i.blueprint files with
  | error error =>
    rw [found] at chosen
    exact chosen.stop
  | ok blueprint =>
    rw [found] at chosen
    refine chosen.andThen ?_
    rw [Except.bind]
    cases made : blueprint.toCatalog with
    | error error => exact (ComesTo.ofPair .loading made).stop
    | ok catalog => exact (ComesTo.ofPair .loading made).andThen (Catalog.extend_eq catalog i.assumed)

theorem report_unloaded (failed : i.loaded files = .error error) :
    (report files i).ComesTo (.error (.ofCause (.loading error))) := by
  have load := load_comesTo files i
  rw [failed] at load
  exact load.stop

theorem report_loaded {answer : Except Failure Report} (ready : i.loaded files = .ok c)
    (chosen : (if i.check then check c i.output else if i.list then list c i.output else schedule c i).ComesTo
      answer) : (report files i).ComesTo answer := by
  have load := load_comesTo files i
  rw [ready] at load
  exact load.andThen ((ComesTo.told _).andThen chosen)

theorem report_valid (ready : i.loaded files = .ok c) (chosen : i.check = true) (none : c.faults = []) :
    (report files i).ComesTo (.ok { remark := "", result := checkResult c i.output }) := by
  refine report_loaded ready ?_
  rw [if_pos chosen]
  refine ComesTo.andThen (.told _) ?_
  have faultless : (Graph.ofCatalog c).faults = [] := none
  rw [faultless]
  exact .said _

theorem report_invalid (ready : i.loaded files = .ok c) (chosen : i.check = true) (some : c.faults ≠ []) :
    (report files i).ComesTo (.error (.ofCause (.invalid c.faults))) := by
  refine report_loaded ready ?_
  rw [if_pos chosen]
  refine ComesTo.andThen (.told _) ?_
  rw [Catalog.faults]
  cases found : (Graph.ofCatalog c).faults with
  | nil => exact absurd found some
  | cons fault rest => exact .failed _

theorem report_listed (ready : i.loaded files = .ok c) (check : i.check = false) (chosen : i.list = true) :
    (report files i).ComesTo (.ok { remark := "", result := listResult c i.output }) := by
  refine report_loaded ready ?_
  rw [check, chosen]
  exact .said _

theorem report_scheduled (ready : i.loaded files = .ok c) (check : i.check = false) (list : i.list = false) :
    (report files i).ComesTo
      (match c.schedule i.tasks with
        | .ok s => .ok
          { remark := if i.quiet then "" else collectedRemark s.size c.buildable.length i.tasks
            result := scheduleResult s c.buildable.length i.output }
        | .error fault => .error (.ofCause (.scheduling fault))) := by
  refine report_loaded ready ?_
  rw [check, list]
  cases made : c.schedule i.tasks with
  | ok s => exact (ComesTo.ofPair .scheduling made).andThen (.said _)
  | error fault => exact (ComesTo.ofPair .scheduling made).stop

inductive Reports (files : Files) (i : Invocation) : Except Failure Report → Prop where
  | unloaded {error : LoadError} : i.loaded files = .error error →
      Reports files i (.error (.ofCause (.loading error)))
  | valid {c : Catalog} : i.loaded files = .ok c → i.check = true → c.faults = [] →
      Reports files i (.ok { remark := "", result := checkResult c i.output })
  | invalid {c : Catalog} : i.loaded files = .ok c → i.check = true → c.faults ≠ [] →
      Reports files i (.error (.ofCause (.invalid c.faults)))
  | listed {c : Catalog} : i.loaded files = .ok c → i.check = false → i.list = true →
      Reports files i (.ok { remark := "", result := listResult c i.output })
  | scheduled {c : Catalog} {s : Schedule} : i.loaded files = .ok c → i.check = false → i.list = false →
      c.schedule i.tasks = .ok s → Reports files i (.ok
        { remark := if i.quiet then "" else collectedRemark s.size c.buildable.length i.tasks
          result := scheduleResult s c.buildable.length i.output })
  | unscheduled {c : Catalog} {fault : Fault} : i.loaded files = .ok c → i.check = false → i.list = false →
      c.schedule i.tasks = .error fault → Reports files i (.error (.ofCause (.scheduling fault)))

theorem Reports.comesTo {answer : Except Failure Report} (reports : Reports files i answer) :
    (report files i).ComesTo answer := by
  cases reports with
  | unloaded failed => exact report_unloaded failed
  | valid ready check none => exact report_valid ready check none
  | invalid ready check some => exact report_invalid ready check some
  | listed ready check list => exact report_listed ready check list
  | scheduled ready check list made | unscheduled ready check list made =>
    have scheduled := report_scheduled ready check list
    rw [made] at scheduled
    exact scheduled

theorem exists_reports (files : Files) (i : Invocation) : ∃ answer, Reports files i answer := by
  cases ready : i.loaded files with
  | error error => exact ⟨_, .unloaded ready⟩
  | ok c =>
    cases check : i.check with
    | true =>
      by_cases none : c.faults = []
      · exact ⟨_, .valid ready check none⟩
      · exact ⟨_, .invalid ready check none⟩
    | false =>
      cases list : i.list with
      | true => exact ⟨_, .listed ready check list⟩
      | false =>
        cases made : c.schedule i.tasks with
        | ok s => exact ⟨_, .scheduled ready check list made⟩
        | error fault => exact ⟨_, .unscheduled ready check list made⟩

theorem report_eq_iff {answer : Except Failure Report} :
    (i.report files).1 = answer ↔ Reports files i answer := by
  constructor
  · rintro rfl
    obtain ⟨answer, reports⟩ := exists_reports files i
    have comes : (i.report files).1 = answer := reports.comesTo #[]
    exact comes ▸ reports
  · exact fun reports => reports.comesTo #[]

end Command

theorem Files.blueprint_blame {files : Files} {path : String} {error : LoadError}
    (failed : files.blueprint path = .error error) : Failure.Kind.ofLoadError error = .config := by
  unfold Files.blueprint at failed
  split at failed
  · cases failed
    rfl
  · next text _ =>
    unfold Blueprint.ofText at failed
    cases parsed : Blueprint.parse text with
    | error problem => rw [parsed] at failed; cases failed; rfl
    | ok b => rw [parsed] at failed; cases failed

theorem Invocation.blueprint_blame {files : Files} {i : Invocation} {error : LoadError}
    (failed : i.blueprint files = .error error) : Failure.Kind.ofLoadError error = .config := by
  unfold blueprint at failed
  split at failed
  · cases failed
  · exact Files.blueprint_blame failed

theorem Invocation.loaded_blame {files : Files} {i : Invocation} {error : LoadError}
    (failed : i.loaded files = .error error) : Failure.Kind.ofLoadError error = .config := by
  unfold loaded at failed
  cases found : i.blueprint files with
  | error other =>
    rw [found] at failed
    cases failed
    exact blueprint_blame found
  | ok b =>
    rw [found, Except.bind] at failed
    cases made : b.toCatalog with
    | error other =>
      rw [made] at failed
      cases failed
      exact Blueprint.toCatalog_blame made
    | ok catalog => rw [made] at failed; cases failed

theorem Catalog.schedule_blame {c : Catalog} {roots : List Name} {fault : Fault}
    (failed : c.schedule roots = .error fault) : Failure.Kind.ofFault fault = .resolve := by
  obtain ⟨_, _, _, _, _, leftmost⟩ := (Collector.schedule_error_iff c).mp failed
  cases leftmost <;> rfl

end BuildPlan
