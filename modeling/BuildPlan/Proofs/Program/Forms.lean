import BuildPlan.Proofs.Blueprint.Flattening
import BuildPlan.Proofs.Console.Delivery
import BuildPlan.Proofs.Program.Answers

namespace BuildPlan

-- The pieces of a text between line feeds; behind the last one there is a line only if there is anything.
def Text.linesOf (text : String) : List String :=
  let pieces := (text.toList.splitOn '\n').map String.ofList
  if pieces.getLast? = some "" then pieces.dropLast else pieces

structure Invocation.AsksTheSame (i j : Invocation) : Prop where
  tasks : i.tasks = j.tasks
  catalog : i.catalog = j.catalog
  assumed : i.assumed = j.assumed
  check : i.check = j.check
  list : i.list = j.list

-- The tasks of a catalog that was loaded stand in the order in which its blueprint registers them.
theorem Invocation.blueprint_of_loaded {files : Files} {i : Invocation} {c : Catalog}
    (ready : i.loaded files = .ok c) :
    ∃ b, i.blueprint files = .ok b ∧ c.names = b.tasks.map Task.name := by
  unfold loaded at ready
  cases found : i.blueprint files with
  | error error => rw [found] at ready; cases ready
  | ok b =>
    rw [found, Except.bind] at ready
    cases made : b.toCatalog with
    | error error => rw [made] at ready; cases ready
    | ok flat =>
      rw [made] at ready
      cases ready
      refine ⟨b, rfl, ?_⟩
      rw [Catalog.names_assumeAll, Catalog.names, (Blueprint.tasks_of_toCatalog made).2.1]

namespace Command

variable {files : Files} {i j : Invocation} {answer : Except Failure Report}

theorem splitOn_lines (names : List Name) (whole : ∀ name ∈ names, '\n' ∉ name.toList) :
    (lines names).toList.splitOn '\n' = names.map String.toList ++ [[]] := by
  induction names with
  | nil => rfl
  | cons name rest ih =>
    have parted : (lines (name :: rest)).toList = name.toList ++ '\n' :: (lines rest).toList := by
      simp [Console.lines_cons]
    rw [parted, List.splitOn_append_cons_self_of_not_mem (whole name List.mem_cons_self),
      ih fun other member => whole other (List.mem_cons_of_mem _ member)]
    rfl

theorem linesOf_lines (names : List Name) (whole : ∀ name ∈ names, '\n' ∉ name.toList) :
    Text.linesOf (lines names) = names := by
  have pieces : ((lines names).toList.splitOn '\n').map String.ofList = names ++ [""] := by
    rw [splitOn_lines names whole]
    simp
  unfold Text.linesOf
  rw [pieces]
  simp

structure Alike (i j : Invocation) (one two : Report) : Prop where
  result : i.output = j.output → one.result = two.result
  remark : i.quiet = j.quiet → one.remark = two.remark

theorem Reports.counterpart (same : i.AsksTheSame j) (reports : Reports files i answer) :
    (∃ failure, answer = .error failure ∧ Reports files j (.error failure)) ∨
    ∃ one two, answer = .ok one ∧ Reports files j (.ok two) ∧ Alike i j one two := by
  have loaded : i.loaded files = j.loaded files := Invocation.loaded_congr same.catalog same.assumed
  cases reports with
  | unloaded failed => exact .inl ⟨_, rfl, .unloaded (loaded ▸ failed)⟩
  | valid ready check none =>
    exact .inr ⟨_, _, rfl, .valid (loaded ▸ ready) (same.check ▸ check) none,
      fun output => by rw [output], fun _ => rfl⟩
  | invalid ready check some =>
    exact .inl ⟨_, rfl, .invalid (loaded ▸ ready) (same.check ▸ check) some⟩
  | listed ready check list =>
    exact .inr ⟨_, _, rfl, .listed (loaded ▸ ready) (same.check ▸ check) (same.list ▸ list),
      fun output => by rw [output], fun _ => rfl⟩
  | scheduled ready check list made =>
    exact .inr ⟨_, _, rfl, .scheduled (loaded ▸ ready) (same.check ▸ check) (same.list ▸ list)
      (same.tasks ▸ made), fun output => by rw [output], fun quiet => by rw [quiet, same.tasks]⟩
  | unscheduled ready check list failed =>
    exact .inl ⟨_, rfl, .unscheduled (loaded ▸ ready) (same.check ▸ check) (same.list ▸ list)
      (same.tasks ▸ failed)⟩

end Command

namespace Delivery

variable {streams : Streams} {report : Report}

theorem remark_ofReport (streams : Streams) (report : Report) :
    (ofReport streams report).remark = (Streams.take streams.remarkRoom report.remark).1 := by
  rcases ofReport_cases streams report with ⟨_, ended⟩ | ⟨_, _, ended, _⟩ <;> rw [ended]

theorem result_ofReport (remarked : (Streams.take streams.remarkRoom report.remark).2 = true) :
    (ofReport streams report).result = (Streams.take streams.resultRoom report.result).1 := by
  rcases ofReport_cases streams report with ⟨failed, _⟩ | ⟨_, _, ended, _⟩
  · exact absurd (failed.symm.trans remarked) nofun
  · rw [ended]

theorem remarked_of_ok (ended : (ofReport streams report).outcome = .ok ()) :
    (Streams.take streams.remarkRoom report.remark).2 = true := by
  rcases ofReport_cases streams report with ⟨_, failed⟩ | ⟨remarked, _⟩
  · rw [failed] at ended
    cases ended
  · exact remarked

end Delivery

namespace Program

open Command (Reports)

variable {words : Blueprint.Wording} {files : Files} {i j : Invocation} {streams : Streams}

theorem remark_congr (same : i.AsksTheSame j) (quiet : i.quiet = j.quiet) (streams : Streams) :
    (i.execute files streams).1.remark = (j.execute files streams).1.remark := by
  rcases Reports.counterpart same (Command.report_eq_iff.mp rfl) with
    ⟨failure, known, reports⟩ | ⟨one, two, known, reports, alike⟩
  · rw [Console.execute_failed known, Console.execute_failed (Command.report_eq_iff.mpr reports)]
  · rw [Console.execute_made known, Console.execute_made (Command.report_eq_iff.mpr reports),
      Delivery.remark_ofReport, Delivery.remark_ofReport, alike.remark quiet]

-- The remark comes first, so a stream that cannot take it would keep the result from being written.
theorem result_congr (same : i.AsksTheSame j) (output : i.output = j.output)
    (remarked : streams.remarkRoom = none ∨
      (i.execute files streams).1.outcome = .ok () ∧ (j.execute files streams).1.outcome = .ok ()) :
    (i.execute files streams).1.result = (j.execute files streams).1.result := by
  rcases Reports.counterpart same (Command.report_eq_iff.mp rfl) with
    ⟨failure, known, reports⟩ | ⟨one, two, known, reports, alike⟩
  · rw [Console.execute_failed known, Console.execute_failed (Command.report_eq_iff.mpr reports)]
  · rw [Console.execute_made known, Console.execute_made (Command.report_eq_iff.mpr reports)] at remarked ⊢
    have taken : (Streams.take streams.remarkRoom one.remark).2 = true ∧
        (Streams.take streams.remarkRoom two.remark).2 = true := by
      rcases remarked with endless | ⟨ended, ended'⟩
      · rw [endless]
        exact ⟨rfl, rfl⟩
      · exact ⟨Delivery.remarked_of_ok ended, Delivery.remarked_of_ok ended'⟩
    rw [Delivery.result_ofReport taken.1, Delivery.result_ofReport taken.2, alike.result output]

theorem perform_congr (same : i.AsksTheSame j) (env env' : Environment) :
    (perform words files env i).exitCode = (perform words files env' j).exitCode ∧
      (i.output = j.output → (perform words files env i).output = (perform words files env' j).output) ∧
      (i.quiet = j.quiet → (perform words files env i).remark = (perform words files env' j).remark) := by
  rcases Reports.counterpart same (Command.report_eq_iff.mp rfl) with
    ⟨failure, known, reports⟩ | ⟨one, two, known, reports, alike⟩
  · obtain ⟨code, printed, remarked⟩ := perform_failed words env known
    obtain ⟨code', printed', remarked'⟩ := perform_failed words env' (Command.report_eq_iff.mpr reports)
    refine ⟨code.trans code'.symm, fun output => ?_, fun _ => remarked.trans remarked'.symm⟩
    rw [printed, printed', output]
  · obtain ⟨code, printed, remarked⟩ := perform_made words env known
    obtain ⟨code', printed', remarked'⟩ := perform_made words env' (Command.report_eq_iff.mpr reports)
    refine ⟨code.trans code'.symm, fun output => ?_, fun quiet => ?_⟩
    · rw [printed, printed', alike.result output]
    · rw [remarked, remarked', alike.remark quiet]

theorem exitCode_ne_zero (failure : Failure) : failure.exitCode ≠ 0 := by
  unfold Failure.exitCode
  cases failure.kind <;> decide

theorem made_of_fine {env : Environment} (fine : (perform words files env i).exitCode = 0) :
    ∃ made, Reports files i (.ok made) := by
  cases known : (i.report files).1 with
  | ok made => exact ⟨made, Command.report_eq_iff.mp known⟩
  | error failure =>
    have code := (perform_failed words env known).1
    exact absurd (code.symm.trans fine) (exitCode_ne_zero failure)

def inText (words : Blueprint.Wording) (files : Files) (env : Environment) (i : Invocation) : Outcome :=
  perform words files env { i with output := .text }

def inJson (words : Blueprint.Wording) (files : Files) (env : Environment) (i : Invocation) : Outcome :=
  perform words files env { i with output := .json }

-- Both forms name the same tasks, one as its lines and the other in a document.
structure Told (words : Blueprint.Wording) (files : Files) (env : Environment) (i : Invocation)
    (names : List Name) (data : Json) : Prop where
  ended : (inText words files env i).exitCode = 0 ∧ (inJson words files env i).exitCode = 0
  lines : (∀ name ∈ names, '\n' ∉ name.toList) → Text.linesOf (inText words files env i).output = names
  document : ∃ body, (inJson words files env i).output = body ++ "\n" ∧ Json.ofText? body = some (success data)
  tasks : data.field? "tasks" = some (.strings names)

structure Counted (c : Catalog) (i : Invocation) (names : List Name) (data : Json) : Prop where
  collected : data.field? "collected" = some (.number names.length)
  total : data.field? "total" = some (.number c.buildable.length)
  within : names.length ≤ c.buildable.length
  everything : i.tasks = [] → names.length = c.buildable.length

variable {env : Environment} {c : Catalog} {s : Schedule} {names : List Name} {data : Json}

theorem told_of_reports {remark remark' : String}
    (text : Reports files { i with output := .text } (.ok ⟨remark, Command.lines names⟩))
    (json : Reports files { i with output := .json } (.ok ⟨remark', Command.okLine data⟩))
    (tasks : data.field? "tasks" = some (.strings names)) : Told words files env i names data := by
  obtain ⟨ended, listed, _⟩ := perform_made words env (Command.report_eq_iff.mpr text)
  obtain ⟨ended', written, _⟩ := perform_made words env (Command.report_eq_iff.mpr json)
  refine ⟨⟨ended, ended'⟩, fun whole => ?_, ⟨(success data).render, written, (success data).ofText?_render⟩, tasks⟩
  rw [inText, listed]
  exact Command.linesOf_lines names whole

theorem counted_of_schedule (made : c.schedule i.tasks = .ok s) : Counted c i s.names
    (.object [("tasks", .strings s.names), ("collected", .number s.size), ("total", .number c.buildable.length)]) := by
  refine ⟨rfl, rfl, Catalog.schedule_size_le made, ?_⟩
  intro everything
  rw [everything] at made
  exact ((Catalog.schedule_exact_closure made).2 rfl).2

theorem remark_of_everything (reports : Reports files i (.ok
      { remark := if i.quiet then "" else Command.collectedRemark s.size c.buildable.length i.tasks
        result := Command.scheduleResult s c.buildable.length i.output }))
    (counted : Counted c i s.names data) (everything : i.tasks = []) (loud : i.quiet = false) :
    (perform words files env i).remark = "Collected all " ++ toString s.names.length ++ " tasks\n" := by
  obtain ⟨_, _, remarked⟩ := perform_made words env (Command.report_eq_iff.mpr reports)
  rw [remarked, loud, everything, counted.everything everything]
  rfl

-- Listing or scheduling, the two forms tell the same, and neither stream tells what belongs to the other.
theorem one_story (words : Blueprint.Wording) (files : Files) (env : Environment) :
    (∀ i : Invocation, i.check = false → (perform words files env i).exitCode = 0 →
      ∃ b c names data, i.blueprint files = .ok b ∧ i.loaded files = .ok c ∧ Told words files env i names data ∧
        (i.list = true → names = b.tasks.map Task.name) ∧
        (i.list = false → (∃ s, c.schedule i.tasks = .ok s ∧ names = s.names) ∧ Counted c i names data ∧
          (i.tasks = [] → i.quiet = false →
            (perform words files env i).remark = "Collected all " ++ toString names.length ++ " tasks\n"))) ∧
    (∀ (i j : Invocation) (streams : Streams), i.AsksTheSame j → i.output = j.output →
      streams.remarkRoom = none ∨
        (i.execute files streams).1.outcome = .ok () ∧ (j.execute files streams).1.outcome = .ok () →
      (i.execute files streams).1.result = (j.execute files streams).1.result) ∧
    (∀ (i j : Invocation) (streams : Streams), i.AsksTheSame j → i.quiet = j.quiet →
      (i.execute files streams).1.remark = (j.execute files streams).1.remark) ∧
    (∀ (i j : Invocation) (env' : Environment), i.AsksTheSame j →
      (perform words files env i).exitCode = (perform words files env' j).exitCode ∧
        (i.output = j.output → (perform words files env i).output = (perform words files env' j).output) ∧
        (i.quiet = j.quiet → (perform words files env i).remark = (perform words files env' j).remark)) := by
  refine ⟨fun i working fine => ?_, fun i j streams => result_congr, fun i j streams same quiet =>
    remark_congr same quiet streams, fun i j env' same => perform_congr same env env'⟩
  obtain ⟨made, reports⟩ := made_of_fine fine
  cases reports with
  | valid _ check _ => exact absurd (working.symm.trans check) nofun
  | @listed c ready check list =>
    obtain ⟨b, found, registered⟩ := Invocation.blueprint_of_loaded ready
    have told : Told words files env i c.names _ := told_of_reports (.listed ready check list) (.listed ready check list) rfl
    exact ⟨b, c, c.names, _, found, ready, told, fun _ => registered,
      fun scheduling => absurd (scheduling.symm.trans list) nofun⟩
  | @scheduled c s ready check list made =>
    obtain ⟨b, found, _⟩ := Invocation.blueprint_of_loaded ready
    have told : Told words files env i s.names _ :=
      told_of_reports (.scheduled ready check list made) (.scheduled ready check list made) rfl
    have counted := counted_of_schedule made
    exact ⟨b, c, s.names, _, found, ready, told, fun listing => absurd (listing.symm.trans list) nofun,
      fun _ => ⟨⟨s, made, rfl⟩, counted,
        remark_of_everything (.scheduled ready check list made) counted⟩⟩

def twoTasks : Files := fun _ => .ok "[[task]]\nname = \"app\"\ndepends = [\"lib\"]\n[[task]]\nname = \"lib\"\n"

def everything : Invocation := { catalog := some "two.toml" }

theorem everything_scheduled : ∃ c s, everything.loaded twoTasks = .ok c ∧
    c.schedule everything.tasks = .ok s ∧ s.names = ["lib", "app"] := by
  have read : everything.blueprint twoTasks =
      .ok { entries := [{ name := "app", needs := ["lib"] }, { name := "lib" }] } := by decide +kernel
  rw [Invocation.loaded, read]
  exact ⟨_, _, rfl, rfl, rfl⟩

theorem two_tasks_one_story :
    (everything.check = false ∧ (perform wordless twoTasks ⟨none, none⟩ everything).exitCode = 0 ∧
      Text.linesOf (inText wordless twoTasks ⟨none, none⟩ everything).output = ["lib", "app"] ∧
      (perform wordless twoTasks ⟨none, none⟩ everything).remark = "Collected all 2 tasks\n") ∧
    (everything.execute twoTasks .working).1.result =
      ({ everything with quiet := true }.execute twoTasks .working).1.result ∧
    (everything.execute twoTasks .working).1.remark =
      ({ everything with output := .json }.execute twoTasks .working).1.remark := by
  obtain ⟨told, result, remark, _⟩ := one_story wordless twoTasks ⟨none, none⟩
  obtain ⟨c, s, ready, made, names⟩ := everything_scheduled
  have fine := (perform_made wordless ⟨none, none⟩ (Command.report_eq_iff.mpr (.scheduled ready rfl rfl made))).1
  obtain ⟨_, d, listed, _, _, ready', whole, _, scheduled⟩ := told everything rfl fine
  obtain ⟨⟨s', made', rfl⟩, _, remarked⟩ := scheduled rfl
  cases ready.symm.trans ready'
  cases made.symm.trans made'
  rw [names] at whole remarked
  exact ⟨⟨rfl, fine, whole.lines (by decide), remarked rfl rfl⟩,
    result _ _ _ ⟨rfl, rfl, rfl, rfl, rfl⟩ rfl (.inl rfl), remark _ _ _ ⟨rfl, rfl, rfl, rfl, rfl⟩ rfl⟩

end Program
end BuildPlan
