import BuildPlan.Console
import BuildPlan.Proofs.Program.Work

namespace BuildPlan

namespace Stream

variable {s : Stream} {one two : String}

theorem write_empty (s : Stream) : s.write "" = (s, true) := by
  obtain ⟨taken, _ | room⟩ := s
  · simp [write, Streams.take]
  · have nothing : ByteArray.empty.extract 0 room = .empty := ByteArray.extract_eq_empty_iff.mpr (by simp)
    simp [write, Streams.take, nothing]

-- A text that does not fit takes all the room that there was.
theorem write_append (s : Stream) (one two : String) :
    s.write (one ++ two) =
      (((s.write one).1.write two).1, (s.write one).2 && ((s.write one).1.write two).2) := by
  obtain ⟨taken, _ | room⟩ := s
  · simp [write, Streams.take, ByteArray.append_assoc]
  · simp [write, Streams.take, ByteArray.extract_append, ByteArray.append_assoc, String.utf8ByteSize_append]
    refine ⟨by omega, ?_⟩
    rw [← Bool.decide_and, decide_eq_decide]
    omega

-- A stream that could not take a text takes nothing more.
theorem write_of_full (full : (s.write one).2 = false) (two : String) :
    ((s.write one).1.write two).1 = (s.write one).1 := by
  obtain ⟨taken, _ | room⟩ := s
  · exact absurd full nofun
  · have beyond : room < one.utf8ByteSize := by simpa [write, Streams.take] using full
    have nothing : room - one.utf8ByteSize = 0 := by omega
    simp [write, Streams.take, nothing]

end Stream

namespace Delivery

variable {streams : Streams} {report : Report}

theorem ofReport_cases (streams : Streams) (report : Report) :
    let remarked := Streams.take streams.remarkRoom report.remark
    let written := Streams.take streams.resultRoom report.result
    (remarked.2 = false ∧ ofReport streams report = ⟨refused "closed", remarked.1, .empty⟩) ∨
    (remarked.2 = true ∧ ∃ outcome, ofReport streams report = ⟨outcome, remarked.1, written.1⟩ ∧
      (outcome = .ok () ∨ ∃ reason, outcome = refused reason)) := by
  unfold ofReport
  rcases Streams.take streams.remarkRoom report.remark with ⟨remark, _ | _⟩
  · exact .inl ⟨rfl, rfl⟩
  · right
    rcases Streams.take streams.resultRoom report.result with ⟨result, _ | _⟩
    · exact ⟨rfl, _, rfl, .inr ⟨_, rfl⟩⟩
    · cases streams.flushes with
      | false => exact ⟨rfl, _, rfl, .inr ⟨_, rfl⟩⟩
      | true => exact ⟨rfl, _, rfl, .inl rfl⟩

end Delivery

namespace Console

open Command (Reports)

variable {files : Files} {i : Invocation} {streams : Streams} {α β : Type}

def say (report : Report) : Speaking Unit := do
  sayRemark report.remark
  sayResult report.result

theorem run_sayRemark (text : String) (console : Console) : (sayRemark text).run.run console =
    (if (console.remark.write text).2 then .ok () else .error (.ofCause (.output "closed")),
      { console with remark := (console.remark.write text).1 }) := by
  have opened : (sayRemark text).run.run console =
      (if (console.remark.write text).2 then pure () else cannot "closed" : Speaking Unit).run.run
        { console with remark := (console.remark.write text).1 } := rfl
  rw [opened]
  split <;> rfl

theorem run_sayResult (text : String) (console : Console) : (sayResult text).run.run console =
    (if (console.result.write text).2 then .ok () else .error (.ofCause (.output "closed")),
      { console with result := (console.result.write text).1 }) := by
  have opened : (sayResult text).run.run console =
      (if (console.result.write text).2 then pure () else cannot "closed" : Speaking Unit).run.run
        { console with result := (console.result.write text).1 } := rfl
  rw [opened]
  split <;> rfl

theorem run_andThen (first : Speaking α) (next : α → Speaking β) (console : Console) :
    (first >>= next).run.run console =
      match first.run.run console with
      | (.ok value, console) => (next value).run.run console
      | (.error failure, console) => (.error failure, console) := by
  have opened : (first >>= next).run.run console =
      (ExceptT.bindCont next (first.run.run console).1).run (first.run.run console).2 := rfl
  rw [opened]
  rcases first.run.run console with ⟨_ | _, after⟩ <;> rfl

theorem ext {one two : Speaking α} (same : ∀ console, one.run.run console = two.run.run console) : one = two :=
  ExceptT.ext (StateT.ext same)

theorem sayRemark_empty : sayRemark "" = pure () := by
  refine ext fun console => ?_
  rw [run_sayRemark, Stream.write_empty]
  rfl

theorem sayResult_empty : sayResult "" = pure () := by
  refine ext fun console => ?_
  rw [run_sayResult, Stream.write_empty]
  rfl

theorem sayResult_append (one two : String) :
    sayResult (one ++ two) = (do sayResult one; sayResult two) := by
  refine ext fun console => ?_
  rw [run_andThen, run_sayResult, run_sayResult, Stream.write_append]
  cases complete : (console.result.write one).2 with
  | true =>
    rw [if_pos rfl]
    dsimp only
    rw [run_sayResult, Bool.true_and]
  | false => simp [Stream.write_of_full complete]

theorem lines_cons (name : Name) (rest : List Name) :
    Command.lines (name :: rest) = name ++ "\n" ++ Command.lines rest := by
  simp [Command.lines, String.join_cons]

theorem sayNames_eq (names : List Name) : sayNames names = sayResult (Command.lines names) := by
  induction names with
  | nil => exact sayResult_empty.symm
  | cons name rest ih =>
    rw [lines_cons, sayResult_append, ← ih]
    rfl

theorem run_quietly (work : Command α) (console : Console) : (quietly work).run.run console =
    ((work.run.run console.events).1, { console with events := (work.run.run console.events).2 }) := rfl

theorem quietly_pure (value : α) : quietly (pure value) = pure value := ext fun _ => rfl

theorem quietly_bind (work : Command α) (next : α → Command β) :
    quietly (work >>= next) = quietly work >>= fun value => quietly (next value) := by
  refine ext fun console => ?_
  rw [run_andThen, run_quietly, run_quietly, Command.run_bind]
  rcases work.run.run console.events with ⟨_ | value, events⟩
  · rfl
  · rfl

theorem quietly_fail (cause : Failure.Cause) (next : α → Speaking β) :
    quietly (Command.fail cause) >>= next = quietly (Command.fail cause) := ext fun _ => rfl

theorem say_result (text : String) : say { remark := "", result := text } = sayResult text := by
  rw [say, sayRemark_empty, pure_bind]

theorem check_eq (c : Catalog) (output : Output) : check c output = quietly (Command.check c output) >>= say := by
  unfold check Command.check
  dsimp only
  rw [quietly_bind, bind_assoc]
  refine bind_congr fun _ => ?_
  cases (Graph.ofCatalog c).faults with
  | nil => rw [quietly_pure, pure_bind, say_result]
  | cons fault rest => exact (quietly_fail _ _).symm

theorem list_eq (c : Catalog) (output : Output) : list c output = quietly (Command.list c output) >>= say := by
  rw [Command.list, quietly_pure, pure_bind, say_result]
  cases output with
  | text => exact sayNames_eq c.names
  | json => rfl

theorem remarkUnless_eq (quiet : Bool) (text : String) :
    remarkUnless quiet text = sayRemark (if quiet then "" else text) := by
  cases quiet with
  | true => exact sayRemark_empty.symm
  | false => rfl

theorem saySchedule_eq (s : Schedule) (total : Nat) (output : Output) :
    saySchedule s total output = sayResult (Command.scheduleResult s total output) := by
  cases output with
  | text => exact sayNames_eq s.names
  | json => rfl

theorem schedule_eq (c : Catalog) (i : Invocation) :
    schedule c i = quietly (Command.schedule c i) >>= say := by
  unfold schedule Command.schedule
  rw [quietly_bind, bind_assoc]
  refine bind_congr fun s => ?_
  dsimp only
  rw [quietly_pure, pure_bind, remarkUnless_eq, saySchedule_eq, say]

theorem perform_eq (c : Catalog) (i : Invocation) : perform c i =
    quietly (if i.check then Command.check c i.output
      else if i.list then Command.list c i.output else Command.schedule c i) >>= say := by
  unfold perform
  split
  · exact check_eq c i.output
  · split
    · exact list_eq c i.output
    · exact schedule_eq c i

-- Everything is known before the first line is written.
theorem carryOut_eq (files : Files) (i : Invocation) :
    carryOut files i = (do let report ← quietly (Command.report files i); say report; flush) := by
  unfold carryOut Command.report
  simp only [perform_eq, quietly_bind, bind_assoc]

theorem run_flush (console : Console) : flush.run.run console =
    (if console.flushes then .ok () else .error (.ofCause (.output "flush failed")), console) := by
  have opened : flush.run.run console =
      (if console.flushes then pure () else cannot "flush failed" : Speaking Unit).run.run console := rfl
  rw [opened]
  split <;> rfl

theorem write_start (room : Option Nat) (text : String) : (Stream.mk .empty room).write text =
    (⟨(Streams.take room text).1, room.map (· - text.utf8ByteSize)⟩, (Streams.take room text).2) := by
  simp [Stream.write]

theorem run_say (report : Report) (streams : Streams) (events : Array Event) :
    let ended := (do say report; flush : Speaking Unit).run.run { start streams with events }
    delivery ended = .ofReport streams report ∧ ended.2.events = events := by
  dsimp only
  rw [say, bind_assoc, run_andThen, run_sayRemark]
  simp only [start, write_start, Delivery.ofReport]
  cases remarked : (Streams.take streams.remarkRoom report.remark).2 with
  | false => exact ⟨rfl, rfl⟩
  | true =>
    simp only [if_true]
    rw [run_andThen, run_sayResult]
    simp only [write_start]
    cases complete : (Streams.take streams.resultRoom report.result).2 with
    | false => exact ⟨rfl, rfl⟩
    | true =>
      simp only [if_true]
      rw [run_flush]
      cases streams.flushes <;> exact ⟨rfl, rfl⟩

theorem carryOut_eq_execute (files : Files) (streams : Streams) (i : Invocation) :
    i.carryOut files streams = i.execute files streams := by
  unfold Invocation.carryOut Invocation.execute Invocation.report
  rw [carryOut_eq, run_andThen, run_quietly]
  have begun : (start streams).events = #[] := rfl
  rw [begun]
  rcases (Command.report files i).run.run #[] with ⟨failure | report, events⟩
  · rfl
  · obtain ⟨delivered, told⟩ := run_say report streams events
    dsimp only
    rw [delivered, told]

theorem execute_failed {failure : Failure} (failed : (i.report files).1 = .error failure) (streams : Streams) :
    (i.execute files streams).1 = ⟨.error failure, .empty, .empty⟩ := by
  unfold Invocation.execute
  rcases ended : i.report files with ⟨answer, events⟩
  rw [ended] at failed
  cases failed
  rfl

theorem execute_made {report : Report} (made : (i.report files).1 = .ok report) (streams : Streams) :
    (i.execute files streams).1 = .ofReport streams report := by
  unfold Invocation.execute
  rcases ended : i.report files with ⟨answer, events⟩
  rw [ended] at made
  cases made
  rfl

theorem ofReport_error {report : Report} {failure : Failure}
    (failed : (Delivery.ofReport streams report).outcome = .error failure) :
    ∃ reason, failure = .ofCause (.output reason) := by
  rcases Delivery.ofReport_cases streams report with ⟨_, ended⟩ | ⟨_, outcome, ended, rfl | ⟨reason, rfl⟩⟩
  · rw [ended] at failed
    cases failed
    exact ⟨_, rfl⟩
  · rw [ended] at failed
    cases failed
  · rw [ended] at failed
    cases failed
    exact ⟨_, rfl⟩

-- Nothing is written by work that fails, unless it is a stream that fails; all is written by work that ends
-- well, and that is what the chosen command has to say.
theorem all_or_nothing (files : Files) (i : Invocation) :
    (∀ streams, i.carryOut files streams = i.execute files streams) ∧
    (∀ failure, (i.carryOut files .working).1.outcome = .error failure →
      Reports files i (.error failure) ∧ (i.carryOut files .working).1.remark = .empty ∧
        (i.carryOut files .working).1.result = .empty) ∧
    ((i.carryOut files .working).1.outcome = .ok () → ∃ report, Reports files i (.ok report) ∧
      (i.carryOut files .working).1.remark = report.remark.toUTF8 ∧
      (i.carryOut files .working).1.result = report.result.toUTF8) ∧
    (∀ streams failure, (i.carryOut files streams).1.outcome = .error failure →
      (i.carryOut files streams).1.remark = .empty ∧ (i.carryOut files streams).1.result = .empty ∨
        ∃ reason, failure = .ofCause (.output reason)) := by
  refine ⟨fun streams => carryOut_eq_execute files streams i, ?_⟩
  simp only [carryOut_eq_execute]
  cases known : (i.report files).1 with
  | error failure =>
    have ended := execute_failed known
    refine ⟨?_, ?_, ?_⟩
    · intro other same
      rw [ended] at same ⊢
      cases same
      exact ⟨Command.report_eq_iff.mp known, rfl, rfl⟩
    · rw [ended]
      nofun
    · intro streams other _
      rw [ended]
      exact .inl ⟨rfl, rfl⟩
  | ok report =>
    have ended := execute_made known
    refine ⟨?_, ?_, ?_⟩
    · rw [ended]
      nofun
    · intro _
      rw [ended]
      exact ⟨report, Command.report_eq_iff.mp known, rfl, rfl⟩
    · intro streams failure failed
      rw [ended] at failed
      exact .inr (ofReport_error failed)

def shelf : Files := fun _ => .ok
  "[[task]]\nname = \"app\"\ndepends = [\"lib\"]\n[[task]]\nname = \"lib\"\n[[task]]\nname = \"gui\"\ndepends = [\"lost\"]\n"

def shelved : Catalog :=
  Catalog.empty.add ⟨"app", ["lib"]⟩ rfl |>.add ⟨"lib", []⟩ rfl |>.add ⟨"gui", ["lost"]⟩ rfl

def building : Invocation := { catalog := some "shelf.toml", tasks := ["app"], output := .json }

def stuck : Invocation := { catalog := some "shelf.toml", tasks := ["app", "gui"] }

theorem building_loaded : building.loaded shelf = .ok shelved := by
  have read : building.blueprint shelf = .ok { entries := [{ name := "app", needs := ["lib"] },
      { name := "lib" }, { name := "gui", needs := ["lost"] }] } := by decide +kernel
  rw [Invocation.loaded, read]
  rfl

theorem shelf_all_or_nothing :
    (.collected "app" 1 ∈ (shelved.collect stuck.tasks).2 ∧
      (stuck.carryOut shelf .working).1.outcome = .error (.ofCause (.scheduling (.unknown "lost" ["gui"]))) ∧
      (stuck.carryOut shelf .working).1.remark = .empty ∧ (stuck.carryOut shelf .working).1.result = .empty) ∧
    (building.carryOut shelf .working).1.outcome = .ok () ∧
      (building.carryOut shelf .working).1.remark = "Collected 2/3 tasks for [app]\n".toUTF8 ∧
      (building.carryOut shelf .working).1.result =
        "\x7b\"status\":\"ok\",\"data\":\x7b\"tasks\":[\"lib\",\"app\"],\"collected\":2,\"total\":3\x7d\x7d\n".toUTF8 := by
  obtain ⟨same, nothing, _⟩ := all_or_nothing shelf stuck
  obtain ⟨same', _, written, _⟩ := all_or_nothing shelf building
  have stuck_loaded : stuck.loaded shelf = .ok shelved := (Invocation.loaded_congr rfl rfl).trans building_loaded
  have refused : Reports shelf stuck (.error (.ofCause (.scheduling (.unknown "lost" ["gui"])))) :=
    .unscheduled stuck_loaded rfl rfl rfl
  have made : Reports shelf building (.ok _) := .scheduled (s := ⟨["lib", "app"]⟩) building_loaded rfl rfl rfl
  have failed : (stuck.carryOut shelf .working).1.outcome =
      .error (.ofCause (.scheduling (.unknown "lost" ["gui"]))) := by
    rw [same, execute_failed (Command.report_eq_iff.mpr refused)]
  have fine : (building.carryOut shelf .working).1.outcome = .ok () := by
    rw [same', execute_made (Command.report_eq_iff.mpr made)]
    rfl
  obtain ⟨report, reports, remark, result⟩ := written fine
  cases Except.ok.inj ((Command.report_eq_iff.mpr made).symm.trans (Command.report_eq_iff.mpr reports))
  exact ⟨⟨Array.mem_toList_iff.mp (by decide), failed, (nothing _ failed).2⟩, fine, remark, result⟩

end Console
end BuildPlan
