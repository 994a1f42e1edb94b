import BuildPlan.Program
import BuildPlan.Proofs.Json.RoundTrip
import BuildPlan.Proofs.Program.Work

namespace BuildPlan.Program

def success (data : Json) : Json := .object [("status", .string "ok"), ("data", data)]

def refusal (code message : String) : Json :=
  .object [("status", .string "error"),
    ("error", .object [("code", .string code), ("message", .string message)])]

inductive Answers (words : Blueprint.Wording) (files : Files) (i : Invocation) : Nat → Json → Prop where
  | unloaded {error : LoadError} : i.loaded files = .error error →
      Answers words files i 2 (refusal "config" (Failure.loadMessage words error))
  | valid {c : Catalog} : i.loaded files = .ok c → i.check = true → c.faults = [] →
      Answers words files i 0 (success (.object [("valid", .boolean true), ("tasks", .number c.size)]))
  | invalid {c : Catalog} : i.loaded files = .ok c → i.check = true → c.faults ≠ [] →
      Answers words files i 2 (refusal "config" ((Failure.Cause.invalid c.faults).message words))
  | listed {c : Catalog} : i.loaded files = .ok c → i.check = false → i.list = true →
      Answers words files i 0
        (success (.object [("tasks", .strings c.names), ("assume_provided", .strings c.assumed.toList)]))
  | scheduled {c : Catalog} {s : Schedule} : i.loaded files = .ok c → i.check = false → i.list = false →
      c.schedule i.tasks = .ok s →
      Answers words files i 0
        (success (.object
          [("tasks", .strings s.names), ("collected", .number s.size), ("total", .number c.buildable.length)]))
  | unscheduled {c : Catalog} {fault : Fault} : i.loaded files = .ok c → i.check = false → i.list = false →
      c.schedule i.tasks = .error fault → Answers words files i 3 (refusal "resolve" fault.message)

def Fine (document : Json) : Prop := document.field? "status" = some (.string "ok")

variable {words : Blueprint.Wording} {files : Files} {i : Invocation} {exitCode : Nat} {document : Json}
  {made : Report} {failure : Failure} {c : Catalog}

theorem fine_success (data : Json) : Fine (success data) := rfl

theorem not_fine_refusal (code message : String) : ¬ Fine (refusal code message) := by
  simp [Fine, refusal, Json.field?]

theorem Answers.fine_iff (answers : Answers words files i exitCode document) : Fine document ↔ exitCode = 0 := by
  cases answers with
  | valid | listed | scheduled => exact iff_of_true (fine_success _) rfl
  | unloaded | invalid | unscheduled => exact iff_of_false (not_fine_refusal _ _) (by decide)

theorem Answers.refused (answers : Answers words files i exitCode document) (bad : exitCode ≠ 0) :
    ∃ code message, document = refusal code message ∧
      (code = "config" ↔ exitCode = 2) ∧ (code = "resolve" ∨ code = "other" ↔ exitCode = 3) := by
  cases answers with
  | valid | listed | scheduled => exact absurd rfl bad
  | unloaded | invalid | unscheduled => exact ⟨_, _, rfl, by decide, by decide⟩

theorem Answers.unique {otherCode : Nat} {other : Json} (one : Answers words files i exitCode document)
    (two : Answers words files i otherCode other) : otherCode = exitCode ∧ other = document := by
  cases one <;> cases two <;> simp_all

theorem perform_made (words : Blueprint.Wording) (env : Environment) (known : (i.report files).1 = .ok made) :
    (perform words files env i).exitCode = 0 ∧ (perform words files env i).output = made.result ∧
      (perform words files env i).remark = made.remark := by
  unfold perform
  rcases ended : i.report files with ⟨answer, events⟩
  rw [ended] at known
  cases known
  exact ⟨rfl, rfl, rfl⟩

theorem perform_failed (words : Blueprint.Wording) (env : Environment) (known : (i.report files).1 = .error failure) :
    (perform words files env i).exitCode = failure.exitCode ∧
      (perform words files env i).output = failureOutput words failure i.output ∧ (perform words files env i).remark = "" := by
  unfold perform
  rcases ended : i.report files with ⟨answer, events⟩
  rw [ended] at known
  cases known
  exact ⟨rfl, rfl, rfl⟩

theorem perform_refused (words : Blueprint.Wording) (env : Environment) {cause : Failure.Cause} (json : i.output = .json)
    (known : (i.report files).1 = .error (.ofCause cause)) (blamed : cause.kind ≠ .other) :
    (perform words files env i).exitCode = cause.kind.exitCode ∧
      (perform words files env i).output = (refusal cause.kind.word (cause.message words)).line := by
  obtain ⟨code, printed, _⟩ := perform_failed words env known
  have stated : (Failure.ofCause cause).message words = cause.message words := by
    unfold Failure.message Failure.kind Failure.ofCause
    dsimp only
    cases kind : cause.kind with
    | config | resolve => rfl
    | other => exact absurd kind blamed
  rw [json, failureOutput, Command.errorLine, stated] at printed
  exact ⟨code, printed⟩

theorem perform_answers (words : Blueprint.Wording) (files : Files) (env : Environment) (json : i.output = .json) :
    ∃ document, (perform words files env i).output = document.line ∧
      Answers words files i (perform words files env i).exitCode document := by
  obtain ⟨answer, reports⟩ := Command.exists_reports files i
  have known := Command.report_eq_iff.mpr reports
  cases reports with
  | @unloaded error failed =>
    have blamed : (Failure.Cause.loading error).kind = .config := i.loaded_blame failed
    obtain ⟨code, printed⟩ := perform_refused words env json known (by simp [blamed])
    rw [blamed] at code printed
    exact ⟨_, printed, code ▸ .unloaded failed⟩
  | valid ready check none =>
    obtain ⟨code, printed, _⟩ := perform_made words env known
    rw [json] at printed
    exact ⟨_, printed, code ▸ .valid ready check none⟩
  | invalid ready check some =>
    obtain ⟨code, printed⟩ := perform_refused words env json known nofun
    exact ⟨_, printed, code ▸ .invalid ready check some⟩
  | listed ready check list =>
    obtain ⟨code, printed, _⟩ := perform_made words env known
    rw [json] at printed
    exact ⟨_, printed, code ▸ .listed ready check list⟩
  | scheduled ready check list made =>
    obtain ⟨code, printed, _⟩ := perform_made words env known
    rw [json] at printed
    exact ⟨_, printed, code ▸ .scheduled ready check list made⟩
  | @unscheduled c fault ready check list failed =>
    have blamed : (Failure.Cause.scheduling fault).kind = .resolve := c.schedule_blame failed
    obtain ⟨code, printed⟩ := perform_refused words env json known (by simp [blamed])
    rw [blamed] at code printed
    exact ⟨_, printed, code ▸ .unscheduled ready check list failed⟩

-- One document on one line, whatever the arguments ask for and whatever the files hold.
theorem one_json_line (words : Blueprint.Wording) (files : Files) (env : Environment)
    (arguments : List String) (i : Invocation)
    (accepted : Invocation.ofArguments arguments env.catalogPath = .ok i) (json : i.output = .json) :
    ∃ outcome document, run words files env arguments = .ok outcome ∧
      outcome.output = document.render ++ "\n" ∧ '\n' ∉ document.render.toList ∧
      Json.ofText? document.render = some document ∧
      Answers words files i outcome.exitCode document ∧
      (Fine document ↔ outcome.exitCode = 0) ∧
      (outcome.exitCode ≠ 0 → ∃ code message, document = refusal code message ∧
        (code = "config" ↔ outcome.exitCode = 2) ∧
        (code = "resolve" ∨ code = "other" ↔ outcome.exitCode = 3)) := by
  obtain ⟨document, printed, answers⟩ := perform_answers words files env json
  have ran : run words files env arguments = .ok (perform words files env i) := by rw [run, accepted]; rfl
  exact ⟨_, document, ran, printed, document.newline_not_mem_render, document.ofText?_render, answers,
    answers.fine_iff, answers.refused⟩

def quoting : Files := fun _ => .ok "[[task]]\nname = \"say \\\"hi\\\"\\n\"\n"

-- This file is not refused, so no words are needed.
def wordless : Blueprint.Wording := fun _ => ""

def listing : Invocation := { catalog := some "odd.toml", list := true, output := .json }

theorem quoting_loaded : ∃ c, listing.loaded quoting = .ok c ∧ c.names = ["say \"hi\"\n"] ∧
    c.assumed.toList = [] := by
  have read : listing.blueprint quoting = .ok { entries := [{ name := "say \"hi\"\n" }] } := by decide +kernel
  rw [Invocation.loaded, read]
  exact ⟨_, rfl, rfl, rfl⟩

theorem quoting_listed :
    Invocation.ofArguments ["-ojson", "--list", "-c", "odd.toml"] none = .ok listing ∧ listing.output = .json ∧
    ∃ outcome, run wordless quoting ⟨none, none⟩ ["-ojson", "--list", "-c", "odd.toml"] = .ok outcome ∧
      outcome.exitCode = 0 ∧
      outcome.output =
        "\x7b\"status\":\"ok\",\"data\":\x7b\"tasks\":[\"say \\\"hi\\\"\\n\"],\"assume_provided\":[]\x7d\x7d\n" := by
  have accepted : Invocation.ofArguments ["-ojson", "--list", "-c", "odd.toml"] none = .ok listing := by rfl
  obtain ⟨outcome, document, ran, printed, _, _, answers, fine, _⟩ :=
    one_json_line wordless quoting ⟨none, none⟩ _ listing accepted rfl
  obtain ⟨c, ready, names, assumed⟩ := quoting_loaded
  obtain ⟨code, rfl⟩ := answers.unique (.listed ready rfl rfl)
  rw [names, assumed] at printed
  exact ⟨accepted, rfl, outcome, ran, code.symm, by rw [printed]; rfl⟩

end BuildPlan.Program
