import KnowledgeCompanion.GatewayReporter

/-! One dispatched task seen from both sides. The worker sends its reports and
ignores what becomes of them; the gateway takes a report only along its transition
table. A delivery says whether a report arrives and what the gateway's own database
does then. -/

namespace KnowledgeCompanion.WorkerReports

open AppErrors KeyedTable TaskRecords TaskService GatewayRuns GatewayReporter

inductive Interim
  | running (attempt : Option ℕ)
  | progress (percent : ℤ) (status : String)

def Interim.report (taskID : Text) : Interim → Report
  | .running attempt => .statusReport taskID "running" none none attempt
  | .progress percent status => .progressReport taskID percent status

inductive Ending
  | completed (result : Option Text)
  | failed (error : Text)

def Ending.status : Ending → TaskStatus
  | .completed _ => .completed
  | .failed _ => .failed

def Ending.report (taskID : Text) (attempt : ℕ) : Ending → Report
  | .completed result => .statusReport taskID "completed" result none (some attempt)
  | .failed error => .statusReport taskID "failed" none (some error) (some attempt)

/-- `none` is a report lost on the way. -/
abbrev Delivery := Option GatewayIO

def Healthy (io : GatewayIO) : Prop := io.getTask = none ∧ io.writeTask = none

instance (io : GatewayIO) : Decidable (Healthy io) := instDecidableAnd

structure WorkerRun where
  earlier : List (Interim × Delivery)
  ending : Ending
  attempt : ℕ
  small : attempt < 256
  io : GatewayIO
  delivered : Healthy io

def arrive (cfg : ServiceConfig) (s : Gateway) (r : Report) : Delivery → Gateway
  | none => s
  | some io => step cfg s ⟨r.op, io⟩

def afterEarlier (cfg : ServiceConfig) (taskID : Text) (s : Gateway)
    (earlier : List (Interim × Delivery)) : Gateway :=
  earlier.foldl (fun s d => arrive cfg s (d.1.report taskID) d.2) s

def finish (cfg : ServiceConfig) (taskID : Text) (s : Gateway) (run : WorkerRun) :
    Outcome × Gateway :=
  perform cfg (afterEarlier cfg taskID s run.earlier) run.io
    (run.ending.report taskID run.attempt).op

def statusOf (s : Gateway) (taskID : Text) : Option TaskStatus :=
  (byUUID s.tasks taskID).map TaskRecords.Task.status

def Stored : Interim × Delivery → Prop
  | (.running attempt, some io) => (∀ n ∈ attempt, n < 256) ∧ Healthy io
  | _ => False

theorem byUUID_applied {cfg : ServiceConfig} {s : Gateway} {io : GatewayIO} {op : Op}
    (updates : op.inserts = false) (uuid : Text) :
    byUUID (perform cfg s io op).2.tasks uuid =
      match accepted cfg s ⟨op, io⟩ with
      | none => byUUID s.tasks uuid
      | some (t, w) =>
        (byUUID s.tasks uuid).map fun r => if r.id = t.id then w.apply io.now r else r := by
  rw [perform_tasks cfg s io updates, applied_accepted cfg s ⟨op, io⟩]
  cases accepted cfg s ⟨op, io⟩ with
  | none => rfl
  | some tw => exact byUUID_execute

theorem status_report {cfg : ServiceConfig} {s : Gateway} {io : GatewayIO} {uuid : Text}
    {body : Option UpdateStatusRequest} {update : InternalStatusUpdate} {t : TaskRecords.Task}
    (healthy : Healthy io) (bound : bindStatus body = some update)
    (found : byUUID s.tasks uuid = some t) :
    statusOf (perform cfg s io (.status uuid body)).2 uuid =
      some (if canTransition t.status update.status then update.status else t.status) := by
  have read : getByUUID s io uuid = .ok t := by
    simp only [getByUUID, readTask, healthy.1, found]
  have takes : accepted cfg s ⟨.status uuid body, io⟩ =
      (checkStatusUpdate update t).toOption.map fun w => (t, w) := by
    simp only [accepted, healthy.2, issued, bound, read]
  rw [statusOf, byUUID_applied rfl, takes]
  by_cases allowed : canTransition t.status update.status = true
  · have check : checkStatusUpdate update t = .ok (.setStatus update.status
        (reportedProgress t update.status) update.result update.errorMessage
        update.attemptCount) := by
      simp [checkStatusUpdate, allowed]
    rw [check, if_pos allowed]
    simp only [Except.toOption, Option.map_some, found, if_true, TaskWrite.apply_status]
  · have check : ∃ e, checkStatusUpdate update t = .error e := by
      simp [checkStatusUpdate, allowed]
    obtain ⟨e, check⟩ := check
    rw [check, if_neg allowed]
    simp only [Except.toOption, Option.map_none, found, Option.map_some]

theorem progress_report {cfg : ServiceConfig} {s : Gateway} {io : GatewayIO} {uuid taskID : Text}
    {body : Option UInt8} :
    statusOf (perform cfg s io (.progress uuid body)).2 taskID = statusOf s taskID := by
  rw [statusOf, byUUID_applied rfl]
  cases takes : accepted cfg s ⟨.progress uuid body, io⟩ with
  | none => rfl
  | some tw =>
    obtain ⟨t, w⟩ := tw
    have write : ∃ p, w = .setProgress p := by
      rcases (issued_spec (accepted_issued takes)).2 with ⟨_, _, op, -⟩ |
        ⟨_, _, p, _, _, checked⟩ | ⟨_, _, _, op, -⟩
      · cases op
      · exact ⟨p, (checkProgress_ok checked).2⟩
      · cases op
    obtain ⟨p, rfl⟩ := write
    simp only [statusOf, Option.map_map]
    congr 1
    funext r
    simp only [Function.comp_apply]
    split <;> rfl

theorem faulty_report {cfg : ServiceConfig} {s : Gateway} {io : GatewayIO} {uuid taskID : Text}
    {body : Option UpdateStatusRequest} (faulty : ¬ Healthy io) :
    statusOf (perform cfg s io (.status uuid body)).2 taskID = statusOf s taskID := by
  have refused : accepted cfg s ⟨.status uuid body, io⟩ = none := by
    unfold accepted
    cases write : io.writeTask with
    | some cause => rfl
    | none =>
      have read : io.getTask ≠ none := fun read => faulty ⟨read, write⟩
      cases fault : io.getTask with
      | none => exact absurd fault read
      | some cause => simp [issued, getByUUID, readTask, fault]
  rw [statusOf, byUUID_applied rfl, refused]
  rfl

theorem found_of_statusOf {s : Gateway} {taskID : Text} {status : TaskStatus}
    (h : statusOf s taskID = some status) :
    ∃ t, byUUID s.tasks taskID = some t ∧ t.status = status := by
  simpa [statusOf] using h

theorem stored_running {cfg : ServiceConfig} {s : Gateway} {taskID : Text} {status : TaskStatus}
    {d : Interim × Delivery} (before : statusOf s taskID = some status)
    (takes : canTransition status .running = true) (stored : Stored d) :
    statusOf (arrive cfg s (d.1.report taskID) d.2) taskID = some .running := by
  obtain ⟨interim, delivery⟩ := d
  cases interim with
  | progress percent status => exact absurd stored id
  | running attempt =>
    cases delivery with
    | none => exact absurd stored id
    | some io =>
      have named : TaskStatus.running ≠ .pending := by decide
      have bound := @bindStatus_decode .running named none none attempt stored.1
      obtain ⟨attemptCount, bound⟩ := bound
      have found := found_of_statusOf before
      obtain ⟨t, found, is⟩ := found
      have result := @status_report cfg s io taskID _ _ t stored.2 bound found
      rw [is, if_pos takes] at result
      exact result

theorem unstored_same {cfg : ServiceConfig} {s : Gateway} {taskID : Text}
    {d : Interim × Delivery} (lost : ¬ Stored d) :
    statusOf (arrive cfg s (d.1.report taskID) d.2) taskID = statusOf s taskID := by
  obtain ⟨interim, delivery⟩ := d
  cases delivery with
  | none => rfl
  | some io =>
    cases interim with
    | progress percent status => exact progress_report
    | running attempt =>
      by_cases healthy : Healthy io
      · have large : ¬ ∀ n ∈ attempt, n < 256 := fun small => lost ⟨small, healthy⟩
        have spoiled : decodeStatus "running" none none attempt = none := by
          cases attempt with
          | none => exact absurd nofun large
          | some n =>
            have range : ¬ n < 256 := by simpa using large
            have outside : ¬ ((0 : ℤ) ≤ n ∧ (n : ℤ) < 256) := by omega
            simp only [decodeStatus, decodeUInt8, if_neg outside, Option.map_none]
        simp only [arrive, step, Interim.report, Report.op, perform, spoiled, bindStatus,
          Option.bind_none]
      · exact faulty_report healthy

theorem afterEarlier_running {cfg : ServiceConfig} {taskID : Text}
    {earlier : List (Interim × Delivery)} {s : Gateway}
    (before : statusOf s taskID = some .running) :
    statusOf (afterEarlier cfg taskID s earlier) taskID = some .running := by
  induction earlier generalizing s with
  | nil => exact before
  | cons d earlier ih =>
    apply ih
    by_cases stored : Stored d
    · exact stored_running before rfl stored
    · rw [unstored_same stored, before]

theorem afterEarlier_stored {cfg : ServiceConfig} {taskID : Text}
    {earlier : List (Interim × Delivery)} {s : Gateway}
    (before : statusOf s taskID = some .pending) (some_stored : ∃ d ∈ earlier, Stored d) :
    statusOf (afterEarlier cfg taskID s earlier) taskID = some .running := by
  induction earlier generalizing s with
  | nil => simp at some_stored
  | cons d earlier ih =>
    by_cases stored : Stored d
    · have first := @stored_running cfg s taskID _ d before rfl stored
      have rest := @afterEarlier_running cfg taskID earlier _ first
      exact rest
    · apply ih
      · rw [unstored_same stored, before]
      · obtain ⟨d', mem, h⟩ := some_stored
        rcases List.mem_cons.mp mem with same | later
        · rw [same] at h
          exact absurd h stored
        · exact ⟨d', later, h⟩

theorem afterEarlier_unstored {cfg : ServiceConfig} {taskID : Text}
    {earlier : List (Interim × Delivery)} {s : Gateway}
    (none_stored : ¬ ∃ d ∈ earlier, Stored d) :
    statusOf (afterEarlier cfg taskID s earlier) taskID = statusOf s taskID := by
  induction earlier generalizing s with
  | nil => rfl
  | cons d earlier ih =>
    have lost : ¬ Stored d := fun h => none_stored ⟨d, List.mem_cons_self, h⟩
    have rest : ¬ ∃ d ∈ earlier, Stored d := by
      intro h
      obtain ⟨d', mem, h⟩ := h
      exact none_stored ⟨d', List.mem_cons_of_mem d mem, h⟩
    have later := @ih (arrive cfg s (d.1.report taskID) d.2) rest
    rw [unstored_same lost] at later
    exact later

def Ending.update (attemptCount : Option UInt8) : Ending → InternalStatusUpdate
  | .completed result => ⟨.completed, some (result.getD "null".toList), [], attemptCount⟩
  | .failed error => ⟨.failed, some "null".toList, error, attemptCount⟩

theorem bindStatus_ending (taskID : Text) (run : WorkerRun) :
    ∃ body attemptCount, (run.ending.report taskID run.attempt).op = .status taskID body ∧
      bindStatus body = some (run.ending.update attemptCount) := by
  have small : ∀ n ∈ some run.attempt, n < 256 := by
    intro n mem
    rw [← Option.some.inj mem]
    exact run.small
  cases ending : run.ending with
  | completed result =>
    have named : TaskStatus.completed ≠ .pending := by decide
    have bound := @bindStatus_decode .completed named result none (some run.attempt) small
    obtain ⟨attemptCount, bound⟩ := bound
    exact ⟨_, attemptCount, rfl, bound⟩
  | failed error =>
    have named : TaskStatus.failed ≠ .pending := by decide
    have bound := @bindStatus_decode .failed named none (some error) (some run.attempt) small
    obtain ⟨attemptCount, bound⟩ := bound
    exact ⟨_, attemptCount, rfl, bound⟩

theorem Ending.update_status (ending : Ending) (attemptCount : Option UInt8) :
    (ending.update attemptCount).status = ending.status := by
  cases ending <;> rfl

theorem canTransition_ending (ending : Ending) :
    canTransition .running ending.status = true ∧ canTransition .pending ending.status = false := by
  cases ending <;> exact ⟨rfl, rfl⟩

theorem finish_running {cfg : ServiceConfig} {taskID : Text} {s : Gateway} {run : WorkerRun}
    (before : statusOf (afterEarlier cfg taskID s run.earlier) taskID = some .running) :
    statusOf (finish cfg taskID s run).2 taskID = some run.ending.status := by
  have last := bindStatus_ending taskID run
  obtain ⟨body, attemptCount, op, bound⟩ := last
  have found := found_of_statusOf before
  obtain ⟨t, found, is⟩ := found
  rw [finish, op, status_report run.delivered bound found, is, Ending.update_status,
    if_pos (canTransition_ending run.ending).1]

def refusal (current : TaskStatus) (target : TaskStatus) : Outcome :=
  .reported (.error (.app ⟨400, codeInvalidStateTransition,
    "cannot transition from " ++ current.text ++ " to " ++ target.text⟩))

theorem finish_pending {cfg : ServiceConfig} {taskID : Text} {s : Gateway} {run : WorkerRun}
    (before : statusOf (afterEarlier cfg taskID s run.earlier) taskID = some .pending) :
    (finish cfg taskID s run).1 = refusal .pending run.ending.status ∧
      statusOf (finish cfg taskID s run).2 taskID = some .pending := by
  have last := bindStatus_ending taskID run
  obtain ⟨body, attemptCount, op, bound⟩ := last
  have found := found_of_statusOf before
  obtain ⟨t, found, is⟩ := found
  have blocked := (canTransition_ending run.ending).2
  rw [finish, op]
  refine ⟨?_, ?_⟩
  · have read : getByUUID (afterEarlier cfg taskID s run.earlier) run.io taskID = .ok t := by
      simp only [getByUUID, readTask, run.delivered.1, found]
    simp only [perform, bound, processInternalStatusUpdate, read, checkStatusUpdate, is,
      Ending.update_status, blocked, Bool.not_false, if_true, refusal]
  · rw [status_report run.delivered bound found, is, Ending.update_status, blocked]
    rfl

/-- When a running report was stored the task ends as the worker says; when none
was, the last report is refused and the task stays pending. -/
theorem outcome_of_reports (cfg : ServiceConfig) (taskID : Text) (s : Gateway) (run : WorkerRun)
    (dispatched : statusOf s taskID = some .pending) :
    ((∃ d ∈ run.earlier, Stored d) →
      statusOf (finish cfg taskID s run).2 taskID = some run.ending.status) ∧
    ((¬ ∃ d ∈ run.earlier, Stored d) →
      (finish cfg taskID s run).1 = refusal .pending run.ending.status ∧
        statusOf (finish cfg taskID s run).2 taskID = some .pending) := by
  refine ⟨fun stored => ?_, fun unstored => ?_⟩
  · exact finish_running (afterEarlier_stored dispatched stored)
  · apply finish_pending
    rw [afterEarlier_unstored unstored, dispatched]

def dispatchedLecture : Gateway := step serviceConfig oneResource createLecture

def parsedRun (delivery : Delivery) : WorkerRun where
  earlier := [(.running (some 1), delivery), (.progress 50 "running", some { now := 3 })]
  ending := .completed (some "{}".toList)
  attempt := 1
  small := by decide
  io := { now := 4 }
  delivered := ⟨rfl, rfl⟩

/-- With the running report delivered the task ends completed. -/
theorem outcome_of_delivered :
    statusOf (finish serviceConfig lectureTask dispatchedLecture (parsedRun (some { now := 2 }))).2
      lectureTask = some .completed := by
  have outcome := outcome_of_reports serviceConfig lectureTask dispatchedLecture
    (parsedRun (some { now := 2 })) rfl
  apply outcome.1
  refine ⟨_, List.mem_cons_self, ?_, rfl, rfl⟩
  intro n mem
  rw [← Option.some.inj mem]
  decide

/-- With the running report lost the completed report does not count. -/
theorem completed_report_refused :
    statusOf dispatchedLecture lectureTask = some .pending ∧
      statusOf (finish serviceConfig lectureTask dispatchedLecture (parsedRun none)).2
        lectureTask = some .pending := by
  refine ⟨rfl, rfl⟩

end KnowledgeCompanion.WorkerReports
