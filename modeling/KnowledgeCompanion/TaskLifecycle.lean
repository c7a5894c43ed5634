import Mathlib.Logic.Function.Basic
import KnowledgeCompanion.GatewayRuns

/-! What a stored task says about itself in each status, over runs of requests.
Every status change writes its own columns; the guard below names, for each
statement, the columns it leaves behind and that must then be clean already. -/

namespace KnowledgeCompanion.TaskLifecycle

open KeyedTable TaskRecords TaskService GatewayRuns GuardedRun

/-- A record in order. `attempt` is the error text that came with the running
report of the current attempt; any other text is left from an earlier one. -/
structure Consistent (attempt : Text) (t : TaskRecords.Task) : Prop where
  pending : t.status = .pending → t.progress = 0 ∧ t.result = none ∧ t.errorMessage = [] ∧
    t.retryCount = 0 ∧ t.startedAt = none ∧ t.completedAt = none
  running : t.status = .running →
    t.completedAt = none ∧ (t.errorMessage = [] ∨ t.errorMessage = attempt)
  completed : t.status = .completed →
    t.progress = 100 ∧ t.errorMessage = [] ∧ t.completedAt ≠ none
  failed : t.status = .failed → t.completedAt ≠ none

structure Lifecycle where
  gateway : Gateway
  attempt : ℕ → Text

def attemptAfter (attempt : Text) : TaskWrite → Text
  | .setStatus .running _ _ errMsg _ => errMsg
  | _ => attempt

def track (cfg : ServiceConfig) (s : Lifecycle) (e : Event) : Lifecycle where
  gateway := step cfg s.gateway e
  attempt :=
    match accepted cfg s.gateway e with
    | none => s.attempt
    | some (t, w) => Function.update s.attempt t.id (attemptAfter (s.attempt t.id) w)

def RecordsConsistent (s : Lifecycle) : Prop :=
  ∀ t ∈ s.gateway.tasks.rows, Consistent (s.attempt t.id) t

def Restores (t : TaskRecords.Task) : TaskWrite → Prop
  | .setStatus .running _ _ errMsg _ => t.completedAt = none ∧ (t.errorMessage = [] ∨ errMsg ≠ [])
  | .setStatus .completed _ _ errMsg _ => t.errorMessage = [] ∧ errMsg = []
  | .reset => t.startedAt = none
  | _ => True

def Clean (cfg : ServiceConfig) (s : Lifecycle) (e : Event) : Prop :=
  ∀ t w, accepted cfg s.gateway e = some (t, w) → Restores t w

theorem new_consistent (attempt uuid : Text) (resourceID userID : ℕ) (type : Text) (now : ℤ)
    (id : ℕ) : Consistent attempt (Task.new uuid resourceID userID type now id) := by
  refine ⟨fun _ => ⟨rfl, rfl, rfl, rfl, rfl, rfl⟩, ?_, ?_, ?_⟩ <;> intro status <;> cases status

theorem running_consistent {attempt : Text} {t : TaskRecords.Task} (status : t.status = .running) :
    Consistent attempt t ↔
      t.completedAt = none ∧ (t.errorMessage = [] ∨ t.errorMessage = attempt) := by
  refine ⟨fun h => h.running status, fun h => ⟨?_, fun _ => h, ?_, ?_⟩⟩ <;> intro other <;>
    rw [status] at other <;> cases other

theorem completed_consistent {attempt : Text} {t : TaskRecords.Task}
    (status : t.status = .completed) :
    Consistent attempt t ↔ t.progress = 100 ∧ t.errorMessage = [] ∧ t.completedAt ≠ none := by
  refine ⟨fun h => h.completed status, fun h => ⟨?_, ?_, fun _ => h, ?_⟩⟩ <;> intro other <;>
    rw [status] at other <;> cases other

theorem failed_consistent {attempt : Text} {t : TaskRecords.Task} (status : t.status = .failed) :
    Consistent attempt t ↔ t.completedAt ≠ none := by
  refine ⟨fun h => h.failed status, fun h => ⟨?_, ?_, ?_, fun _ => h⟩⟩ <;> intro other <;>
    rw [status] at other <;> cases other

theorem pending_consistent {attempt : Text} {t : TaskRecords.Task} (status : t.status = .pending) :
    Consistent attempt t ↔ t.progress = 0 ∧ t.result = none ∧ t.errorMessage = [] ∧
      t.retryCount = 0 ∧ t.startedAt = none ∧ t.completedAt = none := by
  refine ⟨fun h => h.pending status, fun h => ⟨fun _ => h, ?_, ?_, ?_⟩⟩ <;> intro other <;>
    rw [status] at other <;> cases other

theorem setStatus_columns {status : TaskStatus} {progress : UInt8} {result : Option Text}
    {errMsg : Text} {attempt : Option UInt8} {now : ℤ} {t t' : TaskRecords.Task}
    (h : t' = (TaskWrite.setStatus status progress result errMsg attempt).apply now t) :
    t'.status = status ∧ t'.progress = progress ∧
      t'.errorMessage = (if errMsg ≠ [] then errMsg else t.errorMessage) ∧
      t'.completedAt =
        (if status = .completed ∨ status = .failed then some now else t.completedAt) := by
  rw [h]
  cases attempt <;> exact ⟨rfl, rfl, rfl, rfl⟩

theorem report_consistent {update : InternalStatusUpdate} {now : ℤ} {attempt : Text}
    {t : TaskRecords.Task} {w : TaskWrite} (checked : checkStatusUpdate update t = .ok w) :
    Consistent (attemptAfter attempt w) (w.apply now t) ↔ Restores t w := by
  have plan := checkStatusUpdate_ok checked
  rw [plan.2]
  generalize applied : TaskWrite.apply now t _ = t'
  have columns := setStatus_columns applied.symm
  obtain ⟨status, progress, message, finished⟩ := columns
  cases target : update.status with
  | pending =>
    rw [target, canTransition_pending] at plan
    exact absurd plan.1 (by decide)
  | running =>
    rw [target] at status finished
    rw [running_consistent status, message, finished]
    by_cases silent : update.errorMessage = []
    · simp [attemptAfter, Restores, silent]
    · simp [attemptAfter, Restores, silent]
  | completed =>
    rw [target] at status progress finished
    rw [completed_consistent status, progress, message, finished]
    by_cases silent : update.errorMessage = []
    · simp [Restores, reportedProgress, silent]
    · simp [Restores, reportedProgress, silent]
  | failed =>
    rw [target] at status finished
    rw [failed_consistent status, finished]
    simp [Restores]

theorem reset_consistent {now : ℤ} {attempt : Text} {t : TaskRecords.Task} :
    Consistent attempt (t.resetForRetry now) ↔ t.startedAt = none := by
  rw [pending_consistent rfl]
  simp [Task.resetForRetry]

theorem progress_consistent {now : ℤ} {attempt : Text} {p : UInt8} {t : TaskRecords.Task}
    (running : t.status = .running) (before : Consistent attempt t) :
    Consistent attempt (t.updateProgress p now) := by
  have status : (t.updateProgress p now).status = .running := running
  exact (running_consistent status).mpr (before.running running)

theorem accepted_consistent {cfg : ServiceConfig} {s : Gateway} {e : Event} {attempt : Text}
    {t : TaskRecords.Task} {w : TaskWrite} {now : ℤ} (h : accepted cfg s e = some (t, w))
    (before : Consistent attempt t) :
    Consistent (attemptAfter attempt w) (w.apply now t) ↔ Restores t w := by
  rcases (issued_spec (accepted_issued h)).2 with ⟨_, _, _, checked⟩ | ⟨_, _, p, _, _, checked⟩ |
    ⟨_, _, update, _, _, checked⟩
  · rw [(checkRetry_ok checked).2]
    exact reset_consistent
  · have plan := checkProgress_ok checked
    rw [plan.2]
    exact iff_of_true (progress_consistent plan.1 before) trivial
  · exact report_consistent checked

theorem inserted_consistent {tasks tasks' : Tasks} {now : ℤ} {attempt : ℕ → Text}
    (before : ∀ t ∈ tasks.rows, Consistent (attempt t.id) t) (h : Inserted tasks now tasks') :
    ∀ t ∈ tasks'.rows, Consistent (attempt t.id) t := by
  have inserted (uuid : Text) (resourceID userID : ℕ) (type : Text) (t : TaskRecords.Task)
      (mem : t ∈ (insertTask tasks uuid resourceID userID type now).rows) :
      Consistent (attempt t.id) t := by
    rcases mem_insertTask.mp mem with old | new
    · exact before t old
    · rw [new]
      exact new_consistent _ _ _ _ _ _ _
  cases h with
  | fresh uuid resourceID userID type => exact inserted uuid resourceID userID type
  | undispatched uuid resourceID userID type errMsg =>
    intro t mem
    obtain ⟨t₀, mem₀, row⟩ := mem_execute.mp mem
    by_cases key : t₀.id = tasks.next
    · rw [if_pos key] at row
      rw [row]
      exact (failed_consistent rfl).mpr nofun
    · rw [if_neg key] at row
      rw [row]
      exact inserted uuid resourceID userID type t₀ mem₀

theorem track_keeps {cfg : ServiceConfig} (s : Lifecycle) (e : Event)
    (before : RecordsConsistent s) (clean : Clean cfg s e) :
    RecordsConsistent (track cfg s e) := by
  rcases step_tasks cfg s.gateway e with ⟨t, w, takes, tasks⟩ | ⟨nothing, tasks⟩
  · intro r mem
    simp only [track, tasks, takes] at mem ⊢
    obtain ⟨r₀, mem₀, row⟩ := mem_execute.mp mem
    by_cases key : r₀.id = t.id
    · have same : r₀ = t := Table.eq_of_key mem₀ (accepted_stored takes) key
      rw [if_pos key, same] at row
      rw [row, TaskWrite.apply_id, Function.update_self]
      exact (accepted_consistent takes (before t (accepted_stored takes))).mpr (clean t w takes)
    · rw [if_neg key] at row
      rw [row, Function.update_of_ne key]
      exact before r₀ mem₀
  · intro r mem
    simp only [track, nothing] at mem ⊢
    rcases tasks with same | inserted
    · rw [same] at mem
      exact before r mem
    · exact inserted_consistent before inserted r mem

theorem track_needs {cfg : ServiceConfig} (s : Lifecycle) (e : Event)
    (before : RecordsConsistent s) (after : RecordsConsistent (track cfg s e)) :
    Clean cfg s e := by
  intro t w takes
  have stored : t ∈ s.gateway.tasks.rows := accepted_stored takes
  rcases step_tasks cfg s.gateway e with ⟨t', w', takes', tasks⟩ | ⟨nothing, -⟩
  · rw [takes] at takes'
    cases takes'
    have row : w.apply e.io.now t ∈ (track cfg s e).gateway.tasks.rows := by
      simp only [track, tasks]
      exact mem_execute.mpr ⟨t, stored, by rw [if_pos rfl]⟩
    have consistent := after _ row
    simp only [track, takes, TaskWrite.apply_id, Function.update_self] at consistent
    exact (accepted_consistent takes (before t stored)).mp consistent
  · rw [takes] at nothing
    simp at nothing

/-- From a gateway without tasks, every record of every state is consistent exactly
in the runs whose accepted statements find clean what they leave behind. -/
theorem records_consistent_iff (cfg : ServiceConfig) (s : Gateway) (es : List Event) :
    EveryState (track cfg) RecordsConsistent ⟨{ s with tasks := .empty }, fun _ => []⟩ es ↔
      EveryStep (track cfg) (Clean cfg) ⟨{ s with tasks := .empty }, fun _ => []⟩ es := by
  apply everyState_iff_guard track_keeps track_needs
  intro t mem
  exact absurd mem List.not_mem_nil

def reportAt (now : ℤ) (status : String) (errorMessage : Text) : Event :=
  ⟨.status lectureTask (some { status, errorMessage }), { now }⟩

/-- The retried task is pending and keeps the start of the attempt that failed. -/
theorem retried_keeps_started :
    ¬ EveryState (track serviceConfig) RecordsConsistent
      ⟨{ oneResource with tasks := .empty }, fun _ => []⟩
      [createLecture, reportAt 2 "running" [], reportAt 3 "failed" "timeout".toList,
        ⟨.retry 1 lectureTask, { now := 1000 }⟩] := by
  intro every
  have last := every.2.2.2.2
  have pending := (last _ List.mem_cons_self).pending rfl
  exact absurd pending.2.2.2.2.1 (by decide)

end KnowledgeCompanion.TaskLifecycle
