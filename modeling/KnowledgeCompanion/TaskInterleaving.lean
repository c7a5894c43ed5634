import KnowledgeCompanion.GatewayRuns

/-! Concurrent calls on the task table. A call reads its task, checks the value
it has read and later issues its statement by the task's key alone; between these
three points any other call may run. -/

namespace KnowledgeCompanion.TaskInterleaving

open AppErrors KeyedTable TaskRecords TaskService GuardedRun
open GatewayRuns (serviceConfig lectureTask)

inductive CallOp
  | statusUpdate (taskUUID : Text) (update : InternalStatusUpdate)
  | progressUpdate (taskUUID : Text) (progress : UInt8)
  | retry (userID : ℕ) (taskUUID : Text)

def CallOp.read (cfg : ServiceConfig) (tasks : Tasks) : CallOp → Option TaskRecords.Task
  | .statusUpdate taskUUID _ => byUUID tasks taskUUID
  | .progressUpdate taskUUID progress => if 100 < progress then none else byUUID tasks taskUUID
  | .retry userID taskUUID =>
    if !cfg.isUUID taskUUID then none else byUUIDAndUserID tasks taskUUID userID

def CallOp.check (cfg : ServiceConfig) (now : ℤ) (task : TaskRecords.Task) :
    CallOp → Except AppError TaskWrite
  | .statusUpdate _ update => checkStatusUpdate update task
  | .progressUpdate _ progress => checkProgress progress task
  | .retry _ _ => checkRetry cfg now task

inductive Phase
  | reading
  | checking (task : TaskRecords.Task)
  | writing (task : TaskRecords.Task) (write : TaskWrite)
  | finished

structure Call (cfg : ServiceConfig) where
  op : CallOp
  phase : Phase
  checked : ∀ task write, phase = .writing task write → ∃ now, op.check cfg now task = .ok write

namespace Call

variable {cfg : ServiceConfig}

def start (op : CallOp) : Call cfg where
  op := op
  phase := .reading
  checked := by
    intro task' write' same
    cases same

def finish (c : Call cfg) : Call cfg where
  op := c.op
  phase := .finished
  checked := by
    intro task' write' same
    cases same

def load (c : Call cfg) (task : TaskRecords.Task) : Call cfg where
  op := c.op
  phase := .checking task
  checked := by
    intro task' write' same
    cases same

def pass (c : Call cfg) (now : ℤ) (task : TaskRecords.Task) (write : TaskWrite)
    (h : c.op.check cfg now task = .ok write) : Call cfg where
  op := c.op
  phase := .writing task write
  checked := by
    intro task' write' same
    cases same
    exact ⟨now, h⟩

def write (c : Call cfg) : Option (TaskRecords.Task × TaskWrite) :=
  match c.phase with
  | .writing task write => some (task, write)
  | _ => none

def next (tasks : Tasks) (now : ℤ) (c : Call cfg) : Call cfg :=
  match c.phase with
  | .reading =>
    match c.op.read cfg tasks with
    | none => c.finish
    | some task => c.load task
  | .checking task =>
    match h : c.op.check cfg now task with
    | .error _ => c.finish
    | .ok write => c.pass now task write h
  | .writing _ _ => c.finish
  | .finished => c

theorem write_next {c : Call cfg} {tasks : Tasks} {now : ℤ} {task : TaskRecords.Task}
    (phase : c.phase = .checking task) :
    (c.next tasks now).write = (c.op.check cfg now task).toOption.map fun w => (task, w) := by
  obtain ⟨op, current, checked⟩ := c
  cases phase
  simp only [next]
  split
  · rename_i result
    have refused : (op.check cfg now task).toOption = none := by rw [result]; rfl
    rw [refused]
    rfl
  · rename_i w result
    have passed : (op.check cfg now task).toOption = some w := by rw [result]; rfl
    rw [passed]
    rfl

end Call

structure Concurrent (cfg : ServiceConfig) where
  tasks : Tasks
  calls : List (Call cfg)

/-- A call starts, moves on by one step, or stops because the database refuses it. -/
inductive Event
  | start (op : CallOp)
  | advance (i : ℕ) (now : ℤ)
  | fault (i : ℕ)

variable {cfg : ServiceConfig}

def writeOf (s : Concurrent cfg) : Event → Option (Call cfg × TaskRecords.Task × TaskWrite)
  | .advance i _ => s.calls[i]?.bind fun c => c.write.map fun w => (c, w)
  | _ => none

def step (cfg : ServiceConfig) (s : Concurrent cfg) : Event → Concurrent cfg
  | .start op => { s with calls := s.calls ++ [.start op] }
  | .advance i now =>
    { tasks :=
        match writeOf s (.advance i now) with
        | none => s.tasks
        | some (_, task, write) => execute s.tasks task.id write now
      calls := s.calls.modify i (Call.next s.tasks now) }
  | .fault i => { s with calls := s.calls.modify i Call.finish }

def sequential (cfg : ServiceConfig) (s : Gateway) (io : GatewayIO) : CallOp → Gateway
  | .statusUpdate taskUUID update => (processInternalStatusUpdate s io taskUUID update).2
  | .progressUpdate taskUUID progress => (updateProgress s io taskUUID progress).2
  | .retry userID taskUUID => (retry cfg s io userID taskUUID).2

def settled (cfg : ServiceConfig) (tasks : Tasks) (now : ℤ) (op : CallOp) : Tasks :=
  match op.read cfg tasks with
  | none => tasks
  | some task =>
    match op.check cfg now task with
    | .error _ => tasks
    | .ok write => execute tasks task.id write now

theorem exec_alone (tasks : Tasks) (now : ℤ) (op : CallOp) :
    (exec (step cfg) ⟨tasks, []⟩
      [.start op, .advance 0 now, .advance 0 now, .advance 0 now]).tasks =
      settled cfg tasks now op := by
  have unread : (Call.start op : Call cfg).write = none := rfl
  simp only [exec_cons, exec_nil, step, List.nil_append, writeOf, List.getElem?_cons_zero,
    Option.bind_some, unread, Option.map_none, List.modify_zero_cons]
  unfold settled
  cases read : op.read cfg tasks with
  | none =>
    have first : (Call.start op : Call cfg).next tasks now = (Call.start op).finish := by
      simp only [Call.next, Call.start, read]
    rw [first]
    rfl
  | some task =>
    have first : (Call.start op : Call cfg).next tasks now = (Call.start op).load task := by
      simp only [Call.next, Call.start, read]
    have loaded : ((Call.start op : Call cfg).load task).write = none := rfl
    have passed := @Call.write_next cfg ((Call.start op).load task) tasks now task rfl
    rw [first, loaded]
    simp only [Option.map_none]
    rw [passed]
    simp only [Call.load, Call.start]
    cases op.check cfg now task <;> rfl

theorem sequential_tasks {s : Gateway} {io : GatewayIO} (op : CallOp)
    (reads : io.getTask = none) (writes : io.writeTask = none) :
    (sequential cfg s io op).tasks = settled cfg s.tasks io.now op := by
  cases op with
  | statusUpdate uuid update =>
    simp only [sequential, processInternalStatusUpdate, getByUUID, readTask, reads, settled,
      CallOp.read,
      CallOp.check]
    cases byUUID s.tasks uuid with
    | none => rfl
    | some task =>
      dsimp only
      cases checkStatusUpdate update task with
      | error e => rfl
      | ok w => simp only [writeTask, writes, GatewayRuns.afterStatusUpdate_tasks]
  | progressUpdate uuid p =>
    simp only [sequential, updateProgress, getByUUID, readTask, reads, settled, CallOp.read,
      CallOp.check]
    split
    · rfl
    · cases byUUID s.tasks uuid with
      | none => rfl
      | some task =>
        dsimp only
        cases checkProgress p task with
        | error e => rfl
        | ok w => simp only [writeTask, writes, publishEvent]
  | retry userID uuid =>
    simp only [sequential, retry, getByUUIDAndUserID, readTask, reads, settled, CallOp.read,
      CallOp.check]
    split
    · rfl
    · cases byUUIDAndUserID s.tasks uuid userID with
      | none => rfl
      | some task =>
        dsimp only
        cases checkRetry cfg io.now task with
        | error e => rfl
        | ok w =>
          simp only [writeTask, writes, dispatchTask]
          split
          · split <;> rename_i sent <;> simp only [Prod.mk.injEq] at sent <;> rw [← sent.2]
          · rfl

theorem alone_eq_sequential {s : Gateway} {io : GatewayIO} (op : CallOp)
    (reads : io.getTask = none) (writes : io.writeTask = none) :
    (exec (step cfg) ⟨s.tasks, []⟩
      [.start op, .advance 0 io.now, .advance 0 io.now, .advance 0 io.now]).tasks =
      (sequential cfg s io op).tasks := by
  rw [exec_alone, sequential_tasks op reads writes]

def CallOp.isRetry : CallOp → Bool
  | .retry _ _ => true
  | _ => false

def CallOp.writesStatus : CallOp → Bool
  | .progressUpdate _ _ => false
  | _ => true

def RetryWrites (s : Concurrent cfg) (e : Event) : Prop :=
  ∃ c task write, writeOf s e = some (c, task, write) ∧ c.op.isRetry = true

/-- How the event may change the status of a stored task. -/
structure Lawful (s : Concurrent cfg) (e : Event) (old new : TaskRecords.Task) : Prop where
  allowed : canTransition old.status new.status = true ∨
    RetryWrites s e ∧ (old.status = .failed ∨ old.status = .completed) ∧ new.status = .pending
  completed : old.status = .completed → RetryWrites s e

def StatusLaw (cfg : ServiceConfig) (s : Concurrent cfg) (e : Event) : Prop :=
  ∀ old ∈ s.tasks.rows, ∀ new ∈ (step cfg s e).tasks.rows, new.id = old.id →
    new.status ≠ old.status → Lawful s e old new

/-- A write of a status finds its task in the status that its call has read. -/
def Current (s : Concurrent cfg) (e : Event) : Prop :=
  ∀ c task write, writeOf s e = some (c, task, write) → c.op.writesStatus = true →
    ∀ stored ∈ s.tasks.rows, stored.id = task.id → stored.status = task.status

theorem writeOf_checked {s : Concurrent cfg} {e : Event} {c : Call cfg} {task : TaskRecords.Task}
    {write : TaskWrite} (h : writeOf s e = some (c, task, write)) :
    ∃ now, c.op.check cfg now task = .ok write := by
  cases e with
  | start op => simp [writeOf] at h
  | fault i => simp [writeOf] at h
  | advance i now =>
    simp only [writeOf, Option.bind_eq_some_iff, Option.map_eq_some_iff] at h
    obtain ⟨c', -, w, phase, same⟩ := h
    cases same
    apply c.checked
    unfold Call.write at phase
    split at phase
    · rename_i now_writing
      cases phase
      exact now_writing
    · simp at phase

theorem step_tasks (s : Concurrent cfg) (e : Event) :
    (writeOf s e = none ∧ (step cfg s e).tasks = s.tasks) ∨
    ∃ c task write now, writeOf s e = some (c, task, write) ∧
      (step cfg s e).tasks = execute s.tasks task.id write now := by
  cases e with
  | start op => exact .inl ⟨rfl, rfl⟩
  | fault i => exact .inl ⟨rfl, rfl⟩
  | advance i now =>
    cases h : writeOf s (.advance i now) with
    | none => exact .inl ⟨rfl, by simp only [step, h]⟩
    | some w => exact .inr ⟨w.1, w.2.1, w.2.2, now, rfl, by simp only [step, h]⟩

theorem check_lawful {op : CallOp} {now now' : ℤ} {task stored : TaskRecords.Task}
    {write : TaskWrite} (checked : op.check cfg now task = .ok write)
    (current : op.writesStatus = true → stored.status = task.status)
    (changed : (write.apply now' stored).status ≠ stored.status) :
    canTransition stored.status (write.apply now' stored).status = true ∨
      op.isRetry = true ∧ (stored.status = .failed ∨ stored.status = .completed) ∧
        (write.apply now' stored).status = .pending := by
  rw [TaskWrite.apply_status] at changed ⊢
  cases op with
  | statusUpdate uuid update =>
    have plan := checkStatusUpdate_ok checked
    rw [plan.2, current rfl]
    exact .inl plan.1
  | progressUpdate uuid p =>
    have plan := checkProgress_ok checked
    rw [plan.2] at changed
    exact absurd rfl changed
  | retry userID uuid =>
    have plan := checkRetry_ok checked
    rw [plan.2, current rfl]
    exact .inr ⟨rfl, plan.1, rfl⟩

theorem step_lawful (s : Concurrent cfg) (e : Event) (current : Current s e) :
    StatusLaw cfg s e := by
  intro old hold new hnew same changed
  rcases step_tasks s e with ⟨-, tasks⟩ | ⟨c, task, write, now, writes, tasks⟩
  · rw [tasks] at hnew
    have unchanged : new = old := Table.eq_of_key hnew hold same
    exact absurd (congrArg TaskRecords.Task.status unchanged) changed
  · rw [tasks, mem_execute] at hnew
    obtain ⟨stored, hstored, row⟩ := hnew
    by_cases key : stored.id = task.id
    · rw [if_pos key] at row
      have found : stored = old := by
        apply Table.eq_of_key hstored hold
        rw [← same, row, TaskWrite.apply_id]
      rw [found] at key row
      have status (sets : c.op.writesStatus = true) : old.status = task.status :=
        current c task write writes sets old hold key
      have checked := writeOf_checked writes
      obtain ⟨at_check, checked⟩ := checked
      rw [row] at changed ⊢
      have lawful := check_lawful checked status changed
      have retries (h : c.op.isRetry = true) : RetryWrites s e := ⟨c, task, write, writes, h⟩
      refine ⟨lawful.imp_right fun h => ⟨retries h.1, h.2⟩, fun completed => ?_⟩
      rcases lawful with allowed | h
      · rw [completed] at allowed
        simp [canTransition] at allowed
      · exact retries h.1
    · rw [if_neg key] at row
      have found : stored = old := by
        apply Table.eq_of_key hstored hold
        rw [← same, row]
      rw [row, found] at changed
      exact absurd rfl changed

/-- In every interleaving whose writes find the status their calls have read, the
stored status changes lawfully. -/
theorem status_lawful (s : Concurrent cfg) (es : List Event)
    (current : EveryStep (step cfg) Current s es) :
    EveryStep (step cfg) (StatusLaw cfg) s es :=
  everyStep_imp step_lawful current

def oneRunning : Concurrent serviceConfig where
  tasks := execute (insertTask .empty lectureTask 1 1 taskTypePdfParse 0) 1
    (.setStatus .running 0 none [] none) 1
  calls := []

def reportCompleted : CallOp :=
  .statusUpdate lectureTask { status := .completed, result := some "{}".toList }

def reportFailed : CallOp :=
  .statusUpdate lectureTask { status := .failed, errorMessage := "timeout".toList }

/-- One after the other: the second report is refused. -/
theorem status_lawful_in_turn :
    EveryStep (step serviceConfig) (StatusLaw serviceConfig) oneRunning
      [.start reportCompleted, .start reportFailed, .advance 0 2, .advance 0 2, .advance 0 2,
        .advance 1 3, .advance 1 3, .advance 1 3] := by
  apply status_lawful
  have idle {s : Concurrent serviceConfig} {e : Event} (h : writeOf s e = none) : Current s e := by
    intro c task write writes
    rw [h] at writes
    simp at writes
  refine ⟨idle rfl, idle rfl, idle rfl, idle rfl, ?_, idle rfl, idle rfl, idle rfl, trivial⟩
  intro c task write writes sets stored mem key
  cases writes
  cases List.mem_singleton.mp mem
  rfl

/-- Both reports read a running task; the failure then overwrites the completion. -/
theorem completed_overwritten :
    ¬ EveryStep (step serviceConfig) (StatusLaw serviceConfig) oneRunning
      [.start reportCompleted, .start reportFailed, .advance 0 2, .advance 0 2, .advance 1 3,
        .advance 1 3, .advance 0 4, .advance 1 5] := by
  intro law
  have last := law.2.2.2.2.2.2.2.1
  have lawful := last _ List.mem_cons_self _ List.mem_cons_self rfl (by decide)
  obtain ⟨c, task, write, writes, retries⟩ := lawful.completed rfl
  cases writes
  exact absurd retries (by decide)

end KnowledgeCompanion.TaskInterleaving
