import KnowledgeCompanion.GatewayRuns

/-! Which tasks are left pending when the worker queue does not take them.
Upload, creation and retry all write the task before they dispatch it; only the
upload marks the task failed when the dispatch fails. -/

namespace KnowledgeCompanion.TaskDispatch

open AppErrors KeyedTable TaskRecords TaskDispatcher TaskService FileService GatewayRuns GuardedRun

def attempted (cfg : ServiceConfig) (s : Gateway) (io : GatewayIO) :
    Op → Option (TaskRecords.Task × Option Resource)
  | .upload req =>
    match validateUpload io req, io.putObject with
    | .ok header, none =>
      let key := storageKey req.userUUID io.resourceUUID header.filename
      let s := { s with objects := s.objects ++ [key] }
      match createResource s io (newResource req header io) (newResource_id req header io) with
      | (.error _, _) => none
      | (.ok resource, s) =>
        match createTask s io resource.id req.userID resource.type with
        | (.error _, _) => none
        | (.ok task, _) =>
          if shouldAutoDispatch resource.type then some (task, some resource) else none
    | _, _ => none
  | .create userID body =>
    match bindCreate body with
    | none => none
    | some req =>
      match resolveResource cfg s io userID req with
      | .error _ => none
      | .ok resource =>
        match createTask s io resource.id userID (taskTypeOf req resource) with
        | (.error _, _) => none
        | (.ok task, _) =>
          if shouldAutoDispatch task.type then some (task, some resource) else none
  | .retry userID taskUUID =>
    match io.writeTask, issued cfg s io (.retry userID taskUUID) with
    | none, some (task, _) =>
      if shouldAutoDispatch task.type then some (task, s.resources.row task.resourceID) else none
    | _, _ => none
  | _ => none

def outcome (cfg : ServiceConfig) (io : GatewayIO)
    (d : TaskRecords.Task × Option Resource) : Except Err Unit :=
  (dispatch cfg.dispatcher io.reply d.1 d.2).1

def sent (cfg : ServiceConfig) (io : GatewayIO) (d : TaskRecords.Task × Option Resource) :
    List Message :=
  (dispatch cfg.dispatcher io.reply d.1 d.2).2

/-- A task that is pending after the request and not before has a new message. -/
def Queued (s s' : Gateway) : Prop :=
  ∀ t ∈ s'.tasks.rows, shouldAutoDispatch t.type = true → t.status = .pending →
    (∃ old ∈ s.tasks.rows, old.id = t.id ∧ old.status = .pending) ∨
    ∃ message ∈ s'.queue.drop s.queue.length, message.payload.taskID = t.uuid

/-- No dispatch failure leaves its task in a status that cannot be retried, and no
task becomes pending without a message. -/
structure Retryable (cfg : ServiceConfig) (s : Gateway) (e : Event) : Prop where
  failed : ∀ d err, attempted cfg s e.io e.op = some d → outcome cfg e.io d = .error err →
    ∀ t ∈ (step cfg s e).tasks.rows, t.id = d.1.id → t.status = .failed ∨ t.status = .completed
  queued : Queued s (step cfg s e)

def Op.isUpload : Op → Bool
  | .upload _ => true
  | _ => false

/-- The dispatcher takes every task that a creation or a retry hands to it. -/
def Taken (cfg : ServiceConfig) (s : Gateway) (e : Event) : Prop :=
  Op.isUpload e.op = false → ∀ d, attempted cfg s e.io e.op = some d →
    outcome cfg e.io d = .ok ()

/-- Only the row of the dispatched task is new, and the queue has what was sent. -/
structure Started (cfg : ServiceConfig) (s : Gateway) (io : GatewayIO)
    (d : TaskRecords.Task × Option Resource) (status : TaskStatus) (s' : Gateway) : Prop where
  row : ∃ row ∈ s'.tasks.rows, row.id = d.1.id ∧ row.uuid = d.1.uuid ∧ row.status = status ∧
    ∀ t ∈ s'.tasks.rows, t = row ∨ t ∈ s.tasks.rows
  queue : s'.queue = s.queue ++ sent cfg io d

/-- Nothing was dispatched and nothing that is dispatched automatically was started. -/
def Unstarted (s s' : Gateway) : Prop :=
  ∀ t ∈ s'.tasks.rows, shouldAutoDispatch t.type = true → t.status = .pending →
    ∃ old ∈ s.tasks.rows, old.id = t.id ∧ old.status = .pending

theorem unstarted_of_tasks {s s' : Gateway} (h : s'.tasks = s.tasks) : Unstarted s s' := by
  intro t mem _ pending
  rw [h] at mem
  exact ⟨t, mem, rfl, pending⟩

theorem unstarted_of_type {s s' : Gateway} {task : TaskRecords.Task}
    (rows : ∀ t ∈ s'.tasks.rows, t = task ∨ t ∈ s.tasks.rows)
    (type : shouldAutoDispatch task.type ≠ true) : Unstarted s s' := by
  intro t mem auto pending
  rcases rows t mem with same | old
  · rw [same] at auto
    exact absurd auto type
  · exact ⟨t, old, rfl, pending⟩

theorem insertTask_row {tasks : Tasks} {uuid : Text} {resourceID userID : ℕ} {type : Text}
    {now : ℤ} {task : TaskRecords.Task}
    (same : task = Task.new uuid resourceID userID type now tasks.next) :
    task ∈ (insertTask tasks uuid resourceID userID type now).rows ∧
      ∀ t ∈ (insertTask tasks uuid resourceID userID type now).rows,
        t = task ∨ t ∈ tasks.rows := by
  rw [same]
  refine ⟨mem_insertTask.mpr (.inr rfl), ?_⟩
  intro t mem
  exact (mem_insertTask.mp mem).symm

theorem create_started (cfg : ServiceConfig) (s : Gateway) (io : GatewayIO) (userID : ℕ)
    (body : Option CreateTaskRequest) :
    match attempted cfg s io (.create userID body) with
    | none => Unstarted s (step cfg s ⟨.create userID body, io⟩)
    | some d => Started cfg s io d .pending (step cfg s ⟨.create userID body, io⟩) := by
  simp only [attempted, step, perform]
  cases bindCreate body with
  | none => exact unstarted_of_tasks rfl
  | some req =>
    simp only [create]
    cases resolveResource cfg s io userID req with
    | error e => exact unstarted_of_tasks rfl
    | ok resource =>
      dsimp only
      cases made : createTask s io resource.id userID (taskTypeOf req resource) with
      | mk result s' =>
        cases result with
        | error cause => exact unstarted_of_tasks (by rw [createTask_error made])
        | ok task =>
          have row := createTask_ok made
          obtain ⟨-, new, after⟩ := row
          have rows := insertTask_row new
          have tasks' : s'.tasks = insertTask s.tasks io.taskUUID resource.id userID
              (taskTypeOf req resource) io.now := by rw [after]
          rw [← tasks'] at rows
          dsimp only
          by_cases auto : shouldAutoDispatch task.type = true
          · rw [if_pos auto, if_pos auto]
            refine ⟨⟨task, rows.1, rfl, rfl, ?_, rows.2⟩, ?_⟩
            · rw [new]
              rfl
            · simp only [dispatchTask, sent, after]
          · rw [if_neg auto, if_neg auto]
            exact unstarted_of_type rows.2 auto

theorem execute_row {tasks : Tasks} {task : TaskRecords.Task} {w : TaskWrite} {now : ℤ}
    (stored : task ∈ tasks.rows) :
    w.apply now task ∈ (execute tasks task.id w now).rows ∧
      ∀ t ∈ (execute tasks task.id w now).rows, t = w.apply now task ∨ t ∈ tasks.rows := by
  refine ⟨mem_execute.mpr ⟨task, stored, (if_pos rfl).symm⟩, ?_⟩
  intro t mem
  obtain ⟨t₀, mem₀, row⟩ := mem_execute.mp mem
  by_cases key : t₀.id = task.id
  · rw [if_pos key, Table.eq_of_key mem₀ stored key] at row
    exact .inl row
  · rw [if_neg key] at row
    exact .inr (row ▸ mem₀)

theorem retry_started (cfg : ServiceConfig) (s : Gateway) (io : GatewayIO) (userID : ℕ)
    (uuid : Text) :
    match attempted cfg s io (.retry userID uuid) with
    | none => Unstarted s (step cfg s ⟨.retry userID uuid, io⟩)
    | some d => Started cfg s io d .pending (step cfg s ⟨.retry userID uuid, io⟩) := by
  have tasks := retry_tasks cfg s io userID uuid
  cases fault : io.writeTask with
  | some cause =>
    simp only [attempted, fault]
    apply unstarted_of_tasks
    simp only [step, perform, tasks, applied]
    split
    · rfl
    · rw [fault]
      rfl
  | none =>
    simp only [attempted, fault]
    cases parsed : cfg.isUUID uuid with
    | false =>
      simp only [issued, step, perform, retry, parsed, Bool.not_false, if_true]
      exact unstarted_of_tasks rfl
    | true =>
      simp only [issued, step, perform, retry, parsed, Bool.not_true, Bool.false_eq_true, if_false]
      cases read : getByUUIDAndUserID s io uuid userID with
      | error e => exact unstarted_of_tasks rfl
      | ok task =>
        have stored := (mem_of_byUUIDAndUserID (readTask_ok read)).1
        dsimp only
        cases check : checkRetry cfg io.now task with
        | error e => exact unstarted_of_tasks rfl
        | ok w =>
          have reset := (checkRetry_ok check).2
          have rows := @execute_row s.tasks task w io.now stored
          simp only [Except.toOption, Option.map_some, writeTask, fault, dispatchTask]
          by_cases auto : shouldAutoDispatch task.type = true
          · simp only [if_pos auto]
            have sent_eq : (dispatch cfg.dispatcher io.reply
                { task with status := .pending, retryCount := 0, errorMessage := [], progress := 0 }
                (s.resources.row task.resourceID)).2 =
                sent cfg io (task, s.resources.row task.resourceID) := rfl
            have started (s' : Gateway) (tasks' : s'.tasks = execute s.tasks task.id w io.now)
                (queue' : s'.queue =
                  s.queue ++ sent cfg io (task, s.resources.row task.resourceID)) :
                Started cfg s io (task, s.resources.row task.resourceID) .pending s' := by
              rw [← tasks'] at rows
              refine ⟨⟨_, rows.1, w.apply_id io.now task, w.apply_uuid io.now task, ?_, rows.2⟩,
                queue'⟩
              rw [reset]
              rfl
            split
            · rename_i answered
              simp only [Prod.mk.injEq] at answered
              exact started _ (by rw [← answered.2]) (by rw [← answered.2, sent_eq])
            · rename_i answered
              simp only [Prod.mk.injEq] at answered
              exact started _ (by rw [← answered.2]) (by rw [← answered.2, sent_eq])
          · simp only [if_neg auto]
            refine @unstarted_of_type s _ (w.apply io.now task) rows.2 ?_
            rwa [w.apply_type]

def uploadedStatus (cfg : ServiceConfig) (io : GatewayIO)
    (d : TaskRecords.Task × Option Resource) : TaskStatus :=
  match outcome cfg io d with
  | .ok _ => .pending
  | .error _ => .failed

theorem dispatchUpload_started {cfg : ServiceConfig} {s : Gateway} {io : GatewayIO}
    {task : TaskRecords.Task} {resource : Resource} (writes : io.writeTask = none)
    (stored : task ∈ s.tasks.rows) (pending : task.status = .pending) :
    Started cfg s io (task, some resource) (uploadedStatus cfg io (task, some resource))
      (dispatchUpload cfg s io task resource) := by
  simp only [dispatchUpload, dispatchTask, uploadedStatus, outcome]
  cases answer : (dispatch cfg.dispatcher io.reply task (some resource)).1 with
  | ok _ => exact ⟨⟨task, stored, rfl, rfl, pending, fun t mem => .inr mem⟩, rfl⟩
  | error e =>
    have rows :=
        @execute_row s.tasks task (.setStatus .failed 0 none e.text.toList none) io.now stored
    simp only [writeTask, writes]
    exact ⟨⟨_, rows.1, rfl, rfl, rfl, rows.2⟩, rfl⟩

theorem upload_started (cfg : ServiceConfig) (s : Gateway) (io : GatewayIO) (req : UploadRequest)
    (writes : io.writeTask = none) :
    match attempted cfg s io (.upload req) with
    | none => Unstarted s (step cfg s ⟨.upload req, io⟩)
    | some d => Started cfg s io d (uploadedStatus cfg io d) (step cfg s ⟨.upload req, io⟩) := by
  simp only [attempted, step, perform, upload]
  cases validateUpload io req with
  | error e => exact unstarted_of_tasks rfl
  | ok header =>
    cases io.putObject with
    | some cause => exact unstarted_of_tasks rfl
    | none =>
      dsimp only
      cases saved : createResource
          { s with objects := s.objects ++
            [storageKey req.userUUID io.resourceUUID header.filename] }
          io (newResource req header io) (newResource_id req header io) with
      | mk result s₁ =>
        have frame := createResource_frame saved
        dsimp only at frame
        cases result with
        | error cause =>
          apply unstarted_of_tasks
          simp only [removeObject_tasks, frame.1]
        | ok resource =>
          dsimp only
          cases made : createTask s₁ io resource.id req.userID resource.type with
          | mk result s₂ =>
            cases result with
            | error cause =>
              apply unstarted_of_tasks
              simp only [removeObject_tasks, createTask_error made, frame.1]
            | ok task =>
              have row := createTask_ok made
              obtain ⟨-, new, after⟩ := row
              have rows := insertTask_row new
              have tasks₂ : s₂.tasks = insertTask s₁.tasks io.taskUUID resource.id req.userID
                  resource.type io.now := by rw [after]
              have queue₂ : s₂.queue = s.queue := by rw [after, ← frame.2.1]
              rw [← tasks₂, frame.1] at rows
              dsimp only
              by_cases auto : shouldAutoDispatch resource.type = true
              · rw [if_pos auto, if_pos auto]
                have started := @dispatchUpload_started cfg s₂ io task resource writes rows.1
                  (by rw [new]; rfl)
                obtain ⟨⟨final, mem, id, uuid, status, others⟩, queue⟩ := started
                refine ⟨⟨final, mem, id, uuid, status, ?_⟩, by rw [queue, queue₂]⟩
                intro t ht
                rcases others t ht with same | old
                · exact .inl same
                · rcases rows.2 t old with inserted | earlier
                  · exact .inl (Table.eq_of_key ht mem (by rw [inserted, id]))
                  · exact .inr earlier
              · rw [if_neg auto, if_neg auto]
                exact unstarted_of_type rows.2 (by rw [new]; exact auto)

theorem report_unstarted {cfg : ServiceConfig} {s : Gateway} {e : Event}
    (updates : e.op.inserts = false) (noRetry : ∀ userID uuid, e.op ≠ .retry userID uuid) :
    Unstarted s (step cfg s e) := by
  have tasks : (step cfg s e).tasks = _ := perform_tasks cfg s e.io updates
  rw [applied_accepted] at tasks
  cases takes : accepted cfg s e with
  | none =>
    rw [takes] at tasks
    exact unstarted_of_tasks tasks
  | some tw =>
    obtain ⟨t, w⟩ := tw
    rw [takes] at tasks
    dsimp only at tasks
    have rows := @execute_row s.tasks t w e.io.now (accepted_stored takes)
    rw [← tasks] at rows
    intro r mem auto pending
    rcases rows.2 r mem with same | old
    · rw [same, TaskWrite.apply_status] at pending
      rcases (issued_spec (accepted_issued takes)).2 with ⟨userID, uuid, op, -⟩ |
        ⟨_, _, p, _, _, checked⟩ | ⟨_, _, update, _, _, checked⟩
      · exact absurd op (noRetry userID uuid)
      · have plan := checkProgress_ok checked
        rw [plan.2] at pending
        exact ⟨t, accepted_stored takes, by rw [same, w.apply_id], pending⟩
      · have plan := checkStatusUpdate_ok checked
        rw [plan.2] at pending
        have target : update.status = .pending := pending
        rw [target, canTransition_pending] at plan
        exact absurd plan.1 (by decide)
    · exact ⟨r, old, rfl, pending⟩

theorem queued_of_unstarted {s s' : Gateway} (h : Unstarted s s') : Queued s s' :=
  fun t mem auto pending => .inl (h t mem auto pending)

theorem queued_of_started {cfg : ServiceConfig} {s s' : Gateway} {io : GatewayIO}
    {d : TaskRecords.Task × Option Resource} {status : TaskStatus}
    (started : Started cfg s io d status s')
    (taken : status = .pending → outcome cfg io d = .ok ()) : Queued s s' := by
  obtain ⟨⟨row, mem, id, uuid, is, others⟩, queue⟩ := started
  intro t ht auto pending
  rcases others t ht with same | old
  · have message := dispatch_ok (taken (by rw [← is, ← same, pending]))
    obtain ⟨message, inSent, task⟩ := message
    refine .inr ⟨message, ?_, by rw [task, same, uuid]⟩
    rw [queue, List.drop_left]
    exact inSent
  · exact .inl ⟨t, old, rfl, pending⟩

def startedStatus (cfg : ServiceConfig) (e : Event) (d : TaskRecords.Task × Option Resource) :
    TaskStatus :=
  if Op.isUpload e.op then uploadedStatus cfg e.io d else .pending

theorem step_started (cfg : ServiceConfig) (s : Gateway) (e : Event)
    (writes : e.io.writeTask = none) :
    match attempted cfg s e.io e.op with
    | none => Unstarted s (step cfg s e)
    | some d => Started cfg s e.io d (startedStatus cfg e d) (step cfg s e) := by
  obtain ⟨op, io⟩ := e
  cases op with
  | upload req => exact upload_started cfg s io req writes
  | create userID body => exact create_started cfg s io userID body
  | retry userID uuid => exact retry_started cfg s io userID uuid
  | progress uuid body => exact report_unstarted rfl nofun
  | status uuid body => exact report_unstarted rfl nofun

theorem uploadedStatus_error {cfg : ServiceConfig} {io : GatewayIO}
    {d : TaskRecords.Task × Option Resource} {err : Err} (h : outcome cfg io d = .error err) :
    uploadedStatus cfg io d = .failed := by
  simp only [uploadedStatus, h]

theorem uploadedStatus_pending {cfg : ServiceConfig} {io : GatewayIO}
    {d : TaskRecords.Task × Option Resource} (h : uploadedStatus cfg io d = .pending) :
    outcome cfg io d = .ok () := by
  unfold uploadedStatus at h
  split at h
  · assumption
  · simp at h

theorem started_status {cfg : ServiceConfig} {s s' : Gateway} {io : GatewayIO}
    {d : TaskRecords.Task × Option Resource} {status : TaskStatus}
    (started : Started cfg s io d status s') :
    ∀ t ∈ s'.tasks.rows, t.id = d.1.id → t.status = status := by
  obtain ⟨⟨row, mem, id, -, is, -⟩, -⟩ := started
  intro t ht key
  rw [Table.eq_of_key ht mem (by rw [key, id]), is]

theorem step_retryable_iff (cfg : ServiceConfig) (s : Gateway) (e : Event)
    (writes : e.io.writeTask = none) : Retryable cfg s e ↔ Taken cfg s e := by
  have step_spec := step_started cfg s e writes
  cases tried : attempted cfg s e.io e.op with
  | none =>
    rw [tried] at step_spec
    refine iff_of_true ⟨?_, queued_of_unstarted step_spec⟩ ?_
    · intro d err some
      rw [tried] at some
      simp at some
    · intro _ d some
      rw [tried] at some
      simp at some
  | some d =>
    rw [tried] at step_spec
    dsimp only at step_spec
    have status := started_status step_spec
    have row := step_spec.row
    obtain ⟨row, mem, id, -⟩ := row
    by_cases upload : Op.isUpload e.op = true
    · rw [startedStatus, if_pos upload] at step_spec status
      refine iff_of_true ⟨?_, queued_of_started step_spec uploadedStatus_pending⟩ ?_
      · intro d' err same failure t ht key
        rw [tried] at same
        cases same
        exact .inl (by rw [status t ht key, uploadedStatus_error failure])
      · intro noUpload
        rw [upload] at noUpload
        simp at noUpload
    · rw [startedStatus, if_neg upload] at step_spec status
      constructor
      · intro retryable _ d' same
        rw [tried] at same
        cases same
        cases answer : outcome cfg e.io d with
        | ok value => rfl
        | error err =>
          have left := retryable.failed d err tried answer row mem id
          rw [status row mem id] at left
          simp at left
      · intro taken
        have answer := taken (by simpa using upload) d tried
        refine ⟨?_, queued_of_started step_spec fun _ => answer⟩
        intro d' err same failure
        rw [tried] at same
        cases same
        rw [answer] at failure
        simp at failure

/-- With successful task writes, a run leaves no task stranded exactly when the
dispatcher takes every task that a creation or a retry hands to it. -/
theorem retryable_iff_taken (cfg : ServiceConfig) (s : Gateway) (es : List Event)
    (writes : ∀ e ∈ es, e.io.writeTask = none) :
    EveryStep (step cfg) (Retryable cfg) s es ↔ EveryStep (step cfg) (Taken cfg) s es :=
  everyStep_congr_mem fun s e mem => step_retryable_iff cfg s e (writes e mem)

def uploadLecture (reply : DispatchReply) : Event where
  op := .upload ⟨some ⟨"lecture.pdf".toList, 1024, "application/pdf".toList⟩, 1, "u".toList, true⟩
  io := { now := 1, taskUUID := lectureTask, resourceUUID := lectureUUID,
          detected := "application/pdf".toList, reply }

def unavailable : DispatchReply := .answered 503 false (by decide)

def retryLecture (reply : DispatchReply) : Event := ⟨.retry 1 lectureTask, { now := 1000, reply }⟩

/-- An upload whose dispatch fails is retried later. -/
theorem retryable_after_upload :
    EveryStep (step serviceConfig) (Retryable serviceConfig) noTasks
      [uploadLecture unavailable, retryLecture .ok] := by
  have writes : ∀ e ∈ [uploadLecture unavailable, retryLecture .ok], e.io.writeTask = none := by
    intro e mem
    simp only [List.mem_cons, List.not_mem_nil, or_false] at mem
    rcases mem with upload | retry
    · rw [upload]
      rfl
    · rw [retry]
      rfl
  apply (retryable_iff_taken serviceConfig noTasks _ writes).mpr
  refine ⟨?_, ?_, trivial⟩
  · intro noUpload
    cases noUpload
  · intro _ d tried
    rw [← Option.some.inj tried]
    rfl

def createUnavailable : Event where
  op := .create 1 (some ⟨lectureUUID, []⟩)
  io := { now := 1, taskUUID := lectureTask, reply := unavailable }

/-- A creation whose dispatch fails leaves its task pending, with an empty queue. -/
theorem created_left_pending :
    ¬ EveryStep (step serviceConfig) (Retryable serviceConfig) oneResource
      [createUnavailable] := by
  intro every
  have left := every.1.failed _ _ rfl rfl _ List.mem_cons_self rfl
  exact absurd left (by decide)

end KnowledgeCompanion.TaskDispatch
