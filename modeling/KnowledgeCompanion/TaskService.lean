import KnowledgeCompanion.TaskDispatcher

/-! Task operations of the gateway (`service/task_service.go`). Each one that
changes a task reads it, checks the value it has read and then issues one
statement for the task's key; reading, check and statement are separate
definitions, so that concurrent calls can be taken apart at these points. -/

namespace KnowledgeCompanion.TaskService

open AppErrors KeyedTable TaskRecords TaskDispatcher

structure TaskEvent where
  eventType : String
  taskID : Text
  progress : UInt8
  status : TaskStatus
  message : Option Text
  timestamp : ℤ
deriving DecidableEq

structure ServiceConfig where
  isUUID : Text → Bool
  retryCooldown : ℤ
  dispatcher : DispatcherConfig

/-- The two tables, the stored objects, the worker queue and the published events. -/
structure Gateway where
  resources : Resources
  tasks : Tasks
  objects : List Text
  queue : List Message
  events : List TaskEvent

structure GatewayIO where
  now : ℤ := 0
  taskUUID : Text := []
  resourceUUID : Text := []
  readFile : Option String := none
  detected : Text := []
  putObject : Option String := none
  removeObject : Option String := none
  getResource : Option String := none
  createResource : Option String := none
  writeResource : Option String := none
  getTask : Option String := none
  createTask : Option String := none
  writeTask : Option String := none
  reply : DispatchReply := .ok

structure CreateTaskRequest where
  resourceID : Text
  type : Text

structure TaskDTO where
  taskID : Text
  resourceID : Text
  resourceName : Text
  userID : Text
  type : Text
  status : TaskStatus
  progress : UInt8
  attemptCount : UInt8
  result : Option Text
  errorMessage : Text
  startedAt : Option ℤ
  completedAt : Option ℤ
  createdAt : ℤ
  updatedAt : ℤ

structure InternalStatusUpdate where
  status : TaskStatus
  result : Option Text := none
  errorMessage : Text := []
  attemptCount : Option UInt8 := none

structure RetryResult where
  taskID : Text
  status : TaskStatus
  attemptCount : UInt8

def canTransition : TaskStatus → TaskStatus → Bool
  | .pending, next => next == .running
  | .running, next => next == .running || next == .completed || next == .failed
  | .failed, next => next == .running
  | .completed, _ => false

def reportedProgress (task : Task) : TaskStatus → UInt8
  | .running => task.progress
  | .completed => 100
  | .failed => 0
  | .pending => 0

def checkStatusUpdate (update : InternalStatusUpdate) (task : Task) : Except AppError TaskWrite :=
  if !canTransition task.status update.status then
    .error ⟨400, codeInvalidStateTransition,
      "cannot transition from " ++ task.status.text ++ " to " ++ update.status.text⟩
  else
    .ok (.setStatus update.status (reportedProgress task update.status) update.result
      update.errorMessage update.attemptCount)

def checkProgress (progress : UInt8) (task : Task) : Except AppError TaskWrite :=
  if task.status ≠ .running then .error ⟨400, codeValidationError, "task is not running"⟩
  else .ok (.setProgress progress)

def checkRetry (cfg : ServiceConfig) (now : ℤ) (task : Task) : Except AppError TaskWrite :=
  if task.status ≠ .failed ∧ task.status ≠ .completed then
    .error (taskNotRetryable ("task status " ++ task.status.text ++ " cannot be retried"))
  else if now - task.updatedAt < cfg.retryCooldown then
    .error (retryTooFrequent "please wait before retrying")
  else .ok .reset

theorem canTransition_pending (status : TaskStatus) : canTransition status .pending = false := by
  cases status <;> rfl

theorem checkStatusUpdate_ok {update : InternalStatusUpdate} {t : TaskRecords.Task} {w : TaskWrite}
    (h : checkStatusUpdate update t = .ok w) :
    canTransition t.status update.status = true ∧
      w = .setStatus update.status (reportedProgress t update.status) update.result
        update.errorMessage update.attemptCount := by
  unfold checkStatusUpdate at h
  split at h
  · simp at h
  · rename_i allowed
    simp only [Except.ok.injEq] at h
    exact ⟨by simpa using allowed, h.symm⟩

theorem checkProgress_ok {p : UInt8} {t : TaskRecords.Task} {w : TaskWrite}
    (h : checkProgress p t = .ok w) : t.status = .running ∧ w = .setProgress p := by
  unfold checkProgress at h
  split at h
  · simp at h
  · rename_i running
    simp only [Except.ok.injEq] at h
    exact ⟨not_not.mp running, h.symm⟩

theorem checkRetry_ok {cfg : ServiceConfig} {now : ℤ} {t : TaskRecords.Task} {w : TaskWrite}
    (h : checkRetry cfg now t = .ok w) :
    (t.status = .failed ∨ t.status = .completed) ∧ w = .reset := by
  unfold checkRetry at h
  split at h
  · simp at h
  · rename_i retryable
    split at h
    · simp at h
    · simp only [Except.ok.injEq] at h
      refine ⟨?_, h.symm⟩
      by_cases failed : t.status = .failed
      · exact .inl failed
      · exact .inr (not_not.mp fun other => retryable ⟨failed, other⟩)

def readTask (io : GatewayIO) (found : Option Task) : Except AppError Task :=
  match io.getTask with
  | some _ => .error (internal "internal server error")
  | none =>
    match found with
    | none => .error (notFound "task")
    | some task => .ok task

theorem readTask_ok {io : GatewayIO} {found : Option Task} {task : Task}
    (read : readTask io found = .ok task) : found = some task := by
  unfold readTask at read
  split at read
  · cases read
  · split at read
    · cases read
    · rw [Except.ok.inj read]

def getByUUID (s : Gateway) (io : GatewayIO) (uuid : Text) : Except AppError Task :=
  readTask io (byUUID s.tasks uuid)

def getByUUIDAndUserID (s : Gateway) (io : GatewayIO) (uuid : Text) (userID : ℕ) :
    Except AppError Task :=
  readTask io (byUUIDAndUserID s.tasks uuid userID)

def resourceByUUIDAndUserID (s : Gateway) (uuid : Text) (userID : ℕ) : Option Resource :=
  s.resources.first fun r => s.resources.same r.uuid uuid && r.userID == userID

theorem resourceByUUIDAndUserID_spec {s : Gateway} {uuid : Text} {userID : ℕ} {resource : Resource}
    (h : resourceByUUIDAndUserID s uuid userID = some resource) :
    resource ∈ s.resources.rows ∧ s.resources.same resource.uuid uuid = true ∧
      resource.userID = userID := by
  have found := Table.first_spec h
  rw [Bool.and_eq_true, beq_iff_eq] at found
  exact ⟨Table.mem_of_first h, found⟩

def createTask (s : Gateway) (io : GatewayIO) (resourceID userID : ℕ) (type : Text) :
    Except String Task × Gateway :=
  match io.createTask with
  | some cause => (.error ("failed to create task: " ++ cause), s)
  | none =>
    if (byUUID s.tasks io.taskUUID).isSome then
      (.error "failed to create task: duplicate entry", s)
    else
      (.ok (Task.new io.taskUUID resourceID userID type io.now s.tasks.next),
        { s with tasks := insertTask s.tasks io.taskUUID resourceID userID type io.now })

def writeErrorText : TaskWrite → String
  | .setStatus _ _ _ _ none => "failed to update task status: "
  | .setStatus _ _ _ _ (some _) => "failed to update task status with attempt: "
  | .setProgress _ => "failed to update task progress: "
  | .reset => "failed to reset task for retry: "

def writeTask (s : Gateway) (io : GatewayIO) (id : ℕ) (w : TaskWrite) :
    Except String Unit × Gateway :=
  match io.writeTask with
  | some cause => (.error (writeErrorText w ++ cause), s)
  | none => (.ok (), { s with tasks := execute s.tasks id w io.now })

def taskStatusToResourceStatus : TaskStatus → UInt8
  | .pending => 0
  | .running => 2
  | .completed => 3
  | .failed => 4

def setResourceStatus (s : Gateway) (io : GatewayIO) (id : ℕ) (status : UInt8) : Gateway :=
  match io.writeResource with
  | some _ => s
  | none =>
    { s with resources :=
        s.resources.update id (fun r => { r with status, updatedAt := io.now }) fun _ => rfl }

def publishEvent (s : Gateway) (event : TaskEvent) : Gateway :=
  { s with events := s.events ++ [event] }

def shouldAutoDispatch (type : Text) : Bool :=
  type == taskTypeMediaParse || type == taskTypePdfParse

def dispatchTask (cfg : ServiceConfig) (s : Gateway) (io : GatewayIO) (task : Task)
    (resource : Option Resource) : Except Err Unit × Gateway :=
  let sent := dispatch cfg.dispatcher io.reply task resource
  (sent.1, { s with queue := s.queue ++ sent.2 })

def toTaskDTO (task : Task) (resource : Option Resource) : TaskDTO where
  taskID := task.uuid
  resourceID := (resource.map Resource.uuid).getD []
  resourceName := (resource.map Resource.name).getD []
  userID := if task.userID = 0 then [] else formatUint task.userID
  type := task.type
  status := task.status
  progress := task.progress
  attemptCount := task.retryCount
  result := task.result
  errorMessage := task.errorMessage
  startedAt := task.startedAt
  completedAt := task.completedAt
  createdAt := task.createdAt
  updatedAt := task.updatedAt

def allowedTaskTypes : List Text := [taskTypeMediaParse, taskTypePdfParse, taskTypeDocumentParse]

def taskTypeOf (req : CreateTaskRequest) (resource : Resource) : Text :=
  if req.type ≠ [] then req.type
  else if resource.type ≠ [] then resource.type
  else taskTypeDocumentParse

/-- The checks of `Create`, up to the resource the task is for. -/
def resolveResource (cfg : ServiceConfig) (s : Gateway) (io : GatewayIO) (userID : ℕ)
    (req : CreateTaskRequest) : Except AppError Resource :=
  if !cfg.isUUID req.resourceID then .error ⟨400, codeValidationError, "invalid resource_id"⟩
  else if req.type ≠ [] ∧ req.type ∉ allowedTaskTypes then
    .error ⟨400, codeValidationError, "invalid task type"⟩
  else
    match io.getResource with
    | some _ => .error (internal "internal server error")
    | none =>
      match resourceByUUIDAndUserID s req.resourceID userID with
      | none => .error (notFound "resource")
      | some resource => .ok resource

def create (cfg : ServiceConfig) (s : Gateway) (io : GatewayIO) (userID : ℕ)
    (req : CreateTaskRequest) : Except Err TaskDTO × Gateway :=
  match resolveResource cfg s io userID req with
  | .error e => (.error (.app e), s)
  | .ok resource =>
    match createTask s io resource.id userID (taskTypeOf req resource) with
    | (.error _, s) => (.error (.app (internal "internal server error")), s)
    | (.ok task, s) =>
      if shouldAutoDispatch task.type then
        -- a failed dispatch is only logged
        (.ok (toTaskDTO task (some resource)), (dispatchTask cfg s io task (some resource)).2)
      else (.ok (toTaskDTO task (some resource)), s)

def retry (cfg : ServiceConfig) (s : Gateway) (io : GatewayIO) (userID : ℕ) (taskUUID : Text) :
    Except Err RetryResult × Gateway :=
  if !cfg.isUUID taskUUID then (.error (.app ⟨400, codeValidationError, "invalid task_id"⟩), s)
  else
    match getByUUIDAndUserID s io taskUUID userID with
    | .error e => (.error (.app e), s)
    | .ok task =>
      match checkRetry cfg io.now task with
      | .error e => (.error (.app e), s)
      | .ok write =>
        match writeTask s io task.id write with
        | (.error _, s) => (.error (.app (internal "internal server error")), s)
        | (.ok _, s) =>
          let result : RetryResult := ⟨task.uuid, .pending, 0⟩
          let resource := s.resources.row task.resourceID
          let task :=
            { task with status := .pending, retryCount := 0, errorMessage := [], progress := 0 }
          if shouldAutoDispatch task.type then
            match dispatchTask cfg s io task resource with
            | (.error e, s) => (.error e, s)
            | (.ok _, s) => (.ok result, s)
          else (.ok result, s)

def updateProgress (s : Gateway) (io : GatewayIO) (taskUUID : Text) (progress : UInt8) :
    Except Err Unit × Gateway :=
  if 100 < progress then
    (.error (.app ⟨400, codeValidationError, "progress must be between 0 and 100"⟩), s)
  else
    match getByUUID s io taskUUID with
    | .error e => (.error (.app e), s)
    | .ok task =>
      match checkProgress progress task with
      | .error e => (.error (.app e), s)
      | .ok write =>
        match writeTask s io task.id write with
        | (.error text, s) => (.error (.plain (writeErrorText write ++ text)), s)
        | (.ok _, s) =>
          (.ok (), publishEvent s ⟨"progress", taskUUID, progress, .running, none, io.now⟩)

def eventTypeOf : TaskStatus → String
  | .completed => "done"
  | .failed => "error"
  | _ => "status"

def eventMessageOf (update : InternalStatusUpdate) : Option Text :=
  if update.status = .failed ∧ update.errorMessage ≠ [] then some update.errorMessage else none

def afterStatusUpdate (s : Gateway) (io : GatewayIO) (taskUUID : Text)
    (update : InternalStatusUpdate) (task : Task) : Gateway :=
  let resourceStatus := taskStatusToResourceStatus update.status
  let s := if resourceStatus ≠ 0 then setResourceStatus s io task.resourceID resourceStatus else s
  publishEvent s ⟨eventTypeOf update.status, taskUUID, reportedProgress task update.status,
    update.status, eventMessageOf update, io.now⟩

def processInternalStatusUpdate (s : Gateway) (io : GatewayIO) (taskUUID : Text)
    (update : InternalStatusUpdate) : Except Err Unit × Gateway :=
  match getByUUID s io taskUUID with
  | .error e => (.error (.app e), s)
  | .ok task =>
    match checkStatusUpdate update task with
    | .error e => (.error (.app e), s)
    | .ok write =>
      match writeTask s io task.id write with
      | (.error text, s) => (.error (.plain (writeErrorText write ++ text)), s)
      | (.ok _, s) => (.ok (), afterStatusUpdate s io taskUUID update task)

end KnowledgeCompanion.TaskService
