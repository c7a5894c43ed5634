import KnowledgeCompanion.FileService
import KnowledgeCompanion.GuardedRun

/-! The requests that change tasks, one after another: uploads, task creation and
retry by users, progress and status reports by workers
(`handler/internal_task_handler.go`). The faults of a request are part of it. -/

namespace KnowledgeCompanion.GatewayRuns

open AppErrors KeyedTable TaskRecords TaskDispatcher TaskService FileService GuardedRun

structure UpdateStatusRequest where
  status : String
  result : Option Text := none
  errorMessage : Text := []
  attemptCount : Option UInt8 := none

def bindStatus (body : Option UpdateStatusRequest) : Option InternalStatusUpdate :=
  body.bind fun req =>
    let update (status : TaskStatus) : InternalStatusUpdate :=
      ⟨status, req.result, req.errorMessage, req.attemptCount⟩
    if req.status = "running" then some (update .running)
    else if req.status = "completed" then some (update .completed)
    else if req.status = "failed" then some (update .failed)
    else none

/-- `required,min=0,max=100`; `required` refuses the zero value. -/
def bindProgress (body : Option UInt8) : Option UInt8 :=
  body.filter fun progress => progress != 0 && decide (progress ≤ 100)

def bindCreate (body : Option CreateTaskRequest) : Option CreateTaskRequest :=
  body.filter fun req => req.resourceID != []

def invalidBody : Err := .app ⟨400, codeValidationError, "invalid request body"⟩

inductive Op
  | upload (req : UploadRequest)
  | create (userID : ℕ) (body : Option CreateTaskRequest)
  | retry (userID : ℕ) (taskUUID : Text)
  | progress (taskUUID : Text) (body : Option UInt8)
  | status (taskUUID : Text) (body : Option UpdateStatusRequest)

structure Event where
  op : Op
  io : GatewayIO

inductive Outcome
  | uploaded (result : Except Err UploadResult)
  | created (result : Except Err TaskDTO)
  | retried (result : Except Err RetryResult)
  | reported (result : Except Err Unit)

def perform (cfg : ServiceConfig) (s : Gateway) (io : GatewayIO) : Op → Outcome × Gateway
  | .upload req =>
    let (result, s) := upload cfg s io req
    (.uploaded result, s)
  | .create userID body =>
    match bindCreate body with
    | none => (.created (.error invalidBody), s)
    | some req =>
      let (result, s) := create cfg s io userID req
      (.created result, s)
  | .retry userID taskUUID =>
    let (result, s) := retry cfg s io userID taskUUID
    (.retried result, s)
  | .progress taskUUID body =>
    match bindProgress body with
    | none => (.reported (.error invalidBody), s)
    | some progress =>
      let (result, s) := updateProgress s io taskUUID progress
      (.reported result, s)
  | .status taskUUID body =>
    match bindStatus body with
    | none => (.reported (.error invalidBody), s)
    | some update =>
      let (result, s) := processInternalStatusUpdate s io taskUUID update
      (.reported result, s)

def step (cfg : ServiceConfig) (s : Gateway) (e : Event) : Gateway := (perform cfg s e.io e.op).2

def noTasks : Gateway := ⟨.empty, .empty, [], [], []⟩

def issued (cfg : ServiceConfig) (s : Gateway) (io : GatewayIO) : Op → Option (Task × TaskWrite)
  | .retry userID taskUUID =>
    if !cfg.isUUID taskUUID then none
    else
      match getByUUIDAndUserID s io taskUUID userID with
      | .error _ => none
      | .ok task => (checkRetry cfg io.now task).toOption.map fun w => (task, w)
  | .progress taskUUID body =>
    match bindProgress body, getByUUID s io taskUUID with
    | some progress, .ok task => (checkProgress progress task).toOption.map fun w => (task, w)
    | _, _ => none
  | .status taskUUID body =>
    match bindStatus body, getByUUID s io taskUUID with
    | some update, .ok task => (checkStatusUpdate update task).toOption.map fun w => (task, w)
    | _, _ => none
  | _ => none

def accepted (cfg : ServiceConfig) (s : Gateway) (e : Event) : Option (Task × TaskWrite) :=
  match e.io.writeTask with
  | some _ => none
  | none => issued cfg s e.io e.op

/-- An issued statement is for a stored task and passed one of the three checks. -/
theorem issued_spec {cfg : ServiceConfig} {s : Gateway} {io : GatewayIO} {op : Op} {t : Task}
    {w : TaskWrite} (h : issued cfg s io op = some (t, w)) :
    t ∈ s.tasks.rows ∧
      ((∃ userID uuid, op = .retry userID uuid ∧ checkRetry cfg io.now t = .ok w) ∨
        (∃ uuid body p, op = .progress uuid body ∧ bindProgress body = some p ∧
          checkProgress p t = .ok w) ∨
        ∃ uuid body update, op = .status uuid body ∧ bindStatus body = some update ∧
          checkStatusUpdate update t = .ok w) := by
  have split_check {r : Except AppError TaskWrite} {task : Task}
      (h : (r.toOption.map fun w => (task, w)) = some (t, w)) : task = t ∧ r = .ok w := by
    cases r with
    | error e => simp [Except.toOption] at h
    | ok w' => simpa [Except.toOption] using h
  cases op with
  | upload req => simp [issued] at h
  | create userID body => simp [issued] at h
  | retry userID uuid =>
    simp only [issued] at h
    split at h
    · simp at h
    · split at h
      · simp at h
      · rename_i task read
        have parts := split_check h
        rw [parts.1] at read parts
        exact ⟨(mem_of_byUUIDAndUserID (readTask_ok read)).1,
          .inl ⟨userID, uuid, rfl, parts.2⟩⟩
  | progress uuid body =>
    simp only [issued] at h
    split at h
    · rename_i p task bound read
      have parts := split_check h
      rw [parts.1] at read parts
      exact ⟨(mem_of_byUUID (readTask_ok read)).1, .inr (.inl ⟨uuid, body, p, rfl, bound, parts.2⟩)⟩
    · simp at h
  | status uuid body =>
    simp only [issued] at h
    split at h
    · rename_i update task bound read
      have parts := split_check h
      rw [parts.1] at read parts
      exact ⟨(mem_of_byUUID (readTask_ok read)).1,
        .inr (.inr ⟨uuid, body, update, rfl, bound, parts.2⟩)⟩
    · simp at h

theorem accepted_issued {cfg : ServiceConfig} {s : Gateway} {e : Event} {t : TaskRecords.Task}
    {w : TaskWrite} (h : accepted cfg s e = some (t, w)) :
    issued cfg s e.io e.op = some (t, w) := by
  unfold accepted at h
  split at h
  · simp at h
  · exact h

theorem accepted_stored {cfg : ServiceConfig} {s : Gateway} {e : Event} {t : TaskRecords.Task}
    {w : TaskWrite} (h : accepted cfg s e = some (t, w)) : t ∈ s.tasks.rows :=
  (issued_spec (accepted_issued h)).1

/-- The row that a request inserts: a new task, or one already marked failed
because its upload could not be dispatched. -/
inductive Inserted (tasks : Tasks) (now : ℤ) : Tasks → Prop
  | fresh (uuid : Text) (resourceID userID : ℕ) (type : Text) :
    Inserted tasks now (insertTask tasks uuid resourceID userID type now)
  | undispatched (uuid : Text) (resourceID userID : ℕ) (type errMsg : Text) :
    Inserted tasks now (execute (insertTask tasks uuid resourceID userID type now) tasks.next
      (.setStatus .failed 0 none errMsg none) now)

theorem createTask_error {s s' : Gateway} {io : GatewayIO} {resourceID userID : ℕ} {type : Text}
    {cause : String} (h : createTask s io resourceID userID type = (.error cause, s')) :
    s' = s := by
  unfold createTask at h
  split at h
  · simp only [Prod.mk.injEq] at h
    exact h.2.symm
  · split at h
    · simp only [Prod.mk.injEq] at h
      exact h.2.symm
    · simp at h

theorem createTask_ok {s s' : Gateway} {io : GatewayIO} {resourceID userID : ℕ} {type : Text}
    {task : TaskRecords.Task} (h : createTask s io resourceID userID type = (.ok task, s')) :
    byUUID s.tasks io.taskUUID = none ∧
      task = Task.new io.taskUUID resourceID userID type io.now s.tasks.next ∧
      s' = { s with tasks := insertTask s.tasks io.taskUUID resourceID userID type io.now } := by
  unfold createTask at h
  split at h
  · simp at h
  · split at h
    · simp at h
    · rename_i absent
      simp only [Prod.mk.injEq, Except.ok.injEq] at h
      exact ⟨by simpa using absent, h.1.symm, h.2.symm⟩

theorem create_tasks (cfg : ServiceConfig) (s : Gateway) (io : GatewayIO) (userID : ℕ)
    (req : CreateTaskRequest) :
    (create cfg s io userID req).2.tasks = s.tasks ∨
      Inserted s.tasks io.now (create cfg s io userID req).2.tasks := by
  unfold create
  split
  · exact .inl rfl
  · rename_i resource _
    split
    · rename_i failed
      rw [createTask_error failed]
      exact .inl rfl
    · rename_i task s' created
      have row := createTask_ok created
      have inserted : Inserted s.tasks io.now s'.tasks := by
        rw [row.2.2]
        exact .fresh _ _ _ _
      split <;> exact .inr inserted

theorem createResource_frame {s s' : Gateway} {io : GatewayIO} {make : ℕ → Resource}
    {keyed : ∀ n, (make n).id = n} {result : Except String Resource}
    (h : createResource s io make keyed = (result, s')) :
    s'.tasks = s.tasks ∧ s'.queue = s.queue ∧ s'.objects = s.objects ∧
      ∀ resource, result = .ok resource → resource = make s.resources.next := by
  unfold createResource at h
  split at h
  · obtain ⟨rfl, rfl⟩ := Prod.mk.inj h
    exact ⟨rfl, rfl, rfl, fun resource is => by cases is⟩
  · dsimp only at h
    split at h
    · obtain ⟨rfl, rfl⟩ := Prod.mk.inj h
      exact ⟨rfl, rfl, rfl, fun resource is => by cases is⟩
    · obtain ⟨rfl, rfl⟩ := Prod.mk.inj h
      exact ⟨rfl, rfl, rfl, fun resource is => (Except.ok.inj is).symm⟩

section RemoveObject

variable (s : Gateway) (io : GatewayIO) (key : Text)

theorem removeObject_tasks : (FileService.removeObject s io key).tasks = s.tasks := by
  unfold FileService.removeObject
  split <;> rfl

theorem removeObject_resources : (FileService.removeObject s io key).resources = s.resources := by
  unfold FileService.removeObject
  split <;> rfl

theorem removeObject_queue : (FileService.removeObject s io key).queue = s.queue := by
  unfold FileService.removeObject
  split <;> rfl

theorem removeObject_objects : (FileService.removeObject s io key).objects ⊆ s.objects := by
  unfold FileService.removeObject
  split
  · exact List.Subset.refl _
  · exact List.filter_subset_self _

end RemoveObject

theorem dispatchUpload_tasks (cfg : ServiceConfig) (s : Gateway) (io : GatewayIO)
    (task : TaskRecords.Task) (resource : Resource) :
    (dispatchUpload cfg s io task resource).tasks = s.tasks ∨
      ∃ errMsg, (dispatchUpload cfg s io task resource).tasks =
        execute s.tasks task.id (.setStatus .failed 0 none errMsg none) io.now := by
  simp only [dispatchUpload, dispatchTask]
  split
  · rename_i sent
    simp only [Prod.mk.injEq] at sent
    rw [← sent.2]
    exact .inl rfl
  · rename_i e s' sent
    simp only [Prod.mk.injEq] at sent
    rw [← sent.2]
    unfold writeTask
    split
    · exact .inl rfl
    · exact .inr ⟨_, rfl⟩

/-- The gateway with one more object, and possibly a row for it. -/
structure ObjectStored (s s' : Gateway) (key : Text) : Prop where
  tasks : s'.tasks = s.tasks
  queue : s'.queue = s.queue
  objects : s'.objects = s.objects ++ [key]

theorem upload_cases (cfg : ServiceConfig) (s : Gateway) (io : GatewayIO) (req : UploadRequest) :
    (upload cfg s io req).2 = s ∨
    ∃ header s₁, validateUpload io req = .ok header ∧
      ObjectStored s s₁ (storageKey req.userUUID io.resourceUUID header.filename) ∧
      ((upload cfg s io req).2 = FileService.removeObject s₁ io
          (storageKey req.userUUID io.resourceUUID header.filename) ∨
      ∃ resource task s₂, resource = newResource req header io s.resources.next ∧
        createTask s₁ io resource.id req.userID resource.type = (.ok task, s₂) ∧
        (upload cfg s io req).2 = if shouldAutoDispatch resource.type then
          dispatchUpload cfg s₂ io task resource else s₂) := by
  unfold upload
  cases valid : validateUpload io req with
  | error e => exact .inl rfl
  | ok header =>
    dsimp only
    cases io.putObject with
    | some cause => exact .inl rfl
    | none =>
      dsimp only
      split
      · rename_i s₁ failed
        obtain ⟨tasks, queue, objects, -⟩ := createResource_frame failed
        exact .inr ⟨header, s₁, rfl, ⟨tasks, queue, objects⟩, .inl rfl⟩
      · rename_i resource s₁ created
        obtain ⟨tasks, queue, objects, row⟩ := createResource_frame created
        refine .inr ⟨header, s₁, rfl, ⟨tasks, queue, objects⟩, ?_⟩
        split
        · rename_i failed
          rw [createTask_error failed]
          exact .inl rfl
        · rename_i task s₂ made
          refine .inr ⟨resource, task, s₂, row resource rfl, made, ?_⟩
          split <;> rfl

theorem upload_tasks (cfg : ServiceConfig) (s : Gateway) (io : GatewayIO) (req : UploadRequest) :
    (upload cfg s io req).2.tasks = s.tasks ∨
      Inserted s.tasks io.now (upload cfg s io req).2.tasks := by
  rcases upload_cases cfg s io req with none | ⟨header, s₁, -, stored, back | ends⟩
  · exact .inl (congrArg Gateway.tasks none)
  · rw [back, removeObject_tasks]
    exact .inl stored.tasks
  · obtain ⟨resource, task, s₂, -, made, after⟩ := ends
    obtain ⟨-, new, inserted⟩ := createTask_ok made
    have tasks₂ : s₂.tasks =
        insertTask s.tasks io.taskUUID resource.id req.userID resource.type io.now := by
      rw [inserted, ← stored.tasks]
    rw [after]
    refine .inr ?_
    split
    · rcases dispatchUpload_tasks cfg s₂ io task resource with same | ⟨errMsg, failed⟩
      · rw [same, tasks₂]
        exact .fresh _ _ _ _
      · rw [failed, tasks₂, new, stored.tasks]
        exact .undispatched _ _ _ _ _
    · rw [tasks₂]
      exact .fresh _ _ _ _

theorem writeTask_tasks {s s' : Gateway} {io : GatewayIO} {id : ℕ} {w : TaskWrite}
    {result : Except String Unit} (h : writeTask s io id w = (result, s')) :
    s'.tasks = (if io.writeTask.isSome then s.tasks else execute s.tasks id w io.now) := by
  unfold writeTask at h
  cases fault : io.writeTask with
  | some cause =>
    simp only [fault, Prod.mk.injEq] at h
    rw [← h.2]
    rfl
  | none =>
    simp only [fault, Prod.mk.injEq] at h
    rw [← h.2]
    rfl

def applied (s : Gateway) (io : GatewayIO) : Option (TaskRecords.Task × TaskWrite) → Tasks
  | none => s.tasks
  | some (t, w) => if io.writeTask.isSome then s.tasks else execute s.tasks t.id w io.now

theorem applied_of_write {s s' : Gateway} {io : GatewayIO} {task : TaskRecords.Task} {w : TaskWrite}
    {result : Except String Unit} (written : writeTask s io task.id w = (result, s')) :
    applied s io (some (task, w)) = s'.tasks := (writeTask_tasks written).symm

theorem retry_tasks (cfg : ServiceConfig) (s : Gateway) (io : GatewayIO) (userID : ℕ)
    (uuid : Text) :
    (retry cfg s io userID uuid).2.tasks = applied s io (issued cfg s io (.retry userID uuid)) := by
  simp only [retry, issued]
  split
  · rfl
  · cases read : getByUUIDAndUserID s io uuid userID with
    | error e => rfl
    | ok task =>
      dsimp only
      cases check : checkRetry cfg io.now task with
      | error e => rfl
      | ok w =>
        simp only [Except.toOption, Option.map_some]
        cases written : writeTask s io task.id w with
        | mk result s' =>
          rw [applied_of_write written]
          cases result with
          | error text => rfl
          | ok _ =>
            simp only [dispatchTask]
            split
            · split <;> rename_i sent <;> simp only [Prod.mk.injEq] at sent <;> rw [← sent.2]
            · rfl

theorem updateProgress_tasks (cfg : ServiceConfig) (s : Gateway) (io : GatewayIO) (uuid : Text)
    (body : Option UInt8) (p : UInt8) (bound : bindProgress body = some p) :
    (updateProgress s io uuid p).2.tasks =
      applied s io (issued cfg s io (.progress uuid body)) := by
  have small : p ≤ 100 := by
    have kept := (Option.filter_eq_some_iff.mp bound).2
    simp only [Bool.and_eq_true, decide_eq_true_eq] at kept
    exact kept.2
  simp only [updateProgress, issued, bound, if_neg (UInt8.not_lt.mpr small)]
  cases read : getByUUID s io uuid with
  | error e => rfl
  | ok task =>
    dsimp only
    cases check : checkProgress p task with
    | error e => rfl
    | ok w =>
      simp only [Except.toOption, Option.map_some]
      cases written : writeTask s io task.id w with
      | mk result s' =>
        rw [applied_of_write written]
        cases result <;> rfl

theorem afterStatusUpdate_tasks (s : Gateway) (io : GatewayIO) (uuid : Text)
    (update : InternalStatusUpdate) (task : TaskRecords.Task) :
    (afterStatusUpdate s io uuid update task).tasks = s.tasks := by
  simp only [afterStatusUpdate, publishEvent]
  split
  · unfold setResourceStatus
    split <;> rfl
  · rfl

theorem processInternalStatusUpdate_tasks (cfg : ServiceConfig) (s : Gateway) (io : GatewayIO)
    (uuid : Text) (body : Option UpdateStatusRequest) (update : InternalStatusUpdate)
    (bound : bindStatus body = some update) :
    (processInternalStatusUpdate s io uuid update).2.tasks =
      applied s io (issued cfg s io (.status uuid body)) := by
  simp only [processInternalStatusUpdate, issued, bound]
  cases read : getByUUID s io uuid with
  | error e => rfl
  | ok task =>
    dsimp only
    cases check : checkStatusUpdate update task with
    | error e => rfl
    | ok w =>
      simp only [Except.toOption, Option.map_some]
      cases written : writeTask s io task.id w with
      | mk result s' =>
        rw [applied_of_write written]
        cases result with
        | error text => rfl
        | ok _ => exact afterStatusUpdate_tasks _ _ _ _ _

def Op.inserts : Op → Bool
  | .upload _ => true
  | .create _ _ => true
  | _ => false

theorem perform_tasks (cfg : ServiceConfig) (s : Gateway) (io : GatewayIO) {op : Op}
    (updates : op.inserts = false) :
    (perform cfg s io op).2.tasks = applied s io (issued cfg s io op) := by
  cases op with
  | upload req => simp [Op.inserts] at updates
  | create userID body => simp [Op.inserts] at updates
  | retry userID uuid => exact retry_tasks cfg s io userID uuid
  | progress uuid body =>
    simp only [perform]
    split
    · rename_i unbound
      simp only [issued, unbound, applied]
    · rename_i p bound
      exact updateProgress_tasks cfg s io uuid body p bound
  | status uuid body =>
    simp only [perform]
    split
    · rename_i unbound
      simp only [issued, unbound, applied]
    · rename_i update bound
      exact processInternalStatusUpdate_tasks cfg s io uuid body update bound

theorem applied_accepted (cfg : ServiceConfig) (s : Gateway) (e : Event) :
    applied s e.io (issued cfg s e.io e.op) =
      match accepted cfg s e with
      | none => s.tasks
      | some (t, w) => execute s.tasks t.id w e.io.now := by
  unfold accepted
  cases fault : e.io.writeTask with
  | some cause => cases issued cfg s e.io e.op <;> simp [applied, fault]
  | none => cases issued cfg s e.io e.op <;> simp [applied, fault]

theorem step_tasks (cfg : ServiceConfig) (s : Gateway) (e : Event) :
    (∃ t w, accepted cfg s e = some (t, w) ∧
      (step cfg s e).tasks = execute s.tasks t.id w e.io.now) ∨
    accepted cfg s e = none ∧
      ((step cfg s e).tasks = s.tasks ∨ Inserted s.tasks e.io.now (step cfg s e).tasks) := by
  by_cases updates : e.op.inserts = false
  · have tasks : (step cfg s e).tasks = _ := perform_tasks cfg s e.io updates
    rw [applied_accepted] at tasks
    cases takes : accepted cfg s e with
    | none =>
      rw [takes] at tasks
      exact .inr ⟨rfl, .inl tasks⟩
    | some tw =>
      rw [takes] at tasks
      exact .inl ⟨tw.1, tw.2, rfl, tasks⟩
  · have issuesNone (h : issued cfg s e.io e.op = none) : accepted cfg s e = none := by
      unfold accepted
      split
      · rfl
      · exact h
    refine .inr ?_
    obtain ⟨op, io⟩ := e
    cases op with
    | upload req => exact ⟨issuesNone rfl, upload_tasks cfg s io req⟩
    | create userID body =>
      refine ⟨issuesNone rfl, ?_⟩
      simp only [step, perform]
      split
      · exact .inl rfl
      · exact create_tasks cfg s io userID _
    | retry userID uuid => exact absurd rfl updates
    | progress uuid body => exact absurd rfl updates
    | status uuid body => exact absurd rfl updates

def lectureUUID : Text := "3c1f0e52-7a6b-4d8e-b1f4-92d07c5e8a61".toList

def lectureTask : Text := "0f6d9b3a-58c1-4e7f-9a2b-7d4c6e1f8a90".toList

def lecture (id : ℕ) : Resource where
  id := id
  uuid := lectureUUID
  userID := 1
  name := "lecture.pdf".toList
  type := taskTypePdfParse
  status := 1
  storageKey := "u/r/lecture.pdf".toList
  sizeBytes := 1024
  mimeType := "application/pdf".toList
  autoSummary := true
  createdAt := 0
  updatedAt := 0

def oneResource : Gateway := ⟨Table.empty.insert lecture fun _ => rfl, .empty, [], [], []⟩

def serviceConfig : ServiceConfig := ⟨fun _ => true, 300, ⟨"http://ai:8000".toList, "mkc".toList⟩⟩

def createLecture : Event :=
  ⟨.create 1 (some ⟨lectureUUID, []⟩), { now := 1, taskUUID := lectureTask }⟩

end KnowledgeCompanion.GatewayRuns
