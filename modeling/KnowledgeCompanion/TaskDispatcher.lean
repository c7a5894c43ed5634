import KnowledgeCompanion.TaskRecords

/-! Sending a task to the AI service (`service/task_dispatcher.go`). The service
answers 202 only after it has put the task into the worker queue; after any other
answer, or none, the task may or may not have been queued. -/

namespace KnowledgeCompanion.TaskDispatcher

open AppErrors TaskRecords

structure DispatcherConfig where
  baseURL : Text
  bucket : Text

inductive DispatchPayload
  | asr (taskID resourceID userID audioURL language model : Text)
  | pdf (taskID resourceID userID pdfURL : Text)
deriving DecidableEq

def DispatchPayload.taskID : DispatchPayload → Text
  | .asr taskID _ _ _ _ _ => taskID
  | .pdf taskID _ _ _ => taskID

structure Message where
  endpoint : Text
  payload : DispatchPayload
deriving DecidableEq

inductive DispatchReply
  | malformed (cause : String)
  | unreachable (queued : Bool)
  | answered (status : ℕ) (queued : Bool) (accepted : status = 202 → queued = true)

def DispatchReply.ok : DispatchReply := .answered 202 true fun _ => rfl

def formatUint (n : ℕ) : Text := (Nat.repr n).toList

def storageURL (cfg : DispatcherConfig) (resource : Resource) : Text :=
  "minio://".toList ++ cfg.bucket ++ '/' :: resource.storageKey

def buildDispatchRequest (cfg : DispatcherConfig) (task : Task) (resource : Resource) :
    Except Err Message :=
  if task.type = taskTypeMediaParse then
    .ok ⟨cfg.baseURL ++ "/ai/v1/asr".toList,
      .asr task.uuid resource.uuid (formatUint resource.userID) (storageURL cfg resource)
        "zh".toList "small".toList⟩
  else if task.type = taskTypePdfParse then
    .ok ⟨cfg.baseURL ++ "/ai/v1/pdf/parse".toList,
      .pdf task.uuid resource.uuid (formatUint resource.userID) (storageURL cfg resource)⟩
  else .error (.plain ("unsupported task type for dispatch: " ++ String.ofList task.type))

def queuedIf (queued : Bool) (message : Message) : List Message :=
  if queued then [message] else []

/-- The result and what reached the queue. A task without a resource row carries
an empty one, whose uuid is empty. -/
def dispatch (cfg : DispatcherConfig) (reply : DispatchReply) (task : Task)
    (resource : Option Resource) : Except Err Unit × List Message :=
  match resource.filter fun resource => resource.uuid != [] with
  | none => (.error (.plain "task resource is missing"), [])
  | some resource =>
    match buildDispatchRequest cfg task resource with
    | .error e => (.error e, [])
    | .ok message =>
      match reply with
      | .malformed cause => (.error (.plain ("failed to create dispatch request: " ++ cause)), [])
      | .unreachable queued =>
        (.error (.app (workerUnavailable "AI service is unavailable")), queuedIf queued message)
      | .answered status queued _ =>
        if status = 202 then (.ok (), queuedIf queued message)
        else if 500 ≤ status then
          (.error (.app (workerUnavailable "AI service is unavailable")), queuedIf queued message)
        else
          (.error (.app (dispatchFailed "AI service rejected the task")), queuedIf queued message)

theorem buildDispatchRequest_taskID {cfg : DispatcherConfig} {task : Task} {resource : Resource}
    {message : Message} (h : buildDispatchRequest cfg task resource = .ok message) :
    message.payload.taskID = task.uuid := by
  unfold buildDispatchRequest at h
  split at h
  · simp only [Except.ok.injEq] at h
    rw [← h]
    rfl
  · split at h
    · simp only [Except.ok.injEq] at h
      rw [← h]
      rfl
    · simp at h

theorem dispatch_ok {cfg : DispatcherConfig} {reply : DispatchReply} {task : Task}
    {resource : Option Resource} (h : (dispatch cfg reply task resource).1 = .ok ()) :
    ∃ message ∈ (dispatch cfg reply task resource).2, message.payload.taskID = task.uuid := by
  unfold dispatch at h ⊢
  split at h
  · simp at h
  · split at h
    · simp at h
    · rename_i message built
      split at h
      · simp at h
      · simp at h
      · rename_i status queued accepted
        by_cases answered : status = 202
        · have inQueue : queued = true := accepted answered
          simp only [if_pos answered, queuedIf, if_pos inQueue]
          exact ⟨message, List.mem_singleton_self _, buildDispatchRequest_taskID built⟩
        · rw [if_neg answered] at h
          split at h <;> simp at h

end KnowledgeCompanion.TaskDispatcher
