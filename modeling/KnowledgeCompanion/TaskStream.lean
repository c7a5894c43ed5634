import KnowledgeCompanion.TaskBroadcast
import KnowledgeCompanion.TaskInterleaving

/-! One event stream of a task (`handler/task_sse_handler.go`) beside the calls that change
the task: the authorising read, `Subscribe` and the loop run between the reads, statements
and publishes of the calls and the sends of each publish. -/

namespace KnowledgeCompanion.TaskStream

open AppErrors TaskRecords TaskService TaskBroadcast TaskInterleaving GuardedRun

def get (cfg : ServiceConfig) (tasks : Tasks) (userID : ℕ) (taskUUID : Text) :
    Except AppError TaskRecords.Task :=
  if !cfg.isUUID taskUUID then .error ⟨400, codeValidationError, "invalid task_id"⟩
  else
    match byUUIDAndUserID tasks taskUUID userID with
    | none => .error (notFound "task")
    | some task => .ok task

def errTooManySubscribers : AppError :=
  ⟨503, "TOO_MANY_SUBSCRIBERS", "too many subscribers for this task"⟩

inductive Frame
  | event (e : TaskEvent)
  | heartbeat
  | error (e : AppError)
deriving DecidableEq

inductive Phase
  | reading
  | authorised (task : TaskRecords.Task)
  | subscribed (task : TaskRecords.Task) (ch : ℕ)
  | waiting (ch : ℕ)
  | ended
  | disconnected
deriving DecidableEq

def Phase.channel : Phase → Option ℕ
  | .subscribed _ ch => some ch
  | .waiting ch => some ch
  | _ => none

def Phase.serving : Phase → Bool
  | .authorised _ => true
  | .subscribed _ _ => true
  | .waiting _ => true
  | _ => false

structure Request where
  userID : ℕ
  taskUUID : Text

structure StreamConfig where
  service : ServiceConfig
  broadcast : BroadcastConfig
  request : Request

/-- `unpublished` holds the events of the calls whose statement has been executed, and
`terminal` the terminal statuses that the task has had since the read. -/
structure System (cfg : StreamConfig) where
  calls : Concurrent cfg.service
  unpublished : List TaskEvent
  broadcaster : Broadcaster
  phase : Phase
  written : List Frame
  terminal : List TaskStatus

inductive Event
  | call (e : TaskInterleaving.Event)
  | publish (j : ℕ) (now : ℤ)
  | broadcast (e : TaskBroadcast.Event)
  | next (now : ℤ)
  | readFails
  | heartbeat
  | disconnect

def isTerminal : TaskStatus → Bool
  | .completed => true
  | .failed => true
  | _ => false

def reported (task : TaskRecords.Task) (now : ℤ) : CallOp → Option TaskEvent
  | .statusUpdate taskUUID update =>
    some ⟨eventTypeOf update.status, taskUUID, reportedProgress task update.status, update.status,
      eventMessageOf update, now⟩
  | .progressUpdate taskUUID progress => some ⟨"progress", taskUUID, progress, .running, none, now⟩
  | .retry _ _ => none

def reportOf {cfg : ServiceConfig} (s : Concurrent cfg) (e : TaskInterleaving.Event) :
    Option TaskEvent :=
  (TaskInterleaving.writeOf s e).bind fun w => reported w.2.1 0 w.1.op

def statusOf (tasks : Tasks) (taskUUID : Text) : Option TaskStatus :=
  (byUUID tasks taskUUID).map TaskRecords.Task.status

def becomes {cfg : ServiceConfig} (taskUUID : Text) (s : Concurrent cfg)
    (e : TaskInterleaving.Event) : Option TaskStatus :=
  match statusOf (TaskInterleaving.step cfg s e).tasks taskUUID with
  | none => none
  | some status =>
    if isTerminal status ∧ statusOf s.tasks taskUUID ≠ some status then some status else none

def foreign (phase : Phase) : TaskBroadcast.Event → Bool
  | .publish _ _ => false
  | .receive ch => decide (phase.channel ≠ some ch)
  | .removeSubscriber _ ch => decide (phase.channel ≠ some ch)
  | _ => true

variable {cfg : StreamConfig}

def next (now : ℤ) (s : System cfg) : System cfg :=
  match s.phase with
  | .reading =>
    match get cfg.service s.calls.tasks cfg.request.userID cfg.request.taskUUID with
    | .error e => { s with phase := .ended, written := s.written ++ [.error e] }
    | .ok task =>
      { s with
        phase := .authorised task
        terminal := if isTerminal task.status then [task.status] else [] }
  | .authorised task =>
    if cfg.broadcast.maxSubscribers ≤ (s.broadcaster.subs cfg.request.taskUUID).length then
      { s with phase := .ended, written := s.written ++ [.error errTooManySubscribers] }
    else
      { s with
        broadcaster :=
          TaskBroadcast.step cfg.broadcast s.broadcaster (.subscribe cfg.request.taskUUID)
        phase := .subscribed task s.broadcaster.made }
  | .subscribed task ch =>
    { s with
      phase := .waiting ch
      written := s.written ++
        [.event ⟨"status", cfg.request.taskUUID, task.progress, task.status, none, now⟩] }
  | .waiting ch =>
    match (s.broadcaster.channels ch).buffer with
    | [] => if (s.broadcaster.channels ch).closes = 0 then s else { s with phase := .ended }
    | event :: _ =>
      { s with
        broadcaster := TaskBroadcast.step cfg.broadcast s.broadcaster (.receive ch)
        written := s.written ++ [.event event]
        phase := if isTerminal event.status then .ended else .waiting ch }
  | .ended => s
  | .disconnected => s

def step (s : System cfg) : Event → System cfg
  | .call e =>
    { s with
      calls := TaskInterleaving.step cfg.service s.calls e
      unpublished := s.unpublished ++ (reportOf s.calls e).toList
      terminal :=
        if s.phase.serving then
          s.terminal ++ (becomes cfg.request.taskUUID s.calls e).toList
        else s.terminal }
  | .publish j now =>
    match s.unpublished[j]? with
    | none => s
    | some event =>
      { s with
        unpublished := s.unpublished.eraseIdx j
        broadcaster :=
          TaskBroadcast.step cfg.broadcast s.broadcaster
            (.publish event.taskID { event with timestamp := now }) }
  | .broadcast e =>
    if foreign s.phase e then
      { s with broadcaster := TaskBroadcast.step cfg.broadcast s.broadcaster e }
    else s
  | .next now => next now s
  | .readFails =>
    match s.phase with
    | .reading =>
      { s with
        phase := .ended, written := s.written ++ [.error (internal "internal server error")] }
    | _ => s
  | .heartbeat =>
    match s.phase with
    | .waiting _ => { s with written := s.written ++ [.heartbeat] }
    | _ => s
  | .disconnect => if s.phase.serving then { s with phase := .disconnected } else s

def start (tasks : Tasks) : System cfg := ⟨⟨tasks, []⟩, [], idle, .reading, [], []⟩

def onWay (b : Broadcaster) (ch : ℕ) : List TaskStatus :=
  ((b.publishing.filter fun p => ch ∈ p.remaining).map (fun p => p.event.status) ++
    (b.channels ch).buffer.map TaskEvent.status).filter isTerminal

def toPublish (taskUUID : Text) (events : List TaskEvent) : List TaskStatus :=
  ((events.filter fun e => e.taskID = taskUUID).map TaskEvent.status).filter isTerminal

def underWay (s : System cfg) : List TaskStatus :=
  toPublish cfg.request.taskUUID s.unpublished ++
    match s.phase.channel with
    | none => []
    | some ch => onWay s.broadcaster ch

/-- A step that loses no terminal event: the task is not terminal when it is read, it takes
no other terminal status before the stream has told the last one, a terminal report names it as
the request does, and an event is published when the stream listens and is sent when its buffer
has room. -/
def Heard (s : System cfg) : Event → Prop
  | .call e =>
    s.phase.serving = true → ∀ event ∈ reportOf s.calls e, isTerminal event.status = true →
      s.calls.tasks.same event.taskID cfg.request.taskUUID = true →
        event.taskID = cfg.request.taskUUID ∧ ∀ status ∈ underWay s, status = event.status
  | .publish j _ =>
    s.terminal ≠ [] → s.phase.serving = true → ∀ event ∈ s.unpublished[j]?,
      event.taskID = cfg.request.taskUUID → isTerminal event.status = true →
        s.phase.channel ≠ none
  | .broadcast (.send i) =>
    ∀ ch ∈ s.phase.channel, sendsTo s.broadcaster (.send i) = some ch →
      ∀ p ∈ s.broadcaster.publishing[i]?, isTerminal p.event.status = true →
        (s.broadcaster.channels ch).buffer.length < cfg.broadcast.subscriberBufSize
  | .broadcast (.cancel i) =>
    ∀ ch ∈ s.phase.channel, ∀ p ∈ s.broadcaster.publishing[i]?,
      isTerminal p.event.status = true → ch ∉ p.remaining
  | .broadcast (.close taskID) => s.phase.channel = none ∨ taskID ≠ cfg.request.taskUUID
  | .next _ =>
    match s.phase with
    | .reading =>
      ∀ task ∈ (get cfg.service s.calls.tasks cfg.request.userID cfg.request.taskUUID).toOption,
        isTerminal task.status = false
    | .authorised _ =>
      s.terminal = [] ∨
        (s.broadcaster.subs cfg.request.taskUUID).length < cfg.broadcast.maxSubscribers
    | _ => True
  | _ => True

instance decidableHeard (s : System cfg) : (e : Event) → Decidable (Heard s e)
  | .call e =>
    inferInstanceAs (Decidable (s.phase.serving = true → ∀ event ∈ reportOf s.calls e,
      isTerminal event.status = true → s.calls.tasks.same event.taskID cfg.request.taskUUID = true →
        event.taskID = cfg.request.taskUUID ∧ ∀ status ∈ underWay s, status = event.status))
  | .publish j _ =>
    inferInstanceAs (Decidable (s.terminal ≠ [] → s.phase.serving = true →
      ∀ event ∈ s.unpublished[j]?, event.taskID = cfg.request.taskUUID →
        isTerminal event.status = true → s.phase.channel ≠ none))
  | .broadcast (.send i) =>
    inferInstanceAs (Decidable (∀ ch ∈ s.phase.channel, sendsTo s.broadcaster (.send i) = some ch →
      ∀ p ∈ s.broadcaster.publishing[i]?, isTerminal p.event.status = true →
        (s.broadcaster.channels ch).buffer.length < cfg.broadcast.subscriberBufSize))
  | .broadcast (.cancel i) =>
    inferInstanceAs (Decidable (∀ ch ∈ s.phase.channel, ∀ p ∈ s.broadcaster.publishing[i]?,
      isTerminal p.event.status = true → ch ∉ p.remaining))
  | .broadcast (.close taskID) =>
    inferInstanceAs (Decidable (s.phase.channel = none ∨ taskID ≠ cfg.request.taskUUID))
  | .broadcast (.subscribe _) => .isTrue trivial
  | .broadcast (.removeSubscriber _ _) => .isTrue trivial
  | .broadcast (.publish _ _) => .isTrue trivial
  | .broadcast (.closeNext _) => .isTrue trivial
  | .broadcast (.receive _) => .isTrue trivial
  | .next now =>
    match phase : s.phase with
    | .reading =>
      decidable_of_iff (∀ task ∈ (get cfg.service s.calls.tasks cfg.request.userID
        cfg.request.taskUUID).toOption, isTerminal task.status = false)
        (by simp only [Heard, phase])
    | .authorised _ =>
      decidable_of_iff (s.terminal = [] ∨
        (s.broadcaster.subs cfg.request.taskUUID).length < cfg.broadcast.maxSubscribers)
        (by simp only [Heard, phase])
    | .subscribed _ _ => .isTrue (by simp only [Heard, phase])
    | .waiting _ => .isTrue (by simp only [Heard, phase])
    | .ended => .isTrue (by simp only [Heard, phase])
    | .disconnected => .isTrue (by simp only [Heard, phase])
  | .readFails => .isTrue trivial
  | .heartbeat => .isTrue trivial
  | .disconnect => .isTrue trivial

def Own (s : System cfg) : Event → Prop
  | .publish j _ => j < s.unpublished.length
  | .broadcast (.send i) => sendsTo s.broadcaster (.send i) ≠ none
  | .next _ =>
    match s.phase with
    | .ended => False
    | .disconnected => False
    | .waiting ch =>
      (s.broadcaster.channels ch).buffer ≠ [] ∨ (s.broadcaster.channels ch).closes ≠ 0
    | _ => True
  | _ => False

def held {cfg : ServiceConfig} (c : Call cfg) : Option TaskRecords.Task :=
  match c.phase with
  | .checking task => some task
  | .writing task _ => some task
  | _ => none

def pending (b : Broadcaster) : Phase → ℕ
  | .reading => 4
  | .authorised _ => 3
  | .subscribed _ ch => 2 + (b.channels ch).buffer.length
  | .waiting ch => 1 + (b.channels ch).buffer.length
  | .ended => 0
  | .disconnected => 0

/-- Nothing of a report is left and the stream waits or is over. -/
structure Settled (s : System cfg) : Prop where
  published : s.unpublished = []
  sent : ∀ p ∈ s.broadcaster.publishing, p.remaining = []
  received : ¬ Own s (.next 0)

private def opened : List Event := [.next 1, .next 1, .next 1]

end KnowledgeCompanion.TaskStream
