import KnowledgeCompanion.ChatSseClient
import KnowledgeCompanion.SubtitleRoundTrip
import KnowledgeCompanion.TaskService

/-! The event stream of a task on the client (`remote/task_sse_client_default.dart` and
`remote/task_sse_client_web.dart`) when no connection to the gateway's stream succeeds:
after the last attempt the client polls `GET /tasks/:id`. -/

namespace KnowledgeCompanion.TaskPolling

open ChatSseClient DartText JsonText PythonText TaskRecords
open TaskService (TaskDTO)

def omitEmpty (key : String) (value : Option Json) : Members :=
  (value.map fun json => (key.toList, json)).toList

def ofText (text : Text) : Option Json := if text = [] then none else some (.string text)

def ofInt (value : ℤ) : Json := .number (toString value).toList

def taskMembers (formatTime : ℤ → Text) (task : TaskDTO) : Members :=
  [("task_id".toList, .string task.taskID),
    ("resource_id".toList, .string task.resourceID),
    ("resource_name".toList, .string task.resourceName)] ++
  omitEmpty "user_id" (ofText task.userID) ++
  [("type".toList, .string task.type),
    ("status".toList, .string task.status.text.toList),
    ("progress".toList, .number (decimal task.progress.toNat)),
    ("attempt_count".toList, .number (decimal task.attemptCount.toNat))] ++
  omitEmpty "result" (task.result.bind unmarshal) ++
  omitEmpty "error_message" (ofText task.errorMessage) ++
  omitEmpty "started_at" (task.startedAt.map fun t => .string (formatTime t)) ++
  omitEmpty "completed_at" (task.completedAt.map fun t => .string (formatTime t)) ++
  [("created_at".toList, ofInt task.createdAt), ("updated_at".toList, ofInt task.updatedAt)]

def envelope (data metaInfo : Json) : Json :=
  .object [("success".toList, .bool true), ("data".toList, data), ("error".toList, .null),
    ("meta".toList, metaInfo)]

inductive Reply
  | refused
  | answered (task : TaskDTO) (metaInfo : Json) (receivedAt : ℤ)

inductive Platform
  | native
  | web
deriving DecidableEq

inductive ResponseType
  | json
  | stream
deriving DecidableEq

def responseType : Platform → ResponseType
  | .native => .stream
  | .web => .json

/-- `parseTime` is `DateTime.tryParse` in local time. -/
structure ClientConfig where
  platform : Platform
  formatTime : ℤ → Text
  parseTime : Text → Option ℤ

/-- `response.data`. -/
inductive ResponseData
  | responseBody
  | decoded (json : Json)

def responseData (type : ResponseType) (body : Json) : ResponseData :=
  match type with
  | .json => .decoded body
  | .stream => .responseBody

/-- `data as Map<String, dynamic>?`, `none` where the cast throws. -/
def asMap : ResponseData → Option (Option Members)
  | .decoded (.object members) => some (some members)
  | .decoded .null => some none
  | _ => none

/-- `json[key] as int?`, `none` where the cast throws. -/
def intMember (json : Members) (key : String) : Option (Option ℤ) :=
  match member json key.toList with
  | none => some none
  | some .null => some none
  | some (.number text) => (intTryParse text).map some
  | some _ => none

structure TaskEvent where
  taskID : Text
  eventType : Text
  status : Text
  progress : ℤ
  message : Option Text
  timestamp : ℤ
deriving DecidableEq

def parseTimestamp (parseTime : Text → Option ℤ) (now : ℤ) : Option Json → ℤ
  | some (.string text) => (parseTime text).getD now
  | _ => now

def fromJson (parseTime : Text → Option ℤ) (now : ℤ) (json : Members) (eventType : Text) :
    Option TaskEvent := do
  let taskID ← stringMember json "task_id"
  let status ← stringMember json "status"
  let progress ← intMember json "progress"
  let message ← stringMember json "message"
  return {
    taskID := taskID.getD []
    eventType
    status := status.getD []
    progress := progress.getD 0
    message
    timestamp := parseTimestamp parseTime now (member json "timestamp".toList) }

def isTerminal (status : Text) : Bool :=
  status == "completed".toList || status == "failed".toList

def eventTypeForStatus (status : Text) : Text :=
  if status = "completed".toList then "done".toList
  else if status = "failed".toList then "error".toList
  else "status".toList

/-- The event that one poll adds, `none` where it returns early or swallows an exception. -/
def polledEvent (cfg : ClientConfig) : Reply → Option TaskEvent
  | .refused => none
  | .answered task metaInfo receivedAt => do
    let body := envelope (.object (taskMembers cfg.formatTime task)) metaInfo
    let data ← asMap (responseData (responseType cfg.platform) body)
    let json ← data
    let status ← stringMember json "status"
    fromJson cfg.parseTime receivedAt json (eventTypeForStatus (status.getD []))

inductive Phase
  | connecting (attempt : ℕ)
  | polling
deriving DecidableEq

structure Subscription where
  phase : Phase
  delivered : List TaskEvent
  closed : Bool

def attemptSse (attempt : ℕ) : Phase :=
  if maxReconnectAttempts < attempt then .polling else .connecting attempt

def subscribe : Subscription where
  phase := attemptSse 0
  delivered := []
  closed := false

def poll (cfg : ClientConfig) (s : Subscription) (reply : Reply) : Subscription :=
  if s.closed then s
  else
    match polledEvent cfg reply with
    | none => s
    | some event =>
      { s with
        delivered := s.delivered ++ [event]
        closed := isTerminal event.status }

inductive Event
  | connectionFails
  | polled (reply : Reply)

def step (cfg : ClientConfig) (s : Subscription) : Event → Subscription
  | .connectionFails =>
    match s.phase with
    | .connecting attempt => { s with phase := attemptSse (attempt + 1) }
    | .polling => s
  | .polled reply =>
    match s.phase with
    | .connecting _ => s
    | .polling => poll cfg s reply

def exec (cfg : ClientConfig) (s : Subscription) (events : List Event) : Subscription :=
  events.foldl (step cfg) s

def run (cfg : ClientConfig) (replies : List Reply) : Subscription :=
  exec cfg subscribe
    (List.replicate (maxReconnectAttempts + 1) .connectionFails ++ replies.map .polled)

theorem member_append (front rest : Members) (key : Text) :
    member (front ++ rest) key = (member front key).or (member rest key) := by
  unfold member
  rw [List.find?_append, Option.map_or]

theorem member_omitEmpty {name : String} {key : Text} (other : name.toList ≠ key)
    (value : Option Json) : member (omitEmpty name value) key = none := by
  cases value with
  | none => rfl
  | some json =>
    change Option.map Prod.snd (List.find? _ [(name.toList, json)]) = none
    rw [List.find?_singleton, if_neg (by simpa using other)]
    rfl

theorem intTryParse_decimal {n : ℕ} (small : n < 2 ^ 63) :
    intTryParse (decimal n) = some (n : ℤ) := by
  rw [SubtitleRoundTrip.decimal_eq_padded, SubtitleRoundTrip.intTryParse_padded,
    SubtitleRoundTrip.asInt_natCast, if_pos small]

theorem member_taskMembers_status (formatTime : ℤ → Text) (task : TaskDTO) :
    member (taskMembers formatTime task) "status".toList =
      some (.string task.status.text.toList) := by
  unfold taskMembers
  simp only [member_append]
  rw [member_omitEmpty (by decide)]
  rfl

theorem member_taskMembers_progress (formatTime : ℤ → Text) (task : TaskDTO) :
    member (taskMembers formatTime task) "progress".toList =
      some (.number (decimal task.progress.toNat)) := by
  unfold taskMembers
  simp only [member_append]
  rw [member_omitEmpty (by decide)]
  rfl

theorem member_taskMembers_absent (formatTime : ℤ → Text) (task : TaskDTO) :
    member (taskMembers formatTime task) "message".toList = none ∧
      member (taskMembers formatTime task) "timestamp".toList = none := by
  unfold taskMembers
  simp only [member_append]
  constructor
  · repeat rw [member_omitEmpty (by decide)]
    rfl
  · repeat rw [member_omitEmpty (by decide)]
    rfl

theorem fromJson_taskMembers (formatTime : ℤ → Text) (parseTime : Text → Option ℤ) (now : ℤ)
    (task : TaskDTO) (eventType : Text) :
    fromJson parseTime now (taskMembers formatTime task) eventType = some {
      taskID := task.taskID
      eventType
      status := task.status.text.toList
      progress := task.progress.toNat
      message := none
      timestamp := now } := by
  have small : task.progress.toNat < 2 ^ 63 := by
    have bound := task.progress.toNat_lt
    omega
  have taskID : stringMember (taskMembers formatTime task) "task_id" = some (some task.taskID) :=
    rfl
  have status : stringMember (taskMembers formatTime task) "status" =
      some (some task.status.text.toList) := by
    unfold stringMember
    rw [member_taskMembers_status]
  have progress : intMember (taskMembers formatTime task) "progress" =
      some (some (task.progress.toNat : ℤ)) := by
    unfold intMember
    rw [member_taskMembers_progress]
    dsimp only
    rw [intTryParse_decimal small]
    rfl
  have absent := member_taskMembers_absent formatTime task
  have message : stringMember (taskMembers formatTime task) "message" = some none := by
    unfold stringMember
    rw [absent.1]
  unfold fromJson
  rw [taskID, status, progress, message, absent.2]
  rfl

theorem polledEvent_envelope (cfg : ClientConfig) (task : TaskDTO) (metaInfo : Json)
    (receivedAt : ℤ) :
    polledEvent cfg (.answered task metaInfo receivedAt) =
      match cfg.platform with
      | .native => none
      | .web => some {
          taskID := []
          eventType := "status".toList
          status := []
          progress := 0
          message := none
          timestamp := receivedAt } := by
  unfold polledEvent
  cases cfg.platform with
  | native => rfl
  | web => rfl

theorem polledEvent_status {cfg : ClientConfig} {reply : Reply} {event : TaskEvent}
    (added : polledEvent cfg reply = some event) : event.status = [] := by
  cases reply with
  | refused => exact absurd added.symm (Option.some_ne_none event)
  | answered task metaInfo receivedAt =>
    rw [polledEvent_envelope] at added
    cases platform : cfg.platform with
    | native =>
      rw [platform] at added
      exact absurd added.symm (Option.some_ne_none event)
    | web =>
      rw [platform] at added
      exact (Option.some.inj added) ▸ rfl

def polledTask : Reply → Option TaskDTO
  | .refused => none
  | .answered task _ _ => some task

def TaskDTO.ended (task : TaskDTO) : Bool := isTerminal task.status.text.toList

def throughTerminal : List TaskDTO → List TaskDTO
  | [] => []
  | task :: tasks => if TaskDTO.ended task then [task] else task :: throughTerminal tasks

def TaskEvent.outcome (event : TaskEvent) : Text × Text × ℤ :=
  (event.taskID, event.status, event.progress)

def TaskDTO.outcome (task : TaskDTO) : Text × Text × ℤ :=
  (task.taskID, task.status.text.toList, task.progress.toNat)

/-- The events carry the polled tasks, and the stream is closed at the first terminal one. -/
structure Reports (replies : List Reply) (s : Subscription) : Prop where
  delivered : s.delivered.map TaskEvent.outcome =
    (throughTerminal (replies.filterMap polledTask)).map TaskDTO.outcome
  closed : s.closed = (replies.filterMap polledTask).any TaskDTO.ended

/-- Polling never ends, and no event that it adds carries a status. -/
structure Blind (s : Subscription) : Prop where
  statuses : ∀ event ∈ s.delivered, event.status = []
  closed : s.closed = false

theorem blind_poll (cfg : ClientConfig) {s : Subscription} (blind : Blind s) (reply : Reply) :
    Blind (poll cfg s reply) := by
  unfold poll
  rw [blind.closed, if_neg Bool.false_ne_true]
  cases added : polledEvent cfg reply with
  | none => exact blind
  | some event =>
    have status := polledEvent_status added
    constructor
    · intro other mem
      rcases List.mem_append.mp mem with mem | mem
      · exact blind.statuses other mem
      · exact List.mem_singleton.mp mem ▸ status
    · change isTerminal event.status = false
      rw [status]
      rfl

theorem exec_append (cfg : ClientConfig) (s : Subscription) (front rest : List Event) :
    exec cfg s (front ++ rest) = exec cfg (exec cfg s front) rest :=
  List.foldl_append

theorem exec_failures (cfg : ClientConfig) :
    exec cfg subscribe (List.replicate (maxReconnectAttempts + 1) .connectionFails) =
      ⟨.polling, [], false⟩ :=
  rfl

theorem poll_phase (cfg : ClientConfig) (s : Subscription) (reply : Reply) :
    (poll cfg s reply).phase = s.phase := by
  unfold poll
  split
  · rfl
  · split <;> rfl

theorem exec_polls (cfg : ClientConfig) (replies : List Reply) :
    ∀ s : Subscription, s.phase = .polling →
      exec cfg s (replies.map .polled) = replies.foldl (poll cfg) s := by
  induction replies with
  | nil => exact fun _ _ => rfl
  | cons reply replies ih =>
    intro s polling
    have first : step cfg s (.polled reply) = poll cfg s reply := by
      unfold step
      rw [polling]
    change exec cfg (step cfg s (.polled reply)) (replies.map .polled) = _
    rw [first]
    exact ih (poll cfg s reply) ((poll_phase cfg s reply).trans polling)

theorem run_eq (cfg : ClientConfig) (replies : List Reply) :
    run cfg replies = replies.foldl (poll cfg) ⟨.polling, [], false⟩ := by
  unfold run
  rw [exec_append, exec_failures]
  exact exec_polls cfg replies _ rfl

theorem blind_run (cfg : ClientConfig) (replies : List Reply) : Blind (run cfg replies) := by
  rw [run_eq]
  refine List.foldlRecOn (motive := Blind) replies _ ⟨by simp, rfl⟩ ?_
  exact fun s blind reply _ => blind_poll cfg blind reply

theorem throughTerminal_head (task : TaskDTO) (tasks : List TaskDTO) :
    ∃ rest, throughTerminal (task :: tasks) = task :: rest := by
  unfold throughTerminal
  split
  · exact ⟨[], rfl⟩
  · exact ⟨throughTerminal tasks, rfl⟩

theorem text_ne_nil (status : TaskStatus) : status.text.toList ≠ [] := by
  cases status <;> decide

theorem poll_refused (cfg : ClientConfig) (s : Subscription) : poll cfg s .refused = s := by
  unfold poll
  split
  · rfl
  · rfl

/-- The stream reports the polled tasks exactly when no poll succeeds. -/
theorem reports_iff_refused (cfg : ClientConfig) (replies : List Reply) :
    Reports replies (run cfg replies) ↔ ∀ reply ∈ replies, reply = .refused := by
  constructor
  · intro reports
    cases polled : replies.filterMap polledTask with
    | nil =>
      intro reply mem
      cases reply with
      | refused => rfl
      | answered task metaInfo receivedAt =>
        have kept : task ∈ replies.filterMap polledTask := List.mem_filterMap.mpr ⟨_, mem, rfl⟩
        rw [polled] at kept
        exact absurd kept List.not_mem_nil
    | cons task tasks =>
      exfalso
      obtain ⟨rest, first⟩ := throughTerminal_head task tasks
      have delivered := reports.delivered
      rw [polled, first, List.map_cons] at delivered
      obtain ⟨event, mem, outcome⟩ := List.mem_map.mp
        (delivered.symm ▸ List.mem_cons_self : TaskDTO.outcome task ∈ _)
      have status : event.status = task.status.text.toList := congrArg (fun o => o.2.1) outcome
      exact text_ne_nil task.status (status ▸ (blind_run cfg replies).statuses event mem)
  · intro refused
    have none_polled : replies.filterMap polledTask = [] := by
      rw [List.filterMap_eq_nil_iff]
      intro reply mem
      rw [refused reply mem]
      rfl
    have unchanged : run cfg replies = ⟨.polling, [], false⟩ := by
      rw [run_eq]
      refine List.foldlRecOn (motive := (· = (⟨.polling, [], false⟩ : Subscription))) replies _
        rfl ?_
      intro s initial reply mem
      rw [refused reply mem, poll_refused, initial]
    rw [unchanged]
    constructor
    · rw [none_polled]
      rfl
    · rw [none_polled]
      rfl

def exampleTask : TaskDTO where
  taskID := "t".toList
  resourceID := "r".toList
  resourceName := "notes.pdf".toList
  userID := []
  type := taskTypePdfParse
  status := .completed
  progress := 100
  attemptCount := 1
  result := none
  errorMessage := []
  startedAt := none
  completedAt := none
  createdAt := 0
  updatedAt := 0

/-- A completed task is polled: the web client adds an event without id and status and keeps
polling, the native client adds none. -/
theorem completed_task_unreported :
    (run ⟨.web, fun _ => [], fun _ => none⟩ [.answered exampleTask .null 7]).delivered =
        [⟨[], "status".toList, [], 0, none, 7⟩] ∧
      (run ⟨.native, fun _ => [], fun _ => none⟩ [.answered exampleTask .null 7]).delivered = [] ∧
      ∀ platform : Platform, ¬Reports [.answered exampleTask .null 7]
        (run ⟨platform, fun _ => [], fun _ => none⟩ [.answered exampleTask .null 7]) := by
  refine ⟨rfl, rfl, ?_⟩
  intro platform reports
  have closed := reports.closed
  cases platform <;> exact Bool.noConfusion closed

end KnowledgeCompanion.TaskPolling
