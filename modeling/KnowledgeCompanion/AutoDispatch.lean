import Mathlib.Logic.Function.Basic
import KnowledgeCompanion.GoText
import KnowledgeCompanion.ResultService

/-! The summaries and extractions that the gateway asks for when a parse task completes
(`service/task_service.go`), and the summary that a user asks for later
(`service/summary_service.go`). -/

namespace KnowledgeCompanion.AutoDispatch

open AppErrors FileService GatewayRuns GuardedRun JsonText KeyedTable ResultService TaskRecords
open TaskService

structure SummaryDispatchPayload where
  types : List Text
  sourceType : Text
  content : Text
  parsed : List (Text × Json)
  srtSegments : List (List (Text × Json))
  taskID : Text

structure ExtractionDispatchPayload where
  sourceType : Text
  content : Text
  taskID : Text

def stringFromAny : Option Json → Text
  | some (.string text) => text
  | _ => []

def mapOf : Json → Option (List (Text × Json))
  | .object members => some members
  | _ => none

def mapsFromAny : Option Json → List (List (Text × Json))
  | some (.array items) => items.filterMap mapOf
  | _ => []

def pageText (page : Json) : Option Text :=
  (mapOf page).bind fun members =>
    let text := stringFromAny (member members "text".toList)
    if text = [] then none else some text

def pdfTextFromParsed (payload : List (Text × Json)) : Text :=
  let text := stringFromAny (member payload "text".toList)
  if text ≠ [] then text
  else
    match member payload "pages".toList with
    | some (.array pages) => GoText.join (pages.filterMap pageText) "\n\n".toList
    | _ => []

def payloadOf (result : Option Text) : Option (List (Text × Json)) :=
  if result.getD [] = [] then none else unmarshalMap (result.getD [])

def taskIDOf (kind resourceUUID : Text) (automatic : Bool) : Text :=
  if automatic then kind ++ '-' :: (resourceUUID ++ "-auto".toList) else kind ++ '-' :: resourceUUID

def buildSummaryPayload (task : Task) (resourceUUID : Text) (result : Option Text)
    (automatic : Bool) : Option SummaryDispatchPayload :=
  (payloadOf result).bind fun payload =>
    let taskID := taskIDOf "sum".toList resourceUUID automatic
    let types := ["full".toList, "section".toList]
    if task.type = taskTypePdfParse then
      some ⟨types, "pdf".toList, [], payload, [], taskID⟩
    else if task.type = taskTypeMediaParse then
      some ⟨types, "audio".toList, stringFromAny (member payload "text".toList), [],
        mapsFromAny (member payload "segments".toList), taskID⟩
    else none

def buildExtractionPayload (task : Task) (resourceUUID : Text) (result : Option Text)
    (automatic : Bool) : Option ExtractionDispatchPayload :=
  (payloadOf result).bind fun payload =>
    let taskID := taskIDOf "tag".toList resourceUUID automatic
    if task.type = taskTypePdfParse then some ⟨"pdf".toList, pdfTextFromParsed payload, taskID⟩
    else if task.type = taskTypeMediaParse then
      some ⟨"audio".toList, stringFromAny (member payload "text".toList), taskID⟩
    else none

inductive AutoRequest
  | summary (resourceUUID : Text) (payload : SummaryDispatchPayload)
  | extraction (resourceUUID : Text) (payload : ExtractionDispatchPayload)

def AutoRequest.isSummary : AutoRequest → Bool
  | .summary _ _ => true
  | .extraction _ _ => false

def isSummarySourceTask (type : Text) : Bool :=
  type == taskTypeMediaParse || type == taskTypePdfParse

def uuidOf (resource : Option Resource) : Text := (resource.map Resource.uuid).getD []

def autoSummaryEnabled (resource : Option Resource) : Bool :=
  (resource.map Resource.autoSummary).getD true

def dispatchOnce {α : Type} (request : Text → α → AutoRequest) (skipped : Bool)
    (payload : Option α) (resourceUUID : Text) : List AutoRequest :=
  if skipped then []
  else
    match payload with
    | none => []
    | some payload => if resourceUUID = [] then [] else [request resourceUUID payload]

def dispatchAutoSummary (resource : Option Resource) (task : Task) (result : Option Text) :
    List AutoRequest :=
  dispatchOnce .summary (!isSummarySourceTask task.type || !autoSummaryEnabled resource)
    (buildSummaryPayload task (uuidOf resource) result true) (uuidOf resource)

def dispatchAutoExtraction (resource : Option Resource) (task : Task) (result : Option Text) :
    List AutoRequest :=
  dispatchOnce .extraction (!isSummarySourceTask task.type)
    (buildExtractionPayload task (uuidOf resource) result true) (uuidOf resource)

structure Sent where
  task : ℕ
  request : AutoRequest

def requests (resource : Option Resource) (task : Task) (result : Option Text) : List Sent :=
  (dispatchAutoSummary resource task result ++ dispatchAutoExtraction resource task result).map
    (Sent.mk task.id)

/-- What `ProcessInternalStatusUpdate` sends after it has applied the report; the task and its
resource are those that it read before. -/
def autoDispatches (s : Gateway) (e : Event) : List Sent :=
  match e.op with
  | .status uuid body =>
    match bindStatus body, getByUUID s e.io uuid with
    | some update, .ok task =>
      match checkStatusUpdate update task, e.io.writeTask with
      | .ok _, none =>
        if update.status = .completed then
          requests (s.resources.row task.resourceID) task update.result
        else []
      | _, _ => []
    | _, _ => []
  | _ => []

/-- `Trigger`: what is sent for the latest completed task of the resource. -/
def trigger (s : Gateway) (userID : ℕ) (resourceUUID : Text) : Except AppError AutoRequest :=
  match resourceByUUIDAndUserID s resourceUUID userID with
  | none => .error ⟨404, "RESOURCE_NOT_FOUND", "resource not found"⟩
  | some resource =>
    match getLatestCompletedByResourceID s.tasks resource.id with
    | none => .error ⟨409, "SUMMARY_SOURCE_NOT_READY", "resource processing is not completed"⟩
    | some task =>
      match buildSummaryPayload task resource.uuid task.result false with
      | none => .error ⟨409, "SUMMARY_SOURCE_NOT_READY", "summary source is not ready"⟩
      | some payload =>
        if resource.uuid = [] then .error (internal "internal server error")
        else .ok (.summary resource.uuid payload)

def sentFor (s : Gateway) : Option (TaskRecords.Task × TaskWrite) → List Sent
  | some (task, .setStatus .completed _ result _ _) =>
    requests (s.resources.row task.resourceID) task result
  | _ => []

theorem sentFor_open {s : Gateway} {task : TaskRecords.Task} {status : TaskStatus}
    {progress : UInt8} {result : Option Text} {errMsg : Text} {attempt : Option UInt8}
    (still : status ≠ .completed) :
    sentFor s (some (task, .setStatus status progress result errMsg attempt)) = [] := by
  cases status with
  | completed => exact absurd rfl still
  | pending | running | failed => rfl

/-- Something is sent only when a running task is completed by a report. -/
theorem autoDispatches_eq (cfg : ServiceConfig) (s : Gateway) (e : Event) :
    autoDispatches s e = sentFor s (accepted cfg s e) := by
  obtain ⟨op, io⟩ := e
  unfold autoDispatches accepted
  cases fault : io.writeTask with
  | some cause =>
    cases op with
    | upload | create | retry | progress => rfl
    | status uuid body =>
      dsimp only
      split
      · rename_i update task _ _
        cases checkStatusUpdate update task <;> rfl
      · rfl
  | none =>
    cases op with
    | upload | create => rfl
    | retry userID uuid =>
      dsimp only
      cases issues : issued cfg s io (.retry userID uuid) with
      | none => rfl
      | some tw =>
        obtain ⟨-, ⟨_, _, _, checked⟩ | ⟨_, _, _, op, -⟩ | ⟨_, _, _, op, -⟩⟩ := issued_spec issues
        · rw [← Prod.eta tw, (checkRetry_ok checked).2]
          rfl
        · cases op
        · cases op
    | progress uuid body =>
      dsimp only
      cases issues : issued cfg s io (.progress uuid body) with
      | none => rfl
      | some tw =>
        obtain ⟨-, ⟨_, _, op, -⟩ | ⟨_, _, _, -, -, checked⟩ | ⟨_, _, _, op, -⟩⟩ :=
          issued_spec issues
        · cases op
        · rw [← Prod.eta tw, (checkProgress_ok checked).2]
          rfl
        · cases op
    | status uuid body =>
      dsimp only [issued]
      cases bound : bindStatus body with
      | none => rfl
      | some update =>
        cases read : getByUUID s io uuid with
        | error err => rfl
        | ok task =>
          dsimp only
          cases checked : checkStatusUpdate update task with
          | error err => rfl
          | ok w =>
            obtain ⟨-, rfl⟩ := checkStatusUpdate_ok checked
            dsimp only [Except.toOption, Option.map_some]
            by_cases completed : update.status = .completed
            · rw [if_pos completed, completed]
              rfl
            · rw [if_neg completed, sentFor_open completed]

def Sent.about (summary : Bool) (k : ℕ) (sent : Sent) : Bool :=
  sent.task == k && sent.request.isSummary == summary

theorem count_other {summary : Bool} {k : ℕ} {resource : Option Resource} {task : TaskRecords.Task}
    {result : Option Text} (other : task.id ≠ k) :
    (requests resource task result).countP (Sent.about summary k) = 0 := by
  refine List.countP_eq_zero.mpr fun sent mem about => ?_
  obtain ⟨request, -, rfl⟩ := List.mem_map.mp mem
  rw [Sent.about, beq_eq_false_iff_ne.mpr other, Bool.false_and] at about
  exact Bool.false_ne_true about

theorem dispatchOnce_kind {α : Type} {request : Text → α → AutoRequest} {summary : Bool}
    (kind : ∀ uuid payload, (request uuid payload).isSummary = summary) {skipped : Bool}
    {payload : Option α} {resourceUUID : Text} :
    (dispatchOnce request skipped payload resourceUUID).length ≤ 1 ∧
      ∀ sent ∈ dispatchOnce request skipped payload resourceUUID, sent.isSummary = summary := by
  unfold dispatchOnce
  split
  · exact ⟨Nat.zero_le _, fun sent mem => absurd mem List.not_mem_nil⟩
  · split
    · exact ⟨Nat.zero_le _, fun sent mem => absurd mem List.not_mem_nil⟩
    · split
      · exact ⟨Nat.zero_le _, fun sent mem => absurd mem List.not_mem_nil⟩
      · refine ⟨Nat.le_refl _, fun sent mem => ?_⟩
        rw [List.mem_singleton.mp mem]
        exact kind _ _

theorem count_once (summary : Bool) (k : ℕ) (resource : Option Resource) (task : TaskRecords.Task)
    (result : Option Text) : (requests resource task result).countP (Sent.about summary k) ≤ 1 := by
  have kind {request : AutoRequest} (about : Sent.about summary k ⟨task.id, request⟩ = true) :
      request.isSummary = summary := by
    rw [Sent.about, Bool.and_eq_true, beq_iff_eq (a := request.isSummary)] at about
    exact about.2
  obtain ⟨summaries, first⟩ : (dispatchAutoSummary resource task result).length ≤ 1 ∧
      ∀ request ∈ dispatchAutoSummary resource task result, request.isSummary = true :=
    @dispatchOnce_kind _ .summary true (fun _ _ => rfl) _ _ _
  obtain ⟨extractions, second⟩ : (dispatchAutoExtraction resource task result).length ≤ 1 ∧
      ∀ request ∈ dispatchAutoExtraction resource task result, request.isSummary = false :=
    @dispatchOnce_kind _ .extraction false (fun _ _ => rfl) _ _ _
  rw [requests, List.countP_map, List.countP_append]
  cases summary with
  | true =>
    have none : (dispatchAutoExtraction resource task result).countP
        (Sent.about true k ∘ Sent.mk task.id) = 0 :=
      List.countP_eq_zero.mpr fun request mem about => by
        have both := (second request mem).symm.trans (kind about)
        cases both
    rw [none]
    exact List.countP_le_length.trans summaries
  | false =>
    have none : (dispatchAutoSummary resource task result).countP
        (Sent.about false k ∘ Sent.mk task.id) = 0 :=
      List.countP_eq_zero.mpr fun request mem about => by
        have both := (first request mem).symm.trans (kind about)
        cases both
    rw [none, Nat.zero_add]
    exact List.countP_le_length.trans extractions

structure Tracked where
  gateway : Gateway
  sent : List Sent
  retries : ℕ → ℕ

def retriesAfter (retries : ℕ → ℕ) : Option (TaskRecords.Task × TaskWrite) → ℕ → ℕ
  | some (t, .reset) => Function.update retries t.id (retries t.id + 1)
  | _ => retries

def track (cfg : ServiceConfig) (s : Tracked) (e : Event) : Tracked where
  gateway := step cfg s.gateway e
  sent := s.sent ++ autoDispatches s.gateway e
  retries := retriesAfter s.retries (accepted cfg s.gateway e)

def credit (tasks : Tasks) (k : ℕ) : ℕ :=
  if tasks.rows.any fun t => t.id == k && t.status == .completed then 1 else 0

theorem credit_le (tasks : Tasks) (k : ℕ) : credit tasks k ≤ 1 := by
  unfold credit
  split <;> decide

theorem credit_completed {tasks : Tasks} {t : TaskRecords.Task} (mem : t ∈ tasks.rows)
    (completed : t.status = .completed) : credit tasks t.id = 1 := by
  refine if_pos (List.any_eq_true.mpr ⟨t, mem, ?_⟩)
  rw [completed, beq_self_eq_true]
  rfl

theorem credit_open {tasks : Tasks} {t : TaskRecords.Task} (mem : t ∈ tasks.rows)
    (still : t.status ≠ .completed) : credit tasks t.id = 0 := by
  refine if_neg fun found => ?_
  obtain ⟨other, there, law⟩ := List.any_eq_true.mp found
  rw [Bool.and_eq_true, beq_iff_eq, beq_iff_eq] at law
  exact still (Table.eq_of_key there mem law.1 ▸ law.2)

theorem credit_mono {tasks after : Tasks} {k : ℕ}
    (kept : ∀ t ∈ tasks.rows, t.id = k → t ∈ after.rows) : credit tasks k ≤ credit after k := by
  by_cases found : (tasks.rows.any fun t => t.id == k && t.status == .completed) = true
  · obtain ⟨t, there, law⟩ := List.any_eq_true.mp found
    rw [Bool.and_eq_true, beq_iff_eq, beq_iff_eq] at law
    rw [← law.1, credit_completed (kept t there law.1) law.2]
    exact credit_le tasks t.id
  · have none : credit tasks k = 0 := if_neg found
    rw [none]
    exact Nat.zero_le _

/-- What was sent about a task is paid for by its retries and its completion. -/
def Balanced (summary : Bool) (s : Tracked) : Prop :=
  ∀ k, s.sent.countP (Sent.about summary k) ≤ s.retries k + credit s.gateway.tasks k

theorem inserted_kept {tasks after : Tasks} {now : ℤ} (inserted : Inserted tasks now after)
    {t : TaskRecords.Task} (mem : t ∈ tasks.rows) : t ∈ after.rows := by
  cases inserted with
  | fresh uuid resourceID userID type => exact mem_insertTask.mpr (.inl mem)
  | undispatched uuid resourceID userID type errMsg =>
    refine mem_execute.mpr ⟨t, mem_insertTask.mpr (.inl mem), ?_⟩
    rw [if_neg (Nat.ne_of_lt (tasks.below t mem))]

theorem execute_kept {tasks : Tasks} {id : ℕ} {w : TaskWrite} {now : ℤ} {t : TaskRecords.Task}
    (mem : t ∈ tasks.rows) (other : t.id ≠ id) : t ∈ (execute tasks id w now).rows :=
  mem_execute.mpr ⟨t, mem, by rw [if_neg other]⟩

theorem count_accepted {s : Gateway} {t : TaskRecords.Task} (w : TaskWrite) {summary : Bool}
    {k : ℕ} (other : t.id ≠ k) : (sentFor s (some (t, w))).countP (Sent.about summary k) = 0 := by
  cases w with
  | setStatus status progress result errMsg attempt =>
    cases status with
    | completed => exact count_other other
    | pending | running | failed => rfl
  | setProgress | reset => rfl

theorem retriesAfter_other {retries : ℕ → ℕ} {t : TaskRecords.Task} {w : TaskWrite} {k : ℕ}
    (other : t.id ≠ k) : retriesAfter retries (some (t, w)) k = retries k := by
  cases w with
  | setStatus status progress result errMsg attempt => rfl
  | setProgress progress => rfl
  | reset => exact Function.update_of_ne (Ne.symm other) _ _

theorem balanced_accepted {cfg : ServiceConfig} {s : Gateway} {e : Event} {t : TaskRecords.Task}
    {w : TaskWrite} (takes : accepted cfg s e = some (t, w)) (summary : Bool) (retries : ℕ → ℕ) :
    retries t.id + credit s.tasks t.id +
        (sentFor s (some (t, w))).countP (Sent.about summary t.id) ≤
      retriesAfter retries (some (t, w)) t.id +
        credit (execute s.tasks t.id w e.io.now) t.id := by
  have stored := accepted_stored takes
  have written : w.apply e.io.now t ∈ (execute s.tasks t.id w e.io.now).rows :=
    mem_execute.mpr ⟨t, stored, by rw [if_pos rfl]⟩
  rcases (issued_spec (accepted_issued takes)).2 with
    ⟨_, _, -, checked⟩ | ⟨_, _, p, -, -, checked⟩ | ⟨_, _, update, -, -, checked⟩
  · obtain ⟨-, rfl⟩ := checkRetry_ok checked
    have paid : retriesAfter retries (some (t, .reset)) t.id = retries t.id + 1 :=
      Function.update_self _ _ _
    have credit := credit_le s.tasks t.id
    have nothing : (sentFor s (some (t, .reset))).countP (Sent.about summary t.id) = 0 := rfl
    omega
  · obtain ⟨running, rfl⟩ := checkProgress_ok checked
    rw [credit_open stored (by rw [running]; decide)]
    exact Nat.le_add_right _ _
  · obtain ⟨allowed, rfl⟩ := checkStatusUpdate_ok checked
    have still : t.status ≠ .completed := by
      intro completed
      rw [completed] at allowed
      cases allowed
    rw [credit_open stored still]
    by_cases completed : update.status = .completed
    · have after := credit_completed written (by rw [TaskWrite.apply_status]; exact completed)
      rw [TaskWrite.apply_id] at after
      rw [after, completed]
      exact Nat.add_le_add_left (count_once summary t.id _ t update.result) _
    · rw [sentFor_open completed]
      exact Nat.le_add_right _ _

theorem balanced_step (cfg : ServiceConfig) (summary : Bool) (s : Tracked) (e : Event)
    (balanced : Balanced summary s) : Balanced summary (track cfg s e) := by
  intro k
  have before := balanced k
  unfold track
  dsimp only
  rw [List.countP_append, autoDispatches_eq cfg]
  rcases step_tasks cfg s.gateway e with ⟨t, w, takes, tasks⟩ | ⟨nothing, tasks⟩
  · rw [takes, tasks]
    by_cases mine : t.id = k
    · subst mine
      have step := balanced_accepted takes summary s.retries
      omega
    · have kept : credit s.gateway.tasks k ≤
          credit (execute s.gateway.tasks t.id w e.io.now) k :=
        credit_mono fun r there same =>
          execute_kept there fun equal => mine (equal.symm.trans same)
      rw [count_accepted w mine, retriesAfter_other mine]
      omega
  · have kept : credit s.gateway.tasks k ≤ credit (step cfg s.gateway e).tasks k := by
      refine credit_mono fun r there _ => ?_
      rcases tasks with same | inserted
      · rw [same]
        exact there
      · exact inserted_kept inserted there
    rw [nothing]
    exact before.trans (Nat.add_le_add_left kept _)

/-- However often workers report a completion, the gateway asks for one summary and one
extraction of a task, and for one more of each after every retry of the user. -/
theorem auto_once (cfg : ServiceConfig) (s : Gateway) (es : List Event) (summary : Bool) (k : ℕ) :
    let run := exec (track cfg) ⟨s, [], fun _ => 0⟩ es
    run.sent.countP (Sent.about summary k) ≤ run.retries k + credit run.gateway.tasks k := by
  have start : Balanced summary ⟨s, [], fun _ => 0⟩ := fun k => Nat.zero_le _
  exact (everyState_of_invariant (balanced_step cfg summary) es start).last k

/-- Resources are only added, none changes in what a dispatch reads, and tasks are created for
stored resources only. -/
structure Follows (s s' : Gateway) : Prop where
  next : s.resources.next ≤ s'.resources.next
  kept : ∀ r ∈ s'.resources.rows, r.id < s.resources.next → ∃ r₀ ∈ s.resources.rows,
    r₀.id = r.id ∧ r₀.uuid = r.uuid ∧ r₀.autoSummary = r.autoSummary
  placed : ∀ t ∈ s'.tasks.rows, (∃ t₀ ∈ s.tasks.rows, t₀.resourceID = t.resourceID) ∨
    t.resourceID < s'.resources.next

theorem Follows.of_same {s s' : Gateway} (resources : s'.resources = s.resources)
    (tasks : s'.tasks = s.tasks) : Follows s s' where
  next := by rw [resources]
  kept r mem _ := ⟨r, resources ▸ mem, rfl, rfl, rfl⟩
  placed t mem := .inl ⟨t, tasks ▸ mem, rfl⟩

theorem Follows.trans {a b c : Gateway} (ab : Follows a b) (bc : Follows b c) : Follows a c where
  next := ab.next.trans bc.next
  kept r mem old := by
    obtain ⟨r₁, there, id₁, uuid₁, auto₁⟩ := bc.kept r mem (old.trans_le ab.next)
    obtain ⟨r₀, here, id₀, uuid₀, auto₀⟩ := ab.kept r₁ there (id₁ ▸ old)
    exact ⟨r₀, here, id₀.trans id₁, uuid₀.trans uuid₁, auto₀.trans auto₁⟩
  placed t mem := by
    rcases bc.placed t mem with ⟨t₁, there, same⟩ | stored
    · rcases ab.placed t₁ there with ⟨t₀, here, same'⟩ | stored
      · exact .inl ⟨t₀, here, same'.trans same⟩
      · exact .inr (same ▸ stored.trans_le bc.next)
    · exact .inr stored

theorem writeTask_follows {s s' : Gateway} {io : GatewayIO} {id : ℕ} {w : TaskWrite}
    {result : Except String Unit} (h : writeTask s io id w = (result, s')) : Follows s s' := by
  unfold writeTask at h
  split at h
  · obtain ⟨-, rfl⟩ := Prod.mk.inj h
    exact .of_same rfl rfl
  · obtain ⟨-, rfl⟩ := Prod.mk.inj h
    refine ⟨le_rfl, fun r mem _ => ⟨r, mem, rfl, rfl, rfl⟩, fun t mem => .inl ?_⟩
    obtain ⟨t₀, there, rfl⟩ := mem_execute.mp mem
    refine ⟨t₀, there, ?_⟩
    split
    · rw [TaskWrite.apply_resourceID]
    · rfl

theorem setResourceStatus_follows (s : Gateway) (io : GatewayIO) (id : ℕ) (status : UInt8) :
    Follows s (setResourceStatus s io id status) := by
  unfold setResourceStatus
  split
  · exact .of_same rfl rfl
  · refine ⟨le_rfl, fun r mem _ => ?_, fun t mem => .inl ⟨t, mem, rfl⟩⟩
    obtain ⟨r₀, there, rfl⟩ := List.mem_map.mp mem
    refine ⟨r₀, there, ?_⟩
    unfold Table.touch
    split <;> exact ⟨rfl, rfl, rfl⟩

theorem createTask_follows {s s' : Gateway} {io : GatewayIO} {resourceID userID : ℕ} {type : Text}
    {result : Except String TaskRecords.Task} (stored : resourceID < s.resources.next)
    (h : createTask s io resourceID userID type = (result, s')) : Follows s s' := by
  cases result with
  | error cause =>
    obtain rfl := createTask_error h
    exact .of_same rfl rfl
  | ok task =>
    obtain ⟨-, -, rfl⟩ := createTask_ok h
    refine ⟨le_rfl, fun r mem _ => ⟨r, mem, rfl, rfl, rfl⟩, fun t mem => ?_⟩
    rcases mem_insertTask.mp mem with old | rfl
    · exact .inl ⟨t, old, rfl⟩
    · exact .inr stored

theorem createResource_follows {s s' : Gateway} {io : GatewayIO} {make : ℕ → Resource}
    {keyed : ∀ n, (make n).id = n} {result : Except String Resource}
    (h : createResource s io make keyed = (result, s')) :
    Follows s s' ∧ ∀ resource, result = .ok resource → resource.id < s'.resources.next := by
  unfold createResource at h
  split at h
  · obtain ⟨rfl, rfl⟩ := Prod.mk.inj h
    exact ⟨.of_same rfl rfl, fun resource is => by cases is⟩
  · dsimp only at h
    split at h
    · obtain ⟨rfl, rfl⟩ := Prod.mk.inj h
      exact ⟨.of_same rfl rfl, fun resource is => by cases is⟩
    · obtain ⟨rfl, rfl⟩ := Prod.mk.inj h
      refine ⟨⟨Nat.le_succ _, fun r mem old => ?_, fun t mem => .inl ⟨t, mem, rfl⟩⟩, ?_⟩
      · rcases (@Table.mem_insert _ _ s.resources make keyed r).mp mem with there | rfl
        · exact ⟨r, there, rfl, rfl, rfl⟩
        · rw [keyed] at old
          exact absurd old (Nat.lt_irrefl _)
      · rintro resource is
        rw [← Except.ok.inj is, keyed]
        exact Nat.lt_succ_self _

theorem dispatchTask_follows {cfg : ServiceConfig} {s s' : Gateway} {io : GatewayIO}
    {task : TaskRecords.Task} {resource : Option Resource} {result : Except Err Unit}
    (h : dispatchTask cfg s io task resource = (result, s')) : Follows s s' := by
  obtain ⟨-, rfl⟩ := Prod.mk.inj h
  exact .of_same rfl rfl

theorem upload_follows (cfg : ServiceConfig) (s : Gateway) (io : GatewayIO) (req : UploadRequest) :
    Follows s (upload cfg s io req).2 := by
  have removed (s : Gateway) (key : Text) : Follows s (FileService.removeObject s io key) :=
    .of_same (removeObject_resources s io key) (removeObject_tasks s io key)
  unfold upload
  split
  · exact .of_same rfl rfl
  · split
    · exact .of_same rfl rfl
    · rename_i header _ _
      dsimp only
      have put (key : Text) : Follows s { s with objects := s.objects ++ [key] } := .of_same rfl rfl
      split
      · rename_i failed
        exact ((put _).trans (createResource_follows failed).1).trans (removed _ _)
      · rename_i resource s₁ created
        obtain ⟨grown, stored⟩ := createResource_follows created
        have before := (put _).trans grown
        split
        · rename_i failed
          exact (before.trans (createTask_follows (stored resource rfl) failed)).trans (removed _ _)
        · rename_i task s₂ made
          have placed := before.trans (createTask_follows (stored resource rfl) made)
          split
          · refine placed.trans ?_
            unfold dispatchUpload
            split
            · rename_i sent
              exact dispatchTask_follows sent
            · rename_i sent
              exact (dispatchTask_follows sent).trans (writeTask_follows rfl)
          · exact placed

theorem create_follows (cfg : ServiceConfig) (s : Gateway) (io : GatewayIO) (userID : ℕ)
    (req : CreateTaskRequest) : Follows s (create cfg s io userID req).2 := by
  unfold create
  split
  · exact .of_same rfl rfl
  · rename_i resource resolved
    have stored : resource.id < s.resources.next := by
      refine s.resources.below resource ?_
      unfold resolveResource at resolved
      repeat' split at resolved
      all_goals cases resolved
      rename_i found
      exact Table.mem_of_first found
    split
    · rename_i failed
      exact createTask_follows stored failed
    · rename_i task s' made
      have placed := createTask_follows stored made
      split
      · exact placed.trans (dispatchTask_follows rfl)
      · exact placed

theorem retry_follows (cfg : ServiceConfig) (s : Gateway) (io : GatewayIO) (userID : ℕ)
    (uuid : Text) : Follows s (retry cfg s io userID uuid).2 := by
  unfold retry
  split
  · exact .of_same rfl rfl
  · split
    · exact .of_same rfl rfl
    · split
      · exact .of_same rfl rfl
      · split
        · rename_i failed
          exact writeTask_follows failed
        · rename_i done
          dsimp only
          split
          · split
            · rename_i sent
              exact (writeTask_follows done).trans (dispatchTask_follows sent)
            · rename_i sent
              exact (writeTask_follows done).trans (dispatchTask_follows sent)
          · exact writeTask_follows done

theorem updateProgress_follows (s : Gateway) (io : GatewayIO) (uuid : Text) (progress : UInt8) :
    Follows s (updateProgress s io uuid progress).2 := by
  unfold updateProgress
  split
  · exact .of_same rfl rfl
  · split
    · exact .of_same rfl rfl
    · split
      · exact .of_same rfl rfl
      · split
        · rename_i failed
          exact writeTask_follows failed
        · rename_i done
          exact (writeTask_follows done).trans (.of_same rfl rfl)

theorem processInternalStatusUpdate_follows (s : Gateway) (io : GatewayIO) (uuid : Text)
    (update : InternalStatusUpdate) :
    Follows s (processInternalStatusUpdate s io uuid update).2 := by
  unfold processInternalStatusUpdate
  split
  · exact .of_same rfl rfl
  · split
    · exact .of_same rfl rfl
    · split
      · rename_i failed
        exact writeTask_follows failed
      · rename_i done
        refine (writeTask_follows done).trans ?_
        unfold afterStatusUpdate
        dsimp only
        split
        · exact (setResourceStatus_follows _ _ _ _).trans (.of_same rfl rfl)
        · exact .of_same rfl rfl

theorem step_follows (cfg : ServiceConfig) (s : Gateway) (e : Event) :
    Follows s (step cfg s e) := by
  obtain ⟨op, io⟩ := e
  unfold step perform
  cases op with
  | upload req => exact upload_follows cfg s io req
  | create userID body =>
    dsimp only
    split
    · exact .of_same rfl rfl
    · exact create_follows cfg s io userID _
  | retry userID uuid => exact retry_follows cfg s io userID uuid
  | progress uuid body =>
    dsimp only
    split
    · exact .of_same rfl rfl
    · exact updateProgress_follows s io uuid _
  | status uuid body =>
    dsimp only
    split
    · exact .of_same rfl rfl
    · exact processInternalStatusUpdate_follows s io uuid _

theorem run_follows (cfg : ServiceConfig) (s : Gateway) (es : List Event) :
    Follows s (exec (step cfg) s es) := by
  induction es generalizing s with
  | nil => exact .of_same rfl rfl
  | cons e es ih => exact (step_follows cfg s e).trans (ih (step cfg s e))

variable {cfg : ServiceConfig} {s : Gateway} {es : List Event} {task : TaskRecords.Task}

theorem buildSummaryPayload_automatic {resourceUUID : Text} {result : Option Text}
    {payload : SummaryDispatchPayload}
    (built : buildSummaryPayload task resourceUUID result false = some payload) :
    isSummarySourceTask task.type = true ∧
      payload.taskID = taskIDOf "sum".toList resourceUUID false ∧
      buildSummaryPayload task resourceUUID result true =
        some { payload with taskID := taskIDOf "sum".toList resourceUUID true } := by
  unfold buildSummaryPayload at built ⊢
  cases read : payloadOf result with
  | none =>
    rw [read] at built
    cases built
  | some report =>
    rw [read] at built
    rw [Option.bind_some] at built ⊢
    dsimp only at built ⊢
    by_cases pdf : task.type = taskTypePdfParse
    · rw [if_pos pdf] at built ⊢
      rw [← Option.some.inj built, pdf]
      exact ⟨rfl, rfl, rfl⟩
    · rw [if_neg pdf] at built ⊢
      by_cases media : task.type = taskTypeMediaParse
      · rw [if_pos media] at built ⊢
        rw [← Option.some.inj built, media]
        exact ⟨rfl, rfl, rfl⟩
      · rw [if_neg media] at built
        cases built

theorem requests_summaries {resource : Resource} {result : Option Text}
    {payload : SummaryDispatchPayload} (named : resource.uuid ≠ [])
    (built : buildSummaryPayload task resource.uuid result false = some payload) :
    (requests (some resource) task result).filter (fun sent => sent.request.isSummary) =
      if resource.autoSummary = true then
        [⟨task.id, .summary resource.uuid
          { payload with taskID := taskIDOf "sum".toList resource.uuid true }⟩]
      else [] := by
  obtain ⟨parse, -, automatic⟩ := buildSummaryPayload_automatic built
  have extractions : (dispatchAutoExtraction (some resource) task result).filter
      ((fun sent => sent.request.isSummary) ∘ Sent.mk task.id) = [] :=
    List.filter_eq_nil_iff.mpr fun request mem summary => by
      have other : request.isSummary = false :=
        (@dispatchOnce_kind _ .extraction false (fun _ _ => rfl) _ _ _).2 request mem
      exact Bool.false_ne_true (other.symm.trans summary)
  rw [requests, List.filter_map, List.filter_append, extractions, List.append_nil]
  have uuid : uuidOf (some resource) = resource.uuid := rfl
  have enabled : autoSummaryEnabled (some resource) = resource.autoSummary := rfl
  unfold dispatchAutoSummary dispatchOnce
  rw [parse, enabled, uuid, automatic]
  dsimp only
  rw [if_neg named]
  cases resource.autoSummary <;> rfl

theorem issued_completed {io : GatewayIO} {op : Op} {w : TaskWrite} {now : ℤ}
    (issues : issued cfg s io op = some (task, w))
    (completed : (w.apply now task).status = .completed) :
    ∃ progress errMsg attempt,
      w = .setStatus .completed progress (w.apply now task).result errMsg attempt := by
  rw [TaskWrite.apply_status] at completed
  rcases (issued_spec issues).2 with ⟨_, _, -, checked⟩ | ⟨_, _, p, -, -, checked⟩ |
      ⟨_, _, update, -, -, checked⟩
  · rw [(checkRetry_ok checked).2] at completed
    cases completed
  · obtain ⟨running, rfl⟩ := checkProgress_ok checked
    rw [running] at completed
    cases completed
  · obtain ⟨-, rfl⟩ := checkStatusUpdate_ok checked
    have status : update.status = .completed := completed
    rw [status]
    refine ⟨reportedProgress task .completed, update.errorMessage, update.attemptCount, ?_⟩
    cases update.attemptCount <;> rfl

theorem requests_apply (resource : Option Resource) (w : TaskWrite) (now : ℤ)
    (result : Option Text) :
    requests resource (w.apply now task) result = requests resource task result := by
  simp only [requests, dispatchAutoSummary, dispatchAutoExtraction, buildSummaryPayload,
    buildExtractionPayload, TaskWrite.apply_type, TaskWrite.apply_id]

theorem completed_sent {before after : List Event} {e : Event}
    (by' : WrittenBy cfg s es task before e after) (completed : task.status = .completed) :
    autoDispatches (exec (step cfg) s before) e =
      requests ((exec (step cfg) s before).resources.row task.resourceID) task task.result := by
  obtain ⟨t, w, takes, rfl⟩ := by'.written
  obtain ⟨progress, errMsg, attempt, same⟩ := issued_completed (accepted_issued takes) completed
  rw [autoDispatches_eq cfg, takes, requests_apply, TaskWrite.apply_resourceID]
  rw [same]
  simp only [sentFor, ← same]

theorem resource_written (fresh : s.tasks.rows = []) {before after : List Event} {e : Event}
    (by' : WrittenBy cfg s es task before e after) {resource : Resource}
    (mem : resource ∈ (exec (step cfg) s es).resources.rows)
    (owned : task.resourceID = resource.id) :
    ∃ r₀, (exec (step cfg) s before).resources.row task.resourceID = some r₀ ∧
      r₀.uuid = resource.uuid ∧ r₀.autoSummary = resource.autoSummary := by
  obtain ⟨t, w, takes, rfl⟩ := by'.written
  rw [TaskWrite.apply_resourceID] at owned ⊢
  have placed : t.resourceID < (exec (step cfg) s before).resources.next := by
    rcases (run_follows cfg s before).placed t (accepted_stored takes) with ⟨t₀, there, -⟩ | stored
    · rw [fresh] at there
      exact absurd there List.not_mem_nil
    · exact stored
  have later : exec (step cfg) s es = exec (step cfg) (exec (step cfg) s before) (e :: after) := by
    rw [by'.split, exec, exec, exec, List.foldl_append]
  rw [later] at mem
  obtain ⟨r₀, there, id, uuid, auto⟩ := (run_follows cfg _ (e :: after)).kept resource mem
    (owned ▸ placed)
  exact ⟨r₀, by rw [owned, ← id, Table.row_of_mem there], uuid, auto⟩

/-- A summary that a user asks for is of the report that last completed a task of the resource,
and when that report came in the gateway had sent the same content for an automatic summary
exactly if the resource has them. -/
theorem trigger_repeats (fresh : s.tasks.rows = []) (es : List Event) {userID : ℕ}
    {resourceUUID : Text} {request : AutoRequest}
    (asked : trigger (exec (step cfg) s es) userID resourceUUID = .ok request) :
    ∃ resource ∈ (exec (step cfg) s es).resources.rows,
      (exec (step cfg) s es).resources.same resource.uuid resourceUUID = true ∧
      resource.userID = userID ∧
      ∃ payload, request = .summary resource.uuid payload ∧
        payload.taskID = taskIDOf "sum".toList resource.uuid false ∧
        ∃ task before e after, WrittenBy cfg s es task before e after ∧
          task.resourceID = resource.id ∧ task.status = .completed ∧
          (∀ other ∈ (exec (step cfg) s es).tasks.rows, other.resourceID = resource.id →
            other.status = .completed → LatestFirst task other) ∧
          (autoDispatches (exec (step cfg) s before) e).filter
              (fun sent => sent.request.isSummary) =
            if resource.autoSummary = true then
              [⟨task.id, .summary resource.uuid
                { payload with taskID := taskIDOf "sum".toList resource.uuid true }⟩]
            else [] := by
  unfold trigger at asked
  cases found : resourceByUUIDAndUserID (exec (step cfg) s es) resourceUUID userID with
  | none =>
    rw [found] at asked
    cases asked
  | some resource =>
    rw [found] at asked
    dsimp only at asked
    cases read : getLatestCompletedByResourceID (exec (step cfg) s es).tasks resource.id with
    | none =>
      rw [read] at asked
      cases asked
    | some task =>
      rw [read] at asked
      dsimp only at asked
      cases built : buildSummaryPayload task resource.uuid task.result false with
      | none =>
        rw [built] at asked
        cases asked
      | some payload =>
        rw [built] at asked
        dsimp only at asked
        by_cases named : resource.uuid = []
        · rw [if_pos named] at asked
          cases asked
        · rw [if_neg named] at asked
          obtain rfl := Except.ok.inj asked
          obtain ⟨⟨there, owned, completed⟩, latest⟩ := getLatest_spec read
          obtain ⟨before, e, after, by'⟩ := completed_written fresh es task there completed
          obtain ⟨mem, alike, own⟩ := resourceByUUIDAndUserID_spec found
          obtain ⟨r₀, row, uuid, auto⟩ := resource_written fresh by' mem owned
          have sent := requests_summaries (uuid ▸ named) (uuid ▸ built)
          rw [← row, ← completed_sent by' completed, uuid, auto] at sent
          exact ⟨resource, mem, alike, own, payload, rfl, (buildSummaryPayload_automatic built).2.1,
            task, before, e, after, by', owned, completed, latest, sent⟩

theorem trigger_lecture :
    (trigger (exec (step serviceConfig) oneResource parsedLecture) 1 lectureUUID).toOption.isSome =
      true := by
  decide +kernel

theorem trigger_repeats_lecture :
    ∃ request, trigger (exec (step serviceConfig) oneResource parsedLecture) 1 lectureUUID =
        .ok request ∧
      ∃ resource ∈ (exec (step serviceConfig) oneResource parsedLecture).resources.rows,
        (exec (step serviceConfig) oneResource parsedLecture).resources.same resource.uuid
          lectureUUID = true ∧
        ∃ payload, request = .summary resource.uuid payload ∧
          ∃ task before e after,
            WrittenBy serviceConfig oneResource parsedLecture task before e after ∧
              task.resourceID = resource.id ∧
              (autoDispatches (exec (step serviceConfig) oneResource before) e).filter
                  (fun sent => sent.request.isSummary) =
                if resource.autoSummary = true then
                  [⟨task.id, .summary resource.uuid
                    { payload with taskID := taskIDOf "sum".toList resource.uuid true }⟩]
                else [] := by
  have answered := trigger_lecture
  cases asked : trigger (exec (step serviceConfig) oneResource parsedLecture) 1 lectureUUID with
  | error e =>
    rw [asked] at answered
    cases answered
  | ok request =>
    obtain ⟨resource, mem, uuid, -, payload, same, -, task, before, e, after, by', owned, -, -,
      sent⟩ := trigger_repeats rfl parsedLecture asked
    exact ⟨request, rfl, resource, mem, uuid, payload, same, task, before, e, after, by', owned,
      sent⟩

end KnowledgeCompanion.AutoDispatch
