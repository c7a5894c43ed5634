import KnowledgeCompanion.GatewayRuns

/-! The status of a resource beside the status of its latest task, over runs of the gateway whose
database writes succeed. -/

namespace KnowledgeCompanion.ResourceStatus

open AppErrors KeyedTable TaskRecords TaskDispatcher TaskService FileService GuardedRun

/-- The number of a task status among the statuses of `resourceStatusLabel`. -/
def resourceStatusOf : TaskStatus → UInt8
  | .pending => 1
  | .running => 2
  | .completed => 3
  | .failed => 4

theorem resourceStatusOf_inj {a b : TaskStatus} (same : resourceStatusOf a = resourceStatusOf b) :
    a = b := by
  cases a <;> cases b <;> first | rfl | exact absurd same (by decide)

/-- The database writes of the request succeed. -/
structure Written (io : GatewayIO) : Prop where
  createResource : io.createResource = none
  writeResource : io.writeResource = none
  createTask : io.createTask = none
  writeTask : io.writeTask = none

instance (io : GatewayIO) : Decidable (Written io) :=
  decidable_of_iff (io.createResource = none ∧ io.writeResource = none ∧ io.createTask = none ∧
    io.writeTask = none) ⟨fun ⟨a, b, c, d⟩ => ⟨a, b, c, d⟩, fun ⟨a, b, c, d⟩ => ⟨a, b, c, d⟩⟩

structure Tracked where
  gateway : Gateway
  latest : ℕ → Option ℕ

def chosen (cfg : ServiceConfig) (s : Gateway) (e : GatewayRuns.Event) : Option Task :=
  match GatewayRuns.accepted cfg s e with
  | some (t, .reset) => some t
  | some _ => none
  | none => (GatewayRuns.step cfg s e).tasks.row s.tasks.next

def choose (t : Task) (latest : ℕ → Option ℕ) : ℕ → Option ℕ := fun resource =>
  if resource = t.resourceID then some t.id else latest resource

def step (cfg : ServiceConfig) (s : Tracked) (e : GatewayRuns.Event) : Tracked where
  gateway := GatewayRuns.step cfg s.gateway e
  latest :=
    match chosen cfg s.gateway e with
    | none => s.latest
    | some t => choose t s.latest

def noTasks : Tracked := ⟨GatewayRuns.noTasks, fun _ => none⟩

def Agrees (s : Tracked) : Prop :=
  ∀ r ∈ s.gateway.resources.rows, ∀ t ∈ s.gateway.tasks.rows,
    s.latest r.id = some t.id → r.status = resourceStatusOf t.status

instance (s : Tracked) : Decidable (Agrees s) := by
  unfold Agrees
  infer_instance

def storedUpload (s : Gateway) (io : GatewayIO) (req : UploadRequest) : Option FileHeader :=
  if io.putObject = none ∧
      (s.resources.first fun r => s.resources.same r.uuid io.resourceUUID).isSome = false ∧
      (byUUID s.tasks io.taskUUID).isSome = false then
    (validateUpload io req).toOption
  else none

def accepts : DispatchReply → Bool
  | .answered status _ _ => status == 202
  | _ => false

def Dispatched (io : GatewayIO) : Prop := io.resourceUUID ≠ [] ∧ accepts io.reply = true

instance (io : GatewayIO) : Decidable (Dispatched io) := inferInstanceAs (Decidable (_ ∧ _))

def createdFor (cfg : ServiceConfig) (s : Gateway) (io : GatewayIO) (userID : ℕ)
    (body : Option CreateTaskRequest) : Option Resource :=
  if (byUUID s.tasks io.taskUUID).isSome then none
  else (GatewayRuns.bindCreate body).bind fun req => (resolveResource cfg s io userID req).toOption

/-- A retried task is of a resource with the status of a pending one; a report is for the latest
task of its resource, or brings the status that the latest one has. -/
def Meets (s : Tracked) (t : Task) : TaskWrite → Prop
  | .reset => ∀ r ∈ s.gateway.resources.rows, r.id = t.resourceID → r.status = 1
  | .setStatus status _ _ _ _ =>
    ∀ other ∈ s.gateway.tasks.rows, s.latest t.resourceID = some other.id →
      other.id = t.id ∨ other.status = status
  | .setProgress _ => True

instance (s : Tracked) (t : Task) : (w : TaskWrite) → Decidable (Meets s t w)
  | .reset => inferInstanceAs (Decidable (∀ r ∈ _, _))
  | .setStatus _ _ _ _ _ => inferInstanceAs (Decidable (∀ other ∈ _, _))
  | .setProgress _ => .isTrue trivial

/-- An upload is dispatched, and another task is created only for a resource with the status of
a pending one. -/
def Orderly (cfg : ServiceConfig) (s : Tracked) (e : GatewayRuns.Event) : Prop :=
  match e.op with
  | .upload req => ∀ header ∈ storedUpload s.gateway e.io req,
      shouldAutoDispatch (detectTaskType header.contentType) = true → Dispatched e.io
  | .create userID body => ∀ r ∈ createdFor cfg s.gateway e.io userID body, r.status = 1
  | _ => ∀ tw ∈ GatewayRuns.accepted cfg s.gateway e, Meets s tw.1 tw.2

instance (cfg : ServiceConfig) (s : Tracked) : (e : GatewayRuns.Event) → Decidable (Orderly cfg s e)
  | ⟨.upload _, _⟩ => inferInstanceAs (Decidable (∀ header ∈ _, _))
  | ⟨.create _ _, _⟩ => inferInstanceAs (Decidable (∀ r ∈ _, _))
  | ⟨.progress _ _, _⟩ | ⟨.retry _ _, _⟩ | ⟨.status _ _, _⟩ =>
    inferInstanceAs (Decidable (∀ tw ∈ _, _))

theorem accepts_iff {cfg : DispatcherConfig} {io : GatewayIO} {task : Task} {resource : Resource}
    (uuid : resource.uuid = io.resourceUUID) (type : shouldAutoDispatch task.type = true) :
    (dispatch cfg io.reply task (some resource)).1 = .ok () ↔ Dispatched io := by
  unfold dispatch Dispatched
  rw [← uuid]
  by_cases blank : resource.uuid = []
  · have gone : (some resource).filter (fun r => r.uuid != []) = none := by simp [blank]
    rw [gone]
    exact iff_of_false (fun h => by cases h) fun h => h.1 blank
  · have there : (some resource).filter (fun r => r.uuid != []) = some resource := by simp [blank]
    rw [there]
    have built : ∃ message, buildDispatchRequest cfg task resource = .ok message := by
      unfold buildDispatchRequest
      rw [shouldAutoDispatch, Bool.or_eq_true, beq_iff_eq, beq_iff_eq] at type
      by_cases media : task.type = taskTypeMediaParse
      · exact ⟨_, if_pos media⟩
      · rw [if_neg media, if_pos (type.resolve_left media)]
        exact ⟨_, rfl⟩
    obtain ⟨message, built⟩ := built
    dsimp only
    rw [built]
    cases io.reply with
    | malformed cause => exact iff_of_false (fun h => by cases h) fun h => by cases h.2
    | unreachable queued => exact iff_of_false (fun h => by cases h) fun h => by cases h.2
    | answered status queued accepted =>
      dsimp only [accepts]
      by_cases ok : status = 202
      · rw [if_pos ok]
        exact iff_of_true rfl ⟨blank, beq_iff_eq.mpr ok⟩
      · rw [if_neg ok]
        refine iff_of_false (fun h => ?_) fun h => ok (beq_iff_eq.mp h.2)
        split at h <;> cases h

def uploadedTasks (s : Gateway) (io : GatewayIO) (req : UploadRequest) (header : FileHeader)
    (errMsg : Text) : Tasks :=
  let tasks := insertTask s.tasks io.taskUUID s.resources.next req.userID
    (detectTaskType header.contentType) io.now
  if shouldAutoDispatch (detectTaskType header.contentType) = true ∧ ¬ Dispatched io then
    execute tasks s.tasks.next (.setStatus .failed 0 none errMsg none) io.now
  else tasks

theorem dispatchUpload_spec (cfg : ServiceConfig) (s : Gateway) {io : GatewayIO} (task : Task)
    (resource : Resource) (written : Written io) :
    (dispatchUpload cfg s io task resource).resources = s.resources ∧
      ∃ errMsg, (dispatchUpload cfg s io task resource).tasks =
        if (dispatch cfg.dispatcher io.reply task (some resource)).1 = .ok () then s.tasks
        else execute s.tasks task.id (.setStatus .failed 0 none errMsg none) io.now := by
  unfold dispatchUpload dispatchTask
  dsimp only
  cases sent : (dispatch cfg.dispatcher io.reply task (some resource)).1 with
  | ok a => exact ⟨rfl, [], (if_pos rfl).symm⟩
  | error e =>
    dsimp only [writeTask]
    rw [written.writeTask]
    exact ⟨rfl, e.text.toList, (if_neg (fun h => by cases h)).symm⟩

theorem upload_stored {cfg : ServiceConfig} {s : Gateway} {io : GatewayIO} {req : UploadRequest}
    {header : FileHeader} (written : Written io) (stored : storedUpload s io req = some header) :
    (upload cfg s io req).2.resources =
        s.resources.insert (newResource req header io) (newResource_id req header io) ∧
      ∃ errMsg, (upload cfg s io req).2.tasks = uploadedTasks s io req header errMsg := by
  unfold storedUpload at stored
  split at stored
  · rename_i fresh
    obtain ⟨put, resource, task⟩ := fresh
    have valid : validateUpload io req = .ok header := by
      cases result : validateUpload io req with
      | error e => rw [result] at stored; cases stored
      | ok found => rw [result] at stored; rw [Option.some.inj stored]
    unfold upload
    rw [valid, put]
    dsimp only
    unfold createResource
    rw [written.createResource]
    dsimp only [newResource]
    rw [if_neg (by rw [resource]; exact Bool.false_ne_true)]
    dsimp only
    unfold createTask
    rw [written.createTask]
    dsimp only
    rw [if_neg (by rw [task]; exact Bool.false_ne_true)]
    dsimp only
    unfold uploadedTasks
    by_cases auto : shouldAutoDispatch (detectTaskType header.contentType) = true
    · rw [if_pos auto]
      obtain ⟨resources, errMsg, tasks⟩ := dispatchUpload_spec cfg
        { s with
          resources := s.resources.insert (newResource req header io) (newResource_id req header io)
          tasks := insertTask s.tasks io.taskUUID s.resources.next req.userID
            (detectTaskType header.contentType) io.now
          objects := s.objects ++ [storageKey req.userUUID io.resourceUUID header.filename] }
        (Task.new io.taskUUID s.resources.next req.userID (detectTaskType header.contentType)
          io.now s.tasks.next)
        (newResource req header io s.resources.next) written
      refine ⟨resources, errMsg, tasks.trans ?_⟩
      by_cases dispatched : Dispatched io
      · rw [if_pos ((accepts_iff (by rfl) auto).mpr dispatched),
          if_neg fun both => both.2 dispatched]
      · rw [if_neg fun ok => dispatched ((accepts_iff (by rfl) auto).mp ok),
          if_pos ⟨auto, dispatched⟩]
        rfl
    · rw [if_neg auto]
      exact ⟨rfl, [], (if_neg fun both => auto both.1).symm⟩
  · exact absurd stored.symm (Option.some_ne_none header)

theorem upload_unstored {cfg : ServiceConfig} {s : Gateway} {io : GatewayIO} {req : UploadRequest}
    (written : Written io) (unstored : storedUpload s io req = none) :
    (upload cfg s io req).2.tasks = s.tasks ∧
      ((upload cfg s io req).2.resources = s.resources ∨ ∃ header,
        (upload cfg s io req).2.resources =
          s.resources.insert (newResource req header io) (newResource_id req header io)) := by
  unfold upload
  cases valid : validateUpload io req with
  | error e => exact ⟨rfl, .inl rfl⟩
  | ok header =>
    dsimp only
    cases put : io.putObject with
    | some cause => exact ⟨rfl, .inl rfl⟩
    | none =>
      dsimp only
      unfold createResource
      rw [written.createResource]
      dsimp only [newResource]
      by_cases known :
          (s.resources.first fun r => s.resources.same r.uuid io.resourceUUID).isSome = true
      · rw [if_pos known]
        dsimp only
        rw [GatewayRuns.removeObject_tasks, GatewayRuns.removeObject_resources]
        exact ⟨rfl, .inl rfl⟩
      · rw [if_neg known]
        dsimp only
        unfold createTask
        rw [written.createTask]
        dsimp only
        by_cases taken : (byUUID s.tasks io.taskUUID).isSome = true
        · rw [if_pos taken]
          dsimp only
          rw [GatewayRuns.removeObject_tasks, GatewayRuns.removeObject_resources]
          exact ⟨rfl, .inr ⟨header, rfl⟩⟩
        · unfold storedUpload at unstored
          rw [if_pos ⟨put, Bool.eq_false_iff.mpr known, Bool.eq_false_iff.mpr taken⟩, valid]
            at unstored
          exact absurd unstored (Option.some_ne_none header)

theorem create_tables {cfg : ServiceConfig} {s : Gateway} {io : GatewayIO} {userID : ℕ}
    {body : Option CreateTaskRequest} (written : Written io) :
    (GatewayRuns.step cfg s ⟨.create userID body, io⟩).resources = s.resources ∧
      match createdFor cfg s io userID body with
      | none => (GatewayRuns.step cfg s ⟨.create userID body, io⟩).tasks = s.tasks
      | some r => r ∈ s.resources.rows ∧ ∃ type,
        (GatewayRuns.step cfg s ⟨.create userID body, io⟩).tasks =
          insertTask s.tasks io.taskUUID r.id userID type io.now := by
  unfold createdFor GatewayRuns.step GatewayRuns.perform
  dsimp only
  cases bound : GatewayRuns.bindCreate body with
  | none =>
    rw [Option.bind_none, ite_self]
    exact ⟨rfl, rfl⟩
  | some req =>
    rw [Option.bind_some]
    dsimp only
    unfold create
    cases resolved : resolveResource cfg s io userID req with
    | error e =>
      have none : (if (byUUID s.tasks io.taskUUID).isSome = true then none
          else (Except.error e : Except AppError Resource).toOption) = none := ite_self none
      rw [none]
      exact ⟨rfl, rfl⟩
    | ok r =>
      dsimp only
      unfold createTask
      rw [written.createTask]
      dsimp only
      by_cases taken : (byUUID s.tasks io.taskUUID).isSome = true
      · rw [if_pos taken, if_pos taken]
        exact ⟨rfl, rfl⟩
      · rw [if_neg taken, if_neg taken]
        dsimp only [Except.toOption]
        have there : r ∈ s.resources.rows := by
          unfold resolveResource at resolved
          split at resolved
          · cases resolved
          · split at resolved
            · cases resolved
            · split at resolved
              · cases resolved
              · split at resolved
                · cases resolved
                · rename_i found
                  exact Except.ok.inj resolved ▸ Table.mem_of_first found
        split
        · exact ⟨rfl, there, _, rfl⟩
        · exact ⟨rfl, there, _, rfl⟩

theorem accepted_eq {cfg : ServiceConfig} {s : Gateway} {e : GatewayRuns.Event}
    (written : Written e.io) :
    GatewayRuns.accepted cfg s e = GatewayRuns.issued cfg s e.io e.op := by
  unfold GatewayRuns.accepted
  rw [written.writeTask]

def reportedResources (s : Gateway) (now : ℤ) : Option (Task × TaskWrite) → Resources
  | some (t, .setStatus status _ _ _ _) =>
    s.resources.update t.resourceID
      (fun r => { r with status := resourceStatusOf status, updatedAt := now }) fun _ => rfl
  | _ => s.resources

theorem retry_resources (cfg : ServiceConfig) (s : Gateway) (io : GatewayIO) (userID : ℕ)
    (uuid : Text) (written : Written io) :
    (retry cfg s io userID uuid).2.resources = s.resources := by
  unfold retry
  split
  · rfl
  · split
    · rfl
    · split
      · rfl
      · unfold writeTask
        rw [written.writeTask]
        dsimp only [dispatchTask]
        split
        · split <;> rename_i sent <;> rw [← (Prod.mk.inj sent).2]
        · rfl

theorem updateProgress_resources (s : Gateway) (io : GatewayIO) (uuid : Text) (progress : UInt8)
    (written : Written io) : (updateProgress s io uuid progress).2.resources = s.resources := by
  unfold updateProgress
  split
  · rfl
  · split
    · rfl
    · split
      · rfl
      · unfold writeTask
        rw [written.writeTask]
        rfl

theorem status_resources (cfg : ServiceConfig) (s : Gateway) (io : GatewayIO) (uuid : Text)
    (body : Option GatewayRuns.UpdateStatusRequest) (update : InternalStatusUpdate)
    (bound : GatewayRuns.bindStatus body = some update) (written : Written io) :
    (processInternalStatusUpdate s io uuid update).2.resources =
      reportedResources s io.now (GatewayRuns.issued cfg s io (.status uuid body)) := by
  simp only [processInternalStatusUpdate, GatewayRuns.issued, bound]
  cases read : getByUUID s io uuid with
  | error e => rfl
  | ok task =>
    dsimp only
    cases check : checkStatusUpdate update task with
    | error e => rfl
    | ok w =>
      obtain ⟨allowed, rfl⟩ := checkStatusUpdate_ok check
      dsimp only [writeTask]
      rw [written.writeTask]
      dsimp only [afterStatusUpdate, publishEvent, Except.toOption, Option.map_some,
        reportedResources]
      have moved : update.status ≠ .pending := fun pending => by
        rw [pending, canTransition_pending] at allowed
        exact Bool.false_ne_true allowed
      have number : taskStatusToResourceStatus update.status = resourceStatusOf update.status ∧
          taskStatusToResourceStatus update.status ≠ 0 := by
        cases status : update.status with
        | pending => exact absurd status moved
        | running | completed | failed => exact ⟨rfl, by decide⟩
      rw [if_pos number.2, setResourceStatus, written.writeResource, number.1]

/-- A request that inserts nothing. -/
theorem update_tables {cfg : ServiceConfig} {s : Gateway} {e : GatewayRuns.Event}
    (written : Written e.io) (updates : e.op.inserts = false) :
    (GatewayRuns.step cfg s e).resources =
        reportedResources s e.io.now (GatewayRuns.accepted cfg s e) ∧
      (GatewayRuns.step cfg s e).tasks =
        match GatewayRuns.accepted cfg s e with
        | none => s.tasks
        | some (t, w) => execute s.tasks t.id w e.io.now := by
  have tasks := GatewayRuns.perform_tasks cfg s e.io updates
  rw [GatewayRuns.applied_accepted] at tasks
  refine ⟨?_, tasks⟩
  rw [accepted_eq written]
  obtain ⟨op, io⟩ := e
  unfold GatewayRuns.step GatewayRuns.perform
  have quiet {t : Task} {w : TaskWrite} (write : ∀ status progress result errMsg attempt,
      w ≠ .setStatus status progress result errMsg attempt) :
      reportedResources s io.now (some (t, w)) = s.resources := by
    cases w with
    | setStatus status progress result errMsg attempt =>
      exact absurd rfl (write status progress result errMsg attempt)
    | setProgress | reset => rfl
  cases op with
  | upload req => cases updates
  | create userID body => cases updates
  | retry userID uuid =>
    dsimp only
    rw [retry_resources cfg s io userID uuid written]
    cases issues : GatewayRuns.issued cfg s io (.retry userID uuid) with
    | none => rfl
    | some tw =>
      obtain ⟨-, ⟨_, _, _, check⟩ | ⟨_, _, _, op, -⟩ | ⟨_, _, _, op, -⟩⟩ :=
        GatewayRuns.issued_spec issues
      · rw [← Prod.eta tw, (checkRetry_ok check).2]
        rfl
      · cases op
      · cases op
  | progress uuid body =>
    dsimp only
    split
    · rename_i unbound
      simp only [GatewayRuns.issued, unbound]
      rfl
    · rename_i progress bound
      dsimp only
      rw [updateProgress_resources s io uuid progress written]
      cases issues : GatewayRuns.issued cfg s io (.progress uuid body) with
      | none => rfl
      | some tw =>
        obtain ⟨-, ⟨_, _, op, -⟩ | ⟨_, _, _, -, -, check⟩ | ⟨_, _, _, op, -⟩⟩ :=
          GatewayRuns.issued_spec issues
        · cases op
        · rw [← Prod.eta tw, (checkProgress_ok check).2]
          rfl
        · cases op
  | status uuid body =>
    dsimp only
    split
    · rename_i unbound
      simp only [GatewayRuns.issued, unbound]
      rfl
    · rename_i update bound
      exact status_resources cfg s io uuid body update bound written

/-- A latest task is stored and belongs to its resource; every task has a resource. -/
structure Linked (s : Tracked) : Prop where
  chosen : ∀ resource id, s.latest resource = some id →
    ∃ t ∈ s.gateway.tasks.rows, t.id = id ∧ t.resourceID = resource
  owned : ∀ t ∈ s.gateway.tasks.rows, ∃ r ∈ s.gateway.resources.rows, r.id = t.resourceID

/-- No task changes; at most a resource is stored. -/
structure Kept (s s' : Tracked) : Prop where
  tasks : s'.gateway.tasks = s.gateway.tasks
  latest : s'.latest = s.latest
  stays : ∀ r ∈ s.gateway.resources.rows, r ∈ s'.gateway.resources.rows
  stored : ∀ r ∈ s'.gateway.resources.rows,
    r ∈ s.gateway.resources.rows ∨ r.id = s.gateway.resources.next

/-- A task is stored, of a resource that is there or new. -/
structure Added (s s' : Tracked) (made : Task) : Prop where
  tasks : ∀ t, t ∈ s'.gateway.tasks.rows ↔ t ∈ s.gateway.tasks.rows ∨ t = made
  id : made.id = s.gateway.tasks.next
  latest : s'.latest = choose made s.latest
  stays : ∀ r ∈ s.gateway.resources.rows, r ∈ s'.gateway.resources.rows
  stored : ∀ r ∈ s'.gateway.resources.rows,
    r ∈ s.gateway.resources.rows ∨ r.id = made.resourceID
  owner : ∃ r ∈ s'.gateway.resources.rows, r.id = made.resourceID

/-- A stored task is written. -/
structure Changed (s s' : Tracked) (now : ℤ) (t : Task) (w : TaskWrite) : Prop where
  stored : t ∈ s.gateway.tasks.rows
  tasks : s'.gateway.tasks = execute s.gateway.tasks t.id w now
  latest : s'.latest = match w with
    | .reset => choose t s.latest
    | _ => s.latest
  resources : s'.gateway.resources = reportedResources s.gateway now (some (t, w))

theorem Linked.latest_old {s : Tracked} (linked : Linked s) {resource id : ℕ}
    (latest : s.latest resource = some id) :
    resource < s.gateway.resources.next ∧ id < s.gateway.tasks.next := by
  obtain ⟨t, mem, rfl, rfl⟩ := linked.chosen resource id latest
  obtain ⟨r, there, same⟩ := linked.owned t mem
  have below := s.gateway.resources.below r there
  rw [same] at below
  exact ⟨below, s.gateway.tasks.below t mem⟩

theorem Linked.latest_resource {s : Tracked} (linked : Linked s) {resource id : ℕ} {t : Task}
    (latest : s.latest resource = some id) (stored : t ∈ s.gateway.tasks.rows) (same : t.id = id) :
    t.resourceID = resource := by
  obtain ⟨other, mem, number, owner⟩ := linked.chosen resource id latest
  rw [Table.eq_of_key stored mem (same.trans number.symm)]
  exact owner

theorem Kept.linked {s s' : Tracked} (kept : Kept s s') (linked : Linked s) : Linked s' := by
  constructor
  · rw [kept.latest, kept.tasks]
    exact linked.chosen
  · rw [kept.tasks]
    intro t mem
    obtain ⟨r, there, same⟩ := linked.owned t mem
    exact ⟨r, kept.stays r there, same⟩

theorem Kept.agrees {s s' : Tracked} (kept : Kept s s') (linked : Linked s) (agrees : Agrees s) :
    Agrees s' := by
  intro r there t mem latest
  rw [kept.tasks] at mem
  rw [kept.latest] at latest
  rcases kept.stored r there with old | new
  · exact agrees r old t mem latest
  · have below := (linked.latest_old latest).1
    omega

theorem Added.linked {s s' : Tracked} {made : Task} (added : Added s s' made) (linked : Linked s) :
    Linked s' := by
  constructor
  · intro resource id latest
    rw [added.latest, choose] at latest
    by_cases here : resource = made.resourceID
    · rw [if_pos here] at latest
      exact ⟨made, (added.tasks made).mpr (.inr rfl), Option.some.inj latest, here.symm⟩
    · rw [if_neg here] at latest
      obtain ⟨t, mem, same⟩ := linked.chosen resource id latest
      exact ⟨t, (added.tasks t).mpr (.inl mem), same⟩
  · intro t mem
    rcases (added.tasks t).mp mem with old | rfl
    · obtain ⟨r, there, same⟩ := linked.owned t old
      exact ⟨r, added.stays r there, same⟩
    · exact added.owner

theorem Added.agrees_iff {s s' : Tracked} {made : Task} (added : Added s s' made)
    (linked : Linked s) (agrees : Agrees s) :
    Agrees s' ↔ ∀ r ∈ s'.gateway.resources.rows, r.id = made.resourceID →
      r.status = resourceStatusOf made.status := by
  constructor
  · intro after r there same
    refine after r there made ((added.tasks made).mpr (.inr rfl)) ?_
    rw [added.latest, choose, if_pos same]
  · intro here r there t mem latest
    rw [added.latest, choose] at latest
    by_cases same : r.id = made.resourceID
    · rw [if_pos same] at latest
      rcases (added.tasks t).mp mem with old | rfl
      · have below := s.gateway.tasks.below t old
        have number := Option.some.inj latest
        have id := added.id
        omega
      · exact here r there same
    · rw [if_neg same] at latest
      have old := (added.stored r there).resolve_right same
      rcases (added.tasks t).mp mem with stored | rfl
      · exact agrees r old t stored latest
      · have below := (linked.latest_old latest).2
        have id := added.id
        omega

/-- A resource after a report for a task of resource `k`. -/
def reportedRow (k : ℕ) (status : TaskStatus) (now : ℤ) (r : Resource) : Resource :=
  if r.id = k then { r with status := resourceStatusOf status, updatedAt := now } else r

theorem reportedRow_id (k : ℕ) (status : TaskStatus) (now : ℤ) (r : Resource) :
    (reportedRow k status now r).id = r.id := by
  unfold reportedRow
  split <;> rfl

theorem mem_reportedResources {s : Gateway} {now : ℤ} {t : Task} {status : TaskStatus}
    {progress : UInt8} {result : Option Text} {errMsg : Text} {attempt : Option UInt8}
    {r : Resource} :
    r ∈ (reportedResources s now
        (some (t, .setStatus status progress result errMsg attempt))).rows ↔
      ∃ r₀ ∈ s.resources.rows, reportedRow t.resourceID status now r₀ = r := by
  unfold reportedResources
  exact Table.mem_update

theorem Changed.keys {s s' : Tracked} {now : ℤ} {t : Task} {w : TaskWrite}
    (changed : Changed s s' now t w) {k : ℕ} (there : ∃ r ∈ s.gateway.resources.rows, r.id = k) :
    ∃ r ∈ s'.gateway.resources.rows, r.id = k := by
  rw [changed.resources]
  cases w with
  | setProgress | reset => exact there
  | setStatus status progress result errMsg attempt =>
    obtain ⟨r, mem, same⟩ := there
    exact ⟨reportedRow t.resourceID status now r, mem_reportedResources.mpr ⟨r, mem, rfl⟩,
      (reportedRow_id _ _ _ r).trans same⟩

theorem Changed.linked {s s' : Tracked} {now : ℤ} {t : Task} {w : TaskWrite}
    (changed : Changed s s' now t w) (linked : Linked s) : Linked s' := by
  have moved {t₀ : Task} (mem : t₀ ∈ s.gateway.tasks.rows) :
      ∃ t' ∈ s'.gateway.tasks.rows, t'.id = t₀.id ∧ t'.resourceID = t₀.resourceID := by
    rw [changed.tasks]
    refine ⟨_, mem_execute.mpr ⟨t₀, mem, rfl⟩, ?_⟩
    by_cases same : t₀.id = t.id
    · rw [if_pos same]
      exact ⟨w.apply_id now t₀, w.apply_resourceID now t₀⟩
    · rw [if_neg same]
      exact ⟨rfl, rfl⟩
  constructor
  · intro resource id latest
    have named : ∃ t₀ ∈ s.gateway.tasks.rows, t₀.id = id ∧ t₀.resourceID = resource := by
      rw [changed.latest] at latest
      cases w with
      | setStatus | setProgress => exact linked.chosen resource id latest
      | reset =>
        dsimp only [choose] at latest
        by_cases here : resource = t.resourceID
        · rw [if_pos here] at latest
          exact ⟨t, changed.stored, Option.some.inj latest, here.symm⟩
        · rw [if_neg here] at latest
          exact linked.chosen resource id latest
    obtain ⟨t₀, mem, rfl, rfl⟩ := named
    exact moved mem
  · intro t' mem
    rw [changed.tasks] at mem
    obtain ⟨t₀, old, rfl⟩ := mem_execute.mp mem
    have resource : (if t₀.id = t.id then w.apply now t₀ else t₀).resourceID = t₀.resourceID := by
      split
      · exact w.apply_resourceID now t₀
      · rfl
    rw [resource]
    exact changed.keys (linked.owned t₀ old)

theorem Changed.agrees_reset {s s' : Tracked} {now : ℤ} {t : Task}
    (changed : Changed s s' now t .reset) (linked : Linked s) (agrees : Agrees s) :
    Agrees s' ↔ Meets s t .reset := by
  have resources : s'.gateway.resources = s.gateway.resources := changed.resources
  have latest : s'.latest = choose t s.latest := changed.latest
  have reset : TaskWrite.apply now t .reset ∈ s'.gateway.tasks.rows := by
    rw [changed.tasks]
    exact mem_execute.mpr ⟨t, changed.stored, (if_pos rfl).symm⟩
  constructor
  · intro after r there same
    rw [← resources] at there
    refine after r there _ reset ?_
    rw [latest, choose, if_pos same]
    rfl
  · intro meets r there t' mem chosen
    rw [resources] at there
    rw [changed.tasks] at mem
    obtain ⟨t₀, old, rfl⟩ := mem_execute.mp mem
    rw [latest, choose] at chosen
    by_cases same : r.id = t.resourceID
    · rw [if_pos same] at chosen
      by_cases here : t₀.id = t.id
      · rw [if_pos here]
        exact meets r there same
      · rw [if_neg here] at chosen
        exact absurd (Option.some.inj chosen).symm here
    · rw [if_neg same] at chosen
      by_cases here : t₀.id = t.id
      · rw [if_pos here, TaskWrite.apply_id, here] at chosen
        exact absurd (linked.latest_resource chosen changed.stored rfl).symm same
      · rw [if_neg here] at chosen ⊢
        exact agrees r there t₀ old chosen

theorem Changed.agrees_setProgress {s s' : Tracked} {now : ℤ} {t : Task} {progress : UInt8}
    (changed : Changed s s' now t (.setProgress progress)) (agrees : Agrees s) : Agrees s' := by
  have resources : s'.gateway.resources = s.gateway.resources := changed.resources
  have latest : s'.latest = s.latest := changed.latest
  intro r there t' mem chosen
  rw [resources] at there
  rw [latest] at chosen
  rw [changed.tasks] at mem
  obtain ⟨t₀, old, rfl⟩ := mem_execute.mp mem
  by_cases here : t₀.id = t.id
  · rw [if_pos here] at chosen ⊢
    rw [TaskWrite.apply_id] at chosen
    rw [TaskWrite.apply_status]
    exact agrees r there t₀ old chosen
  · rw [if_neg here] at chosen ⊢
    exact agrees r there t₀ old chosen

theorem Changed.agrees_setStatus {s s' : Tracked} {now : ℤ} {t : Task} {status : TaskStatus}
    {progress : UInt8} {result : Option Text} {errMsg : Text} {attempt : Option UInt8}
    (changed : Changed s s' now t (.setStatus status progress result errMsg attempt))
    (linked : Linked s) (agrees : Agrees s) :
    Agrees s' ↔ Meets s t (.setStatus status progress result errMsg attempt) := by
  have latest : s'.latest = s.latest := changed.latest
  have resources : ∀ r, r ∈ s'.gateway.resources.rows ↔
      ∃ r₀ ∈ s.gateway.resources.rows, reportedRow t.resourceID status now r₀ = r := by
    rw [changed.resources]
    exact fun r => mem_reportedResources
  constructor
  · intro after other mem chosen
    by_cases here : other.id = t.id
    · exact .inl here
    · right
      obtain ⟨r, there, same⟩ := linked.owned t changed.stored
      have agreed := after _ ((resources _).mpr ⟨r, there, rfl⟩) other
        (by rw [changed.tasks]; exact mem_execute.mpr ⟨other, mem, (if_neg here).symm⟩)
        (by rw [reportedRow_id, same, latest]; exact chosen)
      rw [reportedRow, if_pos same] at agreed
      exact (resourceStatusOf_inj agreed).symm
  · intro meets r' there' t' mem' chosen
    obtain ⟨r, there, rfl⟩ := (resources r').mp there'
    rw [changed.tasks] at mem'
    obtain ⟨t₀, old, rfl⟩ := mem_execute.mp mem'
    rw [latest, reportedRow_id] at chosen
    by_cases same : r.id = t.resourceID
    · rw [reportedRow, if_pos same]
      rw [same] at chosen
      by_cases here : t₀.id = t.id
      · rw [if_pos here, TaskWrite.apply_status]
      · rw [if_neg here] at chosen ⊢
        rw [(meets t₀ old chosen).resolve_left here]
    · rw [reportedRow, if_neg same]
      by_cases here : t₀.id = t.id
      · rw [if_pos here, TaskWrite.apply_id, here] at chosen
        exact absurd (linked.latest_resource chosen changed.stored rfl).symm same
      · rw [if_neg here] at chosen ⊢
        exact agrees r there t₀ old chosen

theorem Changed.agrees_iff {s s' : Tracked} {now : ℤ} {t : Task} {w : TaskWrite}
    (changed : Changed s s' now t w) (linked : Linked s) (agrees : Agrees s) :
    Agrees s' ↔ Meets s t w := by
  cases w with
  | setStatus status progress result errMsg attempt => exact changed.agrees_setStatus linked agrees
  | setProgress progress => exact iff_of_true (changed.agrees_setProgress agrees) trivial
  | reset => exact changed.agrees_reset linked agrees

theorem row_insertTask (tasks : Tasks) (uuid : Text) (resourceID userID : ℕ) (type : Text)
    (now : ℤ) : (insertTask tasks uuid resourceID userID type now).row tasks.next =
      some (Task.new uuid resourceID userID type now tasks.next) :=
  Table.row_insert _ _

theorem step_update {cfg : ServiceConfig} {s : Tracked} {e : GatewayRuns.Event}
    (written : Written e.io) (updates : e.op.inserts = false) :
    Kept s (step cfg s e) ∧ GatewayRuns.accepted cfg s.gateway e = none ∨
      ∃ t w, GatewayRuns.accepted cfg s.gateway e = some (t, w) ∧
        Changed s (step cfg s e) e.io.now t w := by
  obtain ⟨resources, tasks⟩ := update_tables (s := s.gateway) written updates
  cases takes : GatewayRuns.accepted cfg s.gateway e with
  | none =>
    rw [takes] at resources tasks
    have resources : (step cfg s e).gateway.resources = s.gateway.resources := resources
    left
    refine ⟨⟨tasks, ?_, fun r mem => ?_, fun r mem => ?_⟩, rfl⟩
    · have none : chosen cfg s.gateway e = none := by
        unfold chosen
        rw [takes]
        dsimp only
        rw [tasks]
        exact Table.row_next
      simp only [step, none]
    · exact resources ▸ mem
    · exact .inl (resources ▸ mem)
  | some tw =>
    obtain ⟨t, w⟩ := tw
    rw [takes] at resources tasks
    right
    refine ⟨t, w, rfl, GatewayRuns.accepted_stored takes, tasks, ?_, resources⟩
    cases w <;> simp only [step, chosen, takes]

theorem step_create (cfg : ServiceConfig) (userID : ℕ) (body : Option CreateTaskRequest)
    {s : Tracked} {io : GatewayIO} (written : Written io) :
    match createdFor cfg s.gateway io userID body with
    | none => Kept s (step cfg s ⟨.create userID body, io⟩)
    | some r => r ∈ s.gateway.resources.rows ∧ ∃ made : Task,
      Added s (step cfg s ⟨.create userID body, io⟩) made ∧ made.resourceID = r.id ∧
        made.status = .pending := by
  obtain ⟨resources, tasks⟩ := create_tables (s := s.gateway)
    written
  have latest : chosen cfg s.gateway ⟨.create userID body, io⟩ =
      (GatewayRuns.step cfg s.gateway ⟨.create userID body, io⟩).tasks.row
        s.gateway.tasks.next := by
    unfold chosen
    rw [accepted_eq written]
    rfl
  cases target : createdFor cfg s.gateway io userID body with
  | none =>
    rw [target] at tasks
    dsimp only at tasks ⊢
    rw [tasks, Table.row_next] at latest
    refine ⟨tasks, by simp only [step, latest], fun r mem => ?_, fun r mem => ?_⟩
    · exact resources ▸ mem
    · exact .inl (resources ▸ mem)
  | some r =>
    rw [target] at tasks
    dsimp only at tasks ⊢
    obtain ⟨there, type, tasks⟩ := tasks
    rw [tasks, row_insertTask] at latest
    refine ⟨there, Task.new io.taskUUID r.id userID type io.now s.gateway.tasks.next,
      ⟨fun t => ?_, rfl, by simp only [step, latest], fun r mem => ?_, fun r mem => ?_, r, ?_, rfl⟩,
      rfl, rfl⟩
    · exact tasks ▸ mem_insertTask
    · exact resources ▸ mem
    · exact .inl (resources ▸ mem)
    · exact resources ▸ there

def uploadedStatus (io : GatewayIO) (header : FileHeader) : TaskStatus :=
  if shouldAutoDispatch (detectTaskType header.contentType) = true ∧ ¬ Dispatched io then .failed
  else .pending

theorem uploadedTasks_spec (s : Gateway) (io : GatewayIO) (req : UploadRequest)
    (header : FileHeader) (errMsg : Text) :
    ∃ made : Task, (uploadedTasks s io req header errMsg).row s.tasks.next = some made ∧
      (∀ t, t ∈ (uploadedTasks s io req header errMsg).rows ↔ t ∈ s.tasks.rows ∨ t = made) ∧
      made.id = s.tasks.next ∧ made.resourceID = s.resources.next ∧
      made.status = uploadedStatus io header := by
  unfold uploadedTasks uploadedStatus
  dsimp only
  by_cases lost : shouldAutoDispatch (detectTaskType header.contentType) = true ∧ ¬ Dispatched io
  · rw [if_pos lost, if_pos lost]
    refine ⟨TaskWrite.apply io.now (Task.new io.taskUUID s.resources.next req.userID
      (detectTaskType header.contentType) io.now s.tasks.next)
        (.setStatus .failed 0 none errMsg none),
      ?_, fun t => ?_, rfl, rfl, rfl⟩
    · exact (Table.first_update fun t => by rw [TaskWrite.apply_id]).trans
        ((congrArg _ (row_insertTask _ _ _ _ _ _)).trans (congrArg some (if_pos rfl)))
    · rw [mem_execute]
      constructor
      · rintro ⟨t₀, mem, rfl⟩
        rcases mem_insertTask.mp mem with old | rfl
        · have below := s.tasks.below t₀ old
          rw [if_neg (by omega)]
          exact .inl old
        · exact .inr (if_pos rfl)
      · rintro (old | rfl)
        · have below := s.tasks.below t old
          exact ⟨t, mem_insertTask.mpr (.inl old), (if_neg (by omega)).symm⟩
        · exact ⟨_, mem_insertTask.mpr (.inr rfl), (if_pos rfl).symm⟩
  · rw [if_neg lost, if_neg lost]
    exact ⟨_, row_insertTask _ _ _ _ _ _, fun t => mem_insertTask, rfl, rfl, rfl⟩

theorem step_upload (cfg : ServiceConfig) (req : UploadRequest) {s : Tracked} {io : GatewayIO}
    (written : Written io) :
    match storedUpload s.gateway io req with
    | none => Kept s (step cfg s ⟨.upload req, io⟩)
    | some header => ∃ made : Task, Added s (step cfg s ⟨.upload req, io⟩) made ∧
      made.status = uploadedStatus io header ∧
        ∀ r ∈ (step cfg s ⟨.upload req, io⟩).gateway.resources.rows, r.id = made.resourceID →
          r.status = 1 := by
  have latest : chosen cfg s.gateway ⟨.upload req, io⟩ =
      (upload cfg s.gateway io req).2.tasks.row s.gateway.tasks.next := by
    unfold chosen
    rw [accepted_eq written]
    rfl
  cases stored : storedUpload s.gateway io req with
  | none =>
    obtain ⟨tasks, resources⟩ := upload_unstored written stored
    rw [tasks, Table.row_next] at latest
    refine ⟨tasks, by simp only [step, latest], fun r mem => ?_, fun r mem => ?_⟩
    · rcases resources with same | ⟨header, more⟩
      · exact same ▸ mem
      · exact more ▸ Table.mem_insert.mpr (.inl mem)
    · rcases resources with same | ⟨header, more⟩
      · exact .inl (same ▸ mem)
      · refine (Table.mem_insert.mp (more ▸ mem)).imp_right fun new => ?_
        rw [new]
        rfl
  | some header =>
    obtain ⟨resources, errMsg, tasks⟩ := upload_stored written stored
    obtain ⟨made, row, rows, id, owner, status⟩ :=
      uploadedTasks_spec s.gateway io req header errMsg
    rw [tasks, row] at latest
    have split {r : Resource} (mem : r ∈ (step cfg s ⟨.upload req, io⟩).gateway.resources.rows) :
        r ∈ s.gateway.resources.rows ∨ r = newResource req header io s.gateway.resources.next :=
      Table.mem_insert.mp (resources ▸ mem)
    refine ⟨made, ⟨fun t => ?_, id, by simp only [step, latest], fun r mem => ?_, fun r mem => ?_,
      newResource req header io s.gateway.resources.next, ?_, owner.symm⟩, status,
      fun r mem same => ?_⟩
    · exact tasks ▸ rows t
    · exact resources ▸ Table.mem_insert.mpr (.inl mem)
    · exact (split mem).imp_right fun new => by rw [new, owner]; rfl
    · exact resources ▸ Table.mem_insert.mpr (.inr rfl)
    · rcases split mem with old | rfl
      · have below := s.gateway.resources.below r old
        omega
      · rfl

section Steps

variable {cfg : ServiceConfig} {s : Tracked} {e : GatewayRuns.Event}

theorem step_linked (written : Written e.io) (linked : Linked s) : Linked (step cfg s e) := by
  by_cases updates : e.op.inserts = false
  · rcases step_update written updates with ⟨kept, -⟩ | ⟨t, w, -, changed⟩
    · exact kept.linked linked
    · exact changed.linked linked
  · obtain ⟨op, io⟩ := e
    cases op with
    | upload req =>
      have shape := step_upload cfg req (s := s) written
      split at shape
      · exact shape.linked linked
      · obtain ⟨made, added, -⟩ := shape
        exact added.linked linked
    | create userID body =>
      have shape := step_create cfg userID body (s := s) written
      split at shape
      · exact shape.linked linked
      · obtain ⟨-, made, added, -⟩ := shape
        exact added.linked linked
    | retry userID uuid => exact absurd rfl updates
    | progress uuid body => exact absurd rfl updates
    | status uuid body => exact absurd rfl updates

theorem uploaded_agrees (io : GatewayIO) (header : FileHeader) :
    (1 : UInt8) = resourceStatusOf (uploadedStatus io header) ↔
      (shouldAutoDispatch (detectTaskType header.contentType) = true → Dispatched io) := by
  unfold uploadedStatus
  split
  · rename_i lost
    exact iff_of_false (by decide) fun sent => lost.2 (sent lost.1)
  · rename_i fine
    exact iff_of_true rfl fun auto => Classical.not_not.mp fun lost => fine ⟨auto, lost⟩

theorem update_agrees_iff (updates : e.op.inserts = false) (written : Written e.io)
    (linked : Linked s) (agrees : Agrees s) : Agrees (step cfg s e) ↔ Orderly cfg s e := by
  have orderly : Orderly cfg s e ↔
      ∀ tw ∈ GatewayRuns.accepted cfg s.gateway e, Meets s tw.1 tw.2 := by
    obtain ⟨op, io⟩ := e
    cases op with
    | upload req => cases updates
    | create userID body => cases updates
    | retry userID uuid => exact Iff.rfl
    | progress uuid body => exact Iff.rfl
    | status uuid body => exact Iff.rfl
  rw [orderly]
  rcases step_update (s := s) written updates with
    ⟨kept, quiet⟩ | ⟨t, w, takes, changed⟩
  · rw [quiet]
    exact iff_of_true (kept.agrees linked agrees) fun tw mem => absurd mem (by simp)
  · rw [takes, changed.agrees_iff linked agrees]
    constructor
    · intro meets tw mem
      rw [← Option.some.inj mem]
      exact meets
    · intro meets
      exact meets (t, w) rfl

theorem upload_agrees_iff {io : GatewayIO} {req : UploadRequest} (written : Written io)
    (linked : Linked s) (agrees : Agrees s) :
    Agrees (step cfg s ⟨.upload req, io⟩) ↔ Orderly cfg s ⟨.upload req, io⟩ := by
  have shape := step_upload cfg req (s := s) written
  unfold Orderly
  dsimp only
  cases stored : storedUpload s.gateway io req with
  | none =>
    rw [stored] at shape
    exact iff_of_true (shape.agrees linked agrees) fun header mem => absurd mem (by simp)
  | some header =>
    rw [stored] at shape
    obtain ⟨made, added, status, fresh⟩ := shape
    rw [added.agrees_iff linked agrees, status]
    constructor
    · intro same other mem
      rw [← Option.some.inj mem]
      obtain ⟨r, there, owner⟩ := added.owner
      exact (uploaded_agrees io header).mp ((fresh r there owner).symm.trans (same r there owner))
    · intro sent r there owner
      rw [fresh r there owner]
      exact (uploaded_agrees io header).mpr (sent header rfl)

theorem create_agrees_iff {io : GatewayIO} {userID : ℕ} {body : Option CreateTaskRequest}
    (written : Written io) (linked : Linked s) (agrees : Agrees s) :
    Agrees (step cfg s ⟨.create userID body, io⟩) ↔ Orderly cfg s ⟨.create userID body, io⟩ := by
  have shape := step_create cfg userID body (s := s) written
  unfold Orderly
  dsimp only
  cases target : createdFor cfg s.gateway io userID body with
  | none =>
    rw [target] at shape
    exact iff_of_true (shape.agrees linked agrees) fun r mem => absurd mem (by simp)
  | some r =>
    rw [target] at shape
    obtain ⟨there, made, added, owner, status⟩ := shape
    rw [added.agrees_iff linked agrees, status, owner]
    constructor
    · intro same other mem
      rw [← Option.some.inj mem]
      exact same r (added.stays r there) rfl
    · intro pending other mem here
      rw [Table.eq_of_key mem (added.stays r there) here]
      exact pending r rfl

theorem step_agrees_iff (written : Written e.io) (linked : Linked s) (agrees : Agrees s) :
    Agrees (step cfg s e) ↔ Orderly cfg s e := by
  obtain ⟨op, io⟩ := e
  cases op with
  | upload req => exact upload_agrees_iff written linked agrees
  | create userID body => exact create_agrees_iff written linked agrees
  | retry userID uuid => exact update_agrees_iff rfl written linked agrees
  | progress uuid body => exact update_agrees_iff rfl written linked agrees
  | status uuid body => exact update_agrees_iff rfl written linked agrees

end Steps

theorem noTasks_linked : Linked noTasks :=
  ⟨fun _ id latest => absurd latest.symm (Option.some_ne_none id),
    fun _ mem => absurd mem List.not_mem_nil⟩

theorem run_agrees_iff {cfg : ServiceConfig} {s : Tracked} {es : List GatewayRuns.Event}
    (written : ∀ e ∈ es, Written e.io) (linked : Linked s) (agrees : Agrees s) :
    EveryState (step cfg) Agrees s es ↔ EveryStep (step cfg) (Orderly cfg) s es := by
  induction es generalizing s with
  | nil => exact iff_of_true agrees trivial
  | cons e es ih =>
    have here : Written e.io := written e List.mem_cons_self
    have rest : ∀ f ∈ es, Written f.io := fun f mem => written f (List.mem_cons_of_mem e mem)
    have next : Agrees (step cfg s e) ↔ Orderly cfg s e := step_agrees_iff here linked agrees
    constructor
    · intro every
      have after : Agrees (step cfg s e) := every.2.head
      exact ⟨next.mp after, (ih rest (step_linked here linked) after).mp every.2⟩
    · intro orderly
      have after := next.mpr orderly.1
      exact ⟨agrees, (ih rest (step_linked here linked) after).mpr orderly.2⟩

/-- In a run whose writes succeed every resource has the status of its latest task in every
state exactly when every step is orderly. -/
theorem runs_agree_iff (cfg : ServiceConfig) (es : List GatewayRuns.Event)
    (written : ∀ e ∈ es, Written e.io) :
    EveryState (step cfg) Agrees noTasks es ↔ EveryStep (step cfg) (Orderly cfg) noTasks es :=
  run_agrees_iff written noTasks_linked fun _ mem => absurd mem List.not_mem_nil

def lecturePdf : UploadRequest :=
  ⟨some ⟨"lecture.pdf".toList, 1024, "application/pdf".toList⟩, 1, "u1".toList, true⟩

def uploadLecture (reply : DispatchReply) : GatewayRuns.Event :=
  ⟨.upload lecturePdf,
    { now := 1, taskUUID := GatewayRuns.lectureTask, resourceUUID := GatewayRuns.lectureUUID,
      detected := "application/pdf".toList, reply }⟩

def lectureRuns : GatewayRuns.Event :=
  ⟨.status GatewayRuns.lectureTask (some ⟨"running", none, [], none⟩), { now := 2 }⟩

theorem runs_agree_lecture :
    (∀ e ∈ [uploadLecture .ok, lectureRuns], Written e.io) ∧
      EveryState (step GatewayRuns.serviceConfig) Agrees noTasks [uploadLecture .ok, lectureRuns] :=
  have written : ∀ e ∈ [uploadLecture .ok, lectureRuns], Written e.io := by decide +kernel
  ⟨written, (runs_agree_iff GatewayRuns.serviceConfig _ written).mpr (by decide +kernel)⟩

/-- The AI service is not reached: the task has failed, and its resource is still pending. -/
theorem undispatched_disagrees :
    (∀ e ∈ [uploadLecture (.unreachable false)], Written e.io) ∧
      ¬ EveryState (step GatewayRuns.serviceConfig) Agrees noTasks
        [uploadLecture (.unreachable false)] := by
  decide +kernel

end KnowledgeCompanion.ResourceStatus
