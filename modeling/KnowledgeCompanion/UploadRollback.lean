import KnowledgeCompanion.FileService

/-! What a failed upload leaves behind: the step at which `Upload` stops and the rows and
objects that its compensation does not take back. -/

namespace KnowledgeCompanion.UploadRollback

open AppErrors KeyedTable TaskRecords TaskService FileService

/-- No row and no stored object more than before. -/
structure Restored (s s' : Gateway) : Prop where
  resources : s'.resources.rows = s.resources.rows
  tasks : s'.tasks.rows = s.tasks.rows
  objects : ∀ key, s'.objects.count key ≤ s.objects.count key

theorem Restored.refl (s : Gateway) : Restored s s := ⟨rfl, rfl, fun _ => le_rfl⟩

/-- The task cannot be inserted once the object and the resource row are there. -/
structure TaskInsertFails (s : Gateway) (io : GatewayIO) (header : FileHeader)
    (req : UploadRequest) : Prop where
  valid : validateUpload io req = .ok header
  put : io.putObject = none
  create : io.createResource = none
  fresh : ∀ r ∈ s.resources.rows, s.resources.same r.uuid io.resourceUUID = false
  fails : io.createTask ≠ none ∨ ∃ t ∈ s.tasks.rows, s.tasks.same t.uuid io.taskUUID = true

theorem count_filter_le (objects : List Text) (key stored : Text) :
    ((objects ++ [stored]).filter (· != stored)).count key ≤ objects.count key := by
  rw [List.filter_append]
  simpa using List.filter_sublist.count_le key

theorem removeObject_restored {s : Gateway} {io : GatewayIO} (removes : io.removeObject = none)
    (key : Text) :
    Restored s (removeObject { s with objects := s.objects ++ [key] } io key) := by
  rw [removeObject, removes]
  exact ⟨rfl, rfl, fun k => count_filter_le s.objects k key⟩

theorem resource_fresh_iff (s : Gateway) (uuid : Text) :
    (s.resources.first fun r => s.resources.same r.uuid uuid).isSome = false ↔
      ∀ r ∈ s.resources.rows, s.resources.same r.uuid uuid = false := by
  simp [Table.first]

theorem task_known_iff (s : Gateway) (uuid : Text) :
    (byUUID s.tasks uuid).isSome = true ↔ ∃ t ∈ s.tasks.rows, s.tasks.same t.uuid uuid = true := by
  simp [byUUID, Table.first]

theorem createResource_error {s : Gateway} {io : GatewayIO} {make : ℕ → Resource}
    (keyed : ∀ n, (make n).id = n) (named : ∀ n, (make n).uuid = io.resourceUUID)
    (refused : ¬ (io.createResource = none ∧
      ∀ r ∈ s.resources.rows, s.resources.same r.uuid io.resourceUUID = false)) :
    ∃ cause, createResource s io make keyed = (.error cause, s) := by
  rw [← resource_fresh_iff] at refused
  rw [createResource]
  cases create : io.createResource with
  | some cause => exact ⟨_, rfl⟩
  | none =>
    dsimp only
    rw [named]
    refine ⟨_, if_pos ?_⟩
    rw [not_and] at refused
    simpa only [Bool.not_eq_false] using refused create

theorem createResource_ok {s : Gateway} {io : GatewayIO} {make : ℕ → Resource}
    (keyed : ∀ n, (make n).id = n) (named : ∀ n, (make n).uuid = io.resourceUUID)
    (create : io.createResource = none)
    (fresh : ∀ r ∈ s.resources.rows, s.resources.same r.uuid io.resourceUUID = false) :
    createResource s io make keyed =
      (.ok (make s.resources.next), { s with resources := s.resources.insert make keyed }) := by
  rw [createResource, create]
  dsimp only
  rw [named]
  refine if_neg ?_
  rw [(resource_fresh_iff s io.resourceUUID).2 fresh]
  exact Bool.false_ne_true

def inserted (s : Gateway) (io : GatewayIO) (req : UploadRequest) (header : FileHeader) :
    Gateway where
  __ := s
  resources := s.resources.insert (newResource req header io) (newResource_id req header io)
  objects := s.objects ++ [storageKey req.userUUID io.resourceUUID header.filename]

theorem upload_inserted (cfg : ServiceConfig) {s : Gateway} {io : GatewayIO}
    {req : UploadRequest} {header : FileHeader} (valid : validateUpload io req = .ok header)
    (put : io.putObject = none) (create : io.createResource = none)
    (fresh : ∀ r ∈ s.resources.rows, s.resources.same r.uuid io.resourceUUID = false) :
    upload cfg s io req =
      match createTask (inserted s io req header) io s.resources.next req.userID
        (detectTaskType header.contentType) with
      | (.error _, s') =>
        (.error (.app (internal "failed to create parse task")),
          removeObject s' io (storageKey req.userUUID io.resourceUUID header.filename))
      | (.ok task, s') =>
        let resource := newResource req header io s.resources.next
        if shouldAutoDispatch resource.type then
          (.ok (uploadResult resource task), dispatchUpload cfg s' io task resource)
        else (.ok (uploadResult resource task), s') := by
  have created := createResource_ok (s := { s with
    objects := s.objects ++ [storageKey req.userUUID io.resourceUUID header.filename] })
    (newResource_id req header io) (fun _ => rfl) create fresh
  rw [upload, valid, put]
  dsimp only
  rw [created]
  rfl

theorem createTask_error {s : Gateway} {io : GatewayIO} (resourceID userID : ℕ) (type : Text)
    (fails : io.createTask ≠ none ∨ ∃ t ∈ s.tasks.rows, s.tasks.same t.uuid io.taskUUID = true) :
    ∃ cause, createTask s io resourceID userID type = (.error cause, s) := by
  rw [← task_known_iff] at fails
  rw [createTask]
  cases create : io.createTask with
  | some cause => exact ⟨_, rfl⟩
  | none => exact ⟨_, if_pos (fails.resolve_left fun other => other create)⟩

theorem createTask_ok {s : Gateway} {io : GatewayIO} (resourceID userID : ℕ) (type : Text)
    (works : ¬ (io.createTask ≠ none ∨
      ∃ t ∈ s.tasks.rows, s.tasks.same t.uuid io.taskUUID = true)) :
    ∃ task s', createTask s io resourceID userID type = (.ok task, s') := by
  rw [← task_known_iff, not_or, not_not] at works
  rw [createTask, works.1]
  exact ⟨_, _, if_neg works.2⟩

theorem upload_strands (cfg : ServiceConfig) {s : Gateway} {io : GatewayIO} {req : UploadRequest}
    {header : FileHeader} (removes : io.removeObject = none)
    (stranded : TaskInsertFails s io header req) :
    upload cfg s io req = (.error (.app (internal "failed to create parse task")),
      { inserted s io req header with
        objects := (inserted s io req header).objects.filter
          (· != storageKey req.userUUID io.resourceUUID header.filename) }) := by
  rw [upload_inserted cfg stranded.valid stranded.put stranded.create stranded.fresh]
  obtain ⟨cause, failed⟩ := createTask_error (s := inserted s io req header) s.resources.next
    req.userID (detectTaskType header.contentType) stranded.fails
  rw [failed]
  dsimp only [removeObject]
  rw [removes]

theorem upload_restored {cfg : ServiceConfig} {s s' : Gateway} {io : GatewayIO}
    {req : UploadRequest} {e : Err} (removes : io.removeObject = none)
    (failed : upload cfg s io req = (.error e, s'))
    (works : ∀ header, ¬ TaskInsertFails s io header req) : Restored s s' := by
  cases valid : validateUpload io req with
  | error cause =>
    rw [upload, valid] at failed
    obtain ⟨-, rfl⟩ := Prod.mk.inj failed
    exact .refl s
  | ok header =>
    cases put : io.putObject with
    | some cause =>
      rw [upload, valid, put] at failed
      obtain ⟨-, rfl⟩ := Prod.mk.inj failed
      exact .refl s
    | none =>
      by_cases create : io.createResource = none ∧
        ∀ r ∈ s.resources.rows, s.resources.same r.uuid io.resourceUUID = false
      · obtain ⟨create, fresh⟩ := create
        rw [upload_inserted cfg valid put create fresh] at failed
        obtain ⟨task, after, created⟩ := createTask_ok (s := inserted s io req header)
          s.resources.next req.userID (detectTaskType header.contentType) fun fails =>
            works header ⟨valid, put, create, fresh, fails⟩
        rw [created] at failed
        dsimp only at failed
        split at failed <;> cases (Prod.mk.inj failed).1
      · obtain ⟨cause, refused⟩ := createResource_error (s := { s with
          objects := s.objects ++ [storageKey req.userUUID io.resourceUUID header.filename] })
          (newResource_id req header io) (fun _ => rfl) create
        rw [upload, valid, put] at failed
        dsimp only at failed
        rw [refused] at failed
        obtain ⟨-, rfl⟩ := Prod.mk.inj failed
        exact removeObject_restored removes _

/-- With compensation that works, an upload that fails leaves nothing exactly when it is not
the insert of the task that failed. -/
theorem upload_restores_iff (cfg : ServiceConfig) (s : Gateway) (io : GatewayIO)
    (req : UploadRequest) (removes : io.removeObject = none) :
    (∀ e s', upload cfg s io req = (.error e, s') → Restored s s') ↔
      ∀ header, ¬ TaskInsertFails s io header req := by
  constructor
  · intro restores header stranded
    have kept := (restores _ _ (upload_strands cfg removes stranded)).resources
    have size := congrArg List.length kept
    simp [inserted, Table.insert] at size
  · exact fun works e s' failed => upload_restored removes failed works

def paperUpload : UploadRequest :=
  ⟨some ⟨"a.pdf".toList, 10, "application/pdf".toList⟩, 1, ['u'], false⟩

def paperServices (createResource createTask : Option String) : GatewayIO :=
  { resourceUUID := ['r'], taskUUID := ['t'], detected := "application/pdf".toList,
    createResource, createTask }

def paperConfig : ServiceConfig := ⟨fun _ => true, 300, ⟨[], []⟩⟩

def emptyGateway : Gateway := ⟨.empty, .empty, [], [], []⟩

/-- The row of the resource outlives the upload whose task was not inserted. -/
theorem upload_leaves_resource :
    (paperServices none (some "lost connection")).removeObject = none ∧
    ¬ ∀ e s', upload paperConfig emptyGateway (paperServices none (some "lost connection"))
      paperUpload = (.error e, s') → Restored emptyGateway s' := by
  refine ⟨rfl, fun restores => ?_⟩
  have kept := (restores _ _ rfl).resources
  cases kept

theorem upload_restores_unsaved :
    (paperServices (some "lost connection") none).removeObject = none ∧
    ∀ e s', upload paperConfig emptyGateway (paperServices (some "lost connection") none)
      paperUpload = (.error e, s') → Restored emptyGateway s' :=
  ⟨rfl, (upload_restores_iff paperConfig emptyGateway (paperServices (some "lost connection") none)
    paperUpload rfl).mpr fun _ stranded => by cases stranded.create⟩

end KnowledgeCompanion.UploadRollback
