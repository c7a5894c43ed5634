import Mathlib.Data.Int.Notation
import KnowledgeCompanion.AppErrors
import KnowledgeCompanion.KeyedTable
import KnowledgeCompanion.Text

/-! Resources and tasks as the gateway stores them (`internal/model`), and the
columns that each statement of `repository/task_repository.go` writes.
A JSON column holds its raw text; the JSON literal `null` is not SQL `NULL`.
Times are readings of the gateway's clock in the unit of the columns. -/

namespace KnowledgeCompanion.TaskRecords

open KeyedTable

inductive TaskStatus
  | pending
  | running
  | completed
  | failed
deriving DecidableEq, Repr

def TaskStatus.text : TaskStatus → String
  | .pending => "pending"
  | .running => "running"
  | .completed => "completed"
  | .failed => "failed"

def taskTypeMediaParse : Text := "media_parse".toList
def taskTypePdfParse : Text := "pdf_parse".toList
def taskTypeDocumentParse : Text := "document_parse".toList

structure Resource where
  id : ℕ
  uuid : Text
  userID : ℕ
  name : Text
  type : Text
  status : UInt8
  storageKey : Text
  sizeBytes : ℤ
  mimeType : Text
  autoSummary : Bool
  createdAt : ℤ
  updatedAt : ℤ
deriving DecidableEq

structure Task where
  id : ℕ
  uuid : Text
  resourceID : ℕ
  userID : ℕ
  type : Text
  status : TaskStatus
  progress : UInt8
  result : Option Text
  errorMessage : Text
  startedAt : Option ℤ
  completedAt : Option ℤ
  retryCount : UInt8
  createdAt : ℤ
  updatedAt : ℤ
deriving DecidableEq

abbrev Resources := Table Resource Resource.id

abbrev Tasks := Table Task Task.id

def Task.new (uuid : Text) (resourceID userID : ℕ) (type : Text) (now : ℤ) (id : ℕ) : Task where
  id := id
  uuid := uuid
  resourceID := resourceID
  userID := userID
  type := type
  status := .pending
  progress := 0
  result := none
  errorMessage := []
  startedAt := none
  completedAt := none
  retryCount := 0
  createdAt := now
  updatedAt := now

def insertTask (tasks : Tasks) (uuid : Text) (resourceID userID : ℕ) (type : Text) (now : ℤ) :
    Tasks :=
  tasks.insert (Task.new uuid resourceID userID type now) fun _ => rfl

theorem mem_insertTask {tasks : Tasks} {uuid : Text} {resourceID userID : ℕ} {type : Text}
    {now : ℤ} {t : Task} :
    t ∈ (insertTask tasks uuid resourceID userID type now).rows ↔
      t ∈ tasks.rows ∨ t = Task.new uuid resourceID userID type now tasks.next := Table.mem_insert

/-- `UpdateStatus`, with an attempt count also `UpdateStatusWithAttempt`;
`UpdateProgress`; `ResetForRetry`. -/
inductive TaskWrite
  | setStatus (status : TaskStatus) (progress : UInt8) (result : Option Text) (errMsg : Text)
      (attempt : Option UInt8)
  | setProgress (progress : UInt8)
  | reset
deriving DecidableEq

/-- The row after `UpdateStatus`: an empty message leaves the column alone, and
only the columns of the new status get a time. -/
def Task.updateStatus (status : TaskStatus) (progress : UInt8) (result : Option Text)
    (errMsg : Text) (now : ℤ) (t : Task) : Task where
  __ := t
  status := status
  progress := progress
  result := result
  errorMessage := if errMsg ≠ [] then errMsg else t.errorMessage
  startedAt := if status = .running then some now else t.startedAt
  completedAt := if status = .completed ∨ status = .failed then some now else t.completedAt
  updatedAt := now

def Task.updateStatusWithAttempt (status : TaskStatus) (progress : UInt8) (result : Option Text)
    (errMsg : Text) (attemptCount : UInt8) (now : ℤ) (t : Task) : Task where
  __ := t.updateStatus status progress result errMsg now
  retryCount := attemptCount

def Task.updateProgress (progress : UInt8) (now : ℤ) (t : Task) : Task where
  __ := t
  progress := progress
  updatedAt := now

def Task.resetForRetry (now : ℤ) (t : Task) : Task where
  __ := t
  status := .pending
  progress := 0
  retryCount := 0
  errorMessage := []
  result := none
  completedAt := none
  updatedAt := now

def TaskWrite.apply (now : ℤ) (t : Task) : TaskWrite → Task
  | .setStatus status progress result errMsg none =>
    t.updateStatus status progress result errMsg now
  | .setStatus status progress result errMsg (some attempt) =>
    t.updateStatusWithAttempt status progress result errMsg attempt now
  | .setProgress progress => t.updateProgress progress now
  | .reset => t.resetForRetry now

@[simp] theorem TaskWrite.apply_id (w : TaskWrite) (now : ℤ) (t : Task) :
    (w.apply now t).id = t.id := by
  cases w with
  | setStatus status progress result errMsg attempt => cases attempt <;> rfl
  | setProgress progress => rfl
  | reset => rfl

@[simp] theorem TaskWrite.apply_uuid (w : TaskWrite) (now : ℤ) (t : Task) :
    (w.apply now t).uuid = t.uuid := by
  cases w with
  | setStatus status progress result errMsg attempt => cases attempt <;> rfl
  | setProgress progress => rfl
  | reset => rfl

@[simp] theorem TaskWrite.apply_type (w : TaskWrite) (now : ℤ) (t : Task) :
    (w.apply now t).type = t.type := by
  cases w with
  | setStatus status progress result errMsg attempt => cases attempt <;> rfl
  | setProgress progress => rfl
  | reset => rfl

@[simp] theorem TaskWrite.apply_resourceID (w : TaskWrite) (now : ℤ) (t : Task) :
    (w.apply now t).resourceID = t.resourceID := by
  cases w with
  | setStatus status progress result errMsg attempt => cases attempt <;> rfl
  | setProgress progress => rfl
  | reset => rfl

theorem TaskWrite.apply_status (w : TaskWrite) (now : ℤ) (t : Task) :
    (w.apply now t).status =
      match w with
      | .setStatus status _ _ _ _ => status
      | .setProgress _ => t.status
      | .reset => .pending := by
  cases w with
  | setStatus status progress result errMsg attempt => cases attempt <;> rfl
  | setProgress progress => rfl
  | reset => rfl

def execute (tasks : Tasks) (id : ℕ) (w : TaskWrite) (now : ℤ) : Tasks :=
  tasks.update id (fun t => w.apply now t) (w.apply_id now)

theorem mem_execute {tasks : Tasks} {id : ℕ} {w : TaskWrite} {now : ℤ} {t : Task} :
    t ∈ (execute tasks id w now).rows ↔
      ∃ t₀ ∈ tasks.rows, t = if t₀.id = id then w.apply now t₀ else t₀ := by
  unfold execute
  rw [Table.mem_update]
  constructor
  · intro h
    obtain ⟨t₀, mem, same⟩ := h
    exact ⟨t₀, mem, same.symm⟩
  · intro h
    obtain ⟨t₀, mem, same⟩ := h
    exact ⟨t₀, mem, same.symm⟩

def byUUID (tasks : Tasks) (uuid : Text) : Option Task :=
  tasks.first fun t => tasks.same t.uuid uuid

def byUUIDAndUserID (tasks : Tasks) (uuid : Text) (userID : ℕ) : Option Task :=
  tasks.first fun t => tasks.same t.uuid uuid && t.userID == userID

theorem mem_of_byUUID {tasks : Tasks} {uuid : Text} {t : Task} (h : byUUID tasks uuid = some t) :
    t ∈ tasks.rows ∧ tasks.collation.weight t.uuid = tasks.collation.weight uuid :=
  Table.first_same h

theorem mem_of_byUUIDAndUserID {tasks : Tasks} {uuid : Text} {userID : ℕ} {t : Task}
    (h : byUUIDAndUserID tasks uuid userID = some t) :
    t ∈ tasks.rows ∧ tasks.collation.weight t.uuid = tasks.collation.weight uuid ∧
      t.userID = userID :=
  ⟨Table.mem_of_first h, by simpa [Table.same] using Table.first_spec h⟩

theorem byUUID_execute {tasks : Tasks} {uuid : Text} {id : ℕ} {w : TaskWrite} {now : ℤ} :
    byUUID (execute tasks id w now) uuid =
      (byUUID tasks uuid).map fun t => if t.id = id then w.apply now t else t :=
  Table.first_update fun t => by rw [w.apply_uuid now t]

end KnowledgeCompanion.TaskRecords
