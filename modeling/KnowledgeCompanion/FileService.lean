import Mathlib.Data.List.TakeWhile
import KnowledgeCompanion.TaskService

/-! File upload (`service/file_service.go`): the file is checked and stored, then
the resource and its task are inserted, and the task is dispatched. -/

namespace KnowledgeCompanion.FileService

open AppErrors TaskRecords TaskDispatcher TaskService

structure FileHeader where
  filename : Text
  size : ℤ
  contentType : Text

structure UploadRequest where
  header : Option FileHeader
  userID : ℕ
  userUUID : Text
  autoSummary : Bool

structure UploadResult where
  resourceID : Text
  taskID : Text
  name : Text
  type : Text
  status : String
  sizeBytes : ℤ
  mimeType : Text
  createdAt : ℤ
  autoSummary : Bool

def maxFileSizeBytes : ℤ := 500 * 1024 * 1024

def wordMime : Text :=
  "application/vnd.openxmlformats-officedocument.wordprocessingml.document".toList

def allowedMimeTypes : List Text :=
  ["audio/mpeg".toList, "audio/mp3".toList, "audio/wav".toList, "audio/mp4".toList,
    "video/mp4".toList, "video/webm".toList, "application/pdf".toList, "text/plain".toList,
    "application/msword".toList, wordMime]

def octetStream : Text := "application/octet-stream".toList

def hasPrefix (text start : Text) : Bool := start.isPrefixOf text

def compatibleMime (declared detected : Text) : Bool :=
  if declared = "application/pdf".toList then detected == "application/pdf".toList
  else if declared = "application/msword".toList then
    detected == "application/x-msi".toList || detected == octetStream
  else if declared = wordMime then
    detected == "application/zip".toList || detected == octetStream
  else if declared ∈ ["audio/mpeg".toList, "audio/mp3".toList, "audio/mp4".toList,
      "audio/wav".toList] then
    hasPrefix detected "audio/".toList || detected == octetStream
  else if declared ∈ ["video/mp4".toList, "video/webm".toList] then
    hasPrefix detected "video/".toList || detected == octetStream
  else if declared = "text/plain".toList then hasPrefix detected "text/".toList
  else false

def detectTaskType (mime : Text) : Text :=
  if hasPrefix mime "audio/".toList || hasPrefix mime "video/".toList then taskTypeMediaParse
  else if mime = "application/pdf".toList then taskTypePdfParse
  else taskTypeDocumentParse

/-- Go's `path.Base`: the part after the last slash, trailing slashes aside. -/
def pathBase (name : Text) : Text :=
  if name = [] then ['.']
  else
    let last := ((name.reverse.dropWhile (· == '/')).takeWhile (· != '/')).reverse
    if last = [] then ['/'] else last

def replaceDots : Text → Text
  | '.' :: '.' :: rest => '_' :: replaceDots rest
  | c :: rest => c :: replaceDots rest
  | [] => []

def sanitizeFilename (name : Text) : Text :=
  let name := replaceDots (pathBase name)
  if name = [] ∨ name = ['.'] ∨ name = ['/'] then "unnamed".toList else name

def storageKey (userUUID resourceUUID filename : Text) : Text :=
  userUUID ++ '/' :: (resourceUUID ++ '/' :: sanitizeFilename filename)

theorem mem_replaceDots {c : Char} {name : Text} (dot : c ≠ '.') (line : c ≠ '_') :
    c ∈ replaceDots name ↔ c ∈ name := by
  induction name using replaceDots.induct with
  | case1 rest ih => simp only [replaceDots, List.mem_cons, dot, line, false_or, ih]
  | case2 first rest other ih =>
    rw [replaceDots]
    · rw [List.mem_cons, List.mem_cons, ih]
    · exact other
  | case3 => rfl

theorem head_replaceDots {name rest : Text} (head : replaceDots name = '.' :: rest) :
    ∃ more, name = '.' :: more := by
  induction name using replaceDots.induct with
  | case1 more =>
    rw [replaceDots] at head
    exact absurd (List.cons.inj head).1 (by decide)
  | case2 first more other =>
    rw [replaceDots] at head
    · exact ⟨more, by rw [(List.cons.inj head).1]⟩
    · exact other
  | case3 => cases head

theorem replaceDots_no_dots (name : Text) : ¬ ['.', '.'] <:+: replaceDots name := by
  induction name using replaceDots.induct with
  | case1 rest ih =>
    rw [replaceDots, List.infix_cons_iff]
    rintro (front | inside)
    · exact absurd (List.cons_prefix_cons.mp front).1 (by decide)
    · exact ih inside
  | case2 first rest other ih =>
    rw [replaceDots]
    · rw [List.infix_cons_iff]
      rintro (front | inside)
      · obtain ⟨rfl, tail⟩ := List.cons_prefix_cons.mp front
        obtain ⟨more, second⟩ := tail
        obtain ⟨after, rfl⟩ := head_replaceDots second.symm
        exact other after rfl rfl
      · exact ih inside
    · exact other
  | case3 =>
    rw [replaceDots, List.infix_nil]
    exact List.cons_ne_nil _ _

theorem pathBase_slash {name : Text} (slash : '/' ∈ pathBase name) : pathBase name = ['/'] := by
  unfold pathBase at slash ⊢
  split at slash
  · exact absurd slash (by decide)
  · rename_i some
    rw [if_neg some]
    dsimp only at slash ⊢
    split at slash
    · rename_i empty
      rw [if_pos empty]
    · have front := List.mem_takeWhile_imp (List.mem_reverse.mp slash)
      exact absurd front (by decide)

theorem sanitizeFilename_segment (name : Text) :
    '/' ∉ sanitizeFilename name ∧ sanitizeFilename name ≠ [] ∧
      sanitizeFilename name ≠ ['.'] ∧ sanitizeFilename name ≠ ['.', '.'] := by
  unfold sanitizeFilename
  dsimp only
  split
  · decide
  · rename_i proper
    rw [not_or, not_or] at proper
    have parent : replaceDots (pathBase name) ≠ ['.', '.'] := fun same =>
      replaceDots_no_dots (pathBase name) (same ▸ List.infix_refl _)
    refine ⟨fun slash => ?_, proper.1, proper.2.1, parent⟩
    have base := pathBase_slash ((mem_replaceDots (by decide) (by decide)).mp slash)
    exact proper.2.2 (by rw [base]; rfl)

theorem sanitizeFilename_no_dots (name : Text) : ¬ ['.', '.'] <:+: sanitizeFilename name := by
  unfold sanitizeFilename
  dsimp only
  split
  · exact fun dots => absurd (dots.subset List.mem_cons_self) (by decide)
  · exact replaceDots_no_dots _

theorem mem_sanitizeFilename {c : Char} {name : Text} (other : c ∉ "._/unamed".toList) :
    c ∈ sanitizeFilename name ↔ c ∈ pathBase name := by
  have parts : c ≠ '.' ∧ c ≠ '_' ∧ c ≠ '/' ∧ c ∉ "unnamed".toList := by
    rw [show "._/unamed".toList = ['.', '_', '/', 'u', 'n', 'a', 'm', 'e', 'd'] from rfl] at other
    rw [show "unnamed".toList = ['u', 'n', 'n', 'a', 'm', 'e', 'd'] from rfl]
    simp only [List.mem_cons, List.not_mem_nil, or_false, not_or] at other ⊢
    obtain ⟨dot, line, slash, u, n, a, m, e, d⟩ := other
    exact ⟨dot, line, slash, u, n, n, a, m, e, d⟩
  obtain ⟨dot, line, slash, unnamed⟩ := parts
  have replaced : c ∈ replaceDots (pathBase name) ↔ c ∈ pathBase name := mem_replaceDots dot line
  rw [← replaced]
  unfold sanitizeFilename
  dsimp only
  split
  · rename_i improper
    refine iff_of_false unnamed fun mem => ?_
    rcases improper with empty | single | single
    · rw [empty] at mem
      exact List.not_mem_nil mem
    · rw [single] at mem
      exact dot (List.mem_singleton.mp mem)
    · rw [single] at mem
      exact slash (List.mem_singleton.mp mem)
  · rfl

def validateUpload (io : GatewayIO) (req : UploadRequest) : Except AppError FileHeader :=
  match req.header with
  | none => .error ⟨400, "FILE_MISSING", "missing file"⟩
  | some header =>
    if maxFileSizeBytes < header.size then .error (fileTooLarge "file exceeds 500MB limit")
    else if header.contentType ∉ allowedMimeTypes then
      .error (unsupportedMediaType "unsupported file type")
    else
      match io.readFile with
      | some cause => .error (internal ("failed to read file header: " ++ cause))
      | none =>
        if !hasPrefix io.detected header.contentType &&
            !compatibleMime header.contentType io.detected then
          .error (unsupportedMediaType "file content does not match declared type")
        else .ok header

def removeObject (s : Gateway) (io : GatewayIO) (key : Text) : Gateway :=
  match io.removeObject with
  | some _ => s
  | none => { s with objects := s.objects.filter (· != key) }

def newResource (req : UploadRequest) (header : FileHeader) (io : GatewayIO) (id : ℕ) :
    Resource where
  id := id
  uuid := io.resourceUUID
  userID := req.userID
  name := header.filename
  type := detectTaskType header.contentType
  status := 1
  storageKey := storageKey req.userUUID io.resourceUUID header.filename
  sizeBytes := header.size
  mimeType := header.contentType
  autoSummary := req.autoSummary
  createdAt := io.now
  updatedAt := io.now

theorem newResource_id (req : UploadRequest) (header : FileHeader) (io : GatewayIO) (id : ℕ) :
    (newResource req header io id).id = id := rfl

def createResource (s : Gateway) (io : GatewayIO) (make : ℕ → Resource)
    (keyed : ∀ n, (make n).id = n) : Except String Resource × Gateway :=
  match io.createResource with
  | some cause => (.error ("failed to create resource: " ++ cause), s)
  | none =>
    let resource := make s.resources.next
    if (s.resources.first fun r => s.resources.same r.uuid resource.uuid).isSome then
      (.error "failed to create resource: duplicate entry", s)
    else (.ok resource, { s with resources := s.resources.insert make keyed })

def dispatchUpload (cfg : ServiceConfig) (s : Gateway) (io : GatewayIO) (task : Task)
    (resource : Resource) : Gateway :=
  match dispatchTask cfg s io task (some resource) with
  | (.ok _, s) => s
  | (.error e, s) =>
    (writeTask s io task.id (.setStatus .failed 0 none e.text.toList none)).2

def uploadResult (resource : Resource) (task : Task) : UploadResult where
  resourceID := resource.uuid
  taskID := task.uuid
  name := resource.name
  type := resource.type
  status := "uploading"
  sizeBytes := resource.sizeBytes
  mimeType := resource.mimeType
  createdAt := resource.createdAt
  autoSummary := resource.autoSummary

def upload (cfg : ServiceConfig) (s : Gateway) (io : GatewayIO) (req : UploadRequest) :
    Except Err UploadResult × Gateway :=
  match validateUpload io req with
  | .error e => (.error (.app e), s)
  | .ok header =>
    match io.putObject with
    | some _ => (.error (.app (internal "failed to upload file")), s)
    | none =>
      let key := storageKey req.userUUID io.resourceUUID header.filename
      let s := { s with objects := s.objects ++ [key] }
      match createResource s io (newResource req header io) (newResource_id req header io) with
      | (.error _, s) =>
        (.error (.app (internal "failed to save resource")), removeObject s io key)
      | (.ok resource, s) =>
        match createTask s io resource.id req.userID resource.type with
        | (.error _, s) =>
          (.error (.app (internal "failed to create parse task")), removeObject s io key)
        | (.ok task, s) =>
          if shouldAutoDispatch resource.type then
            (.ok (uploadResult resource task), dispatchUpload cfg s io task resource)
          else (.ok (uploadResult resource task), s)

end KnowledgeCompanion.FileService
