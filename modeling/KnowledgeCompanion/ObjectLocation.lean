import KnowledgeCompanion.GatewayRuns
import KnowledgeCompanion.UrlSplit

/-! Where the worker looks for an uploaded file (`services/audio_downloader.py`,
`services/minio_storage.py`, `api/pdf.py`): the URL of the dispatched task is taken apart into
a bucket and an object name. -/

namespace KnowledgeCompanion.ObjectLocation

open AppErrors TaskRecords TaskDispatcher TaskService FileService UrlSplit

structure WorkerConfig where
  rules : UrlRules
  bucket : Text

def lstripSlash (path : Text) : Text := path.dropWhile (· == '/')

def keepSegment (cleaned : List Text) (part : Text) : List Text :=
  if part = ['.', '.'] then cleaned.dropLast else cleaned ++ [part]

def normalizeObjectName (path : Text) : Text :=
  let parts := (path.splitOn '/').filter fun part => part != [] && part != ['.']
  ['/'].intercalate (parts.foldl keepSegment [])

/-- What the two downloads share: the bucket and the name that they pass to `fget_object`. -/
def locateObject (worker : WorkerConfig) (kind : String) (objectName : Text → Text) (url : Text) :
    Except String (Text × Text) :=
  match urlsplit worker.rules url with
  | .error cause => .error cause
  | .ok parsed =>
    let scheme := parsed.scheme.map Char.toLower
    if scheme ≠ "minio".toList then
      .error ("unsupported " ++ kind ++ " URL scheme: " ++ String.ofList scheme ++
        ". Only minio:// is supported.")
    else
      let bucket := if parsed.netloc = [] then worker.bucket else parsed.netloc
      let name := objectName (lstripSlash parsed.path)
      if bucket = [] ∨ name = [] then .error "invalid minio URL: missing bucket or object name"
      else .ok (bucket, name)

def downloadAudio (worker : WorkerConfig) (url : Text) : Except String (Text × Text) :=
  locateObject worker "audio" id url

def downloadFile (worker : WorkerConfig) (url : Text) : Except String (Text × Text) :=
  locateObject worker "PDF" normalizeObjectName url

def validatePdfURL (rules : UrlRules) (url : Text) : Except String Unit :=
  match urlsplit rules url with
  | .error cause => .error cause
  | .ok parsed =>
    if parsed.scheme.map Char.toLower ≠ "minio".toList then
      .error ("unsupported PDF URL scheme: " ++ String.ofList parsed.scheme ++
        ". Only minio:// is supported.")
    else if parsed.netloc = [] ∨ lstripSlash parsed.path = [] then
      .error "invalid PDF URL: missing bucket or object name"
    else .ok ()

def fetched (worker : WorkerConfig) : DispatchPayload → Except String (Text × Text)
  | .asr _ _ _ audioURL _ _ => downloadAudio worker audioURL
  | .pdf _ _ _ pdfURL =>
    match validatePdfURL worker.rules pdfURL with
    | .error cause => .error cause
    | .ok () => downloadFile worker pdfURL

def isBucketChar (c : Char) : Bool :=
  isAsciiLetter c || (48 ≤ c.toNat && c.toNat ≤ 57) || ['.', '-', '_', ':'].contains c

def IsBucketName (bucket : Text) : Prop :=
  3 ≤ bucket.length ∧ bucket.length ≤ 63 ∧ bucket.all isBucketChar = true

instance (bucket : Text) : Decidable (IsBucketName bucket) := inferInstanceAs (Decidable (_ ∧ _))

def isUUIDChar (c : Char) : Bool :=
  (97 ≤ c.toNat && c.toNat ≤ 102) || (48 ≤ c.toNat && c.toNat ≤ 57) || c == '-'

/-- What `uuid.NewString` returns: 36 hexadecimal digits and dashes. -/
def IsUUID (uuid : Text) : Prop := uuid.length = 36 ∧ uuid.all isUUIDChar = true

instance (uuid : Text) : Decidable (IsUUID uuid) := inferInstanceAs (Decidable (_ ∧ _))

/-- The characters that do not come back from a URL: those that end its path and those that are
removed from it. -/
def isLost (c : Char) : Bool := isRemoved c || c == '#' || c == '?'

theorem isPlain_of_bucket {bucket : Text} (name : IsBucketName bucket) :
    bucket ≠ [] ∧ ∀ c ∈ bucket, isPlain c = true := by
  obtain ⟨long, -, chars⟩ := name
  refine ⟨fun empty => by rw [empty] at long; exact absurd long (by decide), fun c mem => ?_⟩
  have here := List.all_eq_true.mp chars c mem
  have ascii : c.toNat < 128 := by
    simp only [isBucketChar, isAsciiLetter, Bool.or_eq_true, Bool.and_eq_true, decide_eq_true_eq,
      List.contains_eq_mem, List.mem_cons, List.not_mem_nil, or_false] at here
    rcases here with (letter | digit) | sign
    · omega
    · omega
    · rcases sign with rfl | rfl | rfl | rfl <;> decide
  have other {d : Char} (bad : isBucketChar d = false) : c ≠ d := by
    rintro rfl
    rw [bad] at here
    exact Bool.false_ne_true here
  simp only [isPlain, endsNetloc, isRemoved, Bool.and_eq_true, decide_eq_true_eq,
    Bool.not_eq_true', Bool.or_eq_false_iff, beq_eq_false_iff_ne, bne_iff_ne]
  exact ⟨⟨⟨⟨ascii, ⟨other (by decide), other (by decide)⟩, other (by decide)⟩,
    ⟨other (by decide), other (by decide)⟩, other (by decide)⟩, other (by decide)⟩,
    other (by decide)⟩

theorem isLost_false {c : Char} :
    isLost c = false ↔ (c ≠ '\t' ∧ c ≠ '\r' ∧ c ≠ '\n') ∧ c ≠ '#' ∧ c ≠ '?' := by
  simp only [isLost, isRemoved, Bool.or_eq_false_iff, beq_eq_false_iff_ne]
  tauto

theorem uuid_char {uuid : Text} (is : IsUUID uuid) {c : Char} (mem : c ∈ uuid) :
    c ≠ '/' ∧ c ≠ '.' ∧ isLost c = false := by
  have here := List.all_eq_true.mp is.2 c mem
  have other {d : Char} (bad : isUUIDChar d = false) : c ≠ d := by
    rintro rfl
    rw [bad] at here
    exact Bool.false_ne_true here
  exact ⟨other (by decide), other (by decide), isLost_false.mpr
    ⟨⟨other (by decide), other (by decide), other (by decide)⟩, other (by decide),
      other (by decide)⟩⟩

theorem mem_shownPath {c : Char} {path : Text} (mem : c ∈ shownPath path) : isLost c = false := by
  have question := List.mem_takeWhile_imp mem
  have before := List.takeWhile_subset _ mem
  have hash := List.mem_takeWhile_imp before
  have kept := (List.mem_filter.mp (List.takeWhile_subset _ before)).2
  rw [bne_iff_ne] at question hash
  rw [Bool.not_eq_true'] at kept
  simp only [isLost, kept, Bool.false_or, Bool.or_eq_false_iff, beq_eq_false_iff_ne]
  exact ⟨hash, question⟩

theorem shownPath_eq_self {path : Text} (kept : ∀ c ∈ path, isLost c = false) :
    shownPath path = path := by
  have parts : ∀ c ∈ path, isRemoved c = false ∧ c ≠ '#' ∧ c ≠ '?' := by
    intro c mem
    have lost := kept c mem
    simp only [isLost, Bool.or_eq_false_iff, beq_eq_false_iff_ne] at lost
    exact ⟨lost.1.1, lost.1.2, lost.2⟩
  unfold shownPath
  rw [List.filter_eq_self.mpr fun c mem => by rw [(parts c mem).1]; rfl,
    List.takeWhile_eq_self_iff.mpr fun c mem => bne_iff_ne.mpr (parts c mem).2.1,
    List.takeWhile_eq_self_iff.mpr fun c mem => bne_iff_ne.mpr (parts c mem).2.2]

def IsSegment (part : Text) : Prop :=
  '/' ∉ part ∧ part ≠ [] ∧ part ≠ ['.'] ∧ part ≠ ['.', '.']

theorem uuid_segment {uuid : Text} (is : IsUUID uuid) : IsSegment uuid := by
  refine ⟨fun slash => (uuid_char is slash).1 rfl, ?_, ?_, ?_⟩ <;> rintro rfl <;>
    exact absurd is.1 (by decide)

theorem foldl_keepSegment {parts : List Text} (proper : ∀ part ∈ parts, IsSegment part)
    (cleaned : List Text) : parts.foldl keepSegment cleaned = cleaned ++ parts := by
  induction parts generalizing cleaned with
  | nil => exact (List.append_nil cleaned).symm
  | cons part parts ih =>
    have kept : keepSegment cleaned part = cleaned ++ [part] :=
      if_neg (proper part List.mem_cons_self).2.2.2
    rw [List.foldl_cons, kept, ih (fun other mem => proper other (List.mem_cons_of_mem part mem)),
      List.append_assoc, List.singleton_append]

theorem normalize_intercalate {parts : List Text} (proper : ∀ part ∈ parts, IsSegment part) :
    normalizeObjectName (['/'].intercalate parts) = ['/'].intercalate parts := by
  cases parts with
  | nil => rfl
  | cons part parts =>
    have pieces : (['/'].intercalate (part :: parts)).splitOn '/' = part :: parts :=
      List.splitOn_intercalate '/' (fun part mem => (proper part mem).1) (List.cons_ne_nil _ _)
    have kept : (part :: parts).filter (fun part => part != [] && part != ['.']) =
      part :: parts := by
      rw [List.filter_eq_self]
      intro part mem
      rw [Bool.and_eq_true, bne_iff_ne, bne_iff_ne]
      exact ⟨(proper part mem).2.1, (proper part mem).2.2.1⟩
    unfold normalizeObjectName
    rw [pieces]
    dsimp only
    rw [kept, foldl_keepSegment proper, List.nil_append]

theorem normalize_key {a b c : Text} (ha : IsSegment a) (hb : IsSegment b) (hc : IsSegment c) :
    normalizeObjectName (a ++ '/' :: (b ++ '/' :: c)) = a ++ '/' :: (b ++ '/' :: c) := by
  have proper : ∀ part ∈ [a, b, c], IsSegment part := by
    simp only [List.mem_cons, List.not_mem_nil, or_false]
    rintro part (rfl | rfl | rfl)
    · exact ha
    · exact hb
    · exact hc
  have key := normalize_intercalate proper
  simpa [List.intercalate] using key

theorem mem_keepSegments {part : Text} {parts cleaned : List Text}
    (mem : part ∈ parts.foldl keepSegment cleaned) : part ∈ cleaned ∨ part ∈ parts := by
  induction parts generalizing cleaned with
  | nil => exact .inl mem
  | cons first rest ih =>
    rcases ih mem with before | later
    · unfold keepSegment at before
      split at before
      · exact .inl (List.dropLast_subset _ before)
      · rcases List.mem_append.mp before with old | here
        · exact .inl old
        · exact .inr (List.mem_cons.mpr (.inl (List.mem_singleton.mp here)))
    · exact .inr (List.mem_cons_of_mem first later)

theorem mem_normalizeObjectName {c : Char} {path : Text} (mem : c ∈ normalizeObjectName path) :
    c = '/' ∨ c ∈ path := by
  obtain slash | ⟨part, there, inside⟩ := Text.mem_intercalate mem
  · exact .inl slash
  · have piece := (mem_keepSegments there).resolve_left List.not_mem_nil
    have whole : c ∈ ['/'].intercalate (path.splitOn '/') :=
      Text.mem_intercalate_of_mem (List.mem_of_mem_filter piece) inside
    rw [List.intercalate_splitOn] at whole
    exact .inr whole

section Locate

variable {bucket key : Text}

theorem minio_lower : IsLowerScheme "minio".toList := by
  unfold IsLowerScheme
  decide

def objectURL (bucket key : Text) : Text := "minio://".toList ++ bucket ++ '/' :: key

theorem urlsplit_objectURL (rules : UrlRules) (name : IsBucketName bucket) (key : Text) :
    ∃ parsed, urlsplit rules (objectURL bucket key) = .ok parsed ∧
      parsed.scheme.map Char.toLower = "minio".toList ∧ parsed.netloc = bucket ∧
        lstripSlash parsed.path = lstripSlash (shownPath key) := by
  have parts : objectURL bucket key =
      "minio".toList ++ ':' :: '/' :: '/' :: (bucket ++ '/' :: key) := by
    unfold objectURL
    rw [List.append_assoc]
    rfl
  obtain ⟨query, fragment, split⟩ := urlsplit_append rules minio_lower (isPlain_of_bucket name).2
  rw [parts]
  exact ⟨_, split, minio_lower.2, rfl, List.dropWhile_cons_of_pos rfl⟩

theorem locate_objectURL (worker : WorkerConfig) (kind : String) (objectName : Text → Text)
    (name : IsBucketName bucket) :
    locateObject worker kind objectName (objectURL bucket key) =
      if objectName (lstripSlash (shownPath key)) = [] then
        .error "invalid minio URL: missing bucket or object name"
      else .ok (bucket, objectName (lstripSlash (shownPath key))) := by
  obtain ⟨parsed, split, scheme, netloc, path⟩ := urlsplit_objectURL worker.rules name key
  have named := (isPlain_of_bucket name).1
  unfold locateObject
  rw [split]
  dsimp only
  rw [if_neg (not_not.mpr scheme), netloc, path, if_neg named]
  by_cases gone : objectName (lstripSlash (shownPath key)) = []
  · rw [if_pos gone, if_pos (.inr gone)]
  · rw [if_neg gone, if_neg (not_or.mpr ⟨named, gone⟩)]

theorem lstripSlash_shown (front : key.head? ≠ some '/') (kept : ∀ c ∈ key, isLost c = false) :
    lstripSlash (shownPath key) = key := by
  rw [shownPath_eq_self kept]
  cases key with
  | nil => rfl
  | cons c rest =>
    have other : c ≠ '/' := fun same => front (by rw [same]; rfl)
    exact List.dropWhile_cons_of_neg (by simpa using other)

theorem locate_iff (worker : WorkerConfig) (kind : String) (objectName : Text → Text)
    (name : IsBucketName bucket) (filled : key ≠ []) (front : key.head? ≠ some '/')
    (same : objectName key = key) (within : ∀ path, ∀ c ∈ objectName path, c = '/' ∨ c ∈ path) :
    locateObject worker kind objectName (objectURL bucket key) = .ok (bucket, key) ↔
      ∀ c ∈ key, isLost c = false := by
  rw [locate_objectURL worker kind objectName name]
  constructor
  · intro found c mem
    split at found
    · cases found
    · rw [← (Prod.mk.inj (Except.ok.inj found)).2] at mem
      rcases within _ c mem with rfl | inside
      · decide
      · exact mem_shownPath (List.dropWhile_subset _ inside)
  · intro kept
    rw [lstripSlash_shown front kept, same, if_neg filled]

theorem validate_objectURL (name : IsBucketName bucket) (filled : key ≠ [])
    (front : key.head? ≠ some '/') (kept : ∀ c ∈ key, isLost c = false) (rules : UrlRules) :
    validatePdfURL rules (objectURL bucket key) = .ok () := by
  obtain ⟨parsed, split, scheme, netloc, path⟩ := urlsplit_objectURL rules name key
  unfold validatePdfURL
  rw [split]
  dsimp only
  rw [if_neg (not_not.mpr scheme), netloc, path, lstripSlash_shown front kept,
    if_neg (not_or.mpr ⟨(isPlain_of_bucket name).1, filled⟩)]

end Locate

theorem dispatchUpload_sent (cfg : ServiceConfig) (s : Gateway) (io : GatewayIO) (task : Task)
    (resource : Resource) :
    (dispatchUpload cfg s io task resource).queue =
        s.queue ++ (dispatch cfg.dispatcher io.reply task (some resource)).2 ∧
      (dispatchUpload cfg s io task resource).objects = s.objects := by
  unfold dispatchUpload dispatchTask
  dsimp only
  split
  · rename_i sent
    rw [← (Prod.mk.inj sent).2]
    exact ⟨rfl, rfl⟩
  · rename_i sent
    rw [← (Prod.mk.inj sent).2]
    unfold writeTask
    split <;> exact ⟨rfl, rfl⟩

theorem dispatch_sent {cfg : DispatcherConfig} {reply : DispatchReply} {task : Task}
    {resource : Resource} {message : Message}
    (sent : (dispatch cfg reply task (some resource)).2 = [message]) :
    buildDispatchRequest cfg task resource = .ok message := by
  have built {queued : Bool} {other : Message} (is : queuedIf queued other = [message]) :
      other = message := by
    unfold queuedIf at is
    split at is
    · exact List.singleton_inj.mp is
    · cases is
  unfold dispatch at sent
  split at sent
  · cases sent
  · rename_i there present
    have this := (Option.filter_eq_some_iff.mp present).1
    rw [Option.some.inj this]
    split at sent
    · cases sent
    · rename_i other request
      rw [request]
      cases reply with
      | malformed cause => cases sent
      | unreachable queued => rw [built sent]
      | answered status queued accepted =>
        dsimp only at sent
        split at sent
        · rw [built sent]
        · split at sent <;> rw [built sent]

theorem fetched_request (worker : WorkerConfig) {cfg : DispatcherConfig} {task : Task}
    {resource : Resource} {message : Message}
    (built : buildDispatchRequest cfg task resource = .ok message) :
    fetched worker message.payload =
        downloadAudio worker (objectURL cfg.bucket resource.storageKey) ∨
      fetched worker message.payload =
        match validatePdfURL worker.rules (objectURL cfg.bucket resource.storageKey) with
        | .error cause => .error cause
        | .ok () => downloadFile worker (objectURL cfg.bucket resource.storageKey) := by
  unfold buildDispatchRequest at built
  split at built
  · rw [← Except.ok.inj built]
    exact .inl rfl
  · split at built
    · rw [← Except.ok.inj built]
      exact .inr rfl
    · cases built

theorem validateUpload_header {io : GatewayIO} {req : UploadRequest} {header : FileHeader}
    (valid : validateUpload io req = .ok header) : req.header = some header := by
  unfold validateUpload at valid
  split at valid
  · cases valid
  · rename_i found
    split at valid
    · cases valid
    · split at valid
      · cases valid
      · split at valid
        · cases valid
        · split at valid
          · cases valid
          · rw [found, Except.ok.inj valid]

theorem upload_stores {cfg : ServiceConfig} {s : Gateway} {io : GatewayIO} {req : UploadRequest}
    {message : Message} (queued : (upload cfg s io req).2.queue = s.queue ++ [message]) :
    ∃ header task resource, req.header = some header ∧
      (upload cfg s io req).2.objects = s.objects ++ [resource.storageKey] ∧
      resource.storageKey = storageKey req.userUUID io.resourceUUID header.filename ∧
      buildDispatchRequest cfg.dispatcher task resource = .ok message := by
  have silent {queue : List Message} (kept : queue = s.queue)
      (more : queue = s.queue ++ [message]) : False := by
    rw [kept, List.self_eq_append_right] at more
    exact List.cons_ne_nil _ _ more
  rcases GatewayRuns.upload_cases cfg s io req with none | ⟨header, s₁, valid, stored, back | ends⟩
  · exact (silent (congrArg Gateway.queue none) queued).elim
  · rw [back, GatewayRuns.removeObject_queue] at queued
    exact (silent stored.queue queued).elim
  · obtain ⟨resource, task, s₂, row, made, after⟩ := ends
    have inserted := (GatewayRuns.createTask_ok made).2.2
    have queue₂ : s₂.queue = s.queue := by rw [inserted, ← stored.queue]
    by_cases auto : shouldAutoDispatch resource.type = true
    · rw [if_pos auto] at after
      obtain ⟨queue, objects⟩ := dispatchUpload_sent cfg s₂ io task resource
      rw [after, queue, queue₂] at queued
      have key : resource.storageKey =
          storageKey req.userUUID io.resourceUUID header.filename := by
        rw [row]
        rfl
      refine ⟨header, task, resource, validateUpload_header valid, ?_, key,
        dispatch_sent (List.append_cancel_left queued)⟩
      rw [after, objects, inserted, key, ← stored.objects]
    · rw [if_neg auto] at after
      rw [after] at queued
      exact (silent queue₂ queued).elim

theorem lost_storageKey {user resource filename : Text} (hu : IsUUID user) (hr : IsUUID resource) :
    (∀ c ∈ storageKey user resource filename, isLost c = false) ↔
      ∀ c ∈ pathBase filename, isLost c = false := by
  have file : ∀ c, isLost c = true → (c ∈ sanitizeFilename filename ↔ c ∈ pathBase filename) := by
    intro c lost
    refine mem_sanitizeFilename fun mem => ?_
    have fine : ∀ c ∈ "._/unamed".toList, isLost c = false :=
      List.forall_iff_forall_mem.mp (by decide)
    rw [fine c mem] at lost
    exact Bool.false_ne_true lost
  constructor
  · intro kept c mem
    by_contra lost
    rw [Bool.not_eq_false] at lost
    have inside : c ∈ storageKey user resource filename := by
      unfold storageKey
      exact List.mem_append_right _ (List.mem_cons_of_mem _ (List.mem_append_right _
        (List.mem_cons_of_mem _ ((file c lost).mpr mem))))
    rw [kept c inside] at lost
    exact Bool.false_ne_true lost
  · intro kept c mem
    unfold storageKey at mem
    rcases List.mem_append.mp mem with inUser | rest
    · exact (uuid_char hu inUser).2.2
    · rcases List.mem_cons.mp rest with rfl | rest
      · decide
      · rcases List.mem_append.mp rest with inResource | rest
        · exact (uuid_char hr inResource).2.2
        · rcases List.mem_cons.mp rest with rfl | inFile
          · decide
          · by_contra lost
            rw [Bool.not_eq_false] at lost
            rw [kept c ((file c lost).mp inFile)] at lost
            exact Bool.false_ne_true lost

theorem fetched_iff {worker : WorkerConfig} {cfg : DispatcherConfig} {task : Task}
    {resource : Resource} {message : Message} (bucket : IsBucketName cfg.bucket)
    (filled : resource.storageKey ≠ []) (front : resource.storageKey.head? ≠ some '/')
    (normal : normalizeObjectName resource.storageKey = resource.storageKey)
    (built : buildDispatchRequest cfg task resource = .ok message) :
    fetched worker message.payload = .ok (cfg.bucket, resource.storageKey) ↔
      ∀ c ∈ resource.storageKey, isLost c = false := by
  have pdf := locate_iff worker "PDF" normalizeObjectName bucket filled front normal
    fun _ _ mem => mem_normalizeObjectName mem
  rcases fetched_request worker built with audio | checked
  · rw [audio]
    exact locate_iff worker "audio" id bucket filled front rfl fun _ _ mem => .inr mem
  · rw [checked]
    constructor
    · intro found
      split at found
      · cases found
      · exact pdf.mp found
    · intro kept
      rw [validate_objectURL bucket filled front kept]
      exact pdf.mpr kept

/-- The bucket and the name that the worker of an upload's task fetches are those under which the
file is stored exactly when the base of the file name has none of the five characters. -/
theorem upload_fetched_iff (worker : WorkerConfig) (cfg : ServiceConfig) (s : Gateway)
    (io : GatewayIO) (req : UploadRequest) (message : Message) (key : Text)
    (bucket : IsBucketName cfg.dispatcher.bucket) (user : IsUUID req.userUUID)
    (resource : IsUUID io.resourceUUID)
    (queued : (upload cfg s io req).2.queue = s.queue ++ [message])
    (stored : (upload cfg s io req).2.objects = s.objects ++ [key]) :
    fetched worker message.payload = .ok (cfg.dispatcher.bucket, key) ↔
      ∀ header ∈ req.header, ∀ c ∈ pathBase header.filename, isLost c = false := by
  obtain ⟨header, task, row, there, objects, rowKey, built⟩ := upload_stores queued
  have same : row.storageKey = key := by
    rw [objects] at stored
    exact List.singleton_inj.mp (List.append_cancel_left stored)
  have filled : row.storageKey ≠ [] := by
    rw [rowKey, storageKey]
    exact List.append_ne_nil_of_right_ne_nil _ (List.cons_ne_nil _ _)
  have front : row.storageKey.head? ≠ some '/' := by
    rw [rowKey, storageKey]
    intro slash
    rw [List.head?_append_of_ne_nil _ (uuid_segment user).2.1] at slash
    exact (uuid_segment user).1 (List.mem_of_head? slash)
  have normal : normalizeObjectName row.storageKey = row.storageKey := by
    rw [rowKey]
    exact normalize_key (uuid_segment user) (uuid_segment resource)
      (sanitizeFilename_segment header.filename)
  rw [← same, fetched_iff bucket filled front normal built, rowKey, lost_storageKey user resource,
    there]
  constructor
  · intro kept other mem
    rw [← Option.some.inj mem]
    exact kept
  · intro kept
    exact kept header rfl

def teacherUUID : Text := "7b2e9f40-1c3d-4a5b-8e6f-0d9c8b7a6f5e".toList

def pdfNamed (filename : String) : UploadRequest :=
  ⟨some ⟨filename.toList, 1024, "application/pdf".toList⟩, 1, teacherUUID, true⟩

def pdfIO : GatewayIO where
  taskUUID := GatewayRuns.lectureTask
  resourceUUID := GatewayRuns.lectureUUID
  detected := "application/pdf".toList

def afterPdf (filename : String) : Gateway :=
  (upload GatewayRuns.serviceConfig GatewayRuns.noTasks pdfIO (pdfNamed filename)).2

def pdfKey (filename : String) : Text :=
  teacherUUID ++ '/' :: (GatewayRuns.lectureUUID ++ '/' :: filename.toList)

def pdfMessage (filename : String) : Message :=
  ⟨"http://ai:8000/ai/v1/pdf/parse".toList,
    .pdf GatewayRuns.lectureTask GatewayRuns.lectureUUID "1".toList
      (objectURL "mkc".toList (pdfKey filename))⟩

def asciiWorker : WorkerConfig := ⟨⟨id, fun _ => false⟩, []⟩

theorem upload_fetched_plain :
    fetched asciiWorker (pdfMessage "Lecture 5.pdf").payload =
      .ok ("mkc".toList, pdfKey "Lecture 5.pdf") :=
  (upload_fetched_iff asciiWorker GatewayRuns.serviceConfig GatewayRuns.noTasks pdfIO
    (pdfNamed "Lecture 5.pdf") (pdfMessage "Lecture 5.pdf") (pdfKey "Lecture 5.pdf")
    (by decide +kernel) (by decide +kernel) (by decide +kernel) (by decide +kernel)
    (by decide +kernel)).mpr fun header mem => by
      rw [← Option.some.inj mem]
      exact List.forall_iff_forall_mem.mp (by decide +kernel)

/-- A hash in the name: another object is asked for. -/
theorem hash_fetched_elsewhere :
    (IsBucketName GatewayRuns.serviceConfig.dispatcher.bucket ∧ IsUUID teacherUUID ∧
        IsUUID pdfIO.resourceUUID) ∧
      (afterPdf "C#.pdf").queue = [pdfMessage "C#.pdf"] ∧
      (afterPdf "C#.pdf").objects = [pdfKey "C#.pdf"] ∧
      fetched asciiWorker (pdfMessage "C#.pdf").payload = .ok ("mkc".toList, pdfKey "C") ∧
      pdfKey "C" ≠ pdfKey "C#.pdf" := by
  refine ⟨by decide +kernel, by decide +kernel, by decide +kernel, ?_, by decide +kernel⟩
  decide +kernel

end KnowledgeCompanion.ObjectLocation
