import Mathlib.Algebra.Order.Ring.Rat
import Mathlib.Data.List.Chain
import Mathlib.Data.Rat.Floor
import KnowledgeCompanion.CeleryHooks
import KnowledgeCompanion.SegmentMerger

/-! The attempts of the transcription task (`tasks/asr_task.py`), from the lazy load of the
speech model (`services/whisper_engine.py`) through the service that wraps what it raises
(`services/asr_service.py`) to Celery's retries. Reports to the gateway raise nothing, and
the task enqueued after a success changes nothing here. -/

namespace KnowledgeCompanion.AsrTask

open PythonText CeleryHooks SegmentMerger

structure AsrTaskRequest where
  taskID : Text
  resourceID : Text
  userID : Text
  audioURL : Text
  language : Option Text
  model : Option Text
deriving DecidableEq

structure AsrResult where
  taskID : Text
  resourceID : Text
  segments : List AsrSegment
  text : Text
  duration : Option ℚ
  transcriptURL : Option Text
  subtitleURL : Option Text
deriving DecidableEq

structure RawSegment where
  start : ℚ
  stop : ℚ
  text : Text
  confidence : Option ℚ

structure World where
  /-- Building the service; only the engine raises `ModelLoadError`. -/
  setup : Option { exc : Exc // exc.name ≠ "ModelLoadError" }
  download : Text → Option Exc
  convertToWav : Option Exc
  getDuration : Except Exc ℚ
  /-- Whether `faster_whisper` can be imported. -/
  installed : Bool
  /-- The text of the exception of building the model of a name. -/
  whisperModel : Text → Option Text
  /-- The call of the model: its segments and the exception that breaks them off. -/
  decode : Option Text → Except Exc (List RawSegment × Option Exc)
  /-- The text in which a segment is refused. -/
  refusal : RawSegment → Text
  clean : List AsrSegment → Except Exc (List AsrSegment)
  uploadJson : List AsrSegment → Text → Except Exc Text
  outputFormat : Text
  generate : List AsrSegment → Option Text → Except Exc Text
  saveToMinio : Text → Text → Except Exc Text

/-- The entries of `settings.ai_config["asr"]` that decide about models and progress. -/
structure AsrConfig where
  defaultModel : Text := "small".toList
  fallbackModel : Option Text
  progressInterval : ℚ := 5

def modelLoadError (message : Text) : Exc := ⟨"ModelLoadError", message⟩

def load (w : World) (modelName : Text) : Except Exc Unit :=
  if w.installed then
    match w.whisperModel modelName with
    | none => .ok ()
    | some message =>
      .error (modelLoadError ("failed to load whisper model ".toList ++ modelName ++ ": ".toList ++
        message))
  else .error (modelLoadError "faster-whisper is not installed".toList)

def yielded (raw : RawSegment) : RawSegment := { raw with text := strip raw.text }

/-- The dictionaries that the generator yields, and the exception that ends it; a new
engine has no model and loads it first. -/
def transcribe (w : World) (modelName : Text) (language : Option Text) :
    List RawSegment × Option Exc :=
  match load w modelName with
  | .error exc => ([], some exc)
  | .ok () =>
    match w.decode language with
    | .error exc => ([], some exc)
    | .ok (segments, broken) => (segments.map yielded, broken)

def asrProcessingError (message : Text) : Exc := ⟨"AsrProcessingError", message⟩

def asrSegment (raw : RawSegment) : AsrSegment :=
  ⟨raw.start.toNNRat, raw.stop.toNNRat, raw.text, raw.confidence⟩

def validSegment (w : World) (raw : RawSegment) : Except Exc AsrSegment :=
  if 0 ≤ raw.start ∧ 0 ≤ raw.stop then .ok (asrSegment raw)
  else .error ⟨"ValidationError", w.refusal raw⟩

def progressAfter (interval duration : ℚ) (lastReported : ℤ) (segment : AsrSegment) : Option ℤ :=
  if 0 < duration then
    let progress := ⌊min ((segment.stop : ℚ) / duration * 100) 100⌋
    if interval ≤ ((progress - lastReported : ℤ) : ℚ) ∨ 100 ≤ progress then some progress else none
  else none

def collect (w : World) (interval duration : ℚ) (broken : Option Exc) (lastReported : ℤ) :
    List RawSegment → List ℤ × Except Exc (List AsrSegment)
  | [] =>
    match broken with
    | some exc => ([], .error exc)
    | none => ([], .ok [])
  | raw :: rest =>
    match validSegment w raw with
    | .error exc => ([], .error exc)
    | .ok segment =>
      let reported := progressAfter interval duration lastReported segment
      let later := collect w interval duration broken (reported.getD lastReported) rest
      (reported.toList ++ later.1, later.2.map (segment :: ·))

def wrapped (exc : Exc) : Exc := asrProcessingError ("transcription failed: ".toList ++ exc.message)

def transcribeWithProgress (w : World) (cfg : AsrConfig) (modelName : Text) (task : AsrTaskRequest)
    (duration : ℚ) : List ℤ × Except Exc (List AsrSegment) :=
  let stream := transcribe w modelName task.language
  let collected := collect w cfg.progressInterval duration stream.2 0 stream.1
  (collected.1, collected.2.mapError wrapped)

def joinSegments (segments : List AsrSegment) (language : Option Text) : Text :=
  if spacelessLanguages.any (some · == language) then (segments.map AsrSegment.text).flatten
  else [' '].intercalate (segments.map AsrSegment.text)

def transcriptKey (taskID : Text) : Text :=
  "results/".toList ++ taskID ++ "/transcript.json".toList

def subtitleKey (taskID outputFormat : Text) : Text :=
  "results/".toList ++ taskID ++ "/subtitle.".toList ++ outputFormat

def raising : Option Exc → Except Exc Unit
  | some exc => .error exc
  | none => .ok ()

def prepare (w : World) (task : AsrTaskRequest) : Except Exc ℚ := do
  raising (w.download task.audioURL)
  raising w.convertToWav
  w.getDuration

def finish (w : World) (task : AsrTaskRequest) (duration : ℚ) (segments : List AsrSegment) :
    Except Exc AsrResult := do
  let cleaned ← w.clean segments
  let transcriptURL ← w.uploadJson cleaned (transcriptKey task.taskID)
  let content ← w.generate cleaned task.language
  let subtitleURL ← w.saveToMinio content (subtitleKey task.taskID w.outputFormat)
  return { taskID := task.taskID
           resourceID := task.resourceID
           segments := cleaned
           text := joinSegments cleaned task.language
           duration := some duration
           transcriptURL := some transcriptURL
           subtitleURL := some subtitleURL }

/-- The exceptions that `process` raises again as they are. -/
def passedOn : List String :=
  ["AudioProcessingError", "SubtitleGenerationError", "AsrProcessingError"]

def handled (exc : Exc) : Exc :=
  if exc.name ∈ passedOn then exc else asrProcessingError exc.message

def process (w : World) (cfg : AsrConfig) (modelName : Text) (task : AsrTaskRequest) :
    List ℤ × Except Exc AsrResult :=
  match prepare w task with
  | .error exc => ([], .error (handled exc))
  | .ok duration =>
    let transcribed := transcribeWithProgress w cfg modelName task duration
    (transcribed.1, (transcribed.2.bind (finish w task duration)).mapError handled)

structure TaskOptions where
  autoretryFor : Exc → Bool
  maxRetries : ℕ

def baseAITask : TaskOptions := ⟨fun _ => true, 3⟩

/-- `@celery_app.task(bind=True, base=BaseAITask, autoretry_for=())` -/
def runAsrTask : TaskOptions := { baseAITask with autoretryFor := fun _ => false }

inductive Value
  | text (t : Text)
  | payload (task : AsrTaskRequest)
deriving DecidableEq

structure Request where
  args : List Value
  kwargs : List (String × Value)
  retries : ℕ
deriving DecidableEq

/-- What the packages answer: the `max_retries` of a request, if it has one, the text of
`MaxRetriesExceededError`, and the text in which a payload is refused. -/
structure Packages where
  requestMaxRetries : Request → Option ℕ
  exhausted : Request → Text
  refusal : Text → Text

def parameters : List String := ["task_id", "payload"]

def typeError (message : String) : Exc := ⟨"TypeError", ("run_asr() " ++ message).toList⟩

def assign (given : List (String × Value)) :
    List (String × Value) → Except Exc (List (String × Value))
  | [] => .ok given
  | (name, value) :: rest =>
    if name ∉ parameters then
      .error (typeError ("got an unexpected keyword argument '" ++ name ++ "'"))
    else if name ∈ given.map Prod.fst then
      .error (typeError ("got multiple values for argument '" ++ name ++ "'"))
    else assign (given ++ [(name, value)]) rest

def missing : List String → String
  | [name] => "missing 1 required positional argument: '" ++ name ++ "'"
  | _ => "missing 2 required positional arguments: 'task_id' and 'payload'"

/-- The values of `task_id` and `payload` in the call `run_asr(*args, **kwargs)`. -/
def bindArguments (request : Request) : Except Exc (Value × Value) := do
  let given ← assign (parameters.zip request.args) request.kwargs
  if parameters.length < request.args.length then
    .error (typeError ("takes 3 positional arguments but " ++
      toString (request.args.length + 1) ++ " were given"))
  else
    match given.lookup "task_id", given.lookup "payload" with
    | some taskID, some payload => .ok (taskID, payload)
    | _, _ => .error (typeError (missing (parameters.filter (· ∉ given.map Prod.fst))))

inductive Ending
  | returned (result : AsrResult)
  | retried (next : Request)
  | raised (exc : Exc)
deriving DecidableEq

structure Attempt where
  request : Request
  model : Option Text
  loadFailed : Bool
  progress : List ℤ
  ending : Ending
deriving DecidableEq

def truthy (name : Option Text) : Option Text := name.filter (· ≠ [])

/-- `Task.retry`: arguments that are not passed are those of the request. -/
def retry (packages : Packages) (opts : TaskOptions) (request : Request)
    (args : Option (List Value)) (exc : Option Exc) : Ending :=
  let next : Request := ⟨args.getD request.args, request.kwargs, request.retries + 1⟩
  if opts.maxRetries < next.retries then
    .raised (exc.getD ⟨"MaxRetriesExceededError", packages.exhausted next⟩)
  else .retried next

def onModelLoadError (packages : Packages) (opts : TaskOptions) (cfg : AsrConfig)
    (request : Request) (taskID : Value) (task : AsrTaskRequest) (exc : Exc) : Ending :=
  match packages.requestMaxRetries request with
  | none =>
    .raised ⟨"AttributeError", "'Context' object has no attribute 'max_retries'".toList⟩
  | some limit =>
    if request.retries < limit then
      let task := match truthy cfg.fallbackModel with
        | some fallback => { task with model := some fallback }
        | none => task
      retry packages opts request (some [taskID, .payload task]) none
    else .raised exc

def attemptTask (cfg : AsrConfig) (request : Request) (task : AsrTaskRequest) : AsrTaskRequest :=
  match truthy cfg.fallbackModel with
  | some fallback =>
    if 0 < request.retries ∧ task.model ≠ some fallback then { task with model := some fallback }
    else task
  | none => task

def effectiveModel (cfg : AsrConfig) (task : AsrTaskRequest) : Text :=
  (truthy task.model).getD cfg.defaultModel

def succeeds {α : Type} : Except Exc α → Bool
  | .ok _ => true
  | .error _ => false

/-- The body of `run_asr` after its payload is validated. -/
def runAsr (packages : Packages) (opts : TaskOptions) (cfg : AsrConfig) (w : World)
    (request : Request) (taskID : Value) (payload : AsrTaskRequest) : Attempt :=
  let task := attemptTask cfg request payload
  let modelName := effectiveModel cfg task
  match w.setup with
  | some exc => ⟨request, some modelName, false, [], .raised exc⟩
  | none =>
    let processed := process w cfg modelName task
    { request
      model := some modelName
      loadFailed := succeeds (prepare w task) && !succeeds (load w modelName)
      progress := processed.1
      ending := match processed.2 with
        | .ok result => .returned result
        | .error exc =>
          if exc.name = "ModelLoadError" then
            onModelLoadError packages opts cfg request taskID task exc
          else .raised exc }

def call (packages : Packages) (opts : TaskOptions) (cfg : AsrConfig) (w : World)
    (request : Request) : Attempt :=
  match bindArguments request with
  | .ok (taskID, .payload payload) => runAsr packages opts cfg w request taskID payload
  | .ok (_, .text text) =>
    ⟨request, none, false, [], .raised ⟨"ValidationError", packages.refusal text⟩⟩
  | .error exc => ⟨request, none, false, [], .raised exc⟩

def execute (packages : Packages) (opts : TaskOptions) (cfg : AsrConfig) (w : World)
    (request : Request) : Attempt :=
  let attempt := call packages opts cfg w request
  match attempt.ending with
  | .raised exc =>
    if opts.autoretryFor exc then
      { attempt with ending := retry packages opts request none (some exc) }
    else attempt
  | _ => attempt

def attempts (packages : Packages) (opts : TaskOptions) (cfg : AsrConfig) (worlds : ℕ → World) :
    ℕ → Request → List Attempt
  | 0, _ => []
  | fuel + 1, request =>
    let attempt := execute packages opts cfg (worlds request.retries) request
    match attempt.ending with
    | .retried next => attempt :: attempts packages opts cfg worlds fuel next
    | _ => [attempt]

def dispatch (task : AsrTaskRequest) : Request :=
  ⟨[], [("task_id", .text task.taskID), ("payload", .payload task)], 0⟩

structure Answers where
  duration : ℚ
  decoded : List RawSegment
  cleaned : List AsrSegment
  transcriptURL : Text
  content : Text
  subtitleURL : Text

/-- Every call of an attempt answers with its value, and no segment has a negative time. -/
structure Answered (w : World) (modelName : Text) (task : AsrTaskRequest) (a : Answers) : Prop where
  download : w.download task.audioURL = none
  convertToWav : w.convertToWav = none
  getDuration : w.getDuration = .ok a.duration
  installed : w.installed = true
  whisperModel : w.whisperModel modelName = none
  decode : w.decode task.language = .ok (a.decoded, none)
  times : ∀ raw ∈ a.decoded, 0 ≤ raw.start ∧ 0 ≤ raw.stop
  clean : w.clean (a.decoded.map fun raw => asrSegment (yielded raw)) = .ok a.cleaned
  uploadJson : w.uploadJson a.cleaned (transcriptKey task.taskID) = .ok a.transcriptURL
  generate : w.generate a.cleaned task.language = .ok a.content
  saveToMinio : w.saveToMinio a.content (subtitleKey task.taskID w.outputFormat) =
    .ok a.subtitleURL

def Undisturbed (w : World) (modelName : Text) (task : AsrTaskRequest) : Prop :=
  w.setup = none ∧ ∃ a, Answered w modelName task a

theorem bind_ok {α β : Type} {x : Except Exc α} {f : α → Except Exc β} {b : β} :
    x.bind f = .ok b ↔ ∃ a, x = .ok a ∧ f a = .ok b := by
  cases x <;> simp [Except.bind]

theorem map_ok {α β : Type} {x : Except Exc α} {f : α → β} {b : β} :
    x.map f = .ok b ↔ ∃ a, x = .ok a ∧ f a = b := by
  cases x <;> simp [Except.map]

theorem mapError_ok {α : Type} {x : Except Exc α} {f : Exc → Exc} {a : α} :
    x.mapError f = .ok a ↔ x = .ok a := by
  cases x <;> simp [Except.mapError]

theorem mapError_error {α : Type} {x : Except Exc α} {f : Exc → Exc} {exc : Exc} :
    x.mapError f = .error exc ↔ ∃ raised, x = .error raised ∧ f raised = exc := by
  cases x <;> simp [Except.mapError]

theorem raising_ok {exc : Option Exc} {done : Unit} : raising exc = .ok done ↔ exc = none := by
  cases exc <;> simp [raising]

theorem load_ok {w : World} {modelName : Text} :
    load w modelName = .ok () ↔ w.installed = true ∧ w.whisperModel modelName = none := by
  unfold load
  cases w.installed <;> cases w.whisperModel modelName <;> simp

theorem prepare_ok {w : World} {task : AsrTaskRequest} {duration : ℚ} :
    prepare w task = .ok duration ↔
      w.download task.audioURL = none ∧ w.convertToWav = none ∧ w.getDuration = .ok duration := by
  simp only [prepare, bind, bind_ok, raising_ok, exists_const]

theorem collect_ok {w : World} {interval duration : ℚ} {broken : Option Exc}
    {raws : List RawSegment} {segments : List AsrSegment} (lastReported : ℤ) :
    (collect w interval duration broken lastReported raws).2 = .ok segments ↔
      broken = none ∧ (∀ raw ∈ raws, 0 ≤ raw.start ∧ 0 ≤ raw.stop) ∧
        raws.map asrSegment = segments := by
  induction raws generalizing lastReported segments with
  | nil => cases broken <;> simp [collect, eq_comm]
  | cons raw rest ih =>
    unfold collect validSegment
    by_cases valid : 0 ≤ raw.start ∧ 0 ≤ raw.stop
    · rw [if_pos valid]
      simp only [map_ok, ih, List.map_cons, List.forall_mem_cons]
      constructor
      · rintro ⟨later, ⟨whole, times, rfl⟩, rfl⟩
        exact ⟨whole, ⟨valid, times⟩, rfl⟩
      · rintro ⟨whole, ⟨-, times⟩, rfl⟩
        exact ⟨_, ⟨whole, times, rfl⟩, rfl⟩
    · rw [if_neg valid]
      simp [valid]

theorem transcribe_ok {w : World} {cfg : AsrConfig} {modelName : Text} {task : AsrTaskRequest}
    {duration : ℚ} {segments : List AsrSegment} :
    (transcribeWithProgress w cfg modelName task duration).2 = .ok segments ↔
      load w modelName = .ok () ∧ ∃ decoded, w.decode task.language = .ok (decoded, none) ∧
        (∀ raw ∈ decoded, 0 ≤ raw.start ∧ 0 ≤ raw.stop) ∧
          decoded.map (fun raw => asrSegment (yielded raw)) = segments := by
  simp only [transcribeWithProgress, mapError_ok, collect_ok, transcribe]
  cases load w modelName with
  | error exc => simp
  | ok loaded =>
    cases w.decode task.language with
    | error exc => simp
    | ok stream =>
      obtain ⟨decoded, broken⟩ := stream
      cases broken with
      | some exc => simp
      | none => simp [yielded, Function.comp_def]

theorem finish_ok {w : World} {task : AsrTaskRequest} {duration : ℚ} {segments : List AsrSegment} :
    (∃ result, finish w task duration segments = .ok result) ↔
      ∃ cleaned transcriptURL content subtitleURL, w.clean segments = .ok cleaned ∧
        w.uploadJson cleaned (transcriptKey task.taskID) = .ok transcriptURL ∧
          w.generate cleaned task.language = .ok content ∧
            w.saveToMinio content (subtitleKey task.taskID w.outputFormat) = .ok subtitleURL := by
  simp only [finish, bind, bind_ok, pure, Except.pure]
  constructor
  · rintro ⟨_, cleaned, clean, transcriptURL, upload, content, generate, subtitleURL, save, -⟩
    exact ⟨cleaned, transcriptURL, content, subtitleURL, clean, upload, generate, save⟩
  · rintro ⟨cleaned, transcriptURL, content, subtitleURL, clean, upload, generate, save⟩
    exact ⟨_, cleaned, clean, transcriptURL, upload, content, generate, subtitleURL, save, rfl⟩

theorem process_ok {w : World} (cfg : AsrConfig) {modelName : Text} {task : AsrTaskRequest} :
    (∃ result, (process w cfg modelName task).2 = .ok result) ↔
      ∃ a, Answered w modelName task a := by
  constructor
  · rintro ⟨result, ok⟩
    unfold process at ok
    cases prepared : prepare w task with
    | error exc =>
      rw [prepared] at ok
      cases ok
    | ok duration =>
      rw [prepared] at ok
      obtain ⟨segments, transcribed, finished⟩ := bind_ok.mp (mapError_ok.mp ok)
      obtain ⟨download, convert, known⟩ := prepare_ok.mp prepared
      obtain ⟨loaded, decoded, decode, times, rfl⟩ := transcribe_ok.mp transcribed
      obtain ⟨installed, model⟩ := load_ok.mp loaded
      obtain ⟨cleaned, transcriptURL, content, subtitleURL, clean, upload, generate, save⟩ :=
        finish_ok.mp ⟨result, finished⟩
      exact ⟨⟨duration, decoded, cleaned, transcriptURL, content, subtitleURL⟩,
        ⟨download, convert, known, installed, model, decode, times, clean, upload, generate, save⟩⟩
  · rintro ⟨a, answered⟩
    have prepared : prepare w task = .ok a.duration :=
      prepare_ok.mpr ⟨answered.download, answered.convertToWav, answered.getDuration⟩
    have transcribed : (transcribeWithProgress w cfg modelName task a.duration).2 =
        .ok (a.decoded.map fun raw => asrSegment (yielded raw)) :=
      transcribe_ok.mpr ⟨load_ok.mpr ⟨answered.installed, answered.whisperModel⟩, a.decoded,
        answered.decode, answered.times, rfl⟩
    have finishes : ∃ result, finish w task a.duration
        (a.decoded.map fun raw => asrSegment (yielded raw)) = .ok result :=
      finish_ok.mpr ⟨a.cleaned, a.transcriptURL, a.content, a.subtitleURL, answered.clean,
        answered.uploadJson, answered.generate, answered.saveToMinio⟩
    obtain ⟨result, finished⟩ := finishes
    refine ⟨result, ?_⟩
    unfold process
    rw [prepared]
    exact mapError_ok.mpr (bind_ok.mpr ⟨_, transcribed, finished⟩)

theorem handled_passedOn (exc : Exc) : (handled exc).name ∈ passedOn := by
  unfold handled
  split
  · assumption
  · exact .tail _ (.tail _ (.head _))

theorem passedOn_ne {exc : Exc} (passed : exc.name ∈ passedOn) : exc.name ≠ "ModelLoadError" := by
  intro load
  rw [load] at passed
  exact absurd passed (by decide)

theorem process_error {w : World} {cfg : AsrConfig} {modelName : Text} {task : AsrTaskRequest}
    {exc : Exc} (failed : (process w cfg modelName task).2 = .error exc) :
    exc.name ∈ passedOn := by
  unfold process at failed
  split at failed
  · obtain rfl := Except.error.inj failed
    exact handled_passedOn _
  · obtain ⟨raised, -, rfl⟩ := mapError_error.mp failed
    exact handled_passedOn raised

variable (packages : Packages) (opts : TaskOptions) (cfg : AsrConfig)

theorem runAsr_ending (w : World) (request : Request) (taskID : Value) (payload : AsrTaskRequest) :
    (runAsr packages opts cfg w request taskID payload).ending =
      match w.setup with
      | some exc => .raised exc
      | none =>
        let task := attemptTask cfg request payload
        match (process w cfg (effectiveModel cfg task) task).2 with
        | .ok result => .returned result
        | .error exc => .raised exc := by
  unfold runAsr
  cases w.setup with
  | some exc => rfl
  | none =>
    dsimp only
    cases failed : (process w cfg (effectiveModel cfg (attemptTask cfg request payload))
        (attemptTask cfg request payload)).2 with
    | ok result => rfl
    | error exc =>
      exact if_neg (passedOn_ne (process_error failed))

theorem runAsr_returns (w : World) (request : Request) (taskID : Value)
    (payload : AsrTaskRequest) :
    (∃ result, (runAsr packages opts cfg w request taskID payload).ending = .returned result) ↔
      Undisturbed w (effectiveModel cfg (attemptTask cfg request payload))
        (attemptTask cfg request payload) := by
  rw [runAsr_ending, Undisturbed, ← process_ok cfg]
  cases w.setup with
  | some exc => simp
  | none =>
    dsimp only
    split
    · rename_i ok
      simp [ok]
    · rename_i failed
      simp [failed]

theorem runAsr_ends (w : World) (request : Request) (taskID : Value) (payload : AsrTaskRequest) :
    (∃ result, (runAsr packages opts cfg w request taskID payload).ending = .returned result) ∨
      ∃ exc, exc.name ≠ "ModelLoadError" ∧
        (runAsr packages opts cfg w request taskID payload).ending = .raised exc := by
  rw [runAsr_ending]
  split
  · rename_i exc _
    exact .inr ⟨exc, exc.property, rfl⟩
  · dsimp only
    split
    · exact .inl ⟨_, rfl⟩
    · rename_i failed
      exact .inr ⟨_, passedOn_ne (process_error failed), rfl⟩

theorem call_ends (w : World) (request : Request) :
    (∃ result, (call packages opts cfg w request).ending = .returned result) ∨
      ∃ exc, (call packages opts cfg w request).ending = .raised exc := by
  unfold call
  split
  · rename_i taskID payload _
    rcases runAsr_ends packages opts cfg w request taskID payload with
      returned | ⟨exc, -, raised⟩
    · exact .inl returned
    · exact .inr ⟨exc, raised⟩
  · exact .inr ⟨_, rfl⟩
  · exact .inr ⟨_, rfl⟩

theorem call_request (w : World) (request : Request) :
    (call packages opts cfg w request).request = request := by
  unfold call
  split
  · unfold runAsr
    split <;> rfl
  · rfl
  · rfl

def attemptRequest (task : AsrTaskRequest) (retries : ℕ) : Request :=
  { dispatch task with retries }

@[simp]
theorem attemptRequest_retries (task : AsrTaskRequest) (retries : ℕ) :
    (attemptRequest task retries).retries = retries := rfl

def supplied (request : Request) : List String :=
  parameters.take request.args.length ++ request.kwargs.map Prod.fst

def BoundOnce (request : Request) : Prop :=
  ∀ name ∈ parameters, (supplied request).count name = 1

theorem bind_attemptRequest (task : AsrTaskRequest) (retries : ℕ) :
    bindArguments (attemptRequest task retries) = .ok (.text task.taskID, .payload task) := rfl

theorem boundOnce_attemptRequest (task : AsrTaskRequest) (retries : ℕ) :
    BoundOnce (attemptRequest task retries) := by
  simp [BoundOnce, supplied, attemptRequest, dispatch, parameters]

theorem call_attemptRequest (w : World) (task : AsrTaskRequest) (retries : ℕ) :
    call packages opts cfg w (attemptRequest task retries) =
      runAsr packages opts cfg w (attemptRequest task retries) (.text task.taskID) task := by
  rw [call, bind_attemptRequest]

theorem retry_unbound {task retried : AsrTaskRequest} {retries : ℕ} {taskID : Value}
    {next : Request}
    (again : retry packages opts (attemptRequest task retries) (some [taskID, .payload retried])
      none = .retried next) :
    ¬ BoundOnce next ∧
      bindArguments next = .error (typeError "got multiple values for argument 'task_id'") := by
  unfold retry at again
  dsimp only at again
  split at again
  · cases again
  · obtain rfl := Ending.retried.inj again
    refine ⟨fun once => ?_, rfl⟩
    have twice := once "task_id" (by decide)
    simp [supplied, attemptRequest, dispatch, parameters] at twice

/-- What a sequence of attempts should look like. -/
structure AsDesigned (attempts : List Attempt) : Prop where
  final : ∀ a ∈ attempts, ∀ exc, a.ending = .raised exc → a.request.retries = opts.maxRetries
  bound : ∀ a ∈ attempts, 0 < a.request.retries → BoundOnce a.request
  fallback : attempts.IsChain fun a b => a.loadFailed = true →
    ∀ fallback, truthy cfg.fallbackModel = some fallback → b.model = some fallback

theorem attemptTask_first (task : AsrTaskRequest) :
    attemptTask cfg (dispatch task) task = task := by
  unfold attemptTask
  cases truthy cfg.fallbackModel with
  | none => rfl
  | some fallback => exact if_neg fun again => absurd again.1 (Nat.lt_irrefl 0)

theorem execute_runAsr (w : World) (request : Request) :
    execute packages runAsrTask cfg w request = call packages runAsrTask cfg w request := by
  unfold execute
  dsimp only
  split
  · exact if_neg Bool.false_ne_true
  · rfl

theorem attempts_runAsr (worlds : ℕ → World) (task : AsrTaskRequest) (fuel : ℕ) :
    attempts packages runAsrTask cfg worlds (fuel + 1) (dispatch task) =
      [call packages runAsrTask cfg (worlds 0) (dispatch task)] := by
  unfold attempts
  rw [execute_runAsr]
  dsimp only
  split
  · rename_i next again
    rcases call_ends packages runAsrTask cfg (worlds 0) (dispatch task) with
      ⟨result, ends⟩ | ⟨exc, ends⟩
    · cases ends.symm.trans again
    · cases ends.symm.trans again
  · rfl

/-- A dispatched transcription runs as designed exactly when nothing raises in its first
attempt. -/
theorem attempts_asDesigned_iff (worlds : ℕ → World) (task : AsrTaskRequest) :
    (∀ fuel, AsDesigned runAsrTask cfg
        (attempts packages runAsrTask cfg worlds fuel (dispatch task))) ↔
      Undisturbed (worlds 0) (effectiveModel cfg task) task := by
  have first : call packages runAsrTask cfg (worlds 0) (dispatch task) =
      runAsr packages runAsrTask cfg (worlds 0) (dispatch task) (.text task.taskID) task :=
    call_attemptRequest packages runAsrTask cfg (worlds 0) task 0
  have returns := runAsr_returns packages runAsrTask cfg (worlds 0) (dispatch task)
    (.text task.taskID) task
  rw [attemptTask_first, ← first] at returns
  rw [← returns]
  constructor
  · intro designed
    rcases call_ends packages runAsrTask cfg (worlds 0) (dispatch task) with
      returned | ⟨exc, raised⟩
    · exact returned
    · have one := designed 1
      rw [attempts_runAsr] at one
      have last := one.final _ (List.mem_singleton_self _) exc raised
      rw [call_request] at last
      simp [dispatch, runAsrTask, baseAITask] at last
  · rintro ⟨result, returned⟩ fuel
    cases fuel with
    | zero => exact ⟨by simp [attempts], by simp [attempts], .nil⟩
    | succ fuel =>
      rw [attempts_runAsr]
      refine ⟨?_, ?_, .singleton _⟩
      · intro a mem exc raised
        rw [List.mem_singleton.mp mem, returned] at raised
        cases raised
      · intro a mem again
        rw [List.mem_singleton.mp mem, call_request] at again
        exact absurd again (Nat.lt_irrefl 0)

def fallbackTiny : AsrConfig where
  fallbackModel := some "tiny".toList

def largeRequest : AsrTaskRequest where
  taskID := "t1".toList
  resourceID := "r1".toList
  userID := "u1".toList
  audioURL := "http://minio/a.mp3".toList
  language := some "zh".toList
  model := some "large-v3".toList

def smallWorker : World where
  setup := none
  download := fun _ => none
  convertToWav := none
  getDuration := .ok 2
  installed := true
  whisperModel := fun name =>
    if name = "large-v3".toList then some "out of memory".toList else none
  decode := fun _ => .ok ([⟨0, 2, " hello".toList, none⟩], none)
  refusal := fun _ => []
  clean := .ok
  uploadJson := fun _ key => .ok key
  outputFormat := "srt".toList
  generate := fun _ _ => .ok []
  saveToMinio := fun _ key => .ok key

def celeryPackages : Packages where
  requestMaxRetries := fun _ => none
  exhausted := fun _ => []
  refusal := fun _ => []

/-- The large model cannot be loaded, and the small one is never tried. -/
theorem fallback_never_tried :
    ¬ ∀ fuel, AsDesigned runAsrTask fallbackTiny
      (attempts celeryPackages runAsrTask fallbackTiny (fun _ => smallWorker) fuel
        (dispatch largeRequest)) := by
  intro designed
  have one := designed 1
  rw [attempts_runAsr] at one
  have ends : (call celeryPackages runAsrTask fallbackTiny smallWorker
      (dispatch largeRequest)).ending = .raised (wrapped (modelLoadError
        ("failed to load whisper model ".toList ++ "large-v3".toList ++ ": ".toList ++
          "out of memory".toList))) := rfl
  have last := one.final _ (List.mem_singleton_self _) _ ends
  rw [call_request] at last
  exact absurd last (by decide)

theorem truthy_ne_nil {name : Option Text} {fallback : Text} (h : truthy name = some fallback) :
    truthy (some fallback) = some fallback := by
  simp only [truthy, Option.filter_eq_some_iff] at h ⊢
  exact ⟨trivial, h.2⟩

theorem effectiveModel_retried {request : Request} (task : AsrTaskRequest) {fallback : Text}
    (again : 0 < request.retries) (configured : truthy cfg.fallbackModel = some fallback) :
    effectiveModel cfg (attemptTask cfg request task) = fallback := by
  have model : (attemptTask cfg request task).model = some fallback := by
    unfold attemptTask
    rw [configured]
    dsimp only
    split
    · rfl
    · rename_i same
      by_contra other
      exact same ⟨again, other⟩
  rw [effectiveModel, model, truthy_ne_nil configured, Option.getD_some]

theorem runAsr_model (w : World) (request : Request) (taskID : Value) (payload : AsrTaskRequest) :
    (runAsr packages opts cfg w request taskID payload).model =
      some (effectiveModel cfg (attemptTask cfg request payload)) := by
  unfold runAsr
  split <;> rfl

theorem execute_base (w : World) (task : AsrTaskRequest) {retries : ℕ} (within : retries ≤ 3) :
    let attempt := execute packages baseAITask cfg w (attemptRequest task retries)
    attempt.request = attemptRequest task retries ∧
      (0 < retries → ∀ fallback, truthy cfg.fallbackModel = some fallback →
        attempt.model = some fallback) ∧
      ((∃ result, attempt.ending = .returned result) ∨
        (retries = 3 ∧ ∃ exc, attempt.ending = .raised exc) ∨
        (retries < 3 ∧ attempt.ending = .retried (attemptRequest task (retries + 1)))) := by
  have model : 0 < retries → ∀ fallback, truthy cfg.fallbackModel = some fallback →
      (call packages baseAITask cfg w (attemptRequest task retries)).model = some fallback := by
    intro again fallback configured
    have retried : 0 < (attemptRequest task retries).retries := again
    rw [call_attemptRequest, runAsr_model, effectiveModel_retried cfg task retried configured]
  have same := call_request packages baseAITask cfg w (attemptRequest task retries)
  intro attempt
  rcases call_ends packages baseAITask cfg w (attemptRequest task retries) with
    ⟨result, ends⟩ | ⟨exc, ends⟩
  · have whole : attempt = call packages baseAITask cfg w (attemptRequest task retries) := by
      simp only [attempt, execute, ends]
    rw [whole]
    exact ⟨same, model, .inl ⟨result, ends⟩⟩
  · have whole : attempt = { call packages baseAITask cfg w (attemptRequest task retries) with
        ending := retry packages baseAITask (attemptRequest task retries) none (some exc) } := by
      simp only [attempt, execute, ends]
      rfl
    rw [whole]
    refine ⟨same, model, .inr ?_⟩
    dsimp only [retry]
    split
    · rename_i exhausted
      exact .inl ⟨by simp [baseAITask, attemptRequest] at exhausted; omega, _, rfl⟩
    · rename_i left
      exact .inr ⟨by simp [baseAITask, attemptRequest] at left; omega, rfl⟩

theorem asDesigned_nil : AsDesigned opts cfg [] :=
  ⟨fun _ mem => absurd mem List.not_mem_nil, fun _ mem => absurd mem List.not_mem_nil, .nil⟩

theorem asDesigned_cons {a : Attempt} {later : List Attempt} (designed : AsDesigned opts cfg later)
    (final : ∀ exc, a.ending = .raised exc → a.request.retries = opts.maxRetries)
    (bound : BoundOnce a.request)
    (fallback : ∀ b ∈ later.head?, ∀ fallback, truthy cfg.fallbackModel = some fallback →
      b.model = some fallback) :
    AsDesigned opts cfg (a :: later) := by
  refine ⟨?_, ?_, ?_⟩
  · exact List.forall_mem_cons.mpr ⟨final, designed.final⟩
  · exact List.forall_mem_cons.mpr ⟨fun _ => bound, designed.bound⟩
  · exact List.isChain_cons.mpr ⟨fun b first _ => fallback b first, designed.fallback⟩

theorem attempts_succ (worlds : ℕ → World) (fuel : ℕ) (request : Request) :
    attempts packages opts cfg worlds (fuel + 1) request =
      execute packages opts cfg (worlds request.retries) request ::
        match (execute packages opts cfg (worlds request.retries) request).ending with
        | .retried next => attempts packages opts cfg worlds fuel next
        | _ => [] := by
  simp only [attempts]
  split <;> rfl

theorem attempts_base (worlds : ℕ → World) (task : AsrTaskRequest) (fuel : ℕ) {retries : ℕ}
    (within : retries ≤ 3) :
    let run := attempts packages baseAITask cfg worlds fuel (attemptRequest task retries)
    AsDesigned baseAITask cfg run ∧
      (0 < retries → ∀ b ∈ run.head?, ∀ fallback, truthy cfg.fallbackModel = some fallback →
        b.model = some fallback) := by
  induction fuel generalizing retries with
  | zero => exact ⟨asDesigned_nil baseAITask cfg, fun _ b first => by cases first⟩
  | succ fuel ih =>
    obtain ⟨request, model, ends⟩ := execute_base packages cfg (worlds retries) task within
    have bound := boundOnce_attemptRequest task retries
    rw [← request] at bound
    rw [attempts_succ, attemptRequest_retries]
    refine ⟨?_, fun again b first => ?_⟩
    · rcases ends with ⟨result, returned⟩ | ⟨rfl, exc, raised⟩ | ⟨more, retried⟩
      · rw [returned]
        refine asDesigned_cons baseAITask cfg (asDesigned_nil baseAITask cfg) ?_ bound ?_
        · intro exc raised
          cases returned.symm.trans raised
        · intro b first
          cases first
      · rw [raised]
        refine asDesigned_cons baseAITask cfg (asDesigned_nil baseAITask cfg) ?_ bound ?_
        · intro _ _
          rw [request]
          rfl
        · intro b first
          cases first
      · obtain ⟨designed, fallback⟩ := ih (Nat.succ_le_of_lt more)
        rw [retried]
        refine asDesigned_cons baseAITask cfg designed ?_ bound (fallback (Nat.succ_pos retries))
        intro exc raised
        cases retried.symm.trans raised
    · rw [List.head?_cons] at first
      obtain rfl := Option.some.inj first
      exact model again

theorem attempts_base_asDesigned (worlds : ℕ → World) (task : AsrTaskRequest) (fuel : ℕ) :
    AsDesigned baseAITask cfg (attempts packages baseAITask cfg worlds fuel (dispatch task)) :=
  (attempts_base packages cfg worlds task fuel (Nat.zero_le 3)).1

/-- An attempt as the hooks of the worker process see it; `dump` writes its result. -/
def execution (dump : AsrResult → Text) (taskID : Text) (attempt : Attempt) : Execution where
  taskID := taskID
  retries := attempt.request.retries
  progress := attempt.progress
  inside := match attempt.ending with
    | .raised exc => some exc
    | _ => none
  result := match attempt.ending with
    | .returned result => some (dump result)
    | _ => none

theorem body_execution (celery : Celery) (url : Text) (inst : Instance) (dump : AsrResult → Text)
    (w : World)
    (request : Request) (taskID : Text) (payload : AsrTaskRequest) :
    let attempt := runAsr packages opts cfg w request (.text taskID) payload
    ∃ sent,
      (∃ result, attempt.ending = .returned result ∧
        body celery url CeleryHooks.runAsr inst (execution dump taskID attempt) =
          (.returned (some (dump result)), inst, sent)) ∨
      (∃ exc, attempt.ending = .raised exc ∧
        body celery url CeleryHooks.runAsr inst (execution dump taskID attempt) =
          (.raised exc, inst, sent)) := by
  intro attempt
  refine ⟨startedReports url CeleryHooks.runAsr (execution dump taskID attempt), ?_⟩
  rcases runAsr_ends packages opts cfg w request (.text taskID) payload with
    ⟨result, returned⟩ | ⟨exc, other, raised⟩
  · refine .inl ⟨result, returned, ?_⟩
    simp only [body, execution, attempt, returned]
  · refine .inr ⟨exc, raised, ?_⟩
    have passes : CeleryHooks.runAsr.catches exc = false := beq_false_of_ne other
    simp only [body, execution, attempt, raised, passes, Bool.not_false, if_true]

end KnowledgeCompanion.AsrTask
