import Mathlib.Data.List.Induction
import Mathlib.Data.List.Sort
import KnowledgeCompanion.GatewayRuns
import KnowledgeCompanion.JsonText
import KnowledgeCompanion.ObjectLocation

/-! The results of tasks as they are handed to users (`service/result_service.go`): the objects
that a worker named in its report become presigned URLs of the results bucket. -/

namespace KnowledgeCompanion.ResultService

open AppErrors KeyedTable TaskRecords TaskService GatewayRuns GuardedRun JsonText ObjectLocation

/-- The path that `url.Parse` finds, and what the storage answers for an object. -/
structure ResultConfig where
  resultsBucket : Text
  urlPath : Text → Except String Text
  presignedGetURL : Text → Except String Text

structure ResultFiles where
  transcriptURL : Option Text := none
  subtitleURL : Option Text := none
  parsedURL : Option Text := none

structure ResultSummary where
  taskID : Text
  status : TaskStatus
  files : ResultFiles
  metadata : List (Text × Json)

/-- `minioURLRegex`: the bucket ends at the first slash, and a key has no line break. -/
def matchMinioURL (raw : Text) : Option (Text × Text) :=
  if "minio://".toList <+: raw then
    let rest := raw.drop 8
    let bucket := rest.takeWhile (· != '/')
    let key := (rest.dropWhile (· != '/')).drop 1
    if bucket ≠ [] ∧ key ≠ [] ∧ '\n' ∉ key then some (bucket, key) else none
  else none

def parseMinIOURL (cfg : ResultConfig) (raw : Text) : Except String (Text × Text) :=
  match matchMinioURL raw with
  | some found => .ok found
  | none =>
    match cfg.urlPath raw with
    | .error cause => .error ("invalid minio url: " ++ cause)
    | .ok parsed =>
      let path := if parsed.head? = some '/' then parsed.drop 1 else parsed
      match path.dropWhile (· != '/') with
      | [] => .error ("invalid minio url path: " ++ String.ofList raw)
      | _ :: objectKey => .ok (path.takeWhile (· != '/'), objectKey)

def presignURL (cfg : ResultConfig) (payload : List (Text × Json)) (key : String) : Option Text :=
  match member payload key.toList with
  | some (.string raw) =>
    if raw = [] then none
    else
      match parseMinIOURL cfg raw with
      | .error _ => none
      | .ok (bucket, objectKey) =>
        if bucket ≠ cfg.resultsBucket then none else (cfg.presignedGetURL objectKey).toOption
  | _ => none

def extractFiles (cfg : ResultConfig) (result : Option Text) : ResultFiles × List (Text × Json) :=
  match result.bind unmarshalMap with
  | none => ({}, [])
  | some payload =>
    let metadata :=
      match member payload "metadata".toList with
      | some (.object members) => members
      | _ => []
    ({ transcriptURL := presignURL cfg payload "transcript_url"
       subtitleURL := presignURL cfg payload "subtitle_url"
       parsedURL := presignURL cfg payload "parsed_url" }, metadata)

def taskNotCompleted : AppError := ⟨400, "TASK_NOT_COMPLETED", "task is not completed"⟩

def summaryForTask (cfg : ResultConfig) (task : Task) : Except AppError ResultSummary :=
  if task.status ≠ .completed then .error taskNotCompleted
  else
    let (files, metadata) := extractFiles cfg task.result
    .ok ⟨task.uuid, task.status, files, metadata⟩

def getResult (cfg : ResultConfig) (s : Gateway) (fault : Option String) (userID : ℕ)
    (taskUUID : Text) : Except AppError ResultSummary :=
  match fault with
  | some _ => .error (internal "internal server error")
  | none =>
    match byUUIDAndUserID s.tasks taskUUID userID with
    | none => .error (notFound "task")
    | some task => summaryForTask cfg task

def CompletedLater (a b : Option ℤ) : Prop :=
  match a, b with
  | some a, some b => b < a
  | some _, none => True
  | none, _ => False

instance : DecidableRel CompletedLater := fun a b => by
  unfold CompletedLater
  split <;> infer_instance

def LatestFirst (a b : Task) : Prop :=
  CompletedLater a.completedAt b.completedAt ∨ (a.completedAt = b.completedAt ∧ b.id ≤ a.id)

instance : DecidableRel LatestFirst := fun _ _ => inferInstanceAs (Decidable (_ ∨ _))

def getLatestCompletedByResourceID (tasks : Tasks) (resourceID : ℕ) : Option Task :=
  let completed := tasks.rows.filter fun t => t.resourceID == resourceID && t.status == .completed
  (completed.insertionSort LatestFirst).head?

def getResultByResourceID (cfg : ResultConfig) (s : Gateway)
    (resourceFault taskFault : Option String)
    (userID : ℕ) (resourceUUID : Text) : Except AppError ResultSummary :=
  match resourceFault with
  | some _ => .error (internal "internal server error")
  | none =>
    match resourceByUUIDAndUserID s resourceUUID userID with
    | none => .error (notFound "resource")
    | some resource =>
      match taskFault with
      | some _ => .error (internal "internal server error")
      | none =>
        match getLatestCompletedByResourceID s.tasks resource.id with
        | none => .error taskNotCompleted
        | some task => summaryForTask cfg task

theorem matchMinioURL_objectURL {bucket key : Text} (name : IsBucketName bucket)
    (filled : key ≠ []) (oneLine : '\n' ∉ key) :
    matchMinioURL (objectURL bucket key) = some (bucket, key) := by
  have plain : ∀ c ∈ bucket, (c != '/') = true := by
    intro c mem
    have here := (isPlain_of_bucket name).2 c mem
    rw [bne_iff_ne]
    rintro rfl
    exact absurd here (by decide)
  have whole : objectURL bucket key = "minio://".toList ++ (bucket ++ '/' :: key) :=
    List.append_assoc _ _ _
  have front : "minio://".toList <+: objectURL bucket key := ⟨_, whole.symm⟩
  have rest : (objectURL bucket key).drop 8 = bucket ++ '/' :: key :=
    (congrArg (List.drop 8) whole).trans (List.drop_left' rfl)
  have parts : (bucket ++ '/' :: key).takeWhile (· != '/') = bucket ∧
      (bucket ++ '/' :: key).dropWhile (· != '/') = '/' :: key := by
    rw [List.takeWhile_append_of_pos plain, List.dropWhile_append_of_pos plain]
    exact ⟨List.append_nil bucket, rfl⟩
  rw [matchMinioURL, if_pos front]
  dsimp only
  rw [rest, parts.1, parts.2]
  exact if_pos ⟨(isPlain_of_bucket name).1, filled, oneLine⟩

/-- The URL is the presigned one of an object in the results bucket that the result names, and
an object so named by the worker has its URL. -/
structure Served (cfg : ResultConfig) (result : Option Text) (key : String) (url : Option Text) :
    Prop where
  named : ∀ u ∈ url, ∃ payload raw objectKey, result.bind unmarshalMap = some payload ∧
    member payload key.toList = some (.string raw) ∧
    parseMinIOURL cfg raw = .ok (cfg.resultsBucket, objectKey) ∧
    cfg.presignedGetURL objectKey = .ok u
  whole : ∀ payload objectKey, result.bind unmarshalMap = some payload →
    member payload key.toList = some (.string (objectURL cfg.resultsBucket objectKey)) →
    objectKey ≠ [] → '\n' ∉ objectKey → url = (cfg.presignedGetURL objectKey).toOption

/-- The object that the result has under `metadata`, if it has one. -/
def Described (result : Option Text) (metadata : List (Text × Json)) : Prop :=
  (∃ payload, result.bind unmarshalMap = some payload ∧
    member payload "metadata".toList = some (.object metadata)) ∨
  metadata = [] ∧ ∀ payload members, result.bind unmarshalMap = some payload →
    member payload "metadata".toList ≠ some (.object members)

/-- The summary of a completed task with this result. -/
structure Delivers (cfg : ResultConfig) (task : Task) (summary : ResultSummary) : Prop where
  completed : task.status = .completed
  taskID : summary.taskID = task.uuid
  status : summary.status = .completed
  transcript : Served cfg task.result "transcript_url" summary.files.transcriptURL
  subtitle : Served cfg task.result "subtitle_url" summary.files.subtitleURL
  parsed : Served cfg task.result "parsed_url" summary.files.parsedURL
  metadata : Described task.result summary.metadata

variable {rcfg : ResultConfig}

theorem presignURL_served (name : IsBucketName rcfg.resultsBucket) {result : Option Text}
    {payload : List (Text × Json)} (read : result.bind unmarshalMap = some payload)
    (key : String) : Served rcfg result key (presignURL rcfg payload key) where
  named := by
    intro u signed
    unfold presignURL at signed
    split at signed
    · rename_i raw here
      split at signed
      · cases signed
      · split at signed
        · cases signed
        · rename_i bucket objectKey parsed
          split at signed
          · cases signed
          · rename_i same
            rw [not_ne_iff] at same
            subst same
            cases answer : rcfg.presignedGetURL objectKey with
            | error cause =>
              rw [answer] at signed
              cases signed
            | ok url =>
              rw [answer] at signed
              exact ⟨payload, raw, objectKey, read, here, parsed,
                answer.trans (congrArg Except.ok (Option.some.inj signed))⟩
    · cases signed
  whole := by
    intro payload' objectKey read' here filled oneLine
    obtain rfl := Option.some.inj (read.symm.trans read')
    have parsed : parseMinIOURL rcfg (objectURL rcfg.resultsBucket objectKey) =
        .ok (rcfg.resultsBucket, objectKey) := by
      rw [parseMinIOURL, matchMinioURL_objectURL name filled oneLine]
    have some' : objectURL rcfg.resultsBucket objectKey ≠ [] := List.cons_ne_nil _ _
    rw [presignURL, here]
    dsimp only
    rw [if_neg some', parsed]
    exact if_neg (not_ne_iff.mpr rfl)

theorem served_none {result : Option Text} (unread : result.bind unmarshalMap = none)
    (key : String) : Served rcfg result key none where
  named _ signed := absurd signed (Option.not_mem_none _)
  whole payload _ read := by
    rw [unread] at read
    cases read

theorem extractFiles_described (cfg : ResultConfig) (result : Option Text) :
    Described result (extractFiles cfg result).2 := by
  unfold extractFiles
  cases read : result.bind unmarshalMap with
  | none => exact .inr ⟨rfl, fun payload members some => by cases read.symm.trans some⟩
  | some payload =>
    dsimp only
    split
    · rename_i members here
      exact .inl ⟨payload, read, here⟩
    · rename_i other
      refine .inr ⟨rfl, fun payload' members read' => ?_⟩
      rw [← Option.some.inj (read.symm.trans read')]
      exact other members

theorem summaryForTask_delivers (name : IsBucketName rcfg.resultsBucket) {task : Task}
    {summary : ResultSummary} (made : summaryForTask rcfg task = .ok summary) :
    Delivers rcfg task summary := by
  unfold summaryForTask at made
  split at made
  · cases made
  · rename_i completed
    rw [not_ne_iff] at completed
    rw [← Except.ok.inj made]
    have metadata := extractFiles_described rcfg task.result
    unfold extractFiles at metadata
    cases read : task.result.bind unmarshalMap with
    | none =>
      rw [read] at metadata
      exact ⟨completed, rfl, completed, served_none read _, served_none read _,
        served_none read _, metadata⟩
    | some payload =>
      rw [read] at metadata
      exact ⟨completed, rfl, completed, presignURL_served name read _,
        presignURL_served name read _, presignURL_served name read _, metadata⟩

/-- The event reports that the task is completed, with this result, and from then on the row has
stood as it is. -/
structure CompletedBy (cfg : ServiceConfig) (s : Gateway) (es : List Event)
    (task : TaskRecords.Task) (before : List Event) (e : Event) (after : List Event) : Prop where
  split : es = before ++ e :: after
  report : ∃ uuid body, e.op = .status uuid (some body) ∧
    (exec (step cfg) s before).tasks.same task.uuid uuid = true ∧ body.status = "completed" ∧
    body.result = task.result
  kept : EveryState (step cfg) (fun s => task ∈ s.tasks.rows)
    (exec (step cfg) s (before ++ [e])) after

variable {cfg : ServiceConfig} {s : Gateway} {es : List Event} {task : TaskRecords.Task}

/-- The event writes the row, which has stood as it is from then on. -/
structure WrittenBy (cfg : ServiceConfig) (s : Gateway) (es : List Event)
    (task : TaskRecords.Task) (before : List Event) (e : Event) (after : List Event) : Prop where
  split : es = before ++ e :: after
  written : ∃ t w, accepted cfg (exec (step cfg) s before) e = some (t, w) ∧
    w.apply e.io.now t = task
  kept : EveryState (step cfg) (fun s => task ∈ s.tasks.rows)
    (exec (step cfg) s (before ++ [e])) after

theorem WrittenBy.concat {before after : List Event} {e f : Event}
    (by' : WrittenBy cfg s es task before e after)
    (still : task ∈ (step cfg (exec (step cfg) s es) f).tasks.rows) :
    WrittenBy cfg s (es ++ [f]) task before e (after ++ [f]) where
  split := by rw [by'.split, List.append_assoc, List.cons_append]
  written := by'.written
  kept := by
    refine everyState_concat by'.kept ?_
    have whole : exec (step cfg) (exec (step cfg) s (before ++ [e])) after =
        exec (step cfg) s es := by
      rw [by'.split, exec, exec, exec, ← List.foldl_append, List.append_assoc]
      rfl
    rwa [whole]

theorem bindStatus_completed {req : UpdateStatusRequest} {update : InternalStatusUpdate}
    (bound : bindStatus (some req) = some update) (completed : update.status = .completed) :
    req.status = "completed" ∧ req.result = update.result := by
  unfold bindStatus at bound
  rw [Option.bind_some] at bound
  split at bound
  · rw [← Option.some.inj bound] at completed
    cases completed
  · split at bound
    · rename_i done
      rw [← Option.some.inj bound]
      exact ⟨done, rfl⟩
    · split at bound
      · rw [← Option.some.inj bound] at completed
        cases completed
      · cases bound

theorem write_completes {io : GatewayIO} {op : Op} {w : TaskWrite} {now : ℤ}
    (issues : issued cfg s io op = some (task, w))
    (completed : (w.apply now task).status = .completed) :
    ∃ uuid body, op = .status uuid (some body) ∧ s.tasks.same task.uuid uuid = true ∧
      body.status = "completed" ∧ body.result = (w.apply now task).result := by
  have parts := (issued_spec issues).2
  rw [TaskWrite.apply_status] at completed
  rcases parts with ⟨user, uuid, -, checked⟩ | ⟨uuid, body, p, -, -, checked⟩ |
      ⟨uuid, body, update, rfl, bound, checked⟩
  · rw [(checkRetry_ok checked).2] at completed
    cases completed
  · obtain ⟨running, rfl⟩ := checkProgress_ok checked
    rw [running] at completed
    cases completed
  · obtain ⟨-, rfl⟩ := checkStatusUpdate_ok checked
    have read : byUUID s.tasks uuid = some task := by
      simp only [issued, bound] at issues
      cases got : getByUUID s io uuid with
      | error e =>
        rw [got] at issues
        cases issues
      | ok found =>
        rw [got] at issues
        obtain ⟨w, -, same⟩ := Option.map_eq_some_iff.mp issues
        rw [← (Prod.mk.inj same).1]
        exact readTask_ok got
    have alike := Table.same_iff.mpr (mem_of_byUUID read).2
    cases body with
    | none => cases bound
    | some req =>
      obtain ⟨done, result⟩ := bindStatus_completed bound completed
      refine ⟨uuid, req, rfl, alike, done, result.trans ?_⟩
      cases update.attemptCount <;> rfl

theorem inserted_completed {tasks tasks' : Tasks} {now : ℤ} (inserted : Inserted tasks now tasks')
    (mem : task ∈ tasks'.rows) (completed : task.status = .completed) : task ∈ tasks.rows := by
  have stored {uuid : Text} {resourceID userID : ℕ} {type : Text}
      (there : task ∈ (insertTask tasks uuid resourceID userID type now).rows) :
      task ∈ tasks.rows := by
    rcases mem_insertTask.mp there with old | rfl
    · exact old
    · cases completed
  cases inserted with
  | fresh uuid resourceID userID type => exact stored mem
  | undispatched uuid resourceID userID type errMsg =>
    obtain ⟨t₀, there, same⟩ := mem_execute.mp mem
    by_cases here : t₀.id = tasks.next
    · rw [if_pos here] at same
      rw [same, TaskWrite.apply_status] at completed
      cases completed
    · rw [if_neg here] at same
      exact stored (same ▸ there)

theorem completed_written (fresh : s.tasks.rows = []) (es : List Event) :
    ∀ task ∈ (exec (step cfg) s es).tasks.rows, task.status = .completed →
      ∃ before e after, WrittenBy cfg s es task before e after := by
  induction es using List.reverseRecOn with
  | nil =>
    intro task mem
    rw [exec_nil, fresh] at mem
    exact absurd mem List.not_mem_nil
  | append_singleton es f ih =>
    intro task mem completed
    rw [exec, List.foldl_append] at mem
    change task ∈ (step cfg (exec (step cfg) s es) f).tasks.rows at mem
    have old (there : task ∈ (exec (step cfg) s es).tasks.rows) :
        ∃ before e after, WrittenBy cfg s (es ++ [f]) task before e after := by
      obtain ⟨before, e, after, by'⟩ := ih task there completed
      exact ⟨before, e, after ++ [f], by'.concat mem⟩
    rcases step_tasks cfg (exec (step cfg) s es) f with ⟨t, w, takes, tasks⟩ | ⟨-, same | inserted⟩
    · have written := mem
      rw [tasks] at written
      obtain ⟨t₀, there, rfl⟩ := mem_execute.mp written
      by_cases here : t₀.id = t.id
      · obtain rfl := Table.eq_of_key there (accepted_stored takes) here
        rw [if_pos rfl] at mem ⊢
        refine ⟨es, f, [], rfl, ⟨t₀, w, takes, rfl⟩, ?_⟩
        change _ ∈ (exec (step cfg) s (es ++ [f])).tasks.rows
        rw [exec, List.foldl_append]
        exact mem
      · rw [if_neg here] at completed mem old ⊢
        exact old there
    · exact old (same ▸ mem)
    · exact old (inserted_completed inserted mem completed)

theorem completed_reported (fresh : s.tasks.rows = []) (es : List Event) :
    ∀ task ∈ (exec (step cfg) s es).tasks.rows, task.status = .completed →
      ∃ before e after, CompletedBy cfg s es task before e after := by
  intro task mem completed
  obtain ⟨before, e, after, by'⟩ := completed_written fresh es task mem completed
  obtain ⟨t, w, takes, rfl⟩ := by'.written
  obtain ⟨uuid, body, op, alike, done, result⟩ :=
    write_completes (accepted_issued takes) completed
  refine ⟨before, e, after, by'.split, ⟨uuid, body, op, ?_, done, result⟩, by'.kept⟩
  rw [TaskWrite.apply_uuid]
  exact alike

/-- What a user is shown of a task is what the report of its completion named, and the row has
stood so since that report. -/
theorem results_reported (fresh : s.tasks.rows = []) (es : List Event)
    (name : IsBucketName rcfg.resultsBucket) {userID : ℕ} {taskUUID : Text}
    {summary : ResultSummary}
    (shown : getResult rcfg (exec (step cfg) s es) none userID taskUUID = .ok summary) :
    ∃ task before e after, CompletedBy cfg s es task before e after ∧
      (exec (step cfg) s es).tasks.same task.uuid taskUUID = true ∧ task.userID = userID ∧
      Delivers rcfg task summary := by
  unfold getResult at shown
  dsimp only at shown
  cases read : byUUIDAndUserID (exec (step cfg) s es).tasks taskUUID userID with
  | none =>
    rw [read] at shown
    cases shown
  | some task =>
    rw [read] at shown
    obtain ⟨there, uuid, user⟩ := mem_of_byUUIDAndUserID read
    have delivers := summaryForTask_delivers name shown
    obtain ⟨before, e, after, by'⟩ := completed_reported fresh es task there delivers.completed
    exact ⟨task, before, e, after, by', Table.same_iff.mpr uuid, user, delivers⟩

theorem latestFirst_total (a b : TaskRecords.Task) : LatestFirst a b ∨ LatestFirst b a := by
  unfold LatestFirst CompletedLater
  cases a.completedAt with
  | none =>
    cases b.completedAt with
    | none => simp only [false_or, true_and]; omega
    | some there => exact .inr (.inl trivial)
  | some here =>
    cases b.completedAt with
    | none => exact .inl (.inl trivial)
    | some there => simp only [Option.some.injEq]; omega

theorem latestFirst_trans {a b c : TaskRecords.Task} (ab : LatestFirst a b)
    (bc : LatestFirst b c) : LatestFirst a c := by
  unfold LatestFirst CompletedLater at *
  cases atA : a.completedAt <;> cases atB : b.completedAt <;> cases atC : c.completedAt <;>
    simp only [atA, atB, atC, Option.some.injEq, reduceCtorEq, false_or, false_and, true_and,
      or_false] at ab bc ⊢ <;> omega

theorem getLatest_spec {tasks : Tasks} {resourceID : ℕ}
    (read : getLatestCompletedByResourceID tasks resourceID = some task) :
    (task ∈ tasks.rows ∧ task.resourceID = resourceID ∧ task.status = .completed) ∧
      ∀ other ∈ tasks.rows, other.resourceID = resourceID → other.status = .completed →
        LatestFirst task other := by
  unfold getLatestCompletedByResourceID at read
  dsimp only at read
  generalize chosen : tasks.rows.filter (fun t => t.resourceID == resourceID &&
    t.status == .completed) = rows at read
  have total : Std.Total LatestFirst := ⟨latestFirst_total⟩
  have trans : IsTrans TaskRecords.Task LatestFirst := ⟨fun _ _ _ => latestFirst_trans⟩
  have sorted := List.pairwise_insertionSort LatestFirst rows
  have member {t : TaskRecords.Task} : t ∈ rows ↔
      t ∈ tasks.rows ∧ t.resourceID = resourceID ∧ t.status = .completed := by
    simp [← chosen]
  obtain ⟨rest, first⟩ := List.head?_eq_some_iff.mp read
  have among {t : TaskRecords.Task} : t ∈ task :: rest ↔ t ∈ rows := by
    rw [← first, List.mem_insertionSort]
  refine ⟨member.mp (among.mp List.mem_cons_self), fun other there resource completed => ?_⟩
  rw [first] at sorted
  rcases List.mem_cons.mp (among.mpr (member.mpr ⟨there, resource, completed⟩)) with rfl | later
  · exact .inr ⟨rfl, le_rfl⟩
  · exact (List.pairwise_cons.mp sorted).1 other later

/-- What a user is shown of a resource is what the report named that completed the last of its
completed tasks. -/
theorem resource_results_reported (fresh : s.tasks.rows = []) (es : List Event)
    (name : IsBucketName rcfg.resultsBucket) {userID : ℕ} {resourceUUID : Text}
    {summary : ResultSummary}
    (shown : getResultByResourceID rcfg (exec (step cfg) s es) none none userID resourceUUID =
      .ok summary) :
    ∃ resource ∈ (exec (step cfg) s es).resources.rows,
      (exec (step cfg) s es).resources.same resource.uuid resourceUUID = true ∧
      resource.userID = userID ∧
      ∃ task before e after, CompletedBy cfg s es task before e after ∧
        task.resourceID = resource.id ∧ Delivers rcfg task summary ∧
        ∀ other ∈ (exec (step cfg) s es).tasks.rows, other.resourceID = resource.id →
          other.status = .completed → LatestFirst task other := by
  unfold getResultByResourceID at shown
  dsimp only at shown
  cases found : resourceByUUIDAndUserID (exec (step cfg) s es) resourceUUID userID with
  | none =>
    rw [found] at shown
    cases shown
  | some resource =>
    rw [found] at shown
    dsimp only at shown
    cases read : getLatestCompletedByResourceID (exec (step cfg) s es).tasks resource.id with
    | none =>
      rw [read] at shown
      cases shown
    | some task =>
      rw [read] at shown
      obtain ⟨⟨there, owned, completed⟩, latest⟩ := getLatest_spec read
      obtain ⟨before, e, after, by'⟩ := completed_reported fresh es task there completed
      obtain ⟨mine, alike, own⟩ := resourceByUUIDAndUserID_spec found
      exact ⟨resource, mine, alike, own, task, before, e, after, by', owned,
        summaryForTask_delivers name shown, latest⟩

def lectureResults : ResultConfig where
  resultsBucket := "mkc-results".toList
  urlPath _ := .error "missing scheme"
  presignedGetURL key := .ok ("https://objects/".toList ++ key)

def lectureResult : Text :=
  "\x7b\"parsed_url\": \"minio://mkc-results/results/t1/parsed.json\"\x7d".toList

def parsedLecture : List Event :=
  [createLecture, ⟨.status lectureTask (some { status := "running" }), { now := 2 }⟩,
    ⟨.status lectureTask (some { status := "completed", result := some lectureResult }),
      { now := 3 }⟩]

theorem lecture_shown :
    ((getResult lectureResults (exec (step serviceConfig) oneResource parsedLecture) none 1
        lectureTask).toOption.bind fun summary => summary.files.parsedURL) =
      some "https://objects/results/t1/parsed.json".toList := by
  decide +kernel

theorem results_reported_lecture :
    ∃ summary, getResult lectureResults (exec (step serviceConfig) oneResource parsedLecture)
        none 1 lectureTask = .ok summary ∧
      ∃ task before e after,
        CompletedBy serviceConfig oneResource parsedLecture task before e after ∧
          (exec (step serviceConfig) oneResource parsedLecture).tasks.same task.uuid lectureTask =
            true ∧ task.userID = 1 ∧ Delivers lectureResults task summary := by
  have seen := lecture_shown
  cases shown : getResult lectureResults (exec (step serviceConfig) oneResource parsedLecture)
      none 1 lectureTask with
  | error e =>
    rw [shown] at seen
    cases seen
  | ok summary => exact ⟨summary, rfl, results_reported rfl parsedLecture (by decide) shown⟩

theorem lecture_shown_of_resource :
    ((getResultByResourceID lectureResults (exec (step serviceConfig) oneResource parsedLecture)
        none none 1 lectureUUID).toOption.bind fun summary => summary.files.parsedURL) =
      some "https://objects/results/t1/parsed.json".toList := by
  decide +kernel

theorem resource_results_reported_lecture :
    ∃ summary, getResultByResourceID lectureResults
        (exec (step serviceConfig) oneResource parsedLecture) none none 1 lectureUUID =
          .ok summary ∧
      ∃ resource ∈ (exec (step serviceConfig) oneResource parsedLecture).resources.rows,
        (exec (step serviceConfig) oneResource parsedLecture).resources.same resource.uuid
          lectureUUID = true ∧ resource.userID = 1 ∧
        ∃ task before e after,
          CompletedBy serviceConfig oneResource parsedLecture task before e after ∧
            task.resourceID = resource.id ∧ Delivers lectureResults task summary ∧
            ∀ other ∈ (exec (step serviceConfig) oneResource parsedLecture).tasks.rows,
              other.resourceID = resource.id → other.status = .completed →
                LatestFirst task other := by
  have seen := lecture_shown_of_resource
  cases shown : getResultByResourceID lectureResults
      (exec (step serviceConfig) oneResource parsedLecture) none none 1 lectureUUID with
  | error e =>
    rw [shown] at seen
    cases seen
  | ok summary =>
    exact ⟨summary, rfl, resource_results_reported rfl parsedLecture (by decide) shown⟩

end KnowledgeCompanion.ResultService
