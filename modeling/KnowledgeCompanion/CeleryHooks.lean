import KnowledgeCompanion.GatewayReporter
import KnowledgeCompanion.GuardedRun

/-! Executions of one Celery task class in one worker process
(`celery_workers/tasks`). Celery makes one instance of the class for the process,
so the attribute `_failure_reported` outlives an execution that sets it. -/

namespace KnowledgeCompanion.CeleryHooks

open GatewayReporter GuardedRun

structure Exc where
  name : String
  message : Text
deriving DecidableEq

/-- Where the bodies of the task classes differ: what the handler around the work
catches, whether the start is reported and whether the handler reports a failure. -/
structure TaskClass where
  maxRetries : ℕ
  catches : Exc → Bool
  reportsRunning : Bool
  reportsFailure : Bool

def runAsr : TaskClass where
  maxRetries := 3
  catches := fun e => e.name == "ModelLoadError"
  reportsRunning := true
  reportsFailure := true

def runPdfParse : TaskClass where
  maxRetries := 3
  catches := fun _ => true
  reportsRunning := true
  reportsFailure := true

def runSummarize : TaskClass where
  maxRetries := 3
  catches := fun _ => true
  reportsRunning := false
  reportsFailure := false

def runExtractTags : TaskClass where
  maxRetries := 3
  catches := fun _ => true
  reportsRunning := false
  reportsFailure := false

/-- One execution: its business task, the retries so far, the exceptions raised
before, inside and after the try block, the progress it reports and its result,
which is absent when the return value is not a dictionary. -/
structure Execution where
  taskID : Text
  retries : ℕ
  before : Option Exc := none
  progress : List ℤ := []
  inside : Option Exc := none
  after : Option Exc := none
  result : Option Text := none

/-- What Celery answers: the `max_retries` of a request, if requests have one, and the text of
`MaxRetriesExceededError`. -/
structure Celery where
  requestMaxRetries : Execution → Option ℕ
  exhausted : Execution → Text

def Execution.attemptCount (x : Execution) : Option ℕ := some (x.retries + 1)

inductive Ending
  | returned (result : Option Text)
  | retry (exc : Exc)
  | raised (exc : Exc)
deriving DecidableEq

structure Instance where
  failureReported : Bool := false
deriving DecidableEq

def failedReport (url : Text) (x : Execution) (exc : Exc) : List Report :=
  markStatus url x.taskID "failed" none (some exc.message) x.attemptCount

def startedReports (url : Text) (cls : TaskClass) (x : Execution) : List Report :=
  (if cls.reportsRunning then markStatus url x.taskID "running" none none x.attemptCount
    else []) ++ x.progress.flatMap fun p => reportProgress url x.taskID p "running"

/-- `self.retry(...)`, without an exception to raise again. -/
def retry (celery : Celery) (cls : TaskClass) (x : Execution) (exc : Exc) : Ending :=
  if cls.maxRetries < x.retries + 1 then
    .raised ⟨"MaxRetriesExceededError", celery.exhausted x⟩
  else .retry exc

def body (celery : Celery) (url : Text) (cls : TaskClass) (inst : Instance) (x : Execution) :
    Ending × Instance × List Report :=
  match x.before with
  | some exc => (.raised exc, inst, [])
  | none =>
    let started := startedReports url cls x
    match x.inside with
    | some exc =>
      if !cls.catches exc then (.raised exc, inst, started)
      else
        match celery.requestMaxRetries x with
        | none =>
          (.raised ⟨"AttributeError", "'Context' object has no attribute 'max_retries'".toList⟩,
            inst, started)
        | some limit =>
          if x.retries < limit then (retry celery cls x exc, inst, started)
          else if cls.reportsFailure then
            (.raised exc, { inst with failureReported := true }, started ++ failedReport url x exc)
          else (.raised exc, inst, started)
    | none =>
      match x.after with
      | some exc => (.raised exc, inst, started)
      | none => (.returned x.result, inst, started)

def onSuccess (url : Text) (x : Execution) (result : Option Text) : List Report :=
  markStatus url x.taskID "completed" result none x.attemptCount

def onRetry (url : Text) (inst : Instance) (x : Execution) : Instance × List Report :=
  ({ inst with failureReported := false },
    markStatus url x.taskID "running" none none x.attemptCount)

def onFailure (url : Text) (inst : Instance) (x : Execution) (exc : Exc) : List Report :=
  if inst.failureReported then [] else failedReport url x exc

def execute (celery : Celery) (url : Text) (cls : TaskClass) (inst : Instance) (x : Execution) :
    Ending × Instance × List Report :=
  match body celery url cls inst x with
  | (.returned result, inst, sent) => (.returned result, inst, sent ++ onSuccess url x result)
  | (.retry exc, inst, sent) =>
    (.retry exc, (onRetry url inst x).1, sent ++ (onRetry url inst x).2)
  | (.raised exc, inst, sent) => (.raised exc, inst, sent ++ onFailure url inst x exc)

def step (celery : Celery) (url : Text) (cls : TaskClass) (inst : Instance) (x : Execution) :
    Instance :=
  (execute celery url cls inst x).2.1

def reportsOf (status : String) (taskID : Text) (sent : List Report) : ℕ :=
  sent.countP fun
    | .statusReport id s _ _ _ => id == taskID && s == status
    | .progressReport _ _ _ => false

structure ReportsOnce (celery : Celery) (url : Text) (cls : TaskClass) (inst : Instance)
    (x : Execution) : Prop where
  failed : ∀ exc, (execute celery url cls inst x).1 = .raised exc →
    reportsOf "failed" x.taskID (execute celery url cls inst x).2.2 = 1
  completed : ∀ result, (execute celery url cls inst x).1 = .returned result →
    reportsOf "completed" x.taskID (execute celery url cls inst x).2.2 = 1

def reportedFailure (celery : Celery) (cls : TaskClass) (x : Execution) : Option Exc :=
  match x.before, x.inside, celery.requestMaxRetries x with
  | none, some exc, some limit =>
    if cls.catches exc && decide (limit ≤ x.retries) && cls.reportsFailure then some exc else none
  | _, _, _ => none

theorem reportsOf_append (status : String) (taskID : Text) (a b : List Report) :
    reportsOf status taskID (a ++ b) = reportsOf status taskID a + reportsOf status taskID b :=
  List.countP_append

theorem reportsOf_markStatus (url taskID : Text) (status : String) (result error : Option Text)
    (attempt : Option ℕ) :
    reportsOf status taskID (markStatus url taskID status result error attempt) =
      if url = [] then 0 else 1 := by
  by_cases configured : url = []
  · rw [configured]
    rfl
  · simp [reportsOf, markStatus, send, configured]

theorem reportsOf_started {status : String} (other : status ≠ "running") (url : Text)
    (cls : TaskClass) (x : Execution) :
    reportsOf status x.taskID (startedReports url cls x) = 0 := by
  have running : reportsOf status x.taskID
      (if cls.reportsRunning then markStatus url x.taskID "running" none none x.attemptCount
        else []) = 0 := by
    by_cases reports : cls.reportsRunning = true
    · rw [if_pos reports]
      by_cases configured : url = []
      · rw [configured]
        rfl
      · simp [reportsOf, markStatus, send, configured, other.symm]
    · rw [if_neg reports]
      rfl
  have progress : reportsOf status x.taskID
      (x.progress.flatMap fun p => reportProgress url x.taskID p "running") = 0 := by
    apply List.countP_eq_zero.mpr
    intro r mem
    simp only [List.mem_flatMap, reportProgress, send] at mem
    obtain ⟨p, -, sent⟩ := mem
    split at sent
    · simp at sent
    · rw [List.mem_singleton.mp sent]
      simp
  rw [startedReports, reportsOf_append, running, progress]

theorem reportsOf_last {status : String} {url taskID : Text} {result error : Option Text}
    {attempt : Option ℕ} {sent : List Report} (unsent : reportsOf status taskID sent = 0) :
    reportsOf status taskID (sent ++ markStatus url taskID status result error attempt) = 1 ↔
      url ≠ [] := by
  rw [reportsOf_append, unsent, reportsOf_markStatus]
  split <;> simp_all

theorem reportsOf_onFailure {url : Text} {inst : Instance} {x : Execution} {exc : Exc}
    {sent : List Report} (unsent : reportsOf "failed" x.taskID sent = 0) :
    reportsOf "failed" x.taskID (sent ++ onFailure url inst x exc) = 1 ↔
      inst.failureReported = false ∧ url ≠ [] := by
  unfold onFailure
  cases inst.failureReported with
  | true => simp [unsent]
  | false =>
    rw [if_neg Bool.false_ne_true, failedReport, reportsOf_last unsent]
    exact (and_iff_right rfl).symm

/-- How the body ends: an exception that the handler has reported, or any ending with the flag
as it was. -/
theorem body_cases (celery : Celery) (url : Text) (cls : TaskClass) (inst : Instance)
    (x : Execution) :
    (∃ exc sent, reportedFailure celery cls x = some exc ∧
      reportsOf "failed" x.taskID sent = 0 ∧
      body celery url cls inst x =
        (.raised exc, { inst with failureReported := true }, sent ++ failedReport url x exc)) ∨
    (reportedFailure celery cls x = none ∧ ∃ ending sent,
      reportsOf "failed" x.taskID sent = 0 ∧ reportsOf "completed" x.taskID sent = 0 ∧
      body celery url cls inst x = (ending, inst, sent)) := by
  have notFailed := reportsOf_started (by decide : "failed" ≠ "running") url cls x
  have notCompleted := reportsOf_started (by decide : "completed" ≠ "running") url cls x
  cases before : x.before with
  | some exc =>
    simp only [reportedFailure, body, before]
    exact .inr ⟨trivial, _, [], rfl, rfl, rfl⟩
  | none =>
    cases inside : x.inside with
    | none =>
      simp only [reportedFailure, body, before, inside]
      cases x.after <;> exact .inr ⟨trivial, _, _, notFailed, notCompleted, rfl⟩
    | some exc =>
      cases limits : celery.requestMaxRetries x with
      | none =>
        simp only [reportedFailure, body, before, inside, limits]
        cases cls.catches exc <;> exact .inr ⟨trivial, _, _, notFailed, notCompleted, rfl⟩
      | some limit =>
        simp only [reportedFailure, body, before, inside, limits]
        cases cls.catches exc with
        | false => exact .inr ⟨rfl, _, _, notFailed, notCompleted, rfl⟩
        | true =>
          simp only [Bool.not_true, Bool.false_eq_true, if_false]
          by_cases again : x.retries < limit
          · rw [if_pos again]
            exact .inr ⟨by simp [Nat.not_le.mpr again], _, _, notFailed, notCompleted, rfl⟩
          · rw [if_neg again]
            cases cls.reportsFailure with
            | false => exact .inr ⟨by simp, _, _, notFailed, notCompleted, rfl⟩
            | true => exact .inl ⟨exc, _, by simp [Nat.le_of_not_lt again], notFailed, rfl⟩

/-- With a reporter that is configured, an execution reports its final outcome once if the flag
is not set when it starts. -/
theorem reportsOnce_of_unset {celery : Celery} {url : Text} {cls : TaskClass} {inst : Instance}
    {x : Execution} (configured : url ≠ []) (unset : inst.failureReported = false) :
    ReportsOnce celery url cls inst x := by
  rcases body_cases celery url cls inst x with
    ⟨exc, sent, -, unsent, ends⟩ | ⟨-, ending, sent, unsent, uncompleted, ends⟩
  · have result : execute celery url cls inst x =
        (.raised exc, { inst with failureReported := true }, sent ++ failedReport url x exc) := by
      simp only [execute, ends, onFailure, if_true, List.append_nil]
    refine ⟨fun _ _ => ?_, fun _ returned => ?_⟩
    · rw [result, failedReport, reportsOf_last unsent]
      exact configured
    · rw [result] at returned
      cases returned
  · cases ending with
    | returned value =>
      have result : execute celery url cls inst x =
          (.returned value, inst, sent ++ onSuccess url x value) := by
        simp only [execute, ends]
      refine ⟨fun _ raised => ?_, fun _ _ => ?_⟩
      · rw [result] at raised
        cases raised
      · rw [result, onSuccess, reportsOf_last uncompleted]
        exact configured
    | retry exc =>
      have result : (execute celery url cls inst x).1 = .retry exc := by
        simp only [execute, ends]
      refine ⟨fun _ raised => ?_, fun _ returned => ?_⟩
      · rw [result] at raised
        cases raised
      · rw [result] at returned
        cases returned
    | raised exc =>
      have result : execute celery url cls inst x =
          (.raised exc, inst, sent ++ onFailure url inst x exc) := by
        simp only [execute, ends]
      refine ⟨fun _ _ => ?_, fun _ returned => ?_⟩
      · rw [result, reportsOf_onFailure unsent]
        exact ⟨unset, configured⟩
      · rw [result] at returned
        cases returned

theorem step_unset {celery : Celery} {url : Text} {cls : TaskClass} {inst : Instance}
    {x : Execution} (silent : reportedFailure celery cls x = none)
    (unset : inst.failureReported = false) :
    (step celery url cls inst x).failureReported = false := by
  rcases body_cases celery url cls inst x with
    ⟨exc, sent, reported, -⟩ | ⟨-, ending, sent, -, -, ends⟩
  · rw [silent] at reported
    cases reported
  · unfold step execute
    rw [ends]
    cases ending with
    | returned value => exact unset
    | retry exc => rfl
    | raised exc => exact unset

theorem reportedFailure_of_absent {celery : Celery} {cls : TaskClass} {x : Execution}
    (absent : celery.requestMaxRetries x = none) : reportedFailure celery cls x = none := by
  unfold reportedFailure
  rw [absent]
  split
  · contradiction
  · rfl

/-- The requests of Celery have no `max_retries`, so no handler comes to report a failure: every
execution of a process reports its final outcome exactly once, if the reporter is configured. -/
theorem outcomes_reported {celery : Celery} {url : Text} (cls : TaskClass)
    (absent : ∀ x, celery.requestMaxRetries x = none) (configured : url ≠ [])
    (xs : List Execution) :
    EveryStep (step celery url cls) (ReportsOnce celery url cls) {} xs := by
  have keeps (inst : Instance) (x : Execution) (unset : inst.failureReported = false) :
      (step celery url cls inst x).failureReported = false :=
    step_unset (reportedFailure_of_absent (absent x)) unset
  have sound (inst : Instance) (x : Execution) (unset : inst.failureReported = false) :
      ReportsOnce celery url cls inst x := reportsOnce_of_unset configured unset
  exact everyStep_of_invariant keeps sound xs rfl

/-- A request as Celery documents it: its context has no `max_retries`. -/
def plainCelery : Celery := ⟨fun _ => none, fun _ => "Can't retry".toList⟩

def gatewayURL : Text := "http://gateway:8080".toList

def brokenPdf : Exc := ⟨"ValueError", "broken xref".toList⟩

def badPayload : Exc := ⟨"ValidationError", "pdf_url: field required".toList⟩

theorem outcomes_reported_pdfs :
    EveryStep (step plainCelery gatewayURL runPdfParse)
      (ReportsOnce plainCelery gatewayURL runPdfParse) {}
      [{ taskID := "a".toList, retries := 3, inside := some brokenPdf },
        { taskID := "b".toList, retries := 0, before := some badPayload },
        { taskID := "c".toList, retries := 0, result := some "\x7b\x7d".toList }] :=
  outcomes_reported runPdfParse (fun _ => rfl) (by decide) _

/-- Without a base url nothing is told of a document that was parsed. -/
theorem unconfigured_unreported :
    ¬ EveryStep (step plainCelery [] runPdfParse) (ReportsOnce plainCelery [] runPdfParse) {}
      [{ taskID := "a".toList, retries := 0, result := some "\x7b\x7d".toList }] := by
  intro every
  have once := every.1.completed _ rfl
  exact absurd once (by decide)

end KnowledgeCompanion.CeleryHooks
