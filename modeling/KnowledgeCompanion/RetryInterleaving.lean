import KnowledgeCompanion.GatewayRuns

/-! Concurrent retries of one task (`service/task_service.go`, `Retry`). A call reads the
task, checks the status and the time that it has read, resets the row by its key and then
sends the task to the worker queue; between these points the other calls may run. -/

namespace KnowledgeCompanion.RetryInterleaving

open AppErrors KeyedTable TaskRecords TaskDispatcher TaskService GuardedRun

structure RetryConfig where
  service : ServiceConfig
  userID : ℕ
  taskUUID : Text

/-- The task of a call is the one that it has read; `Preload` reads its resource with it. -/
inductive Phase
  | reading
  | checking (task : TaskRecords.Task) (resource : Option Resource)
  | resetting (task : TaskRecords.Task) (resource : Option Resource)
  | dispatching (task : TaskRecords.Task) (resource : Option Resource)
  | finished (result : Except Err RetryResult)

structure Dispatch where
  sentAt : ℤ
  message : Message

structure System where
  gateway : Gateway
  calls : List Phase
  dispatched : List Dispatch

/-- What one step of a call gives: its next phase, the gateway and the messages sent. -/
structure Outcome where
  phase : Phase
  gateway : Gateway
  sent : List Message

def retried (task : TaskRecords.Task) : RetryResult := ⟨task.uuid, .pending, 0⟩

def resetCopy (task : TaskRecords.Task) : TaskRecords.Task :=
  { task with status := .pending, retryCount := 0, errorMessage := [], progress := 0 }

def fail (g : Gateway) (e : AppError) : Outcome := ⟨.finished (.error (.app e)), g, []⟩

def advance (cfg : RetryConfig) (g : Gateway) (io : GatewayIO) : Phase → Outcome
  | .reading =>
    if !cfg.service.isUUID cfg.taskUUID then fail g ⟨400, codeValidationError, "invalid task_id"⟩
    else
      match getByUUIDAndUserID g io cfg.taskUUID cfg.userID with
      | .error e => fail g e
      | .ok task => ⟨.checking task (g.resources.row task.resourceID), g, []⟩
  | .checking task resource =>
    match checkRetry cfg.service io.now task with
    | .error e => fail g e
    | .ok _ => ⟨.resetting task resource, g, []⟩
  | .resetting task resource =>
    match writeTask g io task.id .reset with
    | (.error _, g) => fail g (internal "internal server error")
    | (.ok _, g) =>
      if shouldAutoDispatch task.type then ⟨.dispatching (resetCopy task) resource, g, []⟩
      else ⟨.finished (.ok (retried task)), g, []⟩
  | .dispatching task resource =>
    let sent := dispatch cfg.service.dispatcher io.reply task resource
    ⟨.finished (sent.1.map fun _ => retried task),
      (dispatchTask cfg.service g io task resource).2, sent.2⟩
  | .finished result => ⟨.finished result, g, []⟩

inductive Event
  | start
  | advance (i : ℕ) (io : GatewayIO)

def step (cfg : RetryConfig) (s : System) : Event → System
  | .start => { s with calls := s.calls ++ [.reading] }
  | .advance i io =>
    match s.calls[i]? with
    | none => s
    | some phase =>
      let next := advance cfg s.gateway io phase
      { gateway := next.gateway
        calls := s.calls.set i next.phase
        dispatched := s.dispatched ++ next.sent.map fun message => ⟨io.now, message⟩ }

def System.initial (g : Gateway) : System := ⟨g, [], []⟩

/-- The phase and the gateway after `n` steps of a call without others in between. -/
def steps (cfg : RetryConfig) (io : GatewayIO) : ℕ → Phase × Gateway → Phase × Gateway
  | 0, s => s
  | n + 1, s => steps cfg io n ⟨(advance cfg s.2 io s.1).phase, (advance cfg s.2 io s.1).gateway⟩

theorem steps_finished (cfg : RetryConfig) (io : GatewayIO) (n : ℕ)
    (result : Except Err RetryResult) (g : Gateway) :
    steps cfg io n (.finished result, g) = (.finished result, g) := by
  induction n with
  | zero => rfl
  | succ n ih => exact ih

theorem exec_steps (cfg : RetryConfig) (io : GatewayIO) (n : ℕ) :
    ∀ (phase : Phase) (g : Gateway) (sent : List Dispatch),
      let s := exec (step cfg) ⟨g, [phase], sent⟩ (List.replicate n (.advance 0 io))
      s.calls = [(steps cfg io n (phase, g)).1] ∧ s.gateway = (steps cfg io n (phase, g)).2 := by
  induction n with
  | zero => exact fun phase g sent => ⟨rfl, rfl⟩
  | succ n ih => exact fun phase g sent => ih _ _ _

theorem steps_eq_retry (cfg : RetryConfig) (g : Gateway) (io : GatewayIO) :
    steps cfg io 4 (.reading, g) =
      (.finished (retry cfg.service g io cfg.userID cfg.taskUUID).1,
        (retry cfg.service g io cfg.userID cfg.taskUUID).2) := by
  unfold retry
  rw [steps]
  dsimp only [advance]
  by_cases valid : (!cfg.service.isUUID cfg.taskUUID) = true
  · rw [if_pos valid, if_pos valid]
    exact steps_finished cfg io 3 _ g
  · rw [if_neg valid, if_neg valid]
    cases getByUUIDAndUserID g io cfg.taskUUID cfg.userID with
    | error e => exact steps_finished cfg io 3 _ g
    | ok task =>
      rw [steps]
      dsimp only [advance]
      cases checked : checkRetry cfg.service io.now task with
      | error e => exact steps_finished cfg io 2 _ g
      | ok write =>
        rw [(checkRetry_ok checked).2, steps]
        dsimp only [advance, writeTask]
        cases io.writeTask with
        | some cause => exact steps_finished cfg io 1 _ g
        | none =>
          dsimp only
          by_cases auto : shouldAutoDispatch task.type = true
          · rw [if_pos auto, if_pos auto]
            dsimp only [steps, advance, dispatchTask, resetCopy]
            generalize dispatch cfg.service.dispatcher io.reply _ _ = sent
            obtain ⟨answer, messages⟩ := sent
            cases answer with
            | error e => rfl
            | ok done => rfl
          · rw [if_neg auto, if_neg auto]
            exact steps_finished cfg io 1 _ _

theorem alone_eq_retry (cfg : RetryConfig) (g : Gateway) (io : GatewayIO) :
    let s := exec (step cfg) (.initial g) (.start :: List.replicate 4 (.advance 0 io))
    s.calls = [.finished (retry cfg.service g io cfg.userID cfg.taskUUID).1] ∧
      s.gateway = (retry cfg.service g io cfg.userID cfg.taskUUID).2 := by
  have run := exec_steps cfg io 4 .reading g []
  rw [steps_eq_retry] at run
  exact run

def Phase.task : Phase → Option TaskRecords.Task
  | .checking task _ => some task
  | .resetting task _ => some task
  | .dispatching task _ => some task
  | _ => none

def Phase.dispatches : Phase → Bool
  | .dispatching _ _ => true
  | _ => false

/-- A step keeps the table and sends nothing, resets a row, or sends at most one message. -/
inductive Effect (g : Gateway) (io : GatewayIO) (phase : Phase) (next : Outcome) : Prop
  | quiet (tasks : next.gateway.tasks = g.tasks) (was : phase.dispatches = false)
      (idle : next.phase.dispatches = false) (nothing : next.sent = [])
  | resets (task : TaskRecords.Task) (resource : Option Resource)
      (was : phase = .resetting task resource) (written : io.writeTask = none)
      (tasks : next.gateway.tasks = execute g.tasks task.id .reset io.now)
      (nothing : next.sent = [])
  | sends (tasks : next.gateway.tasks = g.tasks) (was : phase.dispatches = true)
      (idle : next.phase.dispatches = false) (few : next.sent.length ≤ 1)

theorem dispatch_length (cfg : DispatcherConfig) (reply : DispatchReply) (task : TaskRecords.Task)
    (resource : Option Resource) : (dispatch cfg reply task resource).2.length ≤ 1 := by
  have queued (q : Bool) (message : Message) : (queuedIf q message).length ≤ 1 := by
    cases q <;> simp [queuedIf]
  unfold dispatch
  split
  · exact Nat.zero_le 1
  · split
    · exact Nat.zero_le 1
    · split
      · exact Nat.zero_le 1
      · exact queued _ _
      · split
        · exact queued _ _
        · split <;> exact queued _ _

theorem advance_effect (cfg : RetryConfig) (g : Gateway) (io : GatewayIO) (phase : Phase) :
    Effect g io phase (advance cfg g io phase) := by
  cases phase with
  | reading =>
    dsimp only [advance]
    split
    · exact .quiet rfl rfl rfl rfl
    · split <;> exact .quiet rfl rfl rfl rfl
  | checking task resource =>
    dsimp only [advance]
    split <;> exact .quiet rfl rfl rfl rfl
  | resetting task resource =>
    cases fault : io.writeTask with
    | some cause =>
      simp only [advance, writeTask, fault]
      exact .quiet rfl rfl rfl rfl
    | none =>
      simp only [advance, writeTask, fault]
      split <;> exact .resets task resource rfl fault rfl rfl
  | dispatching task resource =>
    exact .sends rfl rfl rfl (dispatch_length _ _ _ _)
  | finished result => exact .quiet rfl rfl rfl rfl

theorem advance_task {cfg : RetryConfig} {g : Gateway} {io : GatewayIO} {phase : Phase}
    {task : TaskRecords.Task} (held : (advance cfg g io phase).phase.task = some task) :
    (∃ before, phase.task = some before ∧ before.id = task.id) ∨
      byUUIDAndUserID g.tasks cfg.taskUUID cfg.userID = some task := by
  cases phase with
  | reading =>
    dsimp only [advance] at held
    split at held
    · exact absurd held.symm (Option.some_ne_none task)
    · split at held
      · exact absurd held.symm (Option.some_ne_none task)
      · rename_i row found
        rw [← Option.some.inj held]
        exact .inr (readTask_ok found)
  | checking before resource =>
    dsimp only [advance] at held
    split at held
    · exact absurd held.symm (Option.some_ne_none task)
    · exact .inl ⟨before, rfl, congrArg TaskRecords.Task.id (Option.some.inj held)⟩
  | resetting before resource =>
    dsimp only [advance] at held
    split at held
    · exact absurd held.symm (Option.some_ne_none task)
    · split at held
      · have copied : resetCopy before = task := Option.some.inj held
        have same : (resetCopy before).id = task.id := congrArg TaskRecords.Task.id copied
        exact .inl ⟨before, rfl, same⟩
      · exact absurd held.symm (Option.some_ne_none task)
  | dispatching before resource => exact absurd held.symm (Option.some_ne_none task)
  | finished result => exact absurd held.symm (Option.some_ne_none task)

theorem advance_queue (cfg : RetryConfig) (g : Gateway) (io : GatewayIO) (phase : Phase) :
    (advance cfg g io phase).gateway.queue = g.queue ++ (advance cfg g io phase).sent := by
  have unsent : g.queue = g.queue ++ [] := (List.append_nil _).symm
  cases phase with
  | reading =>
    dsimp only [advance]
    split
    · exact unsent
    · split <;> exact unsent
  | checking task resource =>
    dsimp only [advance]
    split <;> exact unsent
  | resetting task resource =>
    cases fault : io.writeTask with
    | some cause =>
      simp only [advance, writeTask, fault]
      exact unsent
    | none =>
      simp only [advance, writeTask, fault]
      split <;> exact unsent
  | dispatching task resource => rfl
  | finished result => exact unsent

theorem queue_dispatched (cfg : RetryConfig) (g : Gateway) (es : List Event) :
    EveryState (step cfg) (fun s => s.gateway.queue = g.queue ++ s.dispatched.map Dispatch.message)
      (.initial g) es := by
  refine everyState_of_invariant (fun s e queue => ?_) es (List.append_nil _).symm
  cases e with
  | start => exact queue
  | advance i io =>
    cases found : s.calls[i]? with
    | none =>
      simp only [step, found]
      exact queue
    | some phase =>
      simp only [step, found, advance_queue, queue, List.map_append, List.map_map,
        List.append_assoc]
      congr 2
      exact (List.map_id _).symm

def Retryable (tasks : Tasks) (id : ℕ) : Prop :=
  ∃ stored ∈ tasks.rows, stored.id = id ∧ (stored.status = .failed ∨ stored.status = .completed)

def Timely (s : System) : Event → Prop
  | .start => True
  | .advance i io =>
    match s.calls[i]? with
    | some (.resetting task _) => io.writeTask = none → Retryable s.gateway.tasks task.id
    | _ => True

def inCooldown (cfg : RetryConfig) (since : ℤ) (d : Dispatch) : Bool :=
  since ≤ d.sentAt && d.sentAt < since + cfg.service.retryCooldown

def OnePerCooldown (cfg : RetryConfig) (s : System) : Prop :=
  ∀ since, (s.dispatched.filter (inCooldown cfg since)).length ≤ 1

def claims (s : System) : ℕ := s.calls.countP Phase.dispatches + s.dispatched.length

/-- All calls hold the row with key `id`, and a message is only due once it has been reset. -/
structure Serialised (cfg : RetryConfig) (id : ℕ) (s : System) : Prop where
  row : ∀ task, byUUIDAndUserID s.gateway.tasks cfg.taskUUID cfg.userID = some task → task.id = id
  held : ∀ phase ∈ s.calls, ∀ task, phase.task = some task → task.id = id
  once : claims s ≤ 1
  untouched : Retryable s.gateway.tasks id → claims s = 0

theorem byUUIDAndUserID_reset {tasks : Tasks} {uuid : Text} {userID id : ℕ} {now : ℤ} :
    byUUIDAndUserID (execute tasks id .reset now) uuid userID =
      (byUUIDAndUserID tasks uuid userID).map fun t =>
        if t.id = id then t.resetForRetry now else t :=
  Table.first_update fun _ => rfl

theorem not_retryable_reset (tasks : Tasks) (id : ℕ) (now : ℤ) :
    ¬Retryable (execute tasks id .reset now) id := by
  rintro ⟨stored, mem, key, open_again⟩
  obtain ⟨before, -, row⟩ := mem_execute.mp mem
  split at row
  · have pending : stored.status = .pending := row ▸ rfl
    rw [pending] at open_again
    simp at open_again
  · rename_i other
    exact other (row ▸ key)

theorem countP_replaced {calls : List Phase} {i : ℕ} {phase : Phase}
    (found : calls[i]? = some phase) (next : Phase) :
    (calls.set i next).countP Phase.dispatches + (if phase.dispatches then 1 else 0) =
      calls.countP Phase.dispatches + if next.dispatches then 1 else 0 := by
  obtain ⟨bound, same⟩ := List.getElem?_eq_some_iff.mp found
  have present : (if phase.dispatches then 1 else 0) ≤ calls.countP Phase.dispatches := by
    split
    · rename_i dispatches
      exact List.countP_pos_iff.mpr ⟨phase, List.mem_of_getElem? found, dispatches⟩
    · exact Nat.zero_le _
  rw [List.countP_set bound, same]
  omega

theorem serialised_step {cfg : RetryConfig} {id : ℕ} (s : System) (e : Event)
    (h : Serialised cfg id s) (timely : Timely s e) : Serialised cfg id (step cfg s e) := by
  cases e with
  | start =>
    have none_due : claims (step cfg s .start) = claims s := by
      simp [claims, step, Phase.dispatches]
    refine ⟨h.row, ?_, none_due ▸ h.once, fun retryable => none_due ▸ h.untouched retryable⟩
    intro phase mem task holds
    rcases List.mem_append.mp mem with mem | mem
    · exact h.held phase mem task holds
    · rw [List.mem_singleton.mp mem] at holds
      exact absurd holds.symm (Option.some_ne_none task)
  | advance i io =>
    cases found : s.calls[i]? with
    | none =>
      have unmoved : step cfg s (.advance i io) = s := by simp only [step, found]
      rw [unmoved]
      exact h
    | some phase =>
      simp only [step, found]
      have mem : phase ∈ s.calls := List.mem_of_getElem? found
      have held : ∀ other ∈ s.calls.set i (advance cfg s.gateway io phase).phase,
          ∀ task, other.task = some task → task.id = id := by
        intro other among task holds
        rcases List.mem_or_eq_of_mem_set among with among | rfl
        · exact h.held other among task holds
        · rcases advance_task holds with ⟨before, had, same⟩ | read
          · exact same ▸ h.held phase mem before had
          · exact h.row task read
      have count := countP_replaced found (advance cfg s.gateway io phase).phase
      have once := h.once
      have untouched := h.untouched
      unfold claims at once untouched
      cases advance_effect cfg s.gateway io phase with
      | quiet tasks was idle nothing =>
        rw [was, idle] at count
        refine ⟨tasks ▸ h.row, held, ?_, fun retryable => ?_⟩
        · simp only [claims, nothing, List.map_nil, List.append_nil]
          omega
        · have none_due := untouched (tasks ▸ retryable)
          simp only [claims, nothing, List.map_nil, List.append_nil]
          omega
      | resets task resource was written tasks nothing =>
        have key : task.id = id := h.held phase mem task (was ▸ rfl)
        have retryable : Retryable s.gateway.tasks task.id := by
          simp only [Timely, found, was] at timely
          exact timely written
        have none_due := untouched (key ▸ retryable)
        refine ⟨?_, held, ?_, fun again => ?_⟩
        · intro read selected
          rw [tasks, byUUIDAndUserID_reset, Option.map_eq_some_iff] at selected
          obtain ⟨before, read_before, same⟩ := selected
          have before_key := h.row before read_before
          rw [← same]
          split <;> exact before_key
        · simp only [claims, nothing, List.map_nil, List.append_nil]
          split at count <;> split at count <;> omega
        · rw [tasks, key] at again
          exact absurd again (not_retryable_reset _ _ _)
      | sends tasks was idle few =>
        rw [was, idle] at count
        refine ⟨tasks ▸ h.row, held, ?_, fun retryable => ?_⟩
        · simp only [claims, List.length_append, List.length_map]
          simp only [if_true, Bool.false_eq_true, if_false] at count
          omega
        · have none_due := untouched (tasks ▸ retryable)
          simp only [if_true, Bool.false_eq_true, if_false] at count
          omega

theorem serialised_initial (cfg : RetryConfig) (g : Gateway) :
    ∃ id, Serialised cfg id (.initial g) := by
  have idle : claims (.initial g) = 0 := rfl
  have nothing : claims (.initial g) ≤ 1 := idle ▸ Nat.zero_le 1
  have no_call : ∀ phase ∈ (System.initial g).calls, ∀ id : ℕ,
      ∀ task, phase.task = some task → task.id = id :=
    fun phase mem => absurd mem List.not_mem_nil
  cases found : byUUIDAndUserID g.tasks cfg.taskUUID cfg.userID with
  | none =>
    refine ⟨0, ?_, fun phase mem => no_call phase mem 0, nothing, fun _ => idle⟩
    intro task read
    exact absurd (found.symm.trans read).symm (Option.some_ne_none task)
  | some task =>
    refine ⟨task.id, ?_, fun phase mem => no_call phase mem task.id, nothing, fun _ => idle⟩
    intro other read
    exact congrArg TaskRecords.Task.id (Option.some.inj (read.symm.trans found))

/-- In every interleaving whose resets find the task failed or completed, no period of the
length of the cooldown has two messages. -/
theorem one_message_per_cooldown (cfg : RetryConfig) (g : Gateway) (es : List Event)
    (timely : EveryStep (step cfg) Timely (.initial g) es) :
    EveryState (step cfg) (OnePerCooldown cfg) (.initial g) es := by
  obtain ⟨id, initial⟩ := serialised_initial cfg g
  have run := everyState_of_guard (@serialised_step cfg id) initial timely
  refine everyState_imp ?_ run
  intro s serialised since
  have sent : s.dispatched.length ≤ claims s := Nat.le_add_left _ _
  calc
    (s.dispatched.filter (inCooldown cfg since)).length ≤ s.dispatched.length :=
      List.length_filter_le _ _
    _ ≤ 1 := Nat.le_trans sent serialised.once

def oneFailed : Gateway where
  __ := GatewayRuns.oneResource
  tasks := execute (insertTask .empty GatewayRuns.lectureTask 1 1 taskTypePdfParse 0) 1
    (.setStatus .failed 0 none "timeout".toList none) 1

def retryLecture : RetryConfig := ⟨GatewayRuns.serviceConfig, 1, GatewayRuns.lectureTask⟩

/-- One after the other: the second call is refused. -/
theorem one_message_in_turn :
    EveryState (step retryLecture) (OnePerCooldown retryLecture) (.initial oneFailed)
      [.start, .advance 0 { now := 1000 }, .advance 0 { now := 1000 }, .advance 0 { now := 1001 },
        .advance 0 { now := 1001 }, .start, .advance 1 { now := 1002 },
        .advance 1 { now := 1002 }] := by
  apply one_message_per_cooldown
  refine ⟨trivial, trivial, trivial, ?_, trivial, trivial, trivial, trivial, trivial⟩
  intro written
  exact ⟨_, List.mem_cons_self, rfl, .inl rfl⟩

/-- Both calls read the failed task; each of them resets it and sends a message. -/
theorem sent_twice :
    ¬EveryState (step retryLecture) (OnePerCooldown retryLecture) (.initial oneFailed)
      [.start, .start, .advance 0 { now := 1000 }, .advance 1 { now := 1000 },
        .advance 0 { now := 1000 }, .advance 1 { now := 1000 }, .advance 0 { now := 1001 },
        .advance 1 { now := 1001 }, .advance 0 { now := 1002 }, .advance 1 { now := 1002 }] := by
  intro law
  exact absurd (law.last 1002) (by decide)

end KnowledgeCompanion.RetryInterleaving
