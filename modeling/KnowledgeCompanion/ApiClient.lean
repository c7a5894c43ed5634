import Mathlib.Data.Nat.Notation
import KnowledgeCompanion.Text

/-! The HTTP client of the app (`data/datasources/remote/api_client.dart` with
`secure_token_storage.dart`): the interceptor that answers a 401 by a refresh of the token
and repeats the request through itself. -/

namespace KnowledgeCompanion.ApiClient

variable {D T : Type}

/-- A decoded JSON value where a `T` or null is expected. -/
inductive Dynamic (T : Type)
  | null
  | typed (value : T)
  | other

def Dynamic.cast : Dynamic T → Option (Option T)
  | .null => some none
  | .typed value => some (some value)
  | .other => none

structure ErrorBody where
  code : Dynamic Text
  message : Dynamic Text
  traceID : Dynamic Text
  retryable : Dynamic Bool

inductive Body (D : Type)
  | envelope (success : Dynamic Bool) (data : D) (error : Dynamic ErrorBody)
  | other

structure Response (D : Type) where
  statusCode : ℕ
  body : Body D

inductive DioExceptionType
  | connectionTimeout
  | sendTimeout
  | receiveTimeout
  | transformTimeout
  | badCertificate
  | badResponse
  | cancel
  | connectionError
  | unknown

structure DioException (D : Type) where
  type : DioExceptionType
  response : Option (Response D)

def DioException.statusCode (e : DioException D) : Option ℕ := e.response.map Response.statusCode

inductive Answer (D : Type)
  | response (r : Response D)
  | failure (type : DioExceptionType)

/-- `validateStatus` takes the statuses from 200 to 299. -/
def Answer.received : Answer D → Except (DioException D) (Response D)
  | .response r =>
    if 200 ≤ r.statusCode ∧ r.statusCode < 300 then .ok r else .error ⟨.badResponse, some r⟩
  | .failure type => .error ⟨type, none⟩

def Answer.isUnauthorized : Answer D → Bool
  | .response r => r.statusCode == 401
  | .failure _ => false

/-- What the token provider answers in the n-th attempt, `none` where it throws: the token of
the request, whether it could be refreshed, and the token after that. -/
structure TokenProvider where
  accessToken : ℕ → Option (Option Text)
  refreshed : ℕ → Option Bool
  renewedToken : ℕ → Option (Option Text)

/-- The surroundings of one call: the server by the number of the attempt and its
`Authorization` header, whether Dio passes on what an asynchronous handler throws (it leaves
the request pending if not), and whether the body is a form, which can be sent only once. -/
structure Env (D : Type) where
  provider : TokenProvider
  server : ℕ → Option Text → Answer D
  passesOn : Bool
  form : Bool

inductive Outcome (D : Type)
  | response (r : Response D)
  | error (e : DioException D)
  | pending

/-- How a request went, with the refreshes that it took and the answers that came. -/
structure Fetched (D : Type) where
  outcome : Outcome D
  refreshes : ℕ
  answers : List (Answer D)

def unknownError : DioException D := ⟨.unknown, none⟩

def Env.escaped (env : Env D) (e : DioException D) : Outcome D :=
  if env.passesOn then .error e else .pending

def Env.resolved (env : Env D) : Outcome D → Outcome D
  | .response r => .response r
  | .error e => env.escaped e
  | .pending => .pending

def bearer (token : Option Text) : Text := "Bearer ".toList ++ token.getD "null".toList

def authorize (token header : Option Text) : Option Text :=
  match token with
  | some t => if t ≠ [] then some (bearer token) else header
  | none => header

inductive Attempt (D : Type)
  | done (fetched : Fetched D)
  | again (header : Option Text) (answers : List (Answer D))

def onError (env : Env D) (n : ℕ) (e : DioException D) (answers : List (Answer D)) : Attempt D :=
  if e.statusCode = some 401 then
    match env.provider.refreshed n with
    | none => .done ⟨env.escaped unknownError, 1, answers⟩
    | some true =>
      match env.provider.renewedToken n with
      | none => .done ⟨env.escaped unknownError, 1, answers⟩
      | some token => .again (some (bearer token)) answers
    | some false => .done ⟨.error e, 1, answers⟩
  else .done ⟨.error e, 0, answers⟩

def attempt (env : Env D) (n : ℕ) (header : Option Text) : Attempt D :=
  match env.provider.accessToken n with
  | none => .done ⟨env.escaped unknownError, 0, []⟩
  | some token =>
    -- a form was finalized by the first attempt, and the second one sends nothing
    if env.form && n != 0 then onError env n unknownError []
    else
      let answer := env.server n (authorize token header)
      match answer.received with
      | .ok r => .done ⟨.response r, 0, [answer]⟩
      | .error e => onError env n e [answer]

/-- `_dio.fetch` from the n-th attempt, `none` while the fuel does not suffice. -/
def fetch (env : Env D) : ℕ → ℕ → Option Text → Option (Fetched D)
  | 0, _, _ => none
  | fuel + 1, n, header =>
    match attempt env n header with
    | .done fetched => some fetched
    | .again header answers =>
      (fetch env fuel (n + 1) header).map fun rest =>
        ⟨env.resolved rest.outcome, rest.refreshes + 1, answers ++ rest.answers⟩

inductive AppException
  | network
  | server (code message traceID : Option Text) (retryable : Bool)
  | unauthorized
  | unknown
  | cancelledUpload
  | taskNotCompleted
deriving DecidableEq

structure ErrorFields where
  code : Option Text := none
  message : Option Text := none
  traceID : Option Text := none
  retryable : Bool := false

/-- The fields of `body['error']`, `none` where a cast fails. -/
def ErrorFields.read (error : Dynamic ErrorBody) : Option ErrorFields :=
  match error.cast with
  | none => none
  | some none => some {}
  | some (some body) =>
    match body.code.cast, body.message.cast, body.traceID.cast, body.retryable.cast with
    | some code, some message, some traceID, some retryable =>
      some ⟨code, message, traceID, retryable.getD false⟩
    | _, _, _, _ => none

def Body.errorFields : Body D → Option ErrorFields
  | .envelope _ _ error => ErrorFields.read error
  | .other => some {}

/-- `_mapDioException`, `none` where it throws itself. -/
def mapDioException (e : DioException D) : Option AppException :=
  match e.type with
  | .connectionTimeout | .sendTimeout | .receiveTimeout | .connectionError => some .network
  | .badResponse =>
    match (e.response.map fun r => r.body.errorFields).getD (some {}) with
    | none => none
    | some fields =>
      if e.statusCode = some 401 then some .unauthorized
      else if fields.code = some "TASK_NOT_COMPLETED".toList then some .taskNotCompleted
      else
        some (.server (fields.code <|> e.statusCode.map fun status => (Nat.repr status).toList)
          fields.message fields.traceID fields.retryable)
  | .cancel => some .cancelledUpload
  | .unknown | .transformTimeout => some .unknown
  | .badCertificate => some .network

/-- A parser throws an `Exception` or an `Error`. -/
inductive Thrown
  | exception
  | error

/-- A `Result`, or an `Error` that `_request` does not catch. -/
inductive Completed (T : Type)
  | success (value : T)
  | failure (e : AppException)
  | thrown

def unpackEnvelope (parser : D → Except Thrown T) (r : Response D) : Completed T :=
  match r.body with
  | .other => .failure (.server none none none false)
  | .envelope success data error =>
    match success.cast with
    | none => .thrown
    | some success =>
      if success.getD false then
        match parser data with
        | .ok value => .success value
        | .error .exception => .failure .unknown
        | .error .error => .thrown
      else
        match ErrorFields.read error with
        | none => .thrown
        | some fields =>
          .failure (.server fields.code fields.message fields.traceID fields.retryable)

/-- The result of `_request`; `none` for a future that never completes. -/
def completed (parser : D → Except Thrown T) : Outcome D → Option (Completed T)
  | .response r => some (unpackEnvelope parser r)
  | .error e => some ((mapDioException e).elim .thrown .failure)
  | .pending => none

/-- The call ends after at most one refresh and at most one repeated request, as unauthorised
if it was answered by nothing but 401. -/
def Bounded (env : Env D) (parser : D → Except Thrown T) : Prop :=
  ∃ fuel fetched result, fetch env fuel 0 none = some fetched ∧
    completed parser fetched.outcome = some result ∧ fetched.refreshes ≤ 1 ∧
    fetched.answers.length ≤ 2 ∧
    (fetched.answers ≠ [] → (∀ a ∈ fetched.answers, a.isUnauthorized = true) →
      result = .failure .unauthorized)

variable {env : Env D} {parser : D → Except Thrown T} {n fuel : ℕ} {header : Option Text}
  {token : Option Text} {fetched : Fetched D}

def Answer.isOk (a : Answer D) : Bool :=
  match a.received with
  | .ok _ => true
  | .error _ => false

def Answer.readable : Answer D → Bool
  | .response r => r.body.errorFields.isSome
  | .failure _ => true

def Answer.outcome (a : Answer D) : Outcome D :=
  match a.received with
  | .ok r => .response r
  | .error e => .error e

def Env.Sends (env : Env D) (n : ℕ) : Prop := (env.form && n != 0) = false

theorem isUnauthorized_iff {a : Answer D} :
    a.isUnauthorized = true ↔ ∃ body, a = .response ⟨401, body⟩ := by
  cases a with
  | failure type => simp [Answer.isUnauthorized]
  | response r =>
    obtain ⟨status, body⟩ := r
    simp [Answer.isUnauthorized]

theorem received_other {a : Answer D} (other : a.isUnauthorized = false) {e : DioException D}
    (refused : a.received = .error e) : e.statusCode ≠ some 401 := by
  cases a with
  | failure type =>
    obtain rfl := Except.error.inj refused
    simp [DioException.statusCode]
  | response r =>
    rw [Answer.received] at refused
    split at refused
    · cases refused
    · obtain rfl := Except.error.inj refused
      simpa [DioException.statusCode, Answer.isUnauthorized] using other

theorem attempt_throws (throws : env.provider.accessToken n = none) :
    attempt env n header = .done ⟨env.escaped unknownError, 0, []⟩ := by
  rw [attempt, throws]

theorem attempt_unsent (given : env.provider.accessToken n = some token)
    (unsent : ¬ env.Sends n) :
    attempt env n header = .done ⟨.error unknownError, 0, []⟩ := by
  rw [Env.Sends, Bool.not_eq_false] at unsent
  rw [attempt, given]
  dsimp only
  rw [unsent, if_pos rfl, onError, if_neg (by simp [unknownError, DioException.statusCode])]

theorem attempt_other (given : env.provider.accessToken n = some token) (sends : env.Sends n)
    (other : (env.server n (authorize token header)).isUnauthorized = false) :
    attempt env n header = .done ⟨(env.server n (authorize token header)).outcome, 0,
      [env.server n (authorize token header)]⟩ := by
  rw [Env.Sends] at sends
  rw [attempt, given]
  dsimp only
  rw [sends, if_neg Bool.false_ne_true, Answer.outcome]
  cases received : (env.server n (authorize token header)).received with
  | ok r => rfl
  | error e => exact if_neg (received_other other received)

theorem attempt_unauthorized (given : env.provider.accessToken n = some token)
    (sends : env.Sends n) {body : Body D}
    (answer : env.server n (authorize token header) = .response ⟨401, body⟩) :
    attempt env n header =
      match env.provider.refreshed n with
      | none => .done ⟨env.escaped unknownError, 1, [.response ⟨401, body⟩]⟩
      | some true =>
        match env.provider.renewedToken n with
        | none => .done ⟨env.escaped unknownError, 1, [.response ⟨401, body⟩]⟩
        | some token => .again (some (bearer token)) [.response ⟨401, body⟩]
      | some false =>
        .done ⟨.error ⟨.badResponse, some ⟨401, body⟩⟩, 1, [.response ⟨401, body⟩]⟩ := by
  rw [Env.Sends] at sends
  rw [attempt, given]
  dsimp only
  rw [sends, if_neg Bool.false_ne_true, answer]
  rfl

theorem fetch_done (fuel : ℕ) (ends : attempt env n header = .done fetched) :
    fetch env (fuel + 1) n header = some fetched := by
  rw [fetch, ends]

theorem fetch_again {next : Option Text} {answers : List (Answer D)} {rest : Fetched D}
    (repeats : attempt env n header = .again next answers)
    (later : fetch env fuel (n + 1) next = some rest) :
    fetch env (fuel + 1) n header =
      some ⟨env.resolved rest.outcome, rest.refreshes + 1, answers ++ rest.answers⟩ := by
  rw [fetch, repeats]
  dsimp only
  rw [later, Option.map_some]

theorem fetch_of_done {last : Fetched D} (tried : attempt env n header = .done last)
    (ends : fetch env fuel n header = some fetched) : fetched = last := by
  cases fuel with
  | zero => cases ends
  | succ fuel =>
    rw [fetch, tried] at ends
    exact (Option.some.inj ends).symm

theorem fetch_of_again {next : Option Text} {answers : List (Answer D)}
    (tried : attempt env n header = .again next answers)
    (ends : fetch env fuel n header = some fetched) :
    ∃ fuel' rest, fetch env fuel' (n + 1) next = some rest ∧
      fetched = ⟨env.resolved rest.outcome, rest.refreshes + 1, answers ++ rest.answers⟩ := by
  cases fuel with
  | zero => cases ends
  | succ fuel =>
    rw [fetch, tried] at ends
    obtain ⟨rest, later, same⟩ := Option.map_eq_some_iff.mp ends
    exact ⟨fuel, rest, later, same.symm⟩

theorem refreshes_pos (given : env.provider.accessToken n = some token) (sends : env.Sends n)
    (refused : (env.server n (authorize token header)).isUnauthorized = true)
    (ends : fetch env fuel n header = some fetched) : 0 < fetched.refreshes := by
  obtain ⟨body, answer⟩ := isUnauthorized_iff.mp refused
  have tried := attempt_unauthorized given sends answer
  split at tried
  · rw [fetch_of_done tried ends]
    exact Nat.zero_lt_one
  · split at tried
    · rw [fetch_of_done tried ends]
      exact Nat.zero_lt_one
    · obtain ⟨fuel', rest, -, rfl⟩ := fetch_of_again tried ends
      exact Nat.succ_pos _
  · rw [fetch_of_done tried ends]
    exact Nat.zero_lt_one

def Attempt.answers : Attempt D → List (Answer D)
  | .done fetched => fetched.answers
  | .again _ answers => answers

theorem onError_answers (e : DioException D) (answers : List (Answer D)) :
    (onError env n e answers).answers = answers := by
  rw [onError]
  split
  · split
    · rfl
    · split <;> rfl
    · rfl
  · rfl

theorem attempt_answers (env : Env D) (n : ℕ) (header : Option Text) :
    (attempt env n header).answers.length ≤ 1 := by
  rw [attempt]
  split
  · exact Nat.zero_le 1
  · split
    · rw [onError_answers]
      exact Nat.zero_le 1
    · dsimp only
      split
      · exact Nat.le_refl _
      · rw [onError_answers]
        exact Nat.le_refl _

theorem answers_le (ends : fetch env fuel n header = some fetched) :
    fetched.answers.length ≤ fetched.refreshes + 1 := by
  have first := attempt_answers env n header
  induction fuel generalizing n header fetched with
  | zero => cases ends
  | succ fuel ih =>
    rw [fetch] at ends
    cases tried : attempt env n header with
    | done fetched' =>
      rw [tried] at ends first
      obtain rfl := Option.some.inj ends
      exact Nat.le_trans first (Nat.le_add_left 1 _)
    | again next answers =>
      rw [tried] at ends first
      obtain ⟨rest, later, rfl⟩ := Option.map_eq_some_iff.mp ends
      have others := ih later (attempt_answers env (n + 1) next)
      rw [List.length_append]
      exact Nat.le_trans (Nat.add_le_add first others) (Nat.le_of_eq (Nat.add_comm 1 _))

theorem fetch_none
    (repeats : ∀ n header, ∃ next answers, attempt env n header = .again next answers)
    (fuel n : ℕ) (header : Option Text) : fetch env fuel n header = none := by
  induction fuel generalizing n header with
  | zero => rfl
  | succ fuel ih =>
    obtain ⟨next, answers, again⟩ := repeats n header
    rw [fetch, again]
    dsimp only
    rw [ih, Option.map_none]

/-- A call whose first request is not refused, or is refused and the token cannot be refreshed,
or whose repeated request is sent and not refused; an error of the repeated request and one
of the token provider must reach the caller. -/
def Settles (env : Env D) : Prop :=
  match env.provider.accessToken 0 with
  | none => env.passesOn = true
  | some token =>
    (env.server 0 (authorize token none)).isUnauthorized = false ∨
    (env.provider.refreshed 0 = some false ∧
      (env.server 0 (authorize token none)).readable = true) ∨
    (env.provider.refreshed 0 = some true ∧ env.form = false ∧
      ∃ renewed, env.provider.renewedToken 0 = some renewed ∧
      ∃ token', env.provider.accessToken 1 = some token' ∧
        (env.server 1 (authorize token' (some (bearer renewed)))).isUnauthorized = false ∧
        ((env.server 1 (authorize token' (some (bearer renewed)))).isOk = true ∨
          env.passesOn = true))

theorem completed_outcome (parser : D → Except Thrown T) (a : Answer D) :
    ∃ result, completed parser a.outcome = some result := by
  rw [Answer.outcome]
  split
  · exact ⟨_, rfl⟩
  · exact ⟨_, rfl⟩

theorem completed_resolved (parser : D → Except Thrown T) {a : Answer D}
    (reaches : a.isOk = true ∨ env.passesOn = true) :
    ∃ result, completed parser (env.resolved a.outcome) = some result := by
  rw [Answer.isOk] at reaches
  rw [Answer.outcome]
  split
  · exact ⟨_, rfl⟩
  · rename_i refused
    rw [refused] at reaches
    rw [Env.resolved, Env.escaped, if_pos (reaches.resolve_left Bool.false_ne_true)]
    exact ⟨_, rfl⟩

theorem reaches_of_completed {a : Answer D} {result : Completed T}
    (ends : completed parser (env.resolved a.outcome) = some result) :
    a.isOk = true ∨ env.passesOn = true := by
  rw [Answer.outcome] at ends
  rw [Answer.isOk]
  cases received : a.received with
  | ok r => exact .inl rfl
  | error e =>
    rw [received] at ends
    dsimp only [Env.resolved, Env.escaped] at ends
    split at ends
    · exact .inr ‹_›
    · cases ends

theorem completed_escaped {result : Completed T}
    (ends : completed parser (env.escaped unknownError) = some result) :
    env.passesOn = true ∧ result = .failure .unknown := by
  rw [Env.escaped] at ends
  split at ends
  · rename_i passes
    exact ⟨passes, (Option.some.inj ends).symm⟩
  · cases ends

theorem completed_unauthorized (parser : D → Except Thrown T) (body : Body D) :
    completed parser (.error ⟨.badResponse, some ⟨401, body⟩⟩) = some (.failure .unauthorized) ↔
      (Answer.response ⟨401, body⟩).readable = true := by
  rw [completed, Option.some.injEq, mapDioException, Answer.readable]
  cases fields : body.errorFields with
  | none => simp [fields]
  | some fields' => simp [fields, DioException.statusCode]

theorem bounded_of_fetch {result : Completed T} (ends : fetch env fuel 0 none = some fetched)
    (completes : completed parser fetched.outcome = some result) (refreshes : fetched.refreshes ≤ 1)
    (unauthorized : fetched.answers ≠ [] → (∀ a ∈ fetched.answers, a.isUnauthorized = true) →
      result = .failure .unauthorized) : Bounded env parser :=
  ⟨fuel, fetched, result, ends, completes, refreshes,
    Nat.le_trans (answers_le ends) (Nat.succ_le_succ refreshes), unauthorized⟩

theorem bounded_of_settles (settles : Settles env) : Bounded env parser := by
  rw [Settles] at settles
  cases given : env.provider.accessToken 0 with
  | none =>
    rw [given] at settles
    have ends : completed parser (env.escaped unknownError) = some (.failure .unknown) := by
      rw [Env.escaped, if_pos settles]
      rfl
    exact bounded_of_fetch (fetch_done 0 (attempt_throws given)) ends (Nat.zero_le 1)
      fun some' => absurd rfl some'
  | some token =>
    rw [given] at settles
    dsimp only at settles
    have sends : env.Sends 0 := by simp [Env.Sends]
    by_cases refused : (env.server 0 (authorize token none)).isUnauthorized = true
    · obtain ⟨body, answer⟩ := isUnauthorized_iff.mp refused
      have tried := attempt_unauthorized given sends answer
      rcases settles with other | ⟨refreshed, readable⟩ |
        ⟨refreshed, form, renewed, again, token', given', other, reaches⟩
      · rw [refused] at other
        cases other
      · rw [refreshed] at tried
        rw [answer] at readable
        exact bounded_of_fetch (fetch_done 0 tried)
          ((completed_unauthorized parser body).mpr readable) (Nat.le_refl 1) fun _ _ => rfl
      · rw [refreshed, again] at tried
        have sends' : env.Sends 1 := by simp [Env.Sends, form]
        have second := fetch_done 0 (attempt_other given' sends' other)
        obtain ⟨result, ends⟩ := completed_resolved parser reaches
        refine bounded_of_fetch (fetch_again tried second) ends (Nat.le_refl 1) fun _ all => ?_
        have last := all _ (List.mem_append_right _ (List.mem_singleton_self _))
        rw [other] at last
        cases last
    · rw [Bool.not_eq_true] at refused
      obtain ⟨result, ends⟩ := completed_outcome parser (env.server 0 (authorize token none))
      refine bounded_of_fetch (fetch_done 0 (attempt_other given sends refused)) ends
        (Nat.zero_le 1) fun _ all => ?_
      have first := all _ (List.mem_singleton_self _)
      rw [refused] at first
      cases first

theorem resolved_escaped (e : DioException D) :
    env.resolved (env.escaped e) = env.escaped e := by
  cases passes : env.passesOn <;> simp [Env.resolved, Env.escaped, passes]

theorem not_escaped {body : Body D} {result : Completed T}
    (completes : completed parser fetched.outcome = some result)
    (unauthorized : fetched.answers ≠ [] → (∀ a ∈ fetched.answers, a.isUnauthorized = true) →
      result = .failure .unauthorized)
    (outcome : fetched.outcome = env.escaped unknownError) :
    fetched.answers ≠ [.response ⟨401, body⟩] := by
  intro answers
  rw [outcome] at completes
  have failed := unauthorized (by simp [answers]) (by simp [answers, Answer.isUnauthorized])
  rw [(completed_escaped completes).2] at failed
  cases failed

theorem repeated_settles {body : Body D} {renewed : Option Text} {result : Completed T}
    (tried : attempt env 0 none = .again (some (bearer renewed)) [.response ⟨401, body⟩])
    (ends : fetch env fuel 0 none = some fetched)
    (completes : completed parser fetched.outcome = some result) (refreshes : fetched.refreshes ≤ 1)
    (escapes : fetched.outcome = env.escaped unknownError →
      fetched.answers ≠ [.response ⟨401, body⟩]) :
    env.form = false ∧ ∃ token', env.provider.accessToken 1 = some token' ∧
      (env.server 1 (authorize token' (some (bearer renewed)))).isUnauthorized = false ∧
      ((env.server 1 (authorize token' (some (bearer renewed)))).isOk = true ∨
        env.passesOn = true) := by
  obtain ⟨fuel', rest, later, rfl⟩ := fetch_of_again tried ends
  cases given : env.provider.accessToken 1 with
  | none =>
    obtain rfl := fetch_of_done (attempt_throws given) later
    exact absurd rfl (escapes (resolved_escaped unknownError))
  | some token' =>
    by_cases sends : env.Sends 1
    · have form : env.form = false := by simpa [Env.Sends] using sends
      refine ⟨form, token', rfl, ?_⟩
      by_cases other : (env.server 1 (authorize token' (some (bearer renewed)))).isUnauthorized =
          true
      · have more := refreshes_pos given sends other later
        dsimp only at refreshes
        omega
      · rw [Bool.not_eq_true] at other
        obtain rfl := fetch_of_done (attempt_other given sends other) later
        exact ⟨other, reaches_of_completed completes⟩
    · obtain rfl := fetch_of_done (attempt_unsent given sends) later
      exact absurd rfl (escapes rfl)

theorem settles_of_bounded (bounded : Bounded env parser) : Settles env := by
  obtain ⟨fuel, fetched, result, ends, completes, refreshes, -, unauthorized⟩ := bounded
  rw [Settles]
  cases given : env.provider.accessToken 0 with
  | none =>
    rw [fetch_of_done (attempt_throws given) ends] at completes
    exact (completed_escaped completes).1
  | some token =>
    have sends : env.Sends 0 := by simp [Env.Sends]
    dsimp only
    by_cases refused : (env.server 0 (authorize token none)).isUnauthorized = true
    · right
      obtain ⟨body, answer⟩ := isUnauthorized_iff.mp refused
      have tried := attempt_unauthorized given sends answer
      have escapes : fetched.outcome = env.escaped unknownError →
          fetched.answers ≠ [.response ⟨401, body⟩] := not_escaped completes unauthorized
      cases refreshed : env.provider.refreshed 0 with
      | none =>
        rw [refreshed] at tried
        obtain rfl := fetch_of_done tried ends
        exact absurd rfl (escapes rfl)
      | some renews =>
        cases renews with
        | false =>
          left
          rw [refreshed] at tried
          obtain rfl := fetch_of_done tried ends
          have failed := unauthorized (by simp) (by simp [Answer.isUnauthorized])
          rw [answer]
          exact ⟨rfl, (completed_unauthorized parser body).mp (failed ▸ completes)⟩
        | true =>
          right
          rw [refreshed] at tried
          cases again : env.provider.renewedToken 0 with
          | none =>
            rw [again] at tried
            obtain rfl := fetch_of_done tried ends
            exact absurd rfl (escapes rfl)
          | some renewed =>
            rw [again] at tried
            obtain ⟨form, settled⟩ := repeated_settles tried ends completes refreshes escapes
            exact ⟨rfl, form, renewed, rfl, settled⟩
    · left
      simpa using refused

/-- A call ends in time exactly when its first two requests settle it. -/
theorem bounded_iff (env : Env D) (parser : D → Except Thrown T) :
    Bounded env parser ↔ Settles env :=
  ⟨settles_of_bounded, bounded_of_settles⟩

structure SecureTokenStorage where
  accessToken : Option Text
  refreshToken : Option Text
  memoryAccessToken : Option Text

namespace SecureTokenStorage

variable (storage : SecureTokenStorage)

def getAccessToken : Option Text := storage.memoryAccessToken <|> storage.accessToken

def refreshAccessToken : Bool := storage.refreshToken.isSome

def provider : TokenProvider where
  accessToken _ := some storage.getAccessToken
  refreshed _ := some storage.refreshAccessToken
  renewedToken _ := some storage.getAccessToken

end SecureTokenStorage

theorem storage_fetch_none {storage : SecureTokenStorage} (stored : storage.refreshToken ≠ none)
    (own : env.provider = storage.provider) (form : env.form = false)
    (refuses : ∀ n header, (env.server n header).isUnauthorized = true)
    (fuel n : ℕ) (header : Option Text) : fetch env fuel n header = none := by
  refine fetch_none (fun n header => ?_) fuel n header
  have given : env.provider.accessToken n = some storage.getAccessToken := by
    rw [own]
    rfl
  have refreshed : env.provider.refreshed n = some true := by
    rw [own]
    exact congrArg some (Option.isSome_iff_ne_none.mpr stored)
  have renewed : env.provider.renewedToken n = some storage.getAccessToken := by
    rw [own]
    rfl
  obtain ⟨body, answer⟩ := isUnauthorized_iff.mp (refuses n
    (authorize storage.getAccessToken header))
  have tried := attempt_unauthorized given (by simp [Env.Sends, form]) answer
  rw [refreshed, renewed] at tried
  exact ⟨_, _, tried⟩

def signedIn : SecureTokenStorage := ⟨some "access".toList, some "refresh".toList, none⟩

def revoked (passesOn : Bool) : Env Unit :=
  ⟨signedIn.provider, fun _ _ => .response ⟨401, .other⟩, passesOn, false⟩

theorem revoked_fetch (passesOn : Bool) (fuel : ℕ) :
    fetch (revoked passesOn) fuel 0 none = none :=
  storage_fetch_none (by simp [signedIn]) rfl rfl (fun _ _ => rfl) fuel 0 none

theorem not_bounded_of_fetch (never : ∀ fuel, fetch env fuel 0 none = none) :
    ¬ Bounded env parser := by
  rintro ⟨fuel, fetched, result, ends, -⟩
  rw [never] at ends
  cases ends

/-- A revoked session keeps the client asking. -/
theorem revoked_not_bounded :
    (∀ fuel, fetch (revoked true) fuel 0 none = none ∧ fetch (revoked false) fuel 0 none = none) ∧
      ¬ Bounded (revoked true) (fun _ => (.ok () : Except Thrown Unit)) ∧
      ¬ Bounded (revoked false) (fun _ => (.ok () : Except Thrown Unit)) :=
  ⟨fun fuel => ⟨revoked_fetch true fuel, revoked_fetch false fuel⟩,
    not_bounded_of_fetch (revoked_fetch true), not_bounded_of_fetch (revoked_fetch false)⟩

end KnowledgeCompanion.ApiClient
