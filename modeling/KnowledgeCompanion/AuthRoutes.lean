import KnowledgeCompanion.AuthService
import KnowledgeCompanion.GuardedRun
import KnowledgeCompanion.RateLimit

/-! The authentication routes as the router wires them (`router/router.go`,
`middleware/auth.go`, `handler/auth_handler.go`). Only `JWTAuth` puts a user
into the request context, and the group that holds `/auth/logout` does not use
it; the logout handler then asks the store to delete a key with an empty user. -/

namespace KnowledgeCompanion.AuthRoutes

open AppErrors AuthService GuardedRun TokenStore

/-- A request to one of the routes; `none` is a body that is not the expected JSON object. -/
inductive Call
  | register (body : Option RegisterRequest)
  | login (body : Option LoginRequest)
  | refresh (refreshToken : Option Text)
  | logout (refreshToken : Option Text)
  | me

structure Request where
  call : Call
  ip : Text := []
  bearer : Text := []
  now : ℤ := 0
  io : AuthIO := {}

/-- The validator's `email` rule and the JWT parser are third-party code. -/
structure RouteConfig where
  auth : AuthConfig
  emailRule : Text → Bool
  parseAccessToken : Text → Option AccessToken

inductive Data
  | auth (resp : AuthResponse)
  | refreshed (resp : RefreshResponse)
  | profile (user : UserProfile)
  | null

inductive Response
  | ok (data : Data)
  | error (status : ℕ) (code message : String)

structure RouteState where
  auth : AuthState
  records : RateLimit.Records

/-- `c.GetString("user_uuid")` is empty until a middleware sets it. -/
structure Context where
  userUUID : Text := []

inductive Middleware
  | authLimit
  | jwtAuth
deriving DecidableEq

def authLimiter : RateLimit.RateLimiter := ⟨10, 60 * 1000000000⟩

def path : Call → String
  | .register _ => "/api/v1/auth/register"
  | .login _ => "/api/v1/auth/login"
  | .refresh _ => "/api/v1/auth/refresh"
  | .logout _ => "/api/v1/auth/logout"
  | .me => "/api/v1/auth/me"

def middlewares : Call → List Middleware
  | .register _ => [.authLimit]
  | .login _ => [.authLimit]
  | .refresh _ => [.authLimit]
  | .logout _ => [.authLimit]
  | .me => [.jwtAuth]

def jwtAuth (cfg : RouteConfig) (ctx : Context) (bearer : Text) : Except Response Context :=
  if bearer = [] then
    .error (.error 401 "AUTH_INVALID_TOKEN" "missing authorization header")
  else
    match cfg.parseAccessToken bearer with
    | none => .error (.error 401 "AUTH_INVALID_TOKEN" "access token invalid or expired")
    | some claims => .ok { ctx with userUUID := claims.subject }

def limitKey (r : Request) : Text := r.ip ++ '|' :: (path r.call).toList

def runMiddlewares (cfg : RouteConfig) (r : Request) :
    List Middleware → Context → RateLimit.Records → Except Response Context × RateLimit.Records
  | [], ctx, records => (.ok ctx, records)
  | .authLimit :: rest, ctx, records =>
    match RateLimit.limit authLimiter records (limitKey r) r.now with
    | (false, records) => (.error (.error 429 "TOO_MANY_REQUESTS" "rate limit exceeded"), records)
    | (true, records) => runMiddlewares cfg r rest ctx records
  | .jwtAuth :: rest, ctx, records =>
    match jwtAuth cfg ctx r.bearer with
    | .error response => (.error response, records)
    | .ok ctx => runMiddlewares cfg r rest ctx records

def contains (text part : String) : Bool := decide (part.toList <:+: text.toList)

def mapAuthError (e : Err) : Response :=
  let text := e.text
  if contains text "VALIDATION_ERROR" || contains text "BAD_REQUEST" ||
      contains text "password must" then
    .error 400 "VALIDATION_ERROR" text
  else if contains text "CONFLICT" then .error 409 "CONFLICT" text
  else if contains text "AUTH_INVALID_CREDENTIALS" then
    .error 401 "AUTH_INVALID_CREDENTIALS" "email or password incorrect"
  else if contains text "AUTH_INVALID_TOKEN" then
    .error 401 "AUTH_INVALID_TOKEN" "access token invalid or expired"
  else if contains text "AUTH_SESSION_EXPIRED" then
    .error 401 "AUTH_SESSION_EXPIRED" "session expired, please login again"
  else if contains text "NOT_FOUND" then .error 404 "NOT_FOUND" text
  else .error 500 "INTERNAL_ERROR" "internal server error"

def respond {α : Type} (data : α → Data) : Except Err α → Response
  | .ok result => .ok (data result)
  | .error e => mapAuthError e

def invalidBody : Response := .error 400 "VALIDATION_ERROR" "invalid request body"

def bindRegister (cfg : RouteConfig) (body : Option RegisterRequest) : Option RegisterRequest :=
  body.filter fun req =>
    req.email != [] && cfg.emailRule req.email && decide (8 ≤ req.password.length)

def bindLogin (cfg : RouteConfig) (body : Option LoginRequest) : Option LoginRequest :=
  body.filter fun req => req.email != [] && cfg.emailRule req.email && req.password != []

def bindToken (body : Option Text) : Option Text := body.filter fun token => token != []

def handle (cfg : RouteConfig) (s : AuthState) (ctx : Context) (io : AuthIO) :
    Call → Response × AuthState
  | .register body =>
    match bindRegister cfg body with
    | none => (invalidBody, s)
    | some req =>
      let (result, s) := AuthService.register cfg.auth s io req
      (respond .auth result, s)
  | .login body =>
    match bindLogin cfg body with
    | none => (invalidBody, s)
    | some req =>
      let (result, s) := AuthService.login cfg.auth s io req
      (respond .auth result, s)
  | .refresh body =>
    match bindToken body with
    | none => (invalidBody, s)
    | some token =>
      let (result, s) := AuthService.refresh cfg.auth s io token
      (respond .refreshed result, s)
  | .logout body =>
    match bindToken body with
    | none => (invalidBody, s)
    | some token =>
      let (result, s) := AuthService.logout s io ctx.userUUID token
      (respond (fun _ => .null) result, s)
  | .me => (respond .profile (AuthService.me s io ctx.userUUID), s)

def serve (cfg : RouteConfig) (s : RouteState) (r : Request) : Response × RouteState :=
  match runMiddlewares cfg r (middlewares r.call) {} s.records with
  | (.error response, records) => (response, { s with records })
  | (.ok ctx, records) =>
    let (response, auth) := handle cfg s.auth ctx r.io r.call
    (response, ⟨auth, records⟩)

inductive Event
  | request (r : Request)
  | expire (key : Text)

def step (cfg : RouteConfig) (s : RouteState) : Event → RouteState
  | .request r => (serve cfg s r).2
  | .expire key => { s with auth.store := s.auth.store.erase key }

def Response.isOk : Response → Bool
  | .ok _ => true
  | .error _ _ _ => false

theorem runMiddlewares_context {cfg : RouteConfig} {r : Request} {ms : List Middleware}
    {ctx ctx' : Context} {records records' : RateLimit.Records} (plain : .jwtAuth ∉ ms)
    (h : runMiddlewares cfg r ms ctx records = (.ok ctx', records')) : ctx' = ctx := by
  induction ms generalizing records with
  | nil => simp_all [runMiddlewares]
  | cons m ms ih =>
    have rest : .jwtAuth ∉ ms := fun h => plain (List.mem_cons_of_mem _ h)
    cases m with
    | jwtAuth => exact absurd List.mem_cons_self plain
    | authLimit =>
      unfold runMiddlewares at h
      split at h
      · simp at h
      · exact ih rest h

theorem runMiddlewares_denied {cfg : RouteConfig} {r : Request} {ms : List Middleware}
    {ctx : Context} {records records' : RateLimit.Records} {response : Response}
    (h : runMiddlewares cfg r ms ctx records = (.error response, records')) :
    response.isOk = false := by
  induction ms generalizing ctx records with
  | nil => simp [runMiddlewares] at h
  | cons m ms ih =>
    cases m with
    | authLimit =>
      unfold runMiddlewares at h
      split at h
      · simp only [Prod.mk.injEq, Except.error.injEq] at h
        rw [← h.1]
        rfl
      · exact ih h
    | jwtAuth =>
      simp only [runMiddlewares] at h
      split at h
      · rename_i denied result
        simp only [Prod.mk.injEq, Except.error.injEq] at h
        rw [← h.1]
        unfold jwtAuth at result
        split at result
        · simp only [Except.error.injEq] at result
          rw [← result]
          rfl
        · split at result
          · simp only [Except.error.injEq] at result
            rw [← result]
            rfl
          · simp at result
      · exact ih h

theorem serve_cases (cfg : RouteConfig) (s : RouteState) (r : Request) :
    ((serve cfg s r).1.isOk = false ∧ (serve cfg s r).2.auth = s.auth) ∨
    ∃ ctx, (.jwtAuth ∉ middlewares r.call → ctx.userUUID = []) ∧
      (serve cfg s r).1 = (handle cfg s.auth ctx r.io r.call).1 ∧
      (serve cfg s r).2.auth = (handle cfg s.auth ctx r.io r.call).2 := by
  unfold serve
  split
  · rename_i chain
    exact .inl ⟨runMiddlewares_denied chain, rfl⟩
  · rename_i ctx records chain
    have user (plain : .jwtAuth ∉ middlewares r.call) : ctx.userUUID = [] := by
      rw [runMiddlewares_context plain chain]
    exact .inr ⟨ctx, user, rfl, rfl⟩

theorem mapAuthError_denied (e : Err) : (mapAuthError e).isOk = false := by
  simp only [mapAuthError]
  split_ifs <;> rfl

theorem respond_ok {α : Type} {data : α → Data} {result : Except Err α}
    (h : (respond data result).isOk = true) : ∃ value, result = .ok value := by
  cases result with
  | ok value => exact ⟨value, rfl⟩
  | error e => simp [respond, mapAuthError_denied] at h

theorem serve_logout {cfg : RouteConfig} {s : RouteState} {r : Request} {t : Text}
    (call : r.call = .logout (some t)) (ok : (serve cfg s r).1.isOk = true) :
    (serve cfg s r).2.auth.store = s.auth.store.erase (refreshKey [] t) := by
  have cases := serve_cases cfg s r
  rcases cases with ⟨denied, -⟩ | ⟨ctx, anonymous, response, auth⟩
  · rw [denied] at ok
    simp at ok
  · have user : ctx.userUUID = [] := anonymous (by simp [call, middlewares])
    rw [response, call] at ok
    rw [auth, call]
    simp only [handle] at ok ⊢
    split at ok
    · simp [invalidBody, Response.isOk] at ok
    · rename_i token bound
      have same : t = token := by
        simpa [bindToken] using (Option.filter_eq_some_iff.mp bound).1
      have result := respond_ok ok
      obtain ⟨value, result⟩ := result
      rw [same, ← user]
      exact logout_ok (Prod.ext result rfl)

def Call.issues : Call → Bool
  | .register _ => true
  | .login _ => true
  | _ => false

theorem handle_noSession {cfg : RouteConfig} {s : AuthState} {ctx : Context} {io : AuthIO}
    {call : Call} {t : Text} (none : NoSession t s.store)
    (apart : call.issues → ¬ MatchesUUID t io.tokenUUID) :
    NoSession t (handle cfg s ctx io call).2.store := by
  cases call with
  | register body =>
    simp only [handle]
    split
    · exact none
    · exact noSession_grows none (register_growsBy _ _ _ _) (apart rfl)
  | login body =>
    simp only [handle]
    split
    · exact none
    · exact noSession_grows none (login_growsBy _ _ _ _) (apart rfl)
  | refresh body =>
    simp only [handle]
    split
    · exact none
    · exact noSession_shrinks none fun k h => refresh_shrinks h
  | logout body =>
    simp only [handle]
    split
    · exact none
    · exact noSession_shrinks none fun k h => logout_shrinks h
  | me => exact none

theorem serve_noSession {cfg : RouteConfig} {s : RouteState} {r : Request} {t : Text}
    (none : NoSession t s.auth.store)
    (apart : r.call.issues → ¬ MatchesUUID t r.io.tokenUUID) :
    NoSession t (serve cfg s r).2.auth.store := by
  rcases serve_cases cfg s r with ⟨-, same⟩ | ⟨ctx, -, -, auth⟩
  · rwa [same]
  · rw [auth]
    exact handle_noSession none apart

theorem serve_refused {cfg : RouteConfig} {s : RouteState} {r : Request} {t : Text}
    (call : r.call = .refresh (some t)) (none : NoSession t s.auth.store) :
    (serve cfg s r).1.isOk = false := by
  rcases serve_cases cfg s r with ⟨denied, -⟩ | ⟨ctx, -, response, -⟩
  · exact denied
  · rw [response, call]
    simp only [handle]
    split
    · rfl
    · rename_i token bound
      have same : t = token := by
        simpa [bindToken] using (Option.filter_eq_some_iff.mp bound).1
      by_contra answered
      have result := respond_ok (Bool.eq_true_of_not_eq_false answered)
      obtain ⟨resp, result⟩ := result
      exact refresh_refused (same ▸ none) resp result

structure History where
  route : RouteState
  loggedOut : List Text

def track (cfg : RouteConfig) (h : History) (e : Event) : History where
  route := step cfg h.route e
  loggedOut :=
    match e with
    | .request r =>
      match r.call with
      | .logout (some t) =>
        if (serve cfg h.route r).1.isOk then t :: h.loggedOut else h.loggedOut
      | _ => h.loggedOut
    | .expire _ => h.loggedOut

/-- A refresh is answered with success only for a token that is not logged out. -/
def RefreshesLive (cfg : RouteConfig) (h : History) (e : Event) : Prop :=
  ∀ r t, e = .request r → r.call = .refresh (some t) → (serve cfg h.route r).1.isOk = true →
    t ∉ h.loggedOut

/-- The token of a logout has no session but that of the empty user, and the uuid
of a new session is not one that a logged-out token matches. -/
structure Ended (h : History) (e : Event) : Prop where
  logout : ∀ r t, e = .request r → r.call = .logout (some t) →
    NoSession t (h.route.auth.store.erase (refreshKey [] t))
  issue : ∀ r, e = .request r → r.call.issues = true →
    ∀ t ∈ h.loggedOut, ¬ MatchesUUID t r.io.tokenUUID

def LoggedOutGone (h : History) : Prop := ∀ t ∈ h.loggedOut, NoSession t h.route.auth.store

theorem track_keeps {cfg : RouteConfig} (h : History) (e : Event) (gone : LoggedOutGone h)
    (ended : Ended h e) : LoggedOutGone (track cfg h e) := by
  cases e with
  | expire key =>
    intro t ht
    exact noSession_shrinks (gone t ht) fun k hk => (AList.mem_erase.mp hk).2
  | request r =>
    have old (t : Text) (ht : t ∈ h.loggedOut) :
        NoSession t (serve cfg h.route r).2.auth.store :=
      serve_noSession (gone t ht) fun issues => ended.issue r rfl issues t ht
    intro t ht
    simp only [track] at ht
    split at ht
    · rename_i t' call
      by_cases ok : (serve cfg h.route r).1.isOk
      · rw [if_pos ok] at ht
        rcases List.mem_cons.mp ht with rfl | ht
        · have empty := ended.logout r t rfl call
          rw [← serve_logout call ok] at empty
          exact empty
        · exact old t ht
      · rw [if_neg ok] at ht
        exact old t ht
    · exact old t ht

/-- In a run whose logouts find no session of a named user, a logged-out token is
never answered again. -/
theorem refreshes_live (cfg : RouteConfig) (s : RouteState) (es : List Event)
    (ended : EveryStep (track cfg) Ended ⟨s, []⟩ es) :
    EveryStep (track cfg) (RefreshesLive cfg) ⟨s, []⟩ es := by
  have start : LoggedOutGone ⟨s, []⟩ := fun t ht => absurd ht List.not_mem_nil
  refine everyStep_of_guard track_keeps ?_ start ended
  intro h e gone _ r t _ call ok ht
  have refused := @serve_refused cfg _ _ _ call (gone t ht)
  rw [refused] at ok
  simp at ok

def routeConfig : RouteConfig := ⟨plainConfig, fun _ => true, fun _ => none⟩

def noUsers : RouteState := ⟨⟨KeyedTable.Table.empty, ∅⟩, ∅⟩

def sessionUUID : Text := "f2a4d1c0-93be-4f70-8a65-5c1e7d9b0a32".toList

def registerAlice : Request where
  call := .register (some ⟨alice.email, alice.passwordHash, alice.nickname⟩)
  io := { userUUID := alice.uuid, tokenUUID := sessionUUID }

def refreshAlice : Request where
  call := .refresh (some sessionUUID)
  io := { scan := [.keys [refreshKey alice.uuid sessionUUID]] }

def logoutAlice : Request where
  call := .logout (some sessionUUID)

/-- A token that was used before the logout stays refused after it. -/
theorem refreshes_live_used :
    EveryStep (track routeConfig) (RefreshesLive routeConfig) ⟨noUsers, []⟩
      [.request registerAlice, .request refreshAlice, .request logoutAlice,
        .request refreshAlice] := by
  apply refreshes_live
  refine ⟨⟨?_, ?_⟩, ⟨?_, ?_⟩, ⟨?_, ?_⟩, ⟨?_, ?_⟩, trivial⟩
  · intro r t same call
    cases same
    cases call
  · intro r same issues t ht
    exact absurd ht List.not_mem_nil
  · intro r t same call
    cases same
    cases call
  · intro r same issues
    cases same
    cases issues
  · intro r t same call u v stored
    cases same
    cases call
    exact absurd (AList.mem_keys.mp stored) List.not_mem_nil
  · intro r same issues
    cases same
    cases issues
  · intro r t same call
    cases same
    cases call
  · intro r same issues
    cases same
    cases issues

/-- The logout is answered with success and the refresh token still works. -/
theorem refresh_after_logout :
    ScanReply (exec (track routeConfig) ⟨noUsers, []⟩
        [.request registerAlice, .request logoutAlice]).route.auth.store refreshAlice.io.scan ∧
      ¬ EveryStep (track routeConfig) (RefreshesLive routeConfig) ⟨noUsers, []⟩
        [.request registerAlice, .request logoutAlice, .request refreshAlice] := by
  refine ⟨⟨?_, ?_⟩, ?_⟩
  · intro ks hks k hk
    cases List.mem_singleton.mp hks
    exact AList.mem_keys.mpr hk
  · intro _ k hk
    exact ⟨_, List.mem_singleton_self _, AList.mem_keys.mp hk⟩
  · intro live
    have out := live.2.2.1 refreshAlice sessionUUID rfl rfl (by rfl)
    exact out List.mem_cons_self

end KnowledgeCompanion.AuthRoutes
