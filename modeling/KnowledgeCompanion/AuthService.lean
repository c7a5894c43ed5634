import KnowledgeCompanion.AppErrors
import KnowledgeCompanion.KeyedTable
import KnowledgeCompanion.TokenStore

/-! Registration, login, refresh and logout (`service/auth_service.go`) over the
user table and the session store. Generated uuids, faults and the scan order of
Redis are inputs of a call; a signed access token is represented by its claims. -/

namespace KnowledgeCompanion.AuthService

open AppErrors KeyedTable TokenStore

structure User where
  id : ℕ
  uuid : Text
  email : Text
  passwordHash : Text
  nickname : Text
  status : ℕ
deriving DecidableEq

/-- The claims that `GenerateAccessToken` signs. -/
structure AccessToken where
  subject : Text
  email : Text
  userID : ℕ
deriving DecidableEq

structure RegisterRequest where
  email : Text
  password : Text
  nickname : Text

structure LoginRequest where
  email : Text
  password : Text

structure AuthResponse where
  userID : Text
  email : Text
  nickname : Text
  accessToken : AccessToken
  refreshToken : Text
  expiresIn : ℕ
  tokenType : String

structure RefreshResponse where
  accessToken : AccessToken
  expiresIn : ℕ
  tokenType : String

structure UserProfile where
  userID : Text
  email : Text
  nickname : Text

structure TokenPair where
  accessToken : AccessToken
  refreshToken : Text
  expiresIn : ℕ
  tokenType : String

structure AuthConfig where
  hash : Text → Except String Text
  check : Text → Text → Bool
  accessTTL : ℕ

structure AuthIO where
  userUUID : Text := []
  tokenUUID : Text := []
  getUser : Option String := none
  createUser : Option String := none
  sign : Option String := none
  redis : RedisFaults := {}
  scan : List ScanPage := []

abbrev Users := Table User User.id

structure AuthState where
  users : Users
  store : Store

def AuthState.getByEmail (s : AuthState) (email : Text) : Option User :=
  s.users.first fun user => s.users.same user.email email

def AuthState.getByUUID (s : AuthState) (uuid : Text) : Option User :=
  s.users.first fun user => s.users.same user.uuid uuid

def passwordMinLen : ℕ := 8

/-- `[A-Za-z].*[0-9]` read from the first character, or the mirrored alternative. -/
def mixedFrom : Text → Bool
  | [] => false
  | c :: rest =>
    let line := rest.takeWhile (· != '\n')
    (c.isAlpha && line.any Char.isDigit) || (c.isDigit && line.any Char.isAlpha)

def passwordRegexp (p : Text) : Bool := p.tails.any mixedFrom

def isLocalChar (c : Char) : Bool := c.isAlphanum || "._%+-".toList.contains c

def isDomainChar (c : Char) : Bool := c.isAlphanum || ".-".toList.contains c

def domainRegexp (d : Text) : Bool :=
  (List.range d.length).any fun i =>
    let name := d.take i
    let top := d.drop (i + 1)
    d[i]? == some '.' && !name.isEmpty && name.all isDomainChar &&
      top.all Char.isAlpha && decide (2 ≤ top.length)

/-- No class of the pattern contains `@`, so it stands exactly once. -/
def emailRegexp (e : Text) : Bool :=
  match e.splitOn '@' with
  | [name, domain] => !name.isEmpty && name.all isLocalChar && domainRegexp domain
  | _ => false

def byteLength (p : Text) : ℕ := (p.map Char.utf8Size).sum

def validatePassword (p : Text) : Except AppError Unit :=
  if byteLength p < passwordMinLen then
    .error (badRequest "password must be at least 8 characters")
  else if !passwordRegexp p then
    .error (badRequest "password must contain both letters and numbers")
  else .ok ()

def validateRegisterRequest (req : RegisterRequest) : Except AppError Unit :=
  if req.email = [] || !emailRegexp req.email then
    .error (badRequest "VALIDATION_ERROR: invalid email")
  else validatePassword req.password

def invalidCredentials : AppError :=
  unauthorized "AUTH_INVALID_CREDENTIALS: email or password incorrect"

def sessionExpired : AppError :=
  unauthorized "AUTH_SESSION_EXPIRED: session expired, please login again"

def generateAccessToken (user : User) : AccessToken := ⟨user.uuid, user.email, user.id⟩

def storeErrorText : StoreError → String
  | .notFound => "NOT_FOUND"
  | .failed message => message

def generateTokenPair (cfg : AuthConfig) (s : AuthState) (io : AuthIO) (user : User) :
    Except AppError TokenPair × AuthState :=
  match io.sign with
  | some cause => (.error (internal ("failed to generate access token: " ++ cause)), s)
  | none =>
    match save s.store io.redis user.uuid io.tokenUUID (.encoded ⟨user.uuid, user.email⟩) with
    | (.error e, store) =>
      (.error (internal ("failed to save refresh session: " ++ storeErrorText e)), { s with store })
    | (.ok _, store) =>
      (.ok ⟨generateAccessToken user, io.tokenUUID, cfg.accessTTL, "Bearer"⟩, { s with store })

def authResponse (user : User) (pair : TokenPair) : AuthResponse :=
  ⟨user.uuid, user.email, user.nickname, pair.accessToken, pair.refreshToken, pair.expiresIn,
    pair.tokenType⟩

/-- `userRepo.Create`: both the email and the uuid are unique. -/
def createUser (s : AuthState) (io : AuthIO) (make : ℕ → User) (keyed : ∀ n, (make n).id = n) :
    Except Err User × AuthState :=
  match io.createUser with
  | some cause => (.error (.plain ("failed to create user: " ++ cause)), s)
  | none =>
    let user := make s.users.next
    if (s.getByEmail user.email).isSome || (s.getByUUID user.uuid).isSome then
      (.error (.app (conflict "email already exists")), s)
    else (.ok user, { s with users := s.users.insert make keyed })

def register (cfg : AuthConfig) (s : AuthState) (io : AuthIO) (req : RegisterRequest) :
    Except Err AuthResponse × AuthState :=
  match validateRegisterRequest req with
  | .error e => (.error (.app e), s)
  | .ok _ =>
    match cfg.hash req.password with
    | .error cause => (.error (.app (internal ("failed to hash password: " ++ cause))), s)
    | .ok hash =>
      match createUser s io (fun id => ⟨id, io.userUUID, req.email, hash, req.nickname, 1⟩)
        (fun _ => rfl) with
      | (.error e, s) => (.error e, s)
      | (.ok user, s) =>
        match generateTokenPair cfg s io user with
        | (.error e, s) => (.error (.app e), s)
        | (.ok pair, s) => (.ok (authResponse user pair), s)

def login (cfg : AuthConfig) (s : AuthState) (io : AuthIO) (req : LoginRequest) :
    Except Err AuthResponse × AuthState :=
  match io.getUser with
  | some cause => (.error (.app (internal ("failed to get user: " ++ cause))), s)
  | none =>
    match s.getByEmail req.email with
    | none => (.error (.app invalidCredentials), s)
    | some user =>
      if !cfg.check req.password user.passwordHash then (.error (.app invalidCredentials), s)
      else
        match generateTokenPair cfg s io user with
        | (.error e, s) => (.error (.app e), s)
        | (.ok pair, s) => (.ok (authResponse user pair), s)

def refresh (cfg : AuthConfig) (s : AuthState) (io : AuthIO) (refreshToken : Text) :
    Except Err RefreshResponse × AuthState :=
  match findByTokenUUID s.store io.redis refreshToken io.scan with
  | .error _ => (.error (.app sessionExpired), s)
  | .ok (_, .garbled) => (.error (.app sessionExpired), s)
  | .ok (userUUID, .encoded _) =>
    if io.getUser.isSome then (.error (.app sessionExpired), s)
    else
      match s.getByUUID userUUID with
      | none => (.error (.app sessionExpired), s)
      | some user =>
        match delete s.store io.redis userUUID refreshToken with
        | (.error e, store) =>
          (.error (.app (internal ("failed to delete refresh session: " ++ storeErrorText e))),
            { s with store })
        | (.ok _, store) =>
          match io.sign with
          | some cause =>
            (.error (.app (internal ("failed to generate access token: " ++ cause))),
              { s with store })
          | none =>
            (.ok ⟨generateAccessToken user, cfg.accessTTL, "Bearer"⟩, { s with store })

def logout (s : AuthState) (io : AuthIO) (userUUID refreshToken : Text) :
    Except Err Unit × AuthState :=
  match delete s.store io.redis userUUID refreshToken with
  | (.error e, store) =>
    (.error (.app (internal ("failed to delete refresh session: " ++ storeErrorText e))),
      { s with store })
  | (.ok _, store) => (.ok (), { s with store })

def me (s : AuthState) (io : AuthIO) (userUUID : Text) : Except Err UserProfile :=
  match io.getUser with
  | some cause => .error (.app (internal ("failed to get user: " ++ cause)))
  | none =>
    match s.getByUUID userUUID with
    | none => .error (.app (notFound "user"))
    | some user => .ok ⟨user.uuid, user.email, user.nickname⟩

/-- A stored session that `Refresh` can use: its bytes decode and its user exists. -/
structure Usable (s : AuthState) (userUUID tokenUUID : Text) : Prop where
  data : ∃ session, s.store.lookup (refreshKey userUUID tokenUUID) = some (.encoded session)
  owner : ∃ user, s.getByUUID userUUID = some user

def HasSession (s : AuthState) (user : User) (t : Text) : Prop :=
  ∃ userUUID, refreshKey userUUID t ∈ s.store ∧ s.getByUUID userUUID = some user

/-- The response carries a token for the user of a stored session with token `t`. -/
def IssuedForSession (s : AuthState) (t : Text) (resp : RefreshResponse) : Prop :=
  ∃ user, HasSession s user t ∧ resp.accessToken = generateAccessToken user

theorem mem_of_getByUUID {s : AuthState} {uuid : Text} {user : User}
    (h : s.getByUUID uuid = some user) : user ∈ s.users.rows :=
  Table.mem_of_first h

theorem refresh_ok {cfg : AuthConfig} {s s' : AuthState} {io : AuthIO} {t : Text}
    {resp : RefreshResponse} (h : refresh cfg s io t = (.ok resp, s')) :
    ∃ u v user, Matched t u v ∧ Usable s u v ∧ s.getByUUID u = some user ∧
      resp = ⟨generateAccessToken user, cfg.accessTTL, "Bearer"⟩ ∧
      s' = { s with store := s.store.erase (refreshKey u t) } := by
  unfold refresh at h
  split at h
  · cases h
  · cases h
  · rename_i u session found
    have stored := findByTokenUUID_ok found
    obtain ⟨v, matched, data⟩ := stored
    split at h
    · cases h
    · split at h
      · cases h
      · rename_i user owner
        unfold delete at h
        cases del : io.redis.del with
        | some cause => simp [del] at h
        | none =>
          cases sign : io.sign with
          | some cause => simp [del, sign] at h
          | none =>
            simp only [del, sign, Prod.mk.injEq, Except.ok.injEq] at h
            obtain ⟨rfl, rfl⟩ := h
            exact ⟨u, v, user, matched, ⟨⟨session, data⟩, user, owner⟩, owner, rfl, rfl⟩

theorem refresh_first {cfg : AuthConfig} {s : AuthState} {t u v : Text} {user : User}
    (ks : List Text) (pages : List ScanPage) (matched : Matched t u v) (usable : Usable s u v)
    (owner : s.getByUUID u = some user) :
    refresh cfg s { scan := .keys (refreshKey u v :: ks) :: pages } t =
      (.ok ⟨generateAccessToken user, cfg.accessTTL, "Bearer"⟩,
        { s with store := s.store.erase (refreshKey u t) }) := by
  obtain ⟨session, data⟩ := usable.data
  have found := findByTokenUUID_first ks pages matched data
  simp only [refresh, found, owner, delete, Option.isSome_none, Bool.false_eq_true, if_false]

theorem hasSession_of_literal {s : AuthState} {t u v : Text} {user : User}
    (plain : ∀ c ∈ t, GlobPattern.isMeta c = false) (matched : Matched t u v)
    (usable : Usable s u v) (owner : s.getByUUID u = some user) : HasSession s user t := by
  have same : v = t := ((matched_literal plain).mp matched).2.2
  obtain ⟨session, data⟩ := usable.data
  refine ⟨u, ?_, owner⟩
  rw [← same, ← AList.lookup_isSome, data]
  rfl

/-- Over every scan order and fault, a refresh is answered only for a session with
token `t` exactly when no other session of a user without that session is
matched by `t` read as a glob pattern, as when it has no glob operator. -/
theorem refresh_issued_iff (cfg : AuthConfig) (s : AuthState) (t : Text) :
    ((∀ io, ScanReply s.store io.scan → ∀ resp, (refresh cfg s io t).1 = .ok resp →
      IssuedForSession s t resp) ↔
    ∀ u v user, Matched t u v → Usable s u v → s.getByUUID u = some user →
      HasSession s user t) ∧
    ((∀ c ∈ t, GlobPattern.isMeta c = false) → ∀ u v user, Matched t u v → Usable s u v →
      s.getByUUID u = some user → HasSession s user t) := by
  refine ⟨?_, fun plain u v user => hasSession_of_literal plain⟩
  constructor
  · intro issued u v user matched usable owner
    obtain ⟨session, data⟩ := usable.data
    have stored : refreshKey u v ∈ s.store :=
      AList.lookup_isSome.mp (by rw [data]; rfl)
    have reply : ScanReply s.store [.keys (refreshKey u v :: s.store.keys)] := by
      refine ⟨fun ks hks k hk => ?_, fun _ k hk => ⟨_, List.mem_singleton_self _, ?_⟩⟩
      · cases List.mem_singleton.mp hks
        rcases List.mem_cons.mp hk with rfl | hk
        · exact stored
        · exact AList.mem_keys.mpr hk
      · exact List.mem_cons_of_mem _ (AList.mem_keys.mp hk)
    have answered := @refresh_first cfg _ _ _ _ _ s.store.keys [] matched usable owner
    have session := issued _ reply _ (congrArg Prod.fst answered)
    obtain ⟨user', ⟨u', mine, owner'⟩, token⟩ := session
    have key : user.id = user'.id := congrArg AccessToken.userID token
    have same : user = user' :=
      Table.eq_of_key (mem_of_getByUUID owner) (mem_of_getByUUID owner') key
    exact ⟨u', mine, same ▸ owner'⟩
  · intro only io _ resp answered
    have result : refresh cfg s io t = (.ok resp, (refresh cfg s io t).2) := by
      rw [← answered]
    obtain ⟨u, v, user, matched, usable, owner, rfl, -⟩ := refresh_ok result
    exact ⟨user, only u v user matched usable owner, rfl⟩

/-- Every key of the second store is old or belongs to a session with token `token`. -/
def GrowsBy (token : Text) (before after : Store) : Prop :=
  ∀ k ∈ after, k ∈ before ∨ ∃ u, k = refreshKey u token

theorem growsBy_refl (token : Text) (store : Store) : GrowsBy token store store :=
  fun _ hk => .inl hk

theorem growsBy_insert (token u : Text) (store : Store) (data : SessionData) :
    GrowsBy token store (store.insert (refreshKey u token) data) := by
  intro k hk
  rcases (AList.mem_insert _).mp hk with rfl | hk
  · exact .inr ⟨u, rfl⟩
  · exact .inl hk

theorem generateTokenPair_growsBy (cfg : AuthConfig) (s : AuthState) (io : AuthIO) (user : User) :
    GrowsBy io.tokenUUID s.store (generateTokenPair cfg s io user).2.store := by
  cases sign : io.sign with
  | some cause => simpa only [generateTokenPair, sign] using growsBy_refl _ _
  | none =>
    cases set : io.redis.set with
    | some cause => simpa only [generateTokenPair, sign, save, set] using growsBy_refl _ _
    | none => simpa only [generateTokenPair, sign, save, set] using growsBy_insert _ _ _ _

theorem createUser_store {s s' : AuthState} {io : AuthIO} {make : ℕ → User}
    {keyed : ∀ n, (make n).id = n} {result : Except Err User}
    (h : createUser s io make keyed = (result, s')) : s'.store = s.store := by
  unfold createUser at h
  split at h
  · cases h; rfl
  · dsimp only at h
    split at h <;> cases h <;> rfl

theorem register_growsBy (cfg : AuthConfig) (s : AuthState) (io : AuthIO) (req : RegisterRequest) :
    GrowsBy io.tokenUUID s.store (register cfg s io req).2.store := by
  unfold register
  split
  · exact growsBy_refl _ _
  · split
    · exact growsBy_refl _ _
    · split
      · rename_i created
        exact createUser_store created ▸ growsBy_refl _ _
      · rename_i user s' created
        have pair := generateTokenPair_growsBy cfg s' io user
        rw [createUser_store created] at pair
        split <;> rename_i result <;> rwa [result] at pair

theorem login_growsBy (cfg : AuthConfig) (s : AuthState) (io : AuthIO) (req : LoginRequest) :
    GrowsBy io.tokenUUID s.store (login cfg s io req).2.store := by
  unfold login
  split
  · exact growsBy_refl _ _
  · split
    · exact growsBy_refl _ _
    · rename_i user _
      split
      · exact growsBy_refl _ _
      · have pair := generateTokenPair_growsBy cfg s io user
        split <;> rename_i result <;> rwa [result] at pair

theorem login_cases (cfg : AuthConfig) (s : AuthState) (io : AuthIO) (req : LoginRequest) :
    (∃ e, login cfg s io req = (.error e, s)) ∨
    ∃ user resp, user ∈ s.users.rows ∧ resp.refreshToken = io.tokenUUID ∧
      login cfg s io req = (.ok resp, { s with
        store := s.store.insert (refreshKey user.uuid io.tokenUUID)
          (.encoded ⟨user.uuid, user.email⟩) }) := by
  unfold login
  split
  · exact .inl ⟨_, rfl⟩
  · split
    · exact .inl ⟨_, rfl⟩
    · rename_i user found
      split
      · exact .inl ⟨_, rfl⟩
      · cases sign : io.sign with
        | some cause =>
          simp only [generateTokenPair, sign]
          exact .inl ⟨_, rfl⟩
        | none =>
          cases set : io.redis.set with
          | some cause =>
            simp only [generateTokenPair, sign, save, set]
            exact .inl ⟨_, rfl⟩
          | none =>
            simp only [generateTokenPair, sign, save, set]
            exact .inr ⟨user, _, Table.mem_of_first found, rfl, rfl⟩

theorem delete_shrinks {store : Store} {io : RedisFaults} {u t k : Text}
    (h : k ∈ (delete store io u t).2) : k ∈ store := by
  unfold delete at h
  split at h
  · exact h
  · exact (AList.mem_erase.mp h).2

theorem refresh_shrinks {cfg : AuthConfig} {s : AuthState} {io : AuthIO} {t k : Text}
    (h : k ∈ (refresh cfg s io t).2.store) : k ∈ s.store := by
  unfold refresh at h
  split at h
  · exact h
  · exact h
  · rename_i u _ _
    have deleted (h : k ∈ (delete s.store io.redis u t).2) : k ∈ s.store := delete_shrinks h
    split at h
    · exact h
    · split at h
      · exact h
      · split at h
        · rename_i result
          exact deleted (by rwa [result])
        · rename_i result
          apply deleted
          rw [result]
          split at h <;> exact h

theorem logout_shrinks {s : AuthState} {io : AuthIO} {u t k : Text}
    (h : k ∈ (logout s io u t).2.store) : k ∈ s.store := by
  unfold logout at h
  split at h <;> rename_i result <;> exact delete_shrinks (by rwa [result])

theorem logout_ok {s s' : AuthState} {io : AuthIO} {u t : Text}
    (h : logout s io u t = (.ok (), s')) : s'.store = s.store.erase (refreshKey u t) := by
  cases del : io.redis.del with
  | some cause => simp [logout, delete, del] at h
  | none =>
    simp only [logout, delete, del, Prod.mk.injEq, true_and] at h
    rw [← h]

/-- No stored session is matched by the token, so no refresh with it can be answered. -/
def NoSession (t : Text) (store : Store) : Prop :=
  ∀ u v, refreshKey u v ∈ store → ¬ Matched t u v

/-- The token is matched by the uuid of a session that some user could be given. -/
def MatchesUUID (t uuid : Text) : Prop := ∃ u, Matched t u uuid

theorem noSession_shrinks {t : Text} {before after : Store} (none : NoSession t before)
    (shrinks : ∀ k ∈ after, k ∈ before) : NoSession t after :=
  fun u v stored => none u v (shrinks _ stored)

theorem noSession_grows {t token : Text} {before after : Store} (none : NoSession t before)
    (grows : GrowsBy token before after) (apart : ¬ MatchesUUID t token) : NoSession t after := by
  intro u v stored matched
  rcases grows _ stored with old | ⟨u', same⟩
  · exact none u v old matched
  · have parts := refreshKey_inj matched.user matched.token same
    exact apart ⟨u, parts.2 ▸ matched⟩

theorem refresh_refused {cfg : AuthConfig} {s : AuthState} {io : AuthIO} {t : Text}
    (none : NoSession t s.store) : ∀ resp, (refresh cfg s io t).1 ≠ .ok resp := by
  intro resp answered
  have result : refresh cfg s io t = (.ok resp, (refresh cfg s io t).2) := by
    rw [← answered]
  obtain ⟨u, v, user, matched, usable, -⟩ := refresh_ok result
  obtain ⟨session, data⟩ := usable.data
  have stored : refreshKey u v ∈ s.store := AList.lookup_isSome.mp (by rw [data]; rfl)
  exact none u v stored matched

def plainConfig : AuthConfig :=
    ⟨fun password => .ok password, fun password hash => password == hash, 900⟩

def alice : User :=
  ⟨1, "7b0c8f9e-1d2a-4c3b-9e8f-0a1b2c3d4e5f".toList, "alice@example.com".toList,
    "secret42".toList, "Alice".toList, 1⟩

def aliceKey : Text := refreshKey alice.uuid "f2a4d1c0-93be-4f70-8a65-5c1e7d9b0a32".toList

def aliceState : AuthState where
  users := Table.empty.insert (fun id => { alice with id }) fun _ => rfl
  store := (∅ : Store).insert aliceKey (.encoded ⟨alice.uuid, alice.email⟩)

/-- The token `*` is nobody's session, yet it is answered with a token for the user. -/
theorem refresh_star_answered :
    ScanReply aliceState.store [.keys [aliceKey]] ∧
    (refresh plainConfig aliceState { scan := [.keys [aliceKey]] } "*".toList).1 =
      .ok ⟨⟨alice.uuid, alice.email, 1⟩, 900, "Bearer"⟩ ∧
    ∀ userUUID, refreshKey userUUID "*".toList ∉ aliceState.store := by
  have only (k : Text) : k ∈ aliceState.store ↔ k = aliceKey := by
    have keys : aliceState.store.keys = [aliceKey] := rfl
    rw [AList.mem_keys, keys, List.mem_singleton]
  have reply : ScanReply aliceState.store [.keys [aliceKey]] := by
    refine ⟨fun ks hks k hk => ?_, fun _ k hk => ⟨[aliceKey], List.mem_singleton_self _, ?_⟩⟩
    · cases List.mem_singleton.mp hks
      exact (only k).mpr (List.mem_singleton.mp hk)
    · exact List.mem_singleton.mpr ((only k).mp hk)
  refine ⟨reply, rfl, fun userUUID stored => ?_⟩
  have star : '*' ∈ refreshKey userUUID "*".toList :=
    List.mem_append_right _ (List.mem_cons_of_mem _ (List.mem_append_right _ (by decide)))
  rw [(only _).mp stored] at star
  exact absurd star (by decide)

end KnowledgeCompanion.AuthService
