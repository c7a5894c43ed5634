import KnowledgeCompanion.AuthService
import KnowledgeCompanion.GuardedRun

/-! Concurrent token refreshes on the session store. A refresh finds the session
of its token, loads the user, deletes the key and signs; logins and the steps of
other refreshes run between any two of these. -/

namespace KnowledgeCompanion.RefreshInterleaving

open AppErrors TokenStore AuthService GuardedRun

inductive Phase
  | finding
  | loading (userUUID : Text)
  | deleting (userUUID : Text) (user : User)
  | signing (user : User)
  | answered (resp : RefreshResponse)
  | refused (e : Err)

def Phase.next (cfg : AuthConfig) (s : AuthState) (io : AuthIO) (t : Text) :
    Phase → Phase × AuthState
  | .finding =>
    match findByTokenUUID s.store io.redis t io.scan with
    | .error _ => (.refused (.app sessionExpired), s)
    | .ok (_, .garbled) => (.refused (.app sessionExpired), s)
    | .ok (userUUID, .encoded _) => (.loading userUUID, s)
  | .loading userUUID =>
    if io.getUser.isSome then (.refused (.app sessionExpired), s)
    else
      match s.getByUUID userUUID with
      | none => (.refused (.app sessionExpired), s)
      | some user => (.deleting userUUID user, s)
  | .deleting userUUID user =>
    match delete s.store io.redis userUUID t with
    | (.error e, store) =>
      (.refused (.app (internal ("failed to delete refresh session: " ++ storeErrorText e))),
        { s with store })
    | (.ok _, store) => (.signing user, { s with store })
  | .signing user =>
    match io.sign with
    | some cause =>
      (.refused (.app (internal ("failed to generate access token: " ++ cause))), s)
    | none => (.answered ⟨generateAccessToken user, cfg.accessTTL, "Bearer"⟩, s)
  | .answered resp => (.answered resp, s)
  | .refused e => (.refused e, s)

/-- One `Refresh` under way. -/
structure Call where
  refreshToken : Text
  phase : Phase

/-- The store with its clients; `issued` lists every refresh token a login has stored. -/
structure Concurrent where
  auth : AuthState
  issued : List Text
  calls : List Call

inductive Event
  | login (io : AuthIO) (req : LoginRequest)
  | start (refreshToken : Text)
  | advance (i : ℕ) (io : AuthIO)

def loggedIn (s : Concurrent) (result : Except Err AuthResponse × AuthState) : Concurrent where
  auth := result.2
  issued :=
    match result.1 with
    | .error _ => s.issued
    | .ok resp => s.issued ++ [resp.refreshToken]
  calls := s.calls

def step (cfg : AuthConfig) (s : Concurrent) : Event → Concurrent
  | .login io req => loggedIn s (login cfg s.auth io req)
  | .start refreshToken => { s with calls := s.calls ++ [⟨refreshToken, .finding⟩] }
  | .advance i io =>
    match s.calls[i]? with
    | none => s
    | some c =>
      let moved := c.phase.next cfg s.auth io c.refreshToken
      { s with auth := moved.2, calls := s.calls.set i { c with phase := moved.1 } }

def opened (users : Users) : Concurrent := ⟨⟨users, ∅⟩, [], []⟩

def Phase.settled : Except Err RefreshResponse → Phase
  | .ok resp => .answered resp
  | .error e => .refused e

theorem exec_alone (cfg : AuthConfig) (s : AuthState) (issued : List Text) (io : AuthIO)
    (t : Text) :
    exec (step cfg) ⟨s, issued, []⟩
      [.start t, .advance 0 io, .advance 0 io, .advance 0 io, .advance 0 io] =
      ⟨(refresh cfg s io t).2, issued, [⟨t, .settled (refresh cfg s io t).1⟩]⟩ := by
  have advance (s : AuthState) (phase : Phase) :
      step cfg ⟨s, issued, [⟨t, phase⟩]⟩ (.advance 0 io) =
        ⟨(phase.next cfg s io t).2, issued, [⟨t, (phase.next cfg s io t).1⟩]⟩ := rfl
  have start : step cfg ⟨s, issued, []⟩ (.start t) = ⟨s, issued, [⟨t, .finding⟩]⟩ := rfl
  simp only [exec_cons, exec_nil, start, advance]
  unfold refresh
  simp only [Phase.next]
  cases findByTokenUUID s.store io.redis t io.scan with
  | error e => rfl
  | ok found =>
    obtain ⟨u, data⟩ := found
    cases data with
    | garbled => rfl
    | encoded session =>
      dsimp only
      by_cases fault : io.getUser.isSome = true
      · simp only [fault, if_true, Phase.settled]
      · simp only [fault, Bool.false_eq_true, if_false]
        cases s.getByUUID u with
        | none => rfl
        | some user =>
          dsimp only
          cases delete s.store io.redis u t with
          | mk result store =>
            cases result with
            | error e => rfl
            | ok _ =>
              dsimp only
              cases io.sign <;> rfl

def Phase.spent : Phase → Bool
  | .signing _ => true
  | .answered _ => true
  | _ => false

def Phase.isAnswered : Phase → Bool
  | .answered _ => true
  | _ => false

def Concurrent.exchanges (s : Concurrent) (t : Text) : ℕ :=
  s.calls.countP fun c => c.refreshToken == t && c.phase.isAnswered

def Concurrent.spends (s : Concurrent) (t : Text) : ℕ :=
  s.calls.countP fun c => c.refreshToken == t && c.phase.spent

/-- Every refresh token that was ever stored has been exchanged at most once. -/
def SingleUse (s : Concurrent) : Prop := ∀ t ∈ s.issued, s.exchanges t ≤ 1

instance : DecidablePred SingleUse := fun s =>
  inferInstanceAs (Decidable (∀ t ∈ s.issued, s.exchanges t ≤ 1))

def deletedKey (s : Concurrent) : Event → Option Text
  | .advance i _ =>
    s.calls[i]?.bind fun c =>
      match c.phase with
      | .deleting userUUID _ => some (refreshKey userUUID c.refreshToken)
      | _ => none
  | _ => none

def DeletesStored (s : Concurrent) (e : Event) : Prop := ∀ k ∈ deletedKey s e, k ∈ s.auth.store

/-- `uuid.NewString` gives every login a token of its own, written without colons. -/
def DrawsFresh (s : Concurrent) : Event → Prop
  | .login io _ => io.tokenUUID ∉ s.issued ∧ ':' ∉ io.tokenUUID
  | _ => True

structure WellFormed (s : Concurrent) : Prop where
  owners : ∀ user ∈ s.auth.users.rows, ':' ∉ user.uuid
  keys : ∀ k ∈ s.auth.store, ∃ u t, ':' ∉ u ∧ ':' ∉ t ∧ t ∈ s.issued ∧ k = refreshKey u t
  single : ∀ u u' t, refreshKey u t ∈ s.auth.store → refreshKey u' t ∈ s.auth.store → u = u'
  once : ∀ t, s.spends t ≤ 1
  gone : ∀ t, 0 < s.spends t → t ∈ s.issued ∧ ∀ u, refreshKey u t ∉ s.auth.store

theorem exchanges_le_spends (s : Concurrent) (t : Text) : s.exchanges t ≤ s.spends t := by
  refine List.countP_mono_left fun c _ answered => ?_
  rw [Bool.and_eq_true] at answered ⊢
  refine ⟨answered.1, ?_⟩
  have phase := answered.2
  cases h : c.phase <;> simp_all [Phase.isAnswered, Phase.spent]

theorem WellFormed.key_parts {s : Concurrent} (wf : WellFormed s) {u t : Text}
    (stored : refreshKey u t ∈ s.auth.store) : ':' ∉ u ∧ ':' ∉ t ∧ t ∈ s.issued := by
  obtain ⟨u', t', hu, ht, known, same⟩ := wf.keys _ stored
  have parts := refreshKey_inj hu ht same.symm
  rw [← parts.1, ← parts.2]
  exact ⟨hu, ht, known⟩

theorem Phase.next_cases (cfg : AuthConfig) (s : AuthState) (io : AuthIO) (t : Text) (p : Phase) :
    ((p.next cfg s io t).2 = s ∧ ((p.next cfg s io t).1.spent = true → p.spent = true)) ∨
    ∃ u user, p = .deleting u user ∧ (p.next cfg s io t).1 = .signing user ∧
      (p.next cfg s io t).2 = { s with store := s.store.erase (refreshKey u t) } := by
  cases p with
  | finding =>
    left
    simp only [Phase.next]
    split <;> exact ⟨rfl, fun spent => by cases spent⟩
  | loading u =>
    left
    simp only [Phase.next]
    split
    · exact ⟨rfl, fun spent => by cases spent⟩
    · split <;> exact ⟨rfl, fun spent => by cases spent⟩
  | deleting u user =>
    cases del : io.redis.del with
    | some cause =>
      left
      simp only [Phase.next, delete, del]
      exact ⟨trivial, fun spent => by cases spent⟩
    | none =>
      right
      simp only [Phase.next, delete, del]
      exact ⟨u, user, rfl, rfl, rfl⟩
  | signing user =>
    left
    simp only [Phase.next]
    split <;> exact ⟨rfl, fun _ => rfl⟩
  | answered resp => exact .inl ⟨rfl, fun _ => rfl⟩
  | refused e => exact .inl ⟨rfl, fun h => h⟩

theorem wellFormed_opened {users : Users} (plain : ∀ user ∈ users.rows, ':' ∉ user.uuid) :
    WellFormed (opened users) where
  owners := plain
  keys k stored := by simp [opened] at stored
  single u u' t stored := by simp [opened] at stored
  once t := by simp [opened, Concurrent.spends]
  gone t spent := by simp [opened, Concurrent.spends] at spent

theorem WellFormed.move {s : Concurrent} (wf : WellFormed s) (calls : List Call)
    (fewer : ∀ t, { s with calls := calls }.spends t ≤ s.spends t) :
    WellFormed { s with calls := calls } where
  owners := wf.owners
  keys := wf.keys
  single := wf.single
  once t := Nat.le_trans (fewer t) (wf.once t)
  gone t spent := wf.gone t (Nat.lt_of_lt_of_le spent (fewer t))

theorem WellFormed.login {s : Concurrent} (wf : WellFormed s) {token : Text} {user : User}
    {data : SessionData} (mem : user ∈ s.auth.users.rows) (fresh : token ∉ s.issued)
    (plain : ':' ∉ token) :
    WellFormed { s with
      auth := { s.auth with store := s.auth.store.insert (refreshKey user.uuid token) data }
      issued := s.issued ++ [token] } := by
  have added (u t : Text)
      (stored : refreshKey u t ∈ s.auth.store.insert (refreshKey user.uuid token) data) :
      (u = user.uuid ∧ t = token) ∨ refreshKey u t ∈ s.auth.store := by
    rcases (AList.mem_insert _).mp stored with same | old
    · have parts := refreshKey_inj (wf.owners user mem) plain same.symm
      exact .inl ⟨parts.1.symm, parts.2.symm⟩
    · exact .inr old
  have unknown (u : Text) : refreshKey u token ∉ s.auth.store := fun stored =>
    fresh (wf.key_parts stored).2.2
  constructor
  · exact wf.owners
  · intro k stored
    rcases (AList.mem_insert _).mp stored with rfl | old
    · exact ⟨user.uuid, token, wf.owners user mem, plain, by simp, rfl⟩
    · obtain ⟨u, t, hu, ht, known, rfl⟩ := wf.keys k old
      exact ⟨u, t, hu, ht, List.mem_append_left _ known, rfl⟩
  · intro u u' t first second
    rcases added u t first with ⟨mine, new⟩ | old
    · rcases added u' t second with ⟨other, -⟩ | old'
      · rw [mine, other]
      · exact absurd (new ▸ old') (unknown u')
    · rcases added u' t second with ⟨-, new⟩ | old'
      · exact absurd (new ▸ old) (unknown u)
      · exact wf.single u u' t old old'
  · exact wf.once
  · intro t spent
    have old := wf.gone t spent
    refine ⟨List.mem_append_left _ old.1, fun u stored => ?_⟩
    rcases added u t stored with ⟨-, rfl⟩ | stored
    · exact fresh old.1
    · exact old.2 u stored

theorem spends_set {s : Concurrent} {i : ℕ} {c c' : Call} (at_i : s.calls[i]? = some c) (t : Text) :
    { s with calls := s.calls.set i c' }.spends t +
        (if c.refreshToken == t && c.phase.spent then 1 else 0) =
      s.spends t + (if c'.refreshToken == t && c'.phase.spent then 1 else 0) := by
  obtain ⟨bound, here⟩ := List.getElem?_eq_some_iff.mp at_i
  have counted : (if c.refreshToken == t && c.phase.spent then 1 else 0) ≤ s.spends t := by
    by_cases spent : (c.refreshToken == t && c.phase.spent) = true
    · rw [if_pos spent]
      exact List.countP_pos_iff.mpr ⟨c, List.mem_of_getElem? at_i, spent⟩
    · rw [if_neg spent]
      exact Nat.zero_le _
  simp only [Concurrent.spends] at counted ⊢
  rw [List.countP_set bound, here]
  omega

/-- The one step that deletes a key spends the token of a stored session. -/
theorem WellFormed.spend {s : Concurrent} (wf : WellFormed s) {i : ℕ} {t u : Text} {user : User}
    (at_i : s.calls[i]? = some ⟨t, .deleting u user⟩)
    (stored : refreshKey u t ∈ s.auth.store) :
    WellFormed { s with
      auth := { s.auth with store := s.auth.store.erase (refreshKey u t) }
      calls := s.calls.set i ⟨t, .signing user⟩ } := by
  have unspent : s.spends t = 0 := by
    by_contra some_spent
    exact (wf.gone t (Nat.pos_of_ne_zero some_spent)).2 u stored
  have count (t' : Text) : { s with calls := s.calls.set i ⟨t, .signing user⟩ }.spends t' =
      s.spends t' + (if t = t' then 1 else 0) := by
    have moved := @spends_set s i _ ⟨t, .signing user⟩ at_i t'
    simpa [Phase.spent] using moved
  constructor
  · exact wf.owners
  · intro k old
    exact wf.keys k (AList.mem_erase.mp old).2
  · intro u₁ u₂ t' first second
    exact wf.single u₁ u₂ t' (AList.mem_erase.mp first).2 (AList.mem_erase.mp second).2
  · intro t'
    refine Nat.le_trans (Nat.le_of_eq (count t')) ?_
    by_cases same : t = t'
    · rw [if_pos same, ← same, unspent]
    · rw [if_neg same]
      exact wf.once t'
  · intro t' spent
    by_cases same : t = t'
    · rw [← same]
      refine ⟨(wf.key_parts stored).2.2, fun u' left => ?_⟩
      have kept := AList.mem_erase.mp left
      exact kept.1 (by rw [wf.single u' u t kept.2 stored])
    · have before : 0 < s.spends t' := by
        have total := count t'
        rw [if_neg same] at total
        exact Nat.lt_of_lt_of_eq spent total
      have old := wf.gone t' before
      exact ⟨old.1, fun u' left => old.2 u' (AList.mem_erase.mp left).2⟩

theorem wellFormed_step (cfg : AuthConfig) (s : Concurrent) (e : Event) (wf : WellFormed s)
    (guard : DrawsFresh s e ∧ DeletesStored s e) : WellFormed (step cfg s e) := by
  cases e with
  | login io req =>
    obtain ⟨fresh, plain⟩ := guard.1
    simp only [step, loggedIn]
    rcases login_cases cfg s.auth io req with ⟨e, result⟩ | ⟨user, resp, mem, token, result⟩
    · rw [result]
      exact wf
    · rw [result]
      simp only [token]
      exact wf.login mem fresh plain
  | start t =>
    refine wf.move _ fun t' => Nat.le_of_eq ?_
    simp [Concurrent.spends, Phase.spent]
  | advance i io =>
    simp only [step]
    cases at_i : s.calls[i]? with
    | none => exact wf
    | some c =>
      obtain ⟨t, p⟩ := c
      dsimp only
      rcases Phase.next_cases cfg s.auth io t p with ⟨same, spent⟩ | ⟨u, user, rfl, next, store⟩
      · rw [same]
        refine wf.move _ fun t' => ?_
        have moved := @spends_set s i _ ⟨t, (p.next cfg s.auth io t).1⟩ at_i t'
        have fewer : (if t == t' && (p.next cfg s.auth io t).1.spent then 1 else 0) ≤
            if t == t' && p.spent then 1 else 0 := by
          by_cases after : (p.next cfg s.auth io t).1.spent = true
          · rw [after, spent after]
          · simp [after]
        dsimp only at moved
        omega
      · rw [next, store]
        refine wf.spend at_i (guard.2 _ ?_)
        simp [deletedKey, at_i]

/-- Every interleaving of refreshes and logins exchanges each token at most once, as
long as every refresh deletes a key that is still stored. -/
theorem single_use (cfg : AuthConfig) (users : Users)
    (plain : ∀ user ∈ users.rows, ':' ∉ user.uuid) (es : List Event)
    (fresh : EveryStep (step cfg) DrawsFresh (opened users) es)
    (stored : EveryStep (step cfg) DeletesStored (opened users) es) :
    EveryState (step cfg) SingleUse (opened users) es := by
  have both := everyStep_and fresh stored
  have run := everyState_of_guard (wellFormed_step cfg) (wellFormed_opened plain) both
  refine everyState_imp (fun s wf t _ => ?_) run
  exact Nat.le_trans (exchanges_le_spends s t) (wf.once t)

def aliceToken : Text := "f2a4d1c0-93be-4f70-8a65-5c1e7d9b0a32".toList

def aliceLogin : Event :=
  .login { tokenUUID := aliceToken } ⟨alice.email, alice.passwordHash⟩

def aliceScan : AuthIO := { scan := [.keys [aliceKey]] }

def doubleSpend : List Event :=
  [aliceLogin, .start aliceToken, .start aliceToken, .advance 0 aliceScan, .advance 1 aliceScan,
    .advance 0 {}, .advance 1 {}, .advance 0 {}, .advance 1 {}, .advance 0 {}, .advance 1 {}]

theorem doubleSpend_answered :
    EveryStep (step plainConfig) DrawsFresh (opened aliceState.users) doubleSpend ∧
    aliceToken ∈ (exec (step plainConfig) (opened aliceState.users) doubleSpend).issued ∧
    (exec (step plainConfig) (opened aliceState.users) doubleSpend).exchanges aliceToken = 2 := by
  refine ⟨?_, ?_, ?_⟩
  · simp only [EveryStep, doubleSpend, aliceLogin, DrawsFresh]
    decide
  · decide
  · decide

def refreshTwice : List Event :=
  [aliceLogin, .start aliceToken, .advance 0 aliceScan, .advance 0 {},
    .advance 0 {}, .advance 0 {}, .start aliceToken, .advance 1 {}]

theorem single_use_refreshTwice :
    EveryState (step plainConfig) SingleUse (opened aliceState.users) refreshTwice ∧
    (exec (step plainConfig) (opened aliceState.users) refreshTwice).exchanges aliceToken = 1 := by
  refine ⟨single_use plainConfig aliceState.users (by decide) refreshTwice ?_ ?_, by decide⟩
  · simp only [EveryStep, refreshTwice, aliceLogin, DrawsFresh]
    decide
  · simp only [EveryStep, refreshTwice, DeletesStored]
    decide

end KnowledgeCompanion.RefreshInterleaving
