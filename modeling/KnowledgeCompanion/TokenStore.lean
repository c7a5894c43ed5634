import Mathlib.Data.Char
import Mathlib.Data.List.AList
import KnowledgeCompanion.GlobPattern
import KnowledgeCompanion.Text

/-! The Redis store of refresh-token sessions (`repository/token_store.go`).
A session of user `u` with token uuid `v` lives under the key `refresh:u:v`.
`FindByTokenUUID` splices the presented token into a glob pattern and takes the
user from the first matching key that has three colon-separated parts. -/

namespace KnowledgeCompanion.TokenStore

open GlobPattern

structure RefreshSession where
  userUUID : Text
  email : Text
deriving DecidableEq

/-- Session bytes, as far as `json.Unmarshal` tells them apart. -/
inductive SessionData
  | encoded (session : RefreshSession)
  | garbled
deriving DecidableEq

abbrev Store := AList fun _ : Text => SessionData

structure RedisFaults where
  get : Text → Option String := fun _ => none
  set : Option String := none
  del : Option String := none

inductive StoreError
  | notFound
  | failed (message : String)
deriving DecidableEq

def refreshKey (userUUID tokenUUID : Text) : Text :=
  "refresh".toList ++ ':' :: (userUUID ++ ':' :: tokenUUID)

def save (s : Store) (io : RedisFaults) (userUUID tokenUUID : Text) (session : SessionData) :
    Except StoreError Unit × Store :=
  match io.set with
  | some cause => (.error (.failed ("failed to save refresh session: " ++ cause)), s)
  | none => (.ok (), s.insert (refreshKey userUUID tokenUUID) session)

def delete (s : Store) (io : RedisFaults) (userUUID tokenUUID : Text) :
    Except StoreError Unit × Store :=
  match io.del with
  | some cause => (.error (.failed ("failed to delete refresh session: " ++ cause)), s)
  | none => (.ok (), s.erase (refreshKey userUUID tokenUUID))

/-- One answer to `SCAN`, before `MATCH` filters it. -/
inductive ScanPage
  | keys (ks : List Text)
  | failed (cause : String)

/-- What Redis promises for a full iteration over an unchanged keyspace: keys of
the store only, and every one of them at least once; the order is open. -/
structure ScanReply (s : Store) (pages : List ScanPage) : Prop where
  sound : ∀ ks, .keys ks ∈ pages → ∀ k ∈ ks, k ∈ s
  complete : (∀ cause, .failed cause ∉ pages) → ∀ k ∈ s, ∃ ks, .keys ks ∈ pages ∧ k ∈ ks

def tokenPattern (tokenUUID : Text) : List (Piece Char) :=
  parse ("refresh:*:".toList ++ tokenUUID)

def firstSession (s : Store) (io : RedisFaults) :
    List Text → Option (Except StoreError (Text × SessionData))
  | [] => none
  | key :: keys =>
    match key.splitOn ':' with
    | [part, userUUID, _] =>
      if part ≠ "refresh".toList then firstSession s io keys
      else match io.get key with
        | some cause => some (.error (.failed ("failed to get refresh session: " ++ cause)))
        | none =>
          match s.lookup key with
          | none => firstSession s io keys
          | some val => some (.ok (userUUID, val))
    | _ => firstSession s io keys

def findByTokenUUID (s : Store) (io : RedisFaults) (tokenUUID : Text) :
    List ScanPage → Except StoreError (Text × SessionData)
  | [] => .error .notFound
  | .failed cause :: _ => .error (.failed ("failed to scan refresh sessions: " ++ cause))
  | .keys ks :: pages =>
    match firstSession s io (ks.filter (globMatch (tokenPattern tokenUUID))) with
    | some result => result
    | none => findByTokenUUID s io tokenUUID pages

/-- The stored key of a session that the pattern built from `t` matches, in the
only form the loop accepts: neither part contains a colon. -/
structure Matched (t userUUID tokenUUID : Text) : Prop where
  user : ':' ∉ userUUID
  token : ':' ∉ tokenUUID
  glob : globMatch (tokenPattern t) (refreshKey userUUID tokenUUID) = true

theorem refreshKey_split {userUUID tokenUUID : Text} (hu : ':' ∉ userUUID) (ht : ':' ∉ tokenUUID) :
    (refreshKey userUUID tokenUUID).splitOn ':' = ["refresh".toList, userUUID, tokenUUID] :=
  Text.splitOn_eq_three.mpr ⟨rfl, by decide, hu, ht⟩

theorem refreshKey_inj {u v u' v' : Text} (hu : ':' ∉ u) (hv : ':' ∉ v)
    (same : refreshKey u v = refreshKey u' v') : u = u' ∧ v = v' :=
  Text.append_cons_unique hu hv (List.cons.inj (List.append_cancel_left same)).2

theorem firstSession_ok {s : Store} {io : RedisFaults} {keys : List Text} {u : Text}
    {d : SessionData} (h : firstSession s io keys = some (.ok (u, d))) :
    ∃ v, ':' ∉ u ∧ ':' ∉ v ∧ refreshKey u v ∈ keys ∧ s.lookup (refreshKey u v) = some d := by
  induction keys with
  | nil => simp [firstSession] at h
  | cons key keys ih =>
    have later (h : firstSession s io keys = some (.ok (u, d))) :
        ∃ v, ':' ∉ u ∧ ':' ∉ v ∧ refreshKey u v ∈ key :: keys ∧
          s.lookup (refreshKey u v) = some d := by
      obtain ⟨v, hu, hv, hk, hd⟩ := ih h
      exact ⟨v, hu, hv, List.mem_cons_of_mem _ hk, hd⟩
    unfold firstSession at h
    split at h
    · rename_i part userUUID v parts
      split at h
      · exact later h
      · rename_i isRefresh
        split at h
        · simp at h
        · split at h
          · exact later h
          · rename_i val found
            obtain ⟨rfl, rfl⟩ : userUUID = u ∧ val = d := by simpa using h
            obtain ⟨same, -, hu, hv⟩ := Text.splitOn_eq_three.mp parts
            have key_eq : key = refreshKey userUUID v := by
              rw [same, not_not.mp isRefresh]; rfl
            exact ⟨v, hu, hv, by simp [key_eq], key_eq ▸ found⟩
    · exact later h

theorem findByTokenUUID_ok {s : Store} {io : RedisFaults} {t : Text} {pages : List ScanPage}
    {u : Text} {d : SessionData} (h : findByTokenUUID s io t pages = .ok (u, d)) :
    ∃ v, Matched t u v ∧ s.lookup (refreshKey u v) = some d := by
  induction pages with
  | nil => simp [findByTokenUUID] at h
  | cons page pages ih =>
    cases page with
    | failed cause => simp [findByTokenUUID] at h
    | keys ks =>
      unfold findByTokenUUID at h
      split at h
      · rename_i result found
        obtain ⟨v, hu, hv, hk, hd⟩ := firstSession_ok (h ▸ found)
        exact ⟨v, ⟨hu, hv, (List.mem_filter.mp hk).2⟩, hd⟩
      · exact ih h

theorem findByTokenUUID_first {s : Store} {t u v : Text} {d : SessionData} (ks : List Text)
    (pages : List ScanPage) (hm : Matched t u v) (hd : s.lookup (refreshKey u v) = some d) :
    findByTokenUUID s {} t (.keys (refreshKey u v :: ks) :: pages) = .ok (u, d) := by
  have first : firstSession s {} ((refreshKey u v :: ks).filter (globMatch (tokenPattern t))) =
      some (.ok (u, d)) := by
    rw [List.filter_cons_of_pos hm.glob, firstSession, refreshKey_split hm.user hm.token]
    simp [hd]
  rw [findByTokenUUID, first]

theorem matched_literal {t u v : Text} (plain : ∀ c ∈ t, isMeta c = false) :
    Matched t u v ↔ ':' ∉ u ∧ ':' ∉ v ∧ v = t := by
  have pattern : tokenPattern t =
      literal "refresh:".toList ++ .star :: literal (':' :: t) := by
    have prefixed : "refresh:*:".toList ++ t = "refresh:".toList ++ '*' :: (':' :: t ++ []) := by
      simp
    have tail : parse ('*' :: (':' :: t ++ [])) = .star :: parse (':' :: t ++ []) := rfl
    rw [tokenPattern, prefixed, parse_literal (by simp [isMeta]), tail, parse_literal]
    · simp [parse, pieces]
    · simpa [isMeta] using plain
  have glob : globMatch (tokenPattern t) (refreshKey u v) = true ↔
      ∃ a, u ++ ':' :: v = a ++ ':' :: t := by
    rw [globMatch_iff, pattern, mem_language_literal_append]
    simp only [mem_language_star, mem_language_literal, List.mem_tails]
    constructor
    · rintro ⟨s, ⟨_, ⟨a, rfl⟩, rfl⟩, same⟩
      have same : "refresh:".toList ++ (u ++ ':' :: v) =
        "refresh:".toList ++ (a ++ ':' :: t) := same
      exact ⟨a, List.append_cancel_left same⟩
    · rintro ⟨a, same⟩
      exact ⟨u ++ ':' :: v, ⟨':' :: t, ⟨a, same.symm⟩, rfl⟩, rfl⟩
  constructor
  · rintro ⟨hu, hv, hg⟩
    obtain ⟨a, same⟩ := glob.mp hg
    exact ⟨hu, hv, (Text.append_cons_unique hu hv same).2⟩
  · rintro ⟨hu, hv, rfl⟩
    exact ⟨hu, hv, glob.mpr ⟨u, rfl⟩⟩

end KnowledgeCompanion.TokenStore
