import Mathlib.Algebra.Field.Rat
import Mathlib.Algebra.Order.Ring.Rat
import KnowledgeCompanion.StoreSearch

/-! Records of the Chroma store and back (`chroma_store.py`): the metadata that a record is
flattened into, the filters that find it there, and what a search or a query reads of it. -/

namespace KnowledgeCompanion.ChromaRoundTrip

open BaseChunker VectorIndexing StoreQueries StoreSearch ChromaFilters KeyedUpsert ApiExceptions

structure Row (F : Type) where
  id : Text
  embedding : List F
  metadata : Metadata
  document : Text

structure ChromaCollection (F : Type) where
  rows : List (Row F)
  distinct : (rows.map Row.id).Nodup

/-- `str` of a value that is no text, and `int` of one that is no whole number, `none` where
it raises. -/
structure Conversions where
  str : MetaValue → Text
  int : MetaValue → Option ℤ

/-- The database: the rows nearest to a vector with their distances, and rows without an
order, out of those that a clause selects. -/
structure Chroma (F K : Type) where
  query : List F → ℕ → List (Row F) → List (Row F × Option K)
  get : ℕ → List (Row F) → List (Row F)
  query_mem : ∀ vector k rows, ∀ hit ∈ query vector k rows, hit.1 ∈ rows
  get_mem : ∀ k rows, ∀ row ∈ get k rows, row ∈ rows

variable {F K : Type}

def rowOf (r : VectorRecord F) : Row F where
  id := r.id
  embedding := r.vector
  metadata := recordToChromaMetadata r
  document := r.text

def upsert (c : ChromaCollection F) (records : List (VectorRecord F)) :
    Except ApiException (ℕ × ChromaCollection F) :=
  if records = [] then .ok (0, c)
  else if (records.map VectorRecord.id).Nodup then
    .ok (records.length, ⟨putAll Row.id c.rows (records.map rowOf), nodup_putAll c.distinct⟩)
  else .error (vectorStoreUnavailableError "Chroma 写入失败")

theorem rowOf_mem_upsert {c after : ChromaCollection F} {records : List (VectorRecord F)} {n : ℕ}
    {r : VectorRecord F} (written : upsert c records = .ok (n, after)) (mem : r ∈ records) :
    rowOf r ∈ after.rows := by
  rw [upsert, if_neg (List.ne_nil_of_mem mem)] at written
  split at written
  · rename_i distinct
    have rows : putAll Row.id c.rows (records.map rowOf) = after.rows := by
      rw [← (Prod.mk.inj (Except.ok.inj written)).2]
    have ids : ((records.map rowOf).map Row.id).Nodup := by
      rw [List.map_map]
      exact distinct
    rw [← rows]
    exact mem_putAll ids (List.mem_map_of_mem mem)
  · exact absurd written (by simp)

def strOf (conv : Conversions) : MetaValue → Text
  | .text t => t
  | v => conv.str v

def intOf (conv : Conversions) : MetaValue → Option ℤ
  | .int n => some n
  | v => conv.int v

def createdAtOf (conv : Conversions) (metadata : Metadata) : Option ℤ :=
  intOf conv ((metadata.lookup "created_at").getD (.int 0))

def textOf (conv : Conversions) (metadata : Metadata) (key : String) : Text :=
  strOf conv ((metadata.lookup key).getD (.text []))

def unreserved (metadata : Metadata) : Metadata :=
  metadata.filter fun entry => entry.1 ∉ reservedKeys

def readRow (conv : Conversions) (row : Row F) (score : K) : Option (SearchHit K) :=
  (createdAtOf conv row.metadata).map fun createdAt =>
    { id := row.id
      resourceID := textOf conv row.metadata "resource_id"
      userID := textOf conv row.metadata "user_id"
      text := row.document
      metadata := unreserved row.metadata
      score := score
      createdAt := createdAt }

def matching (filters : FilterMapping) (rows : List (Row F)) : List (Row F) :=
  rows.filter fun row => (searchFilter filters).all fun clause => clause.holds row.metadata

def search [Field K] [LinearOrder K] (chroma : Chroma F K) (conv : Conversions)
    (c : ChromaCollection F) (vector : List F) (topK : ℕ) (filters : FilterMapping) :
    Option (List (SearchHit K)) :=
  (chroma.query vector (min topK topKLimit) (matching filters c.rows)).mapM fun hit =>
    readRow conv hit.1 (ChromaStore.distanceToScore hit.2)

def query [Zero K] (chroma : Chroma F K) (conv : Conversions) (c : ChromaCollection F)
    (filters : FilterMapping) (limit : ℕ) : Option (List (SearchHit K)) :=
  (chroma.get (min limit topKLimit) (matching filters c.rows)).mapM fun row => readRow conv row 0

def hitOf (r : VectorRecord F) (score : K) : SearchHit K where
  id := r.id
  resourceID := r.resourceID
  userID := r.userID
  text := r.text
  metadata := r.metadata
  score := score
  createdAt := r.createdAt

theorem mapM_all {α β : Type} {f : α → Option β} {as : List α}
    (defined : ∀ a ∈ as, (f a).isSome = true) :
    ∃ bs, as.mapM f = some bs ∧ ∀ a ∈ as, ∀ b ∈ f a, b ∈ bs := by
  obtain ⟨bs, mapped⟩ := FilterExpression.mapM_isSome defined
  obtain ⟨-, mem_bs⟩ := FilterExpression.mapM_some mapped
  exact ⟨bs, mapped, fun a mem b value => (mem_bs b).mpr ⟨a, mem, value⟩⟩

theorem set_eq_put (metadata : Metadata) (key : String) (value : MetaValue) :
    metadata.set key value = put Prod.fst metadata (key, value) := by
  have present : metadata.any (fun entry => entry.1 == key) = true ↔
    key ∈ metadata.map Prod.fst := by
    simp [List.any_eq_true]
  by_cases there : key ∈ metadata.map Prod.fst
  · rw [Metadata.set, put, if_pos (present.mpr there), if_pos there]
    simp
  · rw [Metadata.set, put, if_neg (mt present.mp there), if_neg there]

def ownFields (r : VectorRecord F) : Metadata :=
  [("resource_id", .text r.resourceID), ("user_id", .text r.userID),
    ("created_at", .int r.createdAt)]

theorem recordToChromaMetadata_eq (r : VectorRecord F) :
    recordToChromaMetadata r = putAll Prod.fst (ownFields r) r.metadata := by
  rw [recordToChromaMetadata, putAll]
  congr 1
  funext metadata entry
  exact set_eq_put metadata entry.1 entry.2

theorem recordToChromaMetadata_plain {r : VectorRecord F}
    (mapping : (r.metadata.map Prod.fst).Nodup)
    (plain : ∀ key ∈ reservedKeys, ¬ Shadows r.metadata key) :
    recordToChromaMetadata r = ownFields r ++ r.metadata := by
  rw [recordToChromaMetadata_eq]
  refine putAll_fresh (fun s own entry mem same => ?_) mapping
  have reserved : s.1 ∈ (ownFields r).map Prod.fst := List.mem_map_of_mem own
  apply plain s.1 reserved
  rw [same]
  exact List.mem_map_of_mem mem

theorem unreserved_plain {r : VectorRecord F} (mapping : (r.metadata.map Prod.fst).Nodup)
    (plain : ∀ key ∈ reservedKeys, ¬ Shadows r.metadata key) :
    unreserved (recordToChromaMetadata r) = r.metadata := by
  have own : unreserved (ownFields r) = [] := rfl
  have kept : unreserved r.metadata = r.metadata := by
    refine List.filter_eq_self.mpr fun entry mem => decide_eq_true fun reserved => ?_
    exact plain entry.1 reserved (List.mem_map_of_mem mem)
  rw [unreserved] at own kept ⊢
  rw [recordToChromaMetadata_plain mapping plain, List.filter_append, own, kept, List.nil_append]

theorem readRow_plain (conv : Conversions) {r : VectorRecord F} (score : K)
    (mapping : (r.metadata.map Prod.fst).Nodup)
    (plain : ∀ key ∈ reservedKeys, ¬ Shadows r.metadata key) :
    readRow conv (rowOf r) score = some (hitOf r score) := by
  have flat := recordToChromaMetadata_plain mapping plain
  have created : createdAtOf conv (recordToChromaMetadata r) = some r.createdAt := by
    rw [createdAtOf, flat]
    rfl
  have resource : textOf conv (recordToChromaMetadata r) "resource_id" = r.resourceID := by
    rw [textOf, flat]
    rfl
  have user : textOf conv (recordToChromaMetadata r) "user_id" = r.userID := by
    rw [textOf, flat]
    rfl
  simp only [readRow, rowOf, created, resource, user, unreserved_plain mapping plain,
    Option.map_some]
  rfl

theorem rowOf_mem_matching {r : VectorRecord F} {filters : FilterMapping} {rows : List (Row F)}
    (stored : rowOf r ∈ rows) :
    rowOf r ∈ matching filters rows ↔
      (∀ ids ∈ (Query.search filters).sought,
        ∃ id ∈ ids, (recordToChromaMetadata r).lookup "resource_id" = some (.text id)) ∧
      ∀ u ∈ filters.userID, (recordToChromaMetadata r).lookup "user_id" = some (.text u) := by
  rw [matching, List.mem_filter, and_iff_right stored]
  exact whereClause_holds (.search filters) (recordToChromaMetadata r)

theorem matching_plain {r : VectorRecord F} {filters : FilterMapping} {rows : List (Row F)}
    (stored : rowOf r ∈ rows) (mapping : (r.metadata.map Prod.fst).Nodup)
    (plain : ∀ key ∈ reservedKeys, ¬ Shadows r.metadata key) (named : r.resourceID ≠ []) :
    rowOf r ∈ matching filters rows ↔ (Query.search filters).Asks r := by
  have flat := recordToChromaMetadata_plain mapping plain
  have resource : (recordToChromaMetadata r).lookup "resource_id" = some (.text r.resourceID) := by
    rw [flat]
    rfl
  have user : (recordToChromaMetadata r).lookup "user_id" = some (.text r.userID) := by
    rw [flat]
    rfl
  rw [rowOf_mem_matching stored, resource, user, Query.Asks]
  refine and_congr ?_ ?_
  · rw [Query.sought]
    cases (Query.search filters).resources with
    | none => simp
    | some ids =>
      by_cases empty : ids = []
      · simp [empty, named]
      · simp [empty]
  · simp [Query.user]

def OthersReadable (conv : Conversions) (c : ChromaCollection F) (r : VectorRecord F) : Prop :=
  ∀ row ∈ c.rows, row ≠ rowOf r → (createdAtOf conv row.metadata).isSome = true

/-- The record is stored by an upsert, the filters that select it are those that ask for it,
and the searches and queries whose answer has its row return it as it was. -/
structure Kept (K : Type) [Field K] [LinearOrder K] (r : VectorRecord F) : Prop where
  stored : ∀ {before after : ChromaCollection F} {records : List (VectorRecord F)} {n : ℕ},
    upsert before records = .ok (n, after) → r ∈ records → rowOf r ∈ after.rows
  found : ∀ {c : ChromaCollection F} (filters : FilterMapping), rowOf r ∈ c.rows →
    (rowOf r ∈ matching filters c.rows ↔ (Query.search filters).Asks r)
  searched : ∀ {c : ChromaCollection F} {conv : Conversions}, OthersReadable conv c r →
    ∀ (chroma : Chroma F K) (vector : List F) (topK : ℕ) (filters : FilterMapping),
      ∀ distance, (rowOf r, distance) ∈
          chroma.query vector (min topK topKLimit) (matching filters c.rows) →
        ∃ hits, search chroma conv c vector topK filters = some hits ∧
          hitOf r (ChromaStore.distanceToScore distance) ∈ hits
  queried : ∀ {c : ChromaCollection F} {conv : Conversions}, OthersReadable conv c r →
    ∀ (chroma : Chroma F K) (filters : FilterMapping) (limit : ℕ),
      rowOf r ∈ chroma.get (min limit topKLimit) (matching filters c.rows) →
        ∃ hits, query chroma conv c filters limit = some hits ∧ hitOf r 0 ∈ hits

def everyRow : Chroma F K where
  query _ _ rows := rows.map fun row => (row, none)
  get _ rows := rows
  query_mem vector k rows hit mem := by
    obtain ⟨row, here, rfl⟩ := List.mem_map.mp mem
    exact here
  get_mem k rows row mem := mem

theorem readable_of_plain {conv : Conversions} {c : ChromaCollection F} {r : VectorRecord F}
    (others : OthersReadable conv c r)
    (readable : (createdAtOf conv (recordToChromaMetadata r)).isSome = true)
    {filters : FilterMapping} {row : Row F} (mem : row ∈ matching filters c.rows) (score : K) :
    (readRow conv row score).isSome = true := by
  rw [readRow, Option.isSome_map]
  by_cases own : row = rowOf r
  · rw [own]
    exact readable
  · exact others row (List.mem_filter.mp mem).1 own

theorem kept_of_plain [Field K] [LinearOrder K] {r : VectorRecord F}
    (mapping : (r.metadata.map Prod.fst).Nodup)
    (plain : ∀ key ∈ reservedKeys, ¬ Shadows r.metadata key) (named : r.resourceID ≠ []) :
    Kept K r := by
  have created (conv : Conversions) :
      (createdAtOf conv (recordToChromaMetadata r)).isSome = true := by
    have read := readRow_plain (K := K) conv 0 mapping plain
    rw [readRow] at read
    obtain ⟨createdAt, known, -⟩ := Option.map_eq_some_iff.mp read
    exact Option.isSome_of_eq_some known
  refine ⟨fun written mem => rowOf_mem_upsert written mem,
    fun filters stored => matching_plain stored mapping plain named, ?_, ?_⟩
  · intro c conv others chroma vector topK filters distance answered
    have defined : ∀ hit ∈ chroma.query vector (min topK topKLimit) (matching filters c.rows),
        (readRow conv hit.1 (ChromaStore.distanceToScore hit.2)).isSome = true := by
      intro hit mem
      exact readable_of_plain others (created conv) (chroma.query_mem _ _ _ hit mem) _
    obtain ⟨hits, all, each⟩ := mapM_all defined
    exact ⟨hits, all, each _ answered _ (readRow_plain conv _ mapping plain)⟩
  · intro c conv others chroma filters limit answered
    have defined : ∀ row ∈ chroma.get (min limit topKLimit) (matching filters c.rows),
        (readRow conv row (0 : K)).isSome = true := by
      intro row mem
      exact readable_of_plain others (created conv) (chroma.get_mem _ _ row mem) _
    obtain ⟨hits, all, each⟩ := mapM_all defined
    exact ⟨hits, all, each _ answered _ (readRow_plain conv _ mapping plain)⟩

def alone (r : VectorRecord F) : ChromaCollection F := ⟨[rowOf r], List.nodup_singleton _⟩

theorem plain_of_kept [Field K] [LinearOrder K] {r : VectorRecord F} (kept : Kept K r) :
    ∀ key ∈ reservedKeys, ¬ Shadows r.metadata key := by
  have others : OthersReadable ⟨fun _ => [], fun _ => none⟩ (alone r) r :=
    fun row mem other => absurd (List.mem_singleton.mp mem) other
  obtain ⟨hits, answer, mem⟩ := kept.queried others everyRow {} 1 List.mem_cons_self
  have single : query everyRow ⟨fun _ => [], fun _ => none⟩ (alone r) {} 1 =
      (readRow ⟨fun _ => [], fun _ => none⟩ (rowOf r) (0 : K)).map fun hit => [hit] := by
    change List.mapM _ [rowOf r] = _
    rw [List.mapM_cons, List.mapM_nil]
    cases readRow ⟨fun _ => [], fun _ => none⟩ (rowOf r) (0 : K) with
    | none => rfl
    | some hit => rfl
  rw [single] at answer
  obtain ⟨hit, read, rfl⟩ := Option.map_eq_some_iff.mp answer
  rw [readRow] at read
  obtain ⟨createdAt, -, rfl⟩ := Option.map_eq_some_iff.mp read
  have same : r.metadata = unreserved (recordToChromaMetadata r) :=
    congrArg SearchHit.metadata (List.mem_singleton.mp mem)
  intro key reserved shadowed
  rw [same] at shadowed
  obtain ⟨entry, kept, rfl⟩ := List.mem_map.mp shadowed
  exact of_decide_eq_true (List.mem_filter.mp kept).2 reserved

theorem named_of_kept [Field K] [LinearOrder K] {r : VectorRecord F}
    (mapping : (r.metadata.map Prod.fst).Nodup) (kept : Kept K r) : r.resourceID ≠ [] := by
  intro unnamed
  have flat := recordToChromaMetadata_plain mapping (plain_of_kept kept)
  have there : rowOf r ∈ (alone r).rows := List.mem_cons_self
  have resource : (recordToChromaMetadata r).lookup "resource_id" = some (.text []) := by
    rw [flat, ← unnamed]
    rfl
  have selects : rowOf r ∈ matching { resourceIDs := some (.many []) } (alone r).rows := by
    rw [rowOf_mem_matching there, resource]
    simp [Query.sought, Query.resources, FilterMapping.given, ResourceIDs.values]
  have asks := (kept.found _ there).mp selects
  exact List.not_mem_nil (asks.1 [] rfl)

/-- Just the records whose metadata leaves the reserved keys alone and whose resource is
named survive the store. -/
theorem kept_iff [Field K] [LinearOrder K] {r : VectorRecord F}
    (mapping : (r.metadata.map Prod.fst).Nodup) :
    Kept K r ↔ (∀ key ∈ reservedKeys, ¬ Shadows r.metadata key) ∧ r.resourceID ≠ [] :=
  ⟨fun kept => ⟨plain_of_kept kept, named_of_kept mapping kept⟩,
    fun ⟨plain, named⟩ => kept_of_plain mapping plain named⟩

def slide (metadata : Metadata) : VectorRecord ℕ where
  id := "c1".toList
  resourceID := "lecture".toList
  userID := "alice".toList
  text := "slide".toList
  vector := [1, 0]
  metadata := metadata
  createdAt := 7

theorem page_kept :
    Kept ℚ (slide [("page", .int 3)]) :=
  (kept_iff (by decide)).mpr ⟨by simp [reservedKeys, Shadows, slide], by decide⟩

/-- A key of the metadata takes the place of the user: bob's search finds alice's slide,
hers does not, and it is read back as his. -/
theorem user_replaced :
    let r := slide [("user_id", .text "bob".toList)]
    rowOf r ∈ matching { userID := some "bob".toList } (alone r).rows ∧
      rowOf r ∉ matching { userID := some "alice".toList } (alone r).rows ∧
      (readRow ⟨fun _ => [], fun _ => none⟩ (rowOf r) (0 : ℚ)).map SearchHit.userID =
        some "bob".toList ∧
      (readRow ⟨fun _ => [], fun _ => none⟩ (rowOf r) (0 : ℚ)).map SearchHit.metadata =
        some [] ∧
      ¬ Kept ℚ r := by
  have replaced : (recordToChromaMetadata (slide [("user_id", .text "bob".toList)])).lookup
      "user_id" = some (.text "bob".toList) := rfl
  have there : rowOf (slide [("user_id", .text "bob".toList)]) ∈
      (alone (slide [("user_id", .text "bob".toList)])).rows := List.mem_cons_self
  refine ⟨?_, ?_, rfl, rfl, fun kept => ?_⟩
  · rw [rowOf_mem_matching there]
    refine ⟨by simp [Query.sought, Query.resources, FilterMapping.given], fun u named => ?_⟩
    rw [replaced, Option.some.inj named]
  · intro selects
    have own := ((rowOf_mem_matching there).mp selects).2 "alice".toList rfl
    rw [replaced] at own
    exact absurd own (by decide)
  · exact plain_of_kept kept "user_id" (by decide) (by simp [Shadows, slide])

end KnowledgeCompanion.ChromaRoundTrip
