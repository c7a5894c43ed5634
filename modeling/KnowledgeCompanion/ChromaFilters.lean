import KnowledgeCompanion.StoreQueries

/-! The where clauses of the Chroma store (`chroma_store.py`) and the records that they
select by the metadata the store keeps for them. -/

namespace KnowledgeCompanion.ChromaFilters

open BaseChunker VectorIndexing StoreQueries

inductive Where
  | field (name : String) (value : Text)
  | all (clauses : List Where)
  | any (clauses : List Where)

mutual

def Where.holds (metadata : Metadata) : Where → Bool
  | .field name value => metadata.lookup name == some (.text value)
  | .all clauses => Where.allHold metadata clauses
  | .any clauses => Where.anyHolds metadata clauses

def Where.allHold (metadata : Metadata) : List Where → Bool
  | [] => true
  | clause :: clauses => clause.holds metadata && Where.allHold metadata clauses

def Where.anyHolds (metadata : Metadata) : List Where → Bool
  | [] => false
  | clause :: clauses => clause.holds metadata || Where.anyHolds metadata clauses

end

def resourceFilter (resourceID : Text) (userID : Option Text) : Where :=
  match userID with
  | some u => .all [.field "resource_id" resourceID, .field "user_id" u]
  | none => .field "resource_id" resourceID

def resourceIDFilter : Option ResourceIDs → Option Where
  | none => none
  | some (.one id) => some (.field "resource_id" id)
  | some (.many []) => some (.field "resource_id" [])
  | some (.many [id]) => some (.field "resource_id" id)
  | some (.many ids) => some (.any (ids.map (.field "resource_id")))

def searchFilter (filters : FilterMapping) : Option Where :=
  let clauses := (resourceIDFilter filters.given).toList ++
    filters.userID.toList.map (.field "user_id")
  match clauses with
  | [] => none
  | [clause] => some clause
  | clauses => some (.all clauses)

def whereClause : Query → Option Where
  | .search filters => searchFilter filters
  | .delete resourceID userID => some (resourceFilter resourceID userID)

variable {F : Type}

/-- `_record_to_chroma_metadata`: the record's own metadata is laid over its fields. -/
def recordToChromaMetadata (r : VectorRecord F) : Metadata :=
  r.metadata.foldl (fun metadata entry => metadata.set entry.1 entry.2)
    [("resource_id", .text r.resourceID), ("user_id", .text r.userID),
      ("created_at", .int r.createdAt)]

def selected (q : Query) (store : Store F) : Store F :=
  store.filter fun r => (whereClause q).all fun clause => clause.holds (recordToChromaMetadata r)

theorem lookup_laid_over (own base : Metadata) (key : String) :
    (own.foldl (fun metadata entry => metadata.set entry.1 entry.2) base).lookup key =
      (own.reverse.lookup key).or (base.lookup key) := by
  induction own generalizing base with
  | nil => rfl
  | cons entry own ih =>
    have last : List.lookup key [entry] = if key = entry.1 then some entry.2 else none :=
      lookup_cons_ite entry [] key
    rw [List.foldl_cons, ih, lookup_set, List.reverse_cons, List.lookup_append, last,
      Option.or_assoc]
    split
    · rfl
    · rw [Option.none_or]

def Shadows (metadata : Metadata) (key : String) : Prop := key ∈ metadata.map Prod.fst

theorem shadows_iff {metadata : Metadata} {key : String} :
    Shadows metadata key ↔ ∃ value, metadata.reverse.lookup key = some value := by
  rw [← Option.isSome_iff_exists, List.lookup_isSome_iff, Shadows, List.mem_map]
  constructor
  · rintro ⟨entry, mem, rfl⟩
    exact ⟨entry, List.mem_reverse.mpr mem, beq_self_eq_true _⟩
  · rintro ⟨entry, mem, same⟩
    exact ⟨entry, List.mem_reverse.mp mem, (beq_iff_eq.mp same).symm⟩

theorem lookup_unshadowed {metadata : Metadata} {key : String} (own : ¬ Shadows metadata key) :
    metadata.reverse.lookup key = none := by
  rw [shadows_iff, not_exists] at own
  exact Option.eq_none_iff_forall_ne_some.mpr own

theorem anyHolds_iff (metadata : Metadata) (name : String) (ids : List Text) :
    Where.anyHolds metadata (ids.map (.field name)) = true ↔
      ∃ id ∈ ids, metadata.lookup name = some (.text id) := by
  induction ids with
  | nil => simp [Where.anyHolds]
  | cons id ids ih => simp [Where.anyHolds, Where.holds, ih]

theorem field_holds {metadata : Metadata} {name : String} {value : Text} :
    (Where.field name value).holds metadata = true ↔ metadata.lookup name = some (.text value) := by
  rw [Where.holds, beq_iff_eq]

theorem resourceIDFilter_holds (ids : ResourceIDs) (metadata : Metadata) :
    (resourceIDFilter (some ids)).all (fun clause => clause.holds metadata) = true ↔
      ∃ id ∈ if ids.values = [] then [[]] else ids.values,
        metadata.lookup "resource_id" = some (.text id) := by
  have single (id : Text) : (Where.field "resource_id" id).holds metadata = true ↔
      ∃ id' ∈ [id], metadata.lookup "resource_id" = some (.text id') := by
    rw [field_holds]
    simp
  rcases ids with id | (_ | ⟨id, _ | ⟨next, ids⟩⟩)
  · exact single id
  · exact single []
  · exact single id
  · exact anyHolds_iff metadata "resource_id" (id :: next :: ids)

theorem searchFilter_holds (filters : FilterMapping) (metadata : Metadata) :
    (searchFilter filters).all (fun clause => clause.holds metadata) =
      ((resourceIDFilter filters.given).all (fun clause => clause.holds metadata) &&
        filters.userID.all fun u => (Where.field "user_id" u).holds metadata) := by
  rw [searchFilter]
  cases resourceIDFilter filters.given with
  | none =>
    cases filters.userID with
    | none => rfl
    | some u => rfl
  | some clause =>
    cases filters.userID with
    | none => exact (Bool.and_true _).symm
    | some u => simp [Where.holds, Where.allHold]

theorem whereClause_holds (q : Query) (metadata : Metadata) :
    (whereClause q).all (fun clause => clause.holds metadata) = true ↔
      (∀ ids ∈ q.sought, ∃ id ∈ ids, metadata.lookup "resource_id" = some (.text id)) ∧
        ∀ u ∈ q.user, metadata.lookup "user_id" = some (.text u) := by
  cases q with
  | delete resourceID userID =>
    have resource : (∀ ids ∈ (Query.delete resourceID userID).sought,
        ∃ id ∈ ids, metadata.lookup "resource_id" = some (.text id)) ↔
        metadata.lookup "resource_id" = some (.text resourceID) := by
      simp [Query.sought, Query.resources]
    rw [resource]
    cases userID with
    | none => simp [whereClause, resourceFilter, Query.user, Where.holds]
    | some u => simp [whereClause, resourceFilter, Query.user, Where.holds, Where.allHold]
  | search filters =>
    have user : filters.userID.all (fun u => (Where.field "user_id" u).holds metadata) = true ↔
        ∀ u ∈ filters.userID, metadata.lookup "user_id" = some (.text u) := by
      simp only [Option.all_eq_true, field_holds]
      rfl
    rw [whereClause, searchFilter_holds, Bool.and_eq_true, Query.sought_search, user]
    refine and_congr ?_ Iff.rfl
    cases filters.given with
    | none => exact ⟨fun _ _ absent => absurd absent (Option.not_mem_none _), fun _ => rfl⟩
    | some ids => simpa using resourceIDFilter_holds ids metadata

theorem lookup_record (r : VectorRecord F) :
    (recordToChromaMetadata r).lookup "resource_id" =
        (r.metadata.reverse.lookup "resource_id").or (some (.text r.resourceID)) ∧
      (recordToChromaMetadata r).lookup "user_id" =
        (r.metadata.reverse.lookup "user_id").or (some (.text r.userID)) := by
  rw [recordToChromaMetadata, lookup_laid_over, lookup_laid_over]
  exact ⟨rfl, rfl⟩

end KnowledgeCompanion.ChromaFilters
