import KnowledgeCompanion.VectorIndexing

/-! What callers ask of a vector store (`vector_store.py`): a mapping of filters for a
search, or the resource and the user whose records are deleted. -/

namespace KnowledgeCompanion.StoreQueries

open VectorIndexing

inductive ResourceIDs
  | one (id : Text)
  | many (ids : List Text)

def ResourceIDs.values : ResourceIDs → List Text
  | .one id => [id]
  | .many ids => ids

/-- The keys that the stores read; a key that is missing is `none`. -/
structure FilterMapping where
  userID : Option Text := none
  resourceIDs : Option ResourceIDs := none
  resourceID : Option ResourceIDs := none

/-- `filters.get("resource_ids")`, or else `filters.get("resource_id")`. -/
def FilterMapping.given (filters : FilterMapping) : Option ResourceIDs :=
  filters.resourceIDs <|> filters.resourceID

inductive Query
  | search (filters : FilterMapping)
  | delete (resourceID : Text) (userID : Option Text)

namespace Query

def user : Query → Option Text
  | .search filters => filters.userID
  | .delete _ userID => userID

def resources : Query → Option (List Text)
  | .search filters => filters.given.map ResourceIDs.values
  | .delete resourceID _ => some [resourceID]

def values (q : Query) : List Text := q.resources.getD [] ++ q.user.toList

variable {F : Type}

def Asks (q : Query) (r : VectorRecord F) : Prop :=
  (∀ ids ∈ q.resources, r.resourceID ∈ ids) ∧ ∀ u ∈ q.user, r.userID = u

instance (q : Query) (r : VectorRecord F) : Decidable (q.Asks r) :=
  inferInstanceAs (Decidable (_ ∧ _))

def asked (q : Query) (store : Store F) : Store F := store.filter fun r => q.Asks r

def sought (q : Query) : Option (List Text) :=
  q.resources.map fun ids => if ids = [] then [[]] else ids

theorem sought_search (filters : FilterMapping) :
    (Query.search filters).sought = filters.given.map fun ids =>
      if ids.values = [] then [[]] else ids.values := by
  rw [sought, resources, Option.map_map]
  rfl

theorem sought_ne_nil (q : Query) : ∀ ids ∈ q.sought, ids ≠ [] := by
  intro ids mem
  obtain ⟨given, -, rfl⟩ := Option.map_eq_some_iff.mp mem
  split
  · exact List.cons_ne_nil _ _
  · assumption

end Query

end KnowledgeCompanion.StoreQueries
