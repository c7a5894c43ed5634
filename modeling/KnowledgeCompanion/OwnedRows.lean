import Mathlib.Data.List.Nodup

/-! Tables whose rows belong to owners, under a unique index: the transaction that replaces
all rows of one owner. -/

namespace KnowledgeCompanion.OwnedRows

/-- The owner column, the unique index and the bounds of the columns; rows under one key
have one owner. -/
structure Schema (Row Owner Key : Type*) where
  owner : Row → Owner
  key : Row → Key
  fits : Row → Bool
  owned : ∀ r r', key r = key r' → owner r = owner r'

variable {Row Owner Key : Type*} {schema : Schema Row Owner Key}

structure Stored (schema : Schema Row Owner Key) where
  rows : List Row
  unique : (rows.map schema.key).Nodup

inductive Statement
  | delete
  | create
  | commit

theorem unique_filter (stored : Stored schema) (p : Row → Bool) :
    ((stored.rows.filter p).map schema.key).Nodup :=
  stored.unique.sublist (List.filter_sublist.map _)

/-- The rows are created in a transaction with these failures. -/
structure Accepts (schema : Schema Row Owner Key) (fails : Statement → Bool) (rows : List Row) :
    Prop where
  deletes : fails .delete = false
  creates : rows ≠ [] → fails .create = false
  fits : ∀ r ∈ rows, schema.fits r = true
  distinct : (rows.map schema.key).Nodup
  commits : fails .commit = false

namespace Stored

variable [DecidableEq Owner]

def of (stored : Stored schema) (o : Owner) : List Row :=
  stored.rows.filter fun r => schema.owner r == o

def without (stored : Stored schema) (o : Owner) : Stored schema :=
  ⟨stored.rows.filter fun r => schema.owner r != o, unique_filter stored _⟩

variable {stored after : Stored schema} {o : Owner} {rows : List Row}

theorem unique_append (stored : Stored schema) (owner : ∀ r ∈ rows, schema.owner r = o) :
    (((stored.without o).rows ++ rows).map schema.key).Nodup ↔ (rows.map schema.key).Nodup := by
  rw [List.map_append, List.nodup_append']
  refine ⟨fun parts => parts.2.1, fun distinct => ⟨(stored.without o).unique, distinct, ?_⟩⟩
  intro key kept new
  obtain ⟨r, mem, rfl⟩ := List.mem_map.mp kept
  obtain ⟨r', mem', same⟩ := List.mem_map.mp new
  have other := (List.mem_filter.mp mem).2
  rw [bne_iff_ne] at other
  exact other ((schema.owned r' r same).symm.trans (owner r' mem'))

theorem of_append (owner : ∀ r ∈ rows, schema.owner r = o)
    (whole : after.rows = (stored.without o).rows ++ rows) (o' : Owner) :
    after.of o' = if o' = o then rows else stored.of o' := by
  rw [of, whole, List.filter_append, without, List.filter_filter]
  split
  · rename_i same
    subst same
    have none : stored.rows.filter (fun r => schema.owner r == o' && schema.owner r != o') =
      [] := by
      simp
    have all : rows.filter (fun r => schema.owner r == o') = rows :=
      List.filter_eq_self.mpr fun r mem => beq_iff_eq.mpr (owner r mem)
    rw [none, all, List.nil_append]
  · rename_i other
    have none : rows.filter (fun r => schema.owner r == o') = [] := by
      refine List.filter_eq_nil_iff.mpr fun r mem same => other ?_
      exact (beq_iff_eq.mp same).symm.trans (owner r mem)
    rw [none, List.append_nil, of]
    refine List.filter_congr fun r _ => ?_
    by_cases same : schema.owner r = o'
    · simp [same, other]
    · simp [same]

variable [DecidableEq Key] {fails : Statement → Bool}

def create (stored : Stored schema) (rows : List Row) : Option (Stored schema) :=
  if fresh : (∀ r ∈ rows, schema.fits r = true) ∧ ((stored.rows ++ rows).map schema.key).Nodup then
    some ⟨stored.rows ++ rows, fresh.2⟩
  else none

def replace (stored : Stored schema) (fails : Statement → Bool) (o : Owner) (rows : List Row) :
    Option (Stored schema) :=
  if fails .delete then none
  else if rows.isEmpty then
    if fails .commit then none else some (stored.without o)
  else if fails .create then none
  else
    match (stored.without o).create rows with
    | none => none
    | some after => if fails .commit then none else some after

theorem replace_of_accepts (stored : Stored schema) (owner : ∀ r ∈ rows, schema.owner r = o)
    (accepts : Accepts schema fails rows) :
    ∃ after, stored.replace fails o rows = some after ∧
      ∀ o', after.of o' = if o' = o then rows else stored.of o' := by
  cases none : rows.isEmpty with
  | true =>
    obtain rfl := List.isEmpty_iff.mp none
    refine ⟨stored.without o, ?_, of_append owner (List.append_nil _).symm⟩
    simp [replace, accepts.deletes, accepts.commits]
  | false =>
    have some' : rows ≠ [] := by simpa using none
    have fresh := (unique_append stored owner).mpr accepts.distinct
    have created : (stored.without o).create rows =
        some ⟨(stored.without o).rows ++ rows, fresh⟩ := dif_pos ⟨accepts.fits, fresh⟩
    refine ⟨⟨_, fresh⟩, ?_, of_append owner rfl⟩
    simp [replace, accepts.deletes, none, accepts.creates some', created, accepts.commits]

theorem accepts_of_replace (owner : ∀ r ∈ rows, schema.owner r = o)
    (replaced : stored.replace fails o rows = some after) : Accepts schema fails rows := by
  rw [replace] at replaced
  split at replaced
  · cases replaced
  · rename_i deletes
    rw [Bool.not_eq_true] at deletes
    split at replaced
    · rename_i none
      obtain rfl := List.isEmpty_iff.mp none
      split at replaced
      · cases replaced
      · rename_i commits
        exact ⟨deletes, fun some' => absurd rfl some', by simp, List.nodup_nil,
          by simpa using commits⟩
    · split at replaced
      · cases replaced
      · rename_i creates
        cases created : (stored.without o).create rows with
        | none => simp [created] at replaced
        | some made =>
          simp only [created] at replaced
          split at replaced
          · cases replaced
          · rename_i commits
            rw [create] at created
            split at created
            · rename_i fresh
              exact ⟨deletes, fun _ => by simpa using creates, fresh.1,
                (unique_append stored owner).mp fresh.2, by simpa using commits⟩
            · cases created

theorem replace_of_refused (stored : Stored schema) (owner : ∀ r ∈ rows, schema.owner r = o)
    (refused : ¬ Accepts schema fails rows) : stored.replace fails o rows = none := by
  cases replaced : stored.replace fails o rows with
  | none => rfl
  | some after => exact absurd (accepts_of_replace owner replaced) refused

end Stored

end KnowledgeCompanion.OwnedRows
