import Mathlib.Tactic.Common
import Mathlib.Data.List.Nodup
import KnowledgeCompanion.Text

/-! Database tables with an auto-increment primary key.
The rows stand in key order and the next key is above all of them, so a row is
determined by its key; insertion and update keep both facts by construction.
Texts are compared by the sort keys of the table's collation. -/

namespace KnowledgeCompanion.KeyedTable

structure Collation where
  weight : Text → Text

def Collation.same (c : Collation) (a b : Text) : Bool := c.weight a == c.weight b

@[simp] theorem Collation.same_self (c : Collation) (a : Text) : c.same a a = true :=
  beq_self_eq_true _

@[simp] theorem Collation.same_iff (c : Collation) (a b : Text) :
    c.same a b = true ↔ c.weight a = c.weight b := beq_iff_eq

/-- Rows with key `key`, in the order they were inserted. -/
structure Table (α : Type*) (key : α → ℕ) where
  collation : Collation
  rows : List α
  next : ℕ
  sorted : rows.Pairwise fun a b => key a < key b
  below : ∀ r ∈ rows, key r < next

variable {α : Type*} {key : α → ℕ}

namespace Table

def empty (collation : Collation := ⟨id⟩) : Table α key where
  collation := collation
  rows := []
  next := 1
  sorted := .nil
  below := by simp

def insert (T : Table α key) (make : ℕ → α) (keyed : ∀ n, key (make n) = n) : Table α key where
  collation := T.collation
  rows := T.rows ++ [make T.next]
  next := T.next + 1
  sorted := by
    rw [List.pairwise_append]
    refine ⟨T.sorted, List.pairwise_singleton _ _, fun a ha b hb => ?_⟩
    rw [List.mem_singleton.mp hb, keyed]
    exact T.below a ha
  below := by
    intro r hr
    rcases List.mem_append.mp hr with hr | hr
    · exact Nat.lt_succ_of_lt (T.below r hr)
    · rw [List.mem_singleton.mp hr, keyed]
      exact Nat.lt_succ_self _

def touch (key : α → ℕ) (k : ℕ) (f : α → α) (r : α) : α := if key r = k then f r else r

theorem key_touch (k : ℕ) (f : α → α) (keyed : ∀ r, key (f r) = key r) (r : α) :
    key (touch key k f r) = key r := by
  unfold touch
  split
  · exact keyed r
  · rfl

def update (T : Table α key) (k : ℕ) (f : α → α) (keyed : ∀ r, key (f r) = key r) :
    Table α key where
  collation := T.collation
  rows := T.rows.map (touch key k f)
  next := T.next
  sorted := by
    rw [List.pairwise_map]
    exact T.sorted.imp fun h => by simpa only [key_touch k f keyed] using h
  below := by
    simp only [List.mem_map, forall_exists_index, and_imp, forall_apply_eq_imp_iff₂]
    intro r hr
    rw [key_touch k f keyed]
    exact T.below r hr

def keep (T : Table α key) (p : α → Bool) : Table α key where
  collation := T.collation
  rows := T.rows.filter p
  next := T.next
  sorted := T.sorted.sublist List.filter_sublist
  below r hr := T.below r (List.mem_of_mem_filter hr)

def skip (T : Table α key) (n : ℕ) : Table α key where
  collation := T.collation
  rows := T.rows
  next := T.next + n
  sorted := T.sorted
  below r hr := Nat.lt_add_right n (T.below r hr)

def insertAll {β : Type*} (make : β → ℕ → α) (keyed : ∀ b n, key (make b n) = n) :
    Table α key → List β → Table α key
  | T, [] => T
  | T, b :: bs => insertAll make keyed (T.insert (make b) (keyed b)) bs

def same (T : Table α key) (a b : Text) : Bool := T.collation.same a b

def first (T : Table α key) (p : α → Bool) : Option α := T.rows.find? p

def row (T : Table α key) (k : ℕ) : Option α := T.first fun r => key r == k

section Lemmas

variable {T : Table α key}

theorem same_iff {a b : Text} :
    T.same a b = true ↔ T.collation.weight a = T.collation.weight b := T.collation.same_iff a b

theorem mem_insert {make : ℕ → α} {keyed : ∀ n, key (make n) = n} {r : α} :
    r ∈ (T.insert make keyed).rows ↔ r ∈ T.rows ∨ r = make T.next := by
  simp [insert]

theorem mem_update {k : ℕ} {f : α → α} {keyed : ∀ r, key (f r) = key r} {r : α} :
    r ∈ (T.update k f keyed).rows ↔ ∃ r₀ ∈ T.rows, touch key k f r₀ = r := by
  simp [update]

theorem keys_nodup (T : Table α key) : (T.rows.map key).Nodup :=
  List.pairwise_map.mpr (T.sorted.imp fun h => Nat.ne_of_lt h)

theorem eq_of_key {a b : α} (ha : a ∈ T.rows) (hb : b ∈ T.rows) (same : key a = key b) : a = b :=
  List.inj_on_of_nodup_map T.keys_nodup ha hb same

theorem mem_of_first {p : α → Bool} {r : α} (h : T.first p = some r) : r ∈ T.rows :=
  List.mem_of_find?_eq_some h

theorem first_spec {p : α → Bool} {r : α} (h : T.first p = some r) : p r = true :=
  List.find?_some h

theorem first_same {field : α → Text} {text : Text} {r : α}
    (h : (T.first fun r => T.same (field r) text) = some r) :
    r ∈ T.rows ∧ T.collation.weight (field r) = T.collation.weight text :=
  ⟨mem_of_first h, same_iff.mp (first_spec (p := fun r => T.same (field r) text) h)⟩

theorem first_update {k : ℕ} {f : α → α} {keyed : ∀ r, key (f r) = key r} {p : α → Bool}
    (stable : ∀ r, p (f r) = p r) :
    (T.update k f keyed).first p = (T.first p).map (touch key k f) := by
  have same : p ∘ touch key k f = p := by
    funext r
    simp only [Function.comp_apply, touch]
    split
    · exact stable r
    · rfl
  simp only [first, update, List.find?_map, same]

theorem row_eq_some {k : ℕ} {r : α} (h : T.row k = some r) : r ∈ T.rows ∧ key r = k :=
  ⟨mem_of_first h, beq_iff_eq.mp (first_spec (p := fun r => key r == k) h)⟩

theorem row_next : T.row T.next = none := by
  cases found : T.row T.next with
  | none => rfl
  | some r =>
    obtain ⟨mem, same⟩ := row_eq_some found
    exact absurd (T.below r mem) (by omega)

theorem row_of_mem {r : α} (mem : r ∈ T.rows) : T.row (key r) = some r := by
  cases found : T.row (key r) with
  | none => exact absurd (List.find?_eq_none.mp found r mem) (by simp)
  | some other =>
    obtain ⟨there, same⟩ := row_eq_some found
    rw [eq_of_key there mem same]

theorem row_insert (make : ℕ → α) (keyed : ∀ n, key (make n) = n) :
    (T.insert make keyed).row T.next = some (make T.next) := by
  have found := row_of_mem (T := T.insert make keyed) (mem_insert.mpr (.inr rfl))
  rwa [keyed] at found

theorem rows_insertAll {β : Type*} (make : β → ℕ → α) (keyed : ∀ b n, key (make b n) = n)
    (T : Table α key) (bs : List β) :
    ∃ added, (T.insertAll make keyed bs).rows = T.rows ++ added ∧
      List.Forall₂ (fun b r => r = make b (key r)) bs added := by
  induction bs generalizing T with
  | nil => exact ⟨[], (List.append_nil _).symm, .nil⟩
  | cons b bs ih =>
    obtain ⟨added, rows, made⟩ := ih (T.insert (make b) (keyed b))
    refine ⟨make b T.next :: added, ?_, .cons (by rw [keyed]) made⟩
    rw [insertAll, rows, insert, List.append_assoc]
    rfl

end Lemmas

end Table

end KnowledgeCompanion.KeyedTable
