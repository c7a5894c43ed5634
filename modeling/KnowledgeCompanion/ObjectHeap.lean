import Mathlib.Data.List.Basic
import Mathlib.Tactic.Common

/-! Objects behind references. A new object goes behind those that exist, so that what a
reference names stays the same for as long as no object is written. -/

namespace KnowledgeCompanion.ObjectHeap

variable {α : Type*}

def alloc (heap values : List α) : List α × List ℕ :=
  (heap ++ values, List.range' heap.length values.length)

def deref (heap : List α) (refs : List ℕ) : List α := refs.filterMap (heap[·]?)

def Within (heap : List α) (refs : List ℕ) : Prop := ∀ r ∈ refs, r < heap.length

structure Held (heap : List α) where
  refs : List ℕ
  within : Within heap refs

theorem Within.mono {heap later : List α} {refs : List ℕ} (within : Within heap refs)
    (kept : heap <+: later) : Within later refs :=
  fun r mem => Nat.lt_of_lt_of_le (within r mem) kept.length_le

theorem Within.append {heap : List α} {front back : List ℕ} (first : Within heap front)
    (second : Within heap back) : Within heap (front ++ back) := by
  intro r mem
  rcases List.mem_append.mp mem with here | there
  · exact first r here
  · exact second r there

theorem deref_append (heap : List α) (front back : List ℕ) :
    deref heap (front ++ back) = deref heap front ++ deref heap back :=
  List.filterMap_append ..

theorem deref_cons {heap : List α} {r : ℕ} (inside : r < heap.length) (refs : List ℕ) :
    deref heap (r :: refs) = heap[r] :: deref heap refs :=
  List.filterMap_cons_some (List.getElem?_eq_getElem inside)

theorem length_deref {heap : List α} {refs : List ℕ} (within : Within heap refs) :
    (deref heap refs).length = refs.length := by
  induction refs with
  | nil => rfl
  | cons r refs ih =>
    rw [deref_cons (within r List.mem_cons_self), List.length_cons, List.length_cons,
      ih fun x mem => within x (List.mem_cons_of_mem r mem)]

theorem deref_take {heap : List α} {refs : List ℕ} (within : Within heap refs) (n : ℕ) :
    deref heap (refs.take n) = (deref heap refs).take n := by
  induction refs generalizing n with
  | nil => rw [List.take_nil, deref, List.filterMap_nil, List.take_nil]
  | cons r refs ih =>
    cases n with
    | zero => rfl
    | succ n =>
      have inside := within r List.mem_cons_self
      rw [List.take_succ_cons, deref_cons inside, deref_cons inside, List.take_succ_cons,
        ih fun x mem => within x (List.mem_cons_of_mem r mem)]

theorem deref_drop {heap : List α} {refs : List ℕ} (within : Within heap refs) (n : ℕ) :
    deref heap (refs.drop n) = (deref heap refs).drop n := by
  induction refs generalizing n with
  | nil => rw [List.drop_nil, deref, List.filterMap_nil, List.drop_nil]
  | cons r refs ih =>
    cases n with
    | zero => rfl
    | succ n =>
      rw [List.drop_succ_cons, deref_cons (within r List.mem_cons_self), List.drop_succ_cons,
        ih fun x mem => within x (List.mem_cons_of_mem r mem)]

theorem deref_kept {heap later : List α} {refs : List ℕ} (within : Within heap refs)
    (kept : heap <+: later) : deref later refs = deref heap refs := by
  refine List.filterMap_congr fun r mem => ?_
  obtain ⟨back, rfl⟩ := kept
  exact List.getElem?_append_left (within r mem)

theorem alloc_kept (heap values : List α) : heap <+: (alloc heap values).1 :=
  List.prefix_append heap values

theorem alloc_within (heap values : List α) :
    Within (alloc heap values).1 (alloc heap values).2 := by
  intro r mem
  rw [alloc, List.length_append]
  rw [alloc, List.mem_range'_1] at mem
  exact mem.2

theorem deref_alloc (heap values : List α) :
    deref (alloc heap values).1 (alloc heap values).2 = values := by
  induction values generalizing heap with
  | nil => rfl
  | cons v values ih =>
    have here : heap.length < (heap ++ v :: values).length := by
      rw [List.length_append, List.length_cons]
      omega
    have rest := ih (heap ++ [v])
    rw [alloc, List.append_assoc, List.singleton_append, List.length_append,
      List.length_singleton] at rest
    rw [alloc, List.length_cons, List.range'_succ, deref_cons here, rest,
      List.getElem_append_right (Nat.le_refl _)]
    simp only [Nat.sub_self, List.getElem_cons_zero]

end KnowledgeCompanion.ObjectHeap
