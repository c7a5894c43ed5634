import Mathlib.Data.List.Chain
import Mathlib.Data.List.Induction
import Mathlib.Order.Lattice

/-! Consecutive elements of a list that share a key are put into one group, in the order of the
list. -/

namespace KnowledgeCompanion.KeyedRuns

variable {κ α : Type*} [DecidableEq κ] (key : α → κ)

structure Group (κ α : Type*) where
  key : κ
  items : List α
deriving DecidableEq

def push (groups : List (Group κ α)) (x : α) : List (Group κ α) :=
  match groups.getLast? with
  | none => [⟨key x, [x]⟩]
  | some last =>
    if last.key = key x then groups.dropLast ++ [⟨last.key, last.items ++ [x]⟩]
    else groups ++ [⟨key x, [x]⟩]

def groupRuns (xs : List α) : List (Group κ α) := xs.foldl (push key) []

theorem push_cases (groups : List (Group κ α)) (x : α) :
    (push key groups x = groups ++ [⟨key x, [x]⟩] ∧
      ∀ last ∈ groups.getLast?, last.key ≠ key x) ∨
    ∃ front last, groups = front ++ [last] ∧ last.key = key x ∧
      push key groups x = front ++ [⟨last.key, last.items ++ [x]⟩] := by
  unfold push
  cases found : groups.getLast? with
  | none =>
    rw [List.getLast?_eq_none_iff.mp found]
    exact .inl ⟨rfl, fun last mem => by cases mem⟩
  | some last =>
    dsimp only
    split
    · rename_i same
      have whole := List.dropLast_append_getLast? last found
      exact .inr ⟨groups.dropLast, last, whole.symm, same, rfl⟩
    · rename_i other
      refine .inl ⟨rfl, fun l mem => ?_⟩
      rw [← Option.some.inj mem]
      exact other

theorem groupRuns_append (xs : List α) (x : α) :
    groupRuns key (xs ++ [x]) = push key (groupRuns key xs) x := List.foldl_append

theorem groupRuns_flatten (xs : List α) :
    ((groupRuns key xs).map Group.items).flatten = xs := by
  induction xs using List.reverseRecOn with
  | nil => rfl
  | append_singleton xs x ih =>
    rw [groupRuns_append]
    rcases push_cases key (groupRuns key xs) x with ⟨pushed, -⟩ | ⟨front, last, split, -, pushed⟩
    · rw [pushed, List.map_append, List.flatten_append, ih]
      exact congrArg (xs ++ ·) (List.append_nil [x])
    · rw [split] at ih
      rw [pushed]
      simp only [List.map_append, List.flatten_append, List.map_cons, List.map_nil,
        List.flatten_cons, List.flatten_nil, List.append_nil] at ih ⊢
      rw [← List.append_assoc, ih]

/-- No group is empty, and its elements have its key. -/
structure Uniform (key : α → κ) (group : Group κ α) : Prop where
  filled : group.items ≠ []
  keyed : ∀ x ∈ group.items, key x = group.key

theorem groupRuns_uniform (xs : List α) : ∀ group ∈ groupRuns key xs, Uniform key group := by
  induction xs using List.reverseRecOn with
  | nil => exact fun group mem => absurd mem List.not_mem_nil
  | append_singleton xs x ih =>
    intro group mem
    rw [groupRuns_append] at mem
    rcases push_cases key (groupRuns key xs) x with ⟨pushed, -⟩ | ⟨front, last, split, same, pushed⟩
    · rw [pushed] at mem
      rcases List.mem_append.mp mem with old | new
      · exact ih group old
      · rw [List.mem_singleton.mp new]
        exact ⟨List.cons_ne_nil x [], fun y mem => congrArg key (List.mem_singleton.mp mem)⟩
    · rw [split] at ih
      rw [pushed] at mem
      rcases List.mem_append.mp mem with old | new
      · exact ih group (List.mem_append_left _ old)
      · have before := ih last (List.mem_append_right _ (List.mem_singleton_self last))
        rw [List.mem_singleton.mp new]
        refine ⟨List.append_ne_nil_of_right_ne_nil _ (List.cons_ne_nil x []), fun y mem => ?_⟩
        rcases List.mem_append.mp mem with early | late
        · exact before.keyed y early
        · rw [List.mem_singleton.mp late]
          exact same.symm

theorem groupRuns_apart (xs : List α) :
    ((groupRuns key xs).map Group.key).IsChain (· ≠ ·) := by
  induction xs using List.reverseRecOn with
  | nil => exact .nil
  | append_singleton xs x ih =>
    rw [groupRuns_append]
    rcases push_cases key (groupRuns key xs) x with ⟨pushed, other⟩ |
      ⟨front, last, split, -, pushed⟩
    · rw [pushed, List.map_append, List.isChain_append]
      refine ⟨ih, .singleton _, fun k last l first => ?_⟩
      rw [List.getLast?_map] at last
      obtain ⟨g, here, rfl⟩ := Option.map_eq_some_iff.mp last
      rw [← Option.some.inj first]
      exact other g here
    · rw [split] at ih
      rw [pushed]
      rw [List.map_append] at ih ⊢
      exact ih

omit [DecidableEq κ] in
theorem isChain_lt [LinearOrder κ] {ks : List κ} (rising : ks.Pairwise (· ≤ ·))
    (apart : ks.IsChain (· ≠ ·)) : ks.IsChain (· < ·) := by
  induction apart with
  | nil => exact .nil
  | singleton k => exact .singleton k
  | cons_cons other _ ih =>
    obtain ⟨first, rest⟩ := List.pairwise_cons.mp rising
    exact .cons_cons (lt_of_le_of_ne (first _ List.mem_cons_self) other) (ih rest)

theorem groupRuns_increasing [LinearOrder κ] {xs : List α}
    (sorted : xs.Pairwise fun x y => key x ≤ key y) :
    (groupRuns key xs).Pairwise fun g h => g.key < h.key := by
  rw [← groupRuns_flatten key xs, List.pairwise_flatten, List.pairwise_map] at sorted
  have rising : (groupRuns key xs).Pairwise fun g h => g.key ≤ h.key := by
    refine sorted.2.imp_of_mem fun {g h} left right le => ?_
    obtain ⟨filled, keyed⟩ := groupRuns_uniform key xs g left
    obtain ⟨filled', keyed'⟩ := groupRuns_uniform key xs h right
    obtain ⟨x, here⟩ := List.exists_mem_of_ne_nil _ filled
    obtain ⟨y, there⟩ := List.exists_mem_of_ne_nil _ filled'
    rw [← keyed x here, ← keyed' y there]
    exact le x here y there
  have steps : ((groupRuns key xs).map Group.key).IsChain (· < ·) :=
    isChain_lt (List.pairwise_map.mpr rising) (groupRuns_apart key xs)
  exact List.pairwise_map.mp (List.isChain_iff_pairwise.mp steps)

end KnowledgeCompanion.KeyedRuns
