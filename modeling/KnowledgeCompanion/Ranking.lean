import Mathlib.Data.List.Sort
import Mathlib.Tactic.Common
import Mathlib.Data.List.Nodup

/-! Ranked lists: the best-scored elements first, of several elements with one key the
first, and of these what a threshold and a limit let through. Such a selection is empty
just when no element reaches the threshold, and otherwise begins with a best element. -/

namespace KnowledgeCompanion.Ranking

variable {α κ K : Type*}

section Comparable

variable [LT K] [DecidableLT K]

/-- `sorted(…, reverse=True)`, which asks only whether a score is less than another. Equal scores
keep their order; where scores do not compare, the order depends on the algorithm. -/
def ranked (score : α → K) (xs : List α) : List α := xs.insertionSort fun a b => ¬ score a < score b

theorem ranked_perm (score : α → K) (xs : List α) : (ranked score xs).Perm xs :=
  List.perm_insertionSort _ xs

@[simp] theorem mem_ranked (score : α → K) {xs : List α} {a : α} :
    a ∈ ranked score xs ↔ a ∈ xs := (ranked_perm score xs).mem_iff

theorem ranked_eq_nil_iff {score : α → K} {xs : List α} : ranked score xs = [] ↔ xs = [] := by
  rw [← List.length_eq_zero_iff, (ranked_perm score xs).length_eq, List.length_eq_zero_iff]

theorem ranked_map {β : Type*} {score : β → K} (f : α → β) (xs : List α) :
    ranked score (xs.map f) = (ranked (fun a => score (f a)) xs).map f :=
  (List.map_insertionSort (fun a b => ¬ score (f a) < score (f b)) (fun a b => ¬ score a < score b)
    f xs fun _ _ _ _ => Iff.rfl).symm

end Comparable

theorem ranked_congr {K' : Type*} [LT K] [DecidableLT K] [LT K'] [DecidableLT K'] {score : α → K}
    {score' : α → K'} {xs : List α}
    (same : ∀ a ∈ xs, ∀ b ∈ xs, score a < score b ↔ score' a < score' b) :
    ranked score xs = ranked score' xs := by
  have mapped := List.map_insertionSort (fun a b => ¬ score a < score b)
    (fun a b => ¬ score' a < score' b) id xs fun a here b there => not_congr (same a here b there)
  rwa [List.map_id, List.map_id] at mapped

variable [LinearOrder K]

theorem ranked_pairwise (score : α → K) (xs : List α) :
    (ranked score xs).Pairwise fun a b => score b ≤ score a := by
  have total : Std.Total fun a b : α => score b ≤ score a := ⟨fun a b => le_total _ _⟩
  have trans : IsTrans α fun a b => score b ≤ score a := ⟨fun a b c ab bc => le_trans bc ab⟩
  simp only [ranked, not_lt]
  exact List.pairwise_insertionSort _ xs

theorem head_ranked {score : α → K} {xs rest : List α} {a : α} (first : ranked score xs = a :: rest)
    {b : α} (mem : b ∈ xs) : score b ≤ score a := by
  have sorted := ranked_pairwise score xs
  rw [← mem_ranked score, first] at mem
  rw [first] at sorted
  rcases List.mem_cons.mp mem with rfl | mem
  · exact le_refl _
  · exact (List.pairwise_cons.mp sorted).1 b mem

theorem insertionSort_eq_ranked {score : α → K} {before : α → α → Prop} [DecidableRel before]
    (same : ∀ a b, before a b ↔ score b ≤ score a) (xs : List α) :
    xs.insertionSort before = ranked score xs := by
  have mapped := List.map_insertionSort before (fun a b => ¬ score a < score b) id xs
    fun a _ b _ => (same a b).trans not_lt.symm
  rwa [List.map_id, List.map_id] at mapped

theorem filter_orderedInsert {before : α → α → Prop} [DecidableRel before] [IsTrans α before]
    (p : α → Bool) (a : α) {xs : List α} (sorted : xs.Pairwise before) :
    (xs.orderedInsert before a).filter p =
      if p a then (xs.filter p).orderedInsert before a else xs.filter p := by
  induction xs with
  | nil => cases here : p a <;> simp [here]
  | cons x xs ih =>
    obtain ⟨first, rest⟩ := List.pairwise_cons.mp sorted
    by_cases goes : before a x
    · cases here : p a with
      | false => simp [List.orderedInsert_cons, goes, here]
      | true =>
        rw [List.orderedInsert_cons, if_pos goes, List.filter_cons_of_pos here, if_pos rfl]
        cases kept : (x :: xs).filter p with
        | nil => rfl
        | cons y ys =>
          have listed : y ∈ x :: xs := List.mem_of_mem_filter (kept ▸ List.mem_cons_self)
          have ahead : before a y := by
            rcases List.mem_cons.mp listed with rfl | later
            · exact goes
            · exact IsTrans.trans a x y goes (first y later)
          rw [List.orderedInsert_cons, if_pos ahead]
    · rw [List.orderedInsert_cons, if_neg goes]
      cases head : p x with
      | false => simp [head, ih rest]
      | true => cases here : p a <;> simp [head, here, ih rest, goes]

theorem filter_insertionSort {before : α → α → Prop} [DecidableRel before] [Std.Total before]
    [IsTrans α before] (p : α → Bool) (xs : List α) :
    (xs.insertionSort before).filter p = (xs.filter p).insertionSort before := by
  induction xs with
  | nil => rfl
  | cons x xs ih =>
    rw [List.insertionSort_cons, filter_orderedInsert p x (List.pairwise_insertionSort _ xs), ih]
    cases here : p x <;> simp [here]

variable [DecidableEq κ] (key : α → κ)

def firstOfEach : List κ → List α → List α
  | _, [] => []
  | seen, a :: as =>
    if key a ∈ seen then firstOfEach seen as else a :: firstOfEach (key a :: seen) as

theorem firstOfEach_sublist (seen : List κ) (as : List α) :
    (firstOfEach key seen as).Sublist as := by
  induction as generalizing seen with
  | nil => exact List.Sublist.refl _
  | cons a as ih =>
    rw [firstOfEach]
    split
    · exact (ih seen).cons a
    · exact (ih (key a :: seen)).cons_cons a

theorem firstOfEach_cons (a : α) (as : List α) :
    firstOfEach key [] (a :: as) = a :: firstOfEach key [key a] as := by
  rw [firstOfEach, if_neg List.not_mem_nil]

theorem firstOfEach_seen {seen : List κ} {as : List α} (known : ∀ a ∈ as, key a ∈ seen) :
    firstOfEach key seen as = [] := by
  induction as with
  | nil => rfl
  | cons a as ih =>
    rw [firstOfEach, if_pos (known a List.mem_cons_self)]
    exact ih fun b mem => known b (List.mem_cons_of_mem a mem)

theorem exists_firstOfEach {seen : List κ} {as : List α} {a : α} (mem : a ∈ as)
    (fresh : key a ∉ seen) : ∃ b ∈ firstOfEach key seen as, key b = key a := by
  induction as generalizing seen with
  | nil => exact absurd mem List.not_mem_nil
  | cons first as ih =>
    rw [firstOfEach]
    rcases List.mem_cons.mp mem with rfl | later
    · rw [if_neg fresh]
      exact ⟨a, List.mem_cons_self, rfl⟩
    · split
      · exact ih later fresh
      · by_cases same : key a = key first
        · exact ⟨first, List.mem_cons_self, same.symm⟩
        · have unseen : key a ∉ key first :: seen := by simp [same, fresh]
          obtain ⟨b, kept, equal⟩ := ih later unseen
          exact ⟨b, List.mem_cons_of_mem _ kept, equal⟩

theorem firstOfEach_unseen {seen : List κ} {as : List α} {b : α}
    (mem : b ∈ firstOfEach key seen as) : key b ∉ seen := by
  induction as generalizing seen with
  | nil => exact absurd mem List.not_mem_nil
  | cons a as ih =>
    rw [firstOfEach] at mem
    split at mem
    · exact ih mem
    · rename_i fresh
      rcases List.mem_cons.mp mem with rfl | later
      · exact fresh
      · exact fun known => ih later (List.mem_cons_of_mem _ known)

theorem firstOfEach_pairwise (seen : List κ) (as : List α) :
    (firstOfEach key seen as).Pairwise fun a b => key a ≠ key b := by
  induction as generalizing seen with
  | nil => exact .nil
  | cons a as ih =>
    rw [firstOfEach]
    split
    · exact ih seen
    · refine .cons (fun b later same => firstOfEach_unseen key later ?_) (ih _)
      rw [← same]
      exact List.mem_cons_self

theorem firstOfEach_of_nodup {seen : List κ} {as : List α} (distinct : (as.map key).Nodup)
    (fresh : ∀ a ∈ as, key a ∉ seen) : firstOfEach key seen as = as := by
  induction as generalizing seen with
  | nil => rfl
  | cons a as ih =>
    obtain ⟨other, distinct⟩ := List.nodup_cons.mp distinct
    rw [firstOfEach, if_neg (fresh a List.mem_cons_self), ih distinct]
    intro b later known
    rcases List.mem_cons.mp known with same | old
    · exact other (same ▸ List.mem_map_of_mem later)
    · exact fresh b (List.mem_cons_of_mem a later) old

theorem filterMap_firstOfEach {β : Type*} (convert : α → Option β) (key' : β → κ)
    (dropped : κ → Prop) (drops : ∀ a, convert a = none ↔ dropped (key a))
    (keeps : ∀ a, ∀ b ∈ convert a, key' b = key a) {seen seen' : List κ}
    (same : ∀ k, ¬ dropped k → (k ∈ seen ↔ k ∈ seen')) (as : List α) :
    (firstOfEach key seen as).filterMap convert =
      firstOfEach key' seen' (as.filterMap convert) := by
  induction as generalizing seen seen' with
  | nil => rfl
  | cons a as ih =>
    rw [firstOfEach]
    cases converted : convert a with
    | none =>
      rw [List.filterMap_cons_none converted]
      split
      · exact ih same
      · rw [List.filterMap_cons_none converted]
        refine ih fun k kept => ?_
        have other : k ≠ key a := fun here => kept (here ▸ (drops a).mp converted)
        rw [List.mem_cons, or_iff_right other, same k kept]
    | some b =>
      have kept : ¬ dropped (key a) := fun gone => by simp [(drops a).mpr gone] at converted
      rw [List.filterMap_cons_some converted, firstOfEach, keeps a b converted]
      by_cases known : key a ∈ seen
      · rw [if_pos known, if_pos ((same _ kept).mp known)]
        exact ih same
      · rw [if_neg known, if_neg fun old => known ((same _ kept).mpr old),
          List.filterMap_cons_some converted, ih]
        intro k fine
        rw [List.mem_cons, List.mem_cons, same k fine]

theorem exists_firstOfEach_before {r : α → α → Prop} {seen : List κ} {as : List α} {a : α}
    (sorted : as.Pairwise r) (mem : a ∈ as) (fresh : key a ∉ seen) :
    ∃ b ∈ firstOfEach key seen as, key b = key a ∧ (b = a ∨ r b a) := by
  induction as generalizing seen with
  | nil => exact absurd mem List.not_mem_nil
  | cons first as ih =>
    obtain ⟨before, sorted⟩ := List.pairwise_cons.mp sorted
    rw [firstOfEach]
    rcases List.mem_cons.mp mem with rfl | later
    · rw [if_neg fresh]
      exact ⟨a, List.mem_cons_self, rfl, .inl rfl⟩
    · split
      · exact ih sorted later fresh
      · by_cases same : key a = key first
        · exact ⟨first, List.mem_cons_self, same.symm, .inr (before a later)⟩
        · have unseen : key a ∉ key first :: seen := by simp [same, fresh]
          obtain ⟨b, kept, equal⟩ := ih sorted later unseen
          exact ⟨b, List.mem_cons_of_mem _ kept, equal⟩

theorem mem_firstOfEach_id {β : Type*} [DecidableEq β] {bs : List β} {b : β} :
    b ∈ firstOfEach id [] bs ↔ b ∈ bs := by
  constructor
  · exact fun mem => (firstOfEach_sublist id [] bs).mem mem
  · intro mem
    obtain ⟨other, kept, same⟩ := exists_firstOfEach id mem List.not_mem_nil
    rwa [← show other = b from same]

theorem firstOfEach_map {β : Type*} {key : β → κ} (f : α → β) (seen : List κ) (as : List α) :
    firstOfEach key seen (as.map f) = (firstOfEach (fun a => key (f a)) seen as).map f := by
  induction as generalizing seen with
  | nil => rfl
  | cons a as ih =>
    rw [List.map_cons, firstOfEach, firstOfEach]
    split
    · exact ih seen
    · rw [ih, List.map_cons]

section Admitted

variable {S : Type*} [LE S] [DecidableLE S]

/-- The first `limit` elements that reach the threshold. -/
def admitted (score : α → S) (threshold : S) (limit : ℕ) (xs : List α) : List α :=
  (xs.filter fun a => threshold ≤ score a).take limit

theorem admitted_subset {score : α → S} {threshold : S} {limit : ℕ} {xs : List α} {a : α}
    (mem : a ∈ admitted score threshold limit xs) : a ∈ xs :=
  List.mem_of_mem_filter (List.mem_of_mem_take mem)

theorem admitted_sublist (score : α → S) (threshold : S) (limit : ℕ) (xs : List α) :
    (admitted score threshold limit xs).Sublist xs :=
  (List.take_sublist _ _).trans List.filter_sublist

theorem admitted_reaches {score : α → S} {threshold : S} {limit : ℕ} {xs : List α} {a : α}
    (mem : a ∈ admitted score threshold limit xs) : threshold ≤ score a := by
  simpa using (List.mem_filter.mp (List.mem_of_mem_take mem)).2

theorem mem_admitted_or_full {score : α → S} {threshold : S} {limit : ℕ} {xs : List α} {a : α}
    (sorted : xs.Pairwise fun a b => score b ≤ score a) (mem : a ∈ xs)
    (reaches : threshold ≤ score a) :
    a ∈ admitted score threshold limit xs ∨
      ((admitted score threshold limit xs).length = limit ∧
        ∀ b ∈ admitted score threshold limit xs, score a ≤ score b) := by
  have kept : a ∈ xs.filter fun a => threshold ≤ score a :=
    List.mem_filter.mpr ⟨mem, by simpa using reaches⟩
  have order := sorted.filter (p := fun a => threshold ≤ score a)
  rw [← List.take_append_drop limit (xs.filter fun a => threshold ≤ score a)] at kept order
  rcases List.mem_append.mp kept with taken | dropped
  · exact .inl taken
  · right
    refine ⟨?_, fun b earlier => (List.pairwise_append.mp order).2.2 b earlier a dropped⟩
    rw [admitted, List.length_take, Nat.min_eq_left]
    by_contra short
    rw [List.drop_eq_nil_of_le (by omega)] at dropped
    exact absurd dropped List.not_mem_nil

theorem admitted_map {β : Type*} {score : β → S} (f : α → β) (threshold : S) (limit : ℕ)
    (xs : List α) :
    admitted score threshold limit (xs.map f) =
      (admitted (fun a => score (f a)) threshold limit xs).map f := by
  rw [admitted, List.filter_map, ← List.map_take]
  rfl

end Admitted

theorem admitted_cases {score : α → K} {threshold : K} {limit : ℕ} {a : α} {rest : List α}
    (room : 0 < limit) (best : ∀ b ∈ rest, score b ≤ score a) :
    (score a < threshold ∧ admitted score threshold limit (a :: rest) = []) ∨
      (threshold ≤ score a ∧
        ∃ others, admitted score threshold limit (a :: rest) = a :: others) := by
  rcases lt_or_ge (score a) threshold with below | above
  · left
    refine ⟨below, ?_⟩
    have nothing : (a :: rest).filter (fun b => threshold ≤ score b) = [] := by
      rw [List.filter_eq_nil_iff]
      intro b mem
      rw [decide_eq_true_eq, not_le]
      rcases List.mem_cons.mp mem with rfl | mem
      · exact below
      · exact lt_of_le_of_lt (best b mem) below
    rw [admitted, nothing, List.take_nil]
  · right
    refine ⟨above, ?_⟩
    obtain ⟨n, rfl⟩ : ∃ n, limit = n + 1 := ⟨limit - 1, by omega⟩
    have kept : (a :: rest).filter (fun b => threshold ≤ score b) =
        a :: rest.filter fun b => threshold ≤ score b :=
      List.filter_cons_of_pos (by simpa using above)
    rw [admitted, kept, List.take_succ_cons]
    exact ⟨_, rfl⟩

theorem admitted_singleton {score : α → K} {threshold : K} {limit : ℕ} {a : α} (room : 0 < limit)
    (reaches : threshold ≤ score a) : admitted score threshold limit [a] = [a] := by
  have kept : [a].filter (fun b => threshold ≤ score b) = [a] := by simp [reaches]
  rw [admitted, kept]
  exact List.take_of_length_le room

/-- `limit` of the elements, or all when there are fewer, in order, and none better left out. -/
structure BestFew (score : α → K) (limit : ℕ) (xs best : List α) : Prop where
  others : ∃ rest, (best ++ rest).Perm xs ∧ ∀ a ∈ best, ∀ b ∈ rest, score b ≤ score a
  length : best.length = min limit xs.length
  sorted : best.Pairwise fun a b => score b ≤ score a

theorem bestFew_take (score : α → K) (limit : ℕ) (xs : List α) :
    BestFew score limit xs ((ranked score xs).take limit) := by
  have sorted := ranked_pairwise score xs
  refine ⟨⟨(ranked score xs).drop limit, ?_, ?_⟩, ?_, sorted.sublist (List.take_sublist _ _)⟩
  · rw [List.take_append_drop]
    exact ranked_perm score xs
  · rw [← List.take_append_drop limit (ranked score xs)] at sorted
    exact (List.pairwise_append.mp sorted).2.2
  · rw [List.length_take, (ranked_perm score xs).length_eq]

theorem BestFew.mem {score : α → K} {limit : ℕ} {xs best : List α}
    (h : BestFew score limit xs best) {a : α} (mem : a ∈ best) : a ∈ xs := by
  obtain ⟨rest, perm, -⟩ := h.others
  exact perm.mem_iff.mp (List.mem_append_left rest mem)

theorem BestFew.mem_of_few {score : α → K} {limit : ℕ} {xs best : List α}
    (h : BestFew score limit xs best) {a : α} (mem : a ∈ xs)
    (few : (xs.filter fun b => score a ≤ score b).length ≤ limit) : a ∈ best := by
  obtain ⟨rest, perm, better⟩ := h.others
  rcases List.mem_append.mp (perm.mem_iff.mpr mem) with here | left
  · exact here
  · have room : 0 < rest.length := List.length_pos_of_mem left
    have total : best.length + rest.length = xs.length := by
      rw [← List.length_append, perm.length_eq]
    have full := h.length
    have above : best.filter (fun b => score a ≤ score b) = best :=
      List.filter_eq_self.mpr fun b mem => decide_eq_true (better b mem a left)
    have itself : a ∈ rest.filter fun b => score a ≤ score b :=
      List.mem_filter.mpr ⟨left, decide_eq_true le_rfl⟩
    have one := List.length_pos_of_mem itself
    have count := (perm.filter fun b => score a ≤ score b).length_eq
    rw [List.filter_append, List.length_append, above] at count
    omega

theorem filter_take_of_closed {p : α → Bool} {xs : List α} (limit : ℕ)
    (closed : xs.Pairwise fun a b => p b = true → p a = true) :
    (xs.take limit).filter p = (xs.filter p).take limit := by
  induction xs generalizing limit with
  | nil => simp
  | cons x xs ih =>
    obtain ⟨first, rest⟩ := List.pairwise_cons.mp closed
    cases limit with
    | zero => rfl
    | succ limit =>
      cases here : p x with
      | true => simp [here, ih limit rest]
      | false =>
        have none : ∀ b ∈ xs, ¬ p b = true := fun b mem kept => by simp [first b mem kept] at here
        have nothing : xs.filter p = [] := List.filter_eq_nil_iff.mpr none
        simp [here, nothing, ih limit rest]

theorem filter_ranked (score : α → K) (p : α → Bool) (xs : List α) :
    (ranked score xs).filter p = ranked score (xs.filter p) := by
  have total : Std.Total fun a b : α => score b ≤ score a := ⟨fun a b => le_total _ _⟩
  have trans : IsTrans α fun a b => score b ≤ score a := ⟨fun a b c ab bc => le_trans bc ab⟩
  simp only [ranked, not_lt]
  exact filter_insertionSort p xs

theorem filter_take_ranked (score : α → K) (low : K) (limit : ℕ) (xs : List α) :
    ((ranked score xs).take limit).filter (fun a => decide (low < score a)) =
      (ranked score (xs.filter fun a => decide (low < score a))).take limit := by
  rw [filter_take_of_closed, filter_ranked]
  refine (ranked_pairwise score xs).imp fun order above => ?_
  exact decide_eq_true (lt_of_lt_of_le (of_decide_eq_true above) order)

end KnowledgeCompanion.Ranking
