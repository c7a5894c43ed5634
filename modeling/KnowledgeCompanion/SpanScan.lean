import Mathlib.Tactic.Common
import Mathlib.Data.List.Basic
import Mathlib.Order.Lattice

/-! A list is searched from left to right for matches that do not overlap and is
cut at the matches. Positions count from the start of the list. -/

namespace KnowledgeCompanion.SpanScan

variable {α : Type*}

/-- The elements from position `start` up to position `stop`. -/
def slice (xs : List α) (start stop : ℕ) : List α := (xs.take stop).drop start

structure Span where
  start : ℕ
  stop : ℕ
deriving DecidableEq, Repr

/-- The spans from position `pos` on, where the next `skip` elements belong to the
last match; `matchAt` is the length of a match at the head of a list. -/
def scan (matchAt : List α → Option ℕ) : ℕ → ℕ → List α → List Span
  | _, _, [] => []
  | skip + 1, pos, _ :: xs => scan matchAt skip (pos + 1) xs
  | 0, pos, x :: xs =>
    match matchAt (x :: xs) with
    | none => scan matchAt 0 (pos + 1) xs
    | some n => ⟨pos, pos + n⟩ :: scan matchAt (n - 1) (pos + 1) xs

def findIter (matchAt : List α → Option ℕ) (xs : List α) : List Span := scan matchAt 0 0 xs

/-- What the spans leave from `cursor` on: before, between and after them. -/
def gaps (stop : ℕ) : ℕ → List Span → List Span
  | cursor, [] => [⟨cursor, stop⟩]
  | cursor, s :: spans => ⟨cursor, s.start⟩ :: gaps stop s.stop spans

def Sound (matchAt : List α → Option ℕ) : Prop :=
  ∀ xs n, matchAt xs = some n → 0 < n ∧ n ≤ xs.length

/-- Spans in order, none empty and none before `cursor` or after `stop`. -/
def Chained (stop : ℕ) : ℕ → List Span → Prop
  | cursor, [] => cursor ≤ stop
  | cursor, s :: spans => cursor ≤ s.start ∧ s.start < s.stop ∧ Chained stop s.stop spans

theorem chained_of_le {stop cursor earlier : ℕ} {spans : List Span} (le : earlier ≤ cursor)
    (h : Chained stop cursor spans) : Chained stop earlier spans := by
  cases spans with
  | nil => exact Nat.le_trans le h
  | cons s spans => exact ⟨Nat.le_trans le h.1, h.2⟩

theorem chained_le {stop cursor : ℕ} {spans : List Span} (h : Chained stop cursor spans) :
    cursor ≤ stop := by
  induction spans generalizing cursor with
  | nil => exact h
  | cons s spans ih =>
    have rest := ih h.2.2
    have before := h.1
    have proper := h.2.1
    omega

theorem scan_chained {matchAt : List α → Option ℕ} (sound : Sound matchAt) {xs : List α}
    {skip pos : ℕ} (inside : skip ≤ xs.length) :
    Chained (pos + xs.length) (pos + skip) (scan matchAt skip pos xs) := by
  induction xs generalizing skip pos with
  | nil =>
    rw [List.length_nil] at inside
    simp only [scan, Chained, List.length_nil]
    omega
  | cons x xs ih =>
    rw [List.length_cons] at inside
    have shift : pos + (x :: xs).length = pos + 1 + xs.length := by
      rw [List.length_cons]
      omega
    rw [shift]
    cases skip with
    | succ skip =>
      have same : pos + (skip + 1) = pos + 1 + skip := by omega
      rw [same]
      exact ih (by omega)
    | zero =>
      simp only [scan]
      cases found : matchAt (x :: xs) with
      | none =>
        exact chained_of_le (by omega) (ih (Nat.zero_le _))
      | some n =>
        obtain ⟨positive, bounded⟩ := sound _ _ found
        rw [List.length_cons] at bounded
        have same : pos + n = pos + 1 + (n - 1) := by omega
        refine ⟨Nat.le_refl _, by dsimp only; omega, ?_⟩
        rw [same]
        exact ih (by omega)

theorem findIter_chained {matchAt : List α → Option ℕ} (sound : Sound matchAt) (xs : List α) :
    Chained xs.length 0 (findIter matchAt xs) := by
  have chained : Chained (0 + xs.length) (0 + 0) (scan matchAt 0 0 xs) :=
    scan_chained sound (Nat.zero_le _)
  simpa [findIter] using chained

theorem match_later {matchAt : List α → Option ℕ} {x : α} {xs : List α} {pos : ℕ} {s : Span}
    (h : pos + 1 ≤ s.start ∧
      matchAt (xs.drop (s.start - (pos + 1))) = some (s.stop - s.start)) :
    pos ≤ s.start ∧ matchAt ((x :: xs).drop (s.start - pos)) = some (s.stop - s.start) := by
  have same : s.start - pos = s.start - (pos + 1) + 1 := by omega
  rw [same, List.drop_succ_cons]
  exact ⟨by omega, h.2⟩

theorem scan_match {matchAt : List α → Option ℕ} {xs : List α} {skip pos : ℕ} {s : Span}
    (mem : s ∈ scan matchAt skip pos xs) :
    pos ≤ s.start ∧ matchAt (xs.drop (s.start - pos)) = some (s.stop - s.start) := by
  induction xs generalizing skip pos with
  | nil => simp [scan] at mem
  | cons x xs ih =>
    cases skip with
    | succ skip => exact match_later (ih mem)
    | zero =>
      simp only [scan] at mem
      cases found : matchAt (x :: xs) with
      | none =>
        rw [found] at mem
        exact match_later (ih mem)
      | some n =>
        rw [found] at mem
        rcases List.mem_cons.mp mem with here | there
        · rw [here]
          simpa using found
        · exact match_later (ih there)

theorem findIter_match {matchAt : List α → Option ℕ} {xs : List α} {s : Span}
    (mem : s ∈ findIter matchAt xs) : matchAt (xs.drop s.start) = some (s.stop - s.start) :=
  (scan_match mem).2

theorem scan_skip (matchAt : List α → Option ℕ) (skip pos : ℕ) (xs : List α) :
    scan matchAt skip pos xs = scan matchAt 0 (pos + skip) (xs.drop skip) := by
  induction skip generalizing pos xs with
  | zero => rfl
  | succ skip ih =>
    cases xs with
    | nil => rw [List.drop_nil]; rfl
    | cons x xs =>
      rw [scan, ih, List.drop_succ_cons, Nat.add_assoc, Nat.add_comm 1]

theorem scan_none {matchAt : List α → Option ℕ} {xs : List α} {pos : ℕ}
    (none : ∀ p < xs.length, matchAt (xs.drop p) = none) : scan matchAt 0 pos xs = [] := by
  induction xs generalizing pos with
  | nil => rfl
  | cons x xs ih =>
    have here : matchAt (x :: xs) = .none := none 0 (Nat.zero_lt_succ _)
    simp only [scan, here]
    exact ih fun p bound => none (p + 1) (Nat.succ_lt_succ bound)

theorem scan_first {matchAt : List α → Option ℕ} {xs : List α} {pos p n : ℕ}
    (before : ∀ q < p, matchAt (xs.drop q) = none) (found : matchAt (xs.drop p) = some n)
    (inside : p < xs.length) (some : 0 < n) :
    scan matchAt 0 pos xs =
      ⟨pos + p, pos + p + n⟩ :: scan matchAt 0 (pos + p + n) (xs.drop (p + n)) := by
  induction p generalizing pos xs with
  | zero =>
    cases xs with
    | nil => exact absurd inside (Nat.not_lt_zero 0)
    | cons x xs =>
      rw [List.drop_zero] at found
      have behind : pos + 1 + (n - 1) = pos + 0 + n := by omega
      have rest : (x :: xs).drop (0 + n) = xs.drop (n - 1) := by
        obtain ⟨m, rfl⟩ := Nat.exists_eq_succ_of_ne_zero (Nat.pos_iff_ne_zero.mp some)
        rw [Nat.zero_add, Nat.succ_eq_add_one, List.drop_succ_cons, Nat.add_sub_cancel]
      simp only [scan, found]
      rw [scan_skip, behind, rest]
      rfl
  | succ p ih =>
    cases xs with
    | nil => exact absurd inside (Nat.not_lt_zero _)
    | cons x xs =>
      have here : matchAt (x :: xs) = none := before 0 (Nat.zero_lt_succ p)
      have later := @ih xs (pos + 1) (fun q bound => before (q + 1) (Nat.succ_lt_succ bound))
        found (Nat.lt_of_succ_lt_succ inside)
      have same : pos + 1 + p = pos + (p + 1) := by omega
      have shift : p + 1 + n = p + n + 1 := by omega
      simp only [scan, here]
      rw [later, same, shift, List.drop_succ_cons]

/-- A match that is no span of its own starts inside of one. -/
theorem scan_covers {matchAt : List α → Option ℕ} (sound : Sound matchAt) {xs : List α}
    {skip pos p n : ℕ} (found : matchAt (xs.drop p) = some n) (inside : p < xs.length) :
    p < skip ∨ ∃ s ∈ scan matchAt skip pos xs, s.start ≤ pos + p ∧ pos + p < s.stop := by
  induction xs generalizing skip pos p with
  | nil => exact absurd inside (Nat.not_lt_zero p)
  | cons x xs ih =>
    cases p with
    | zero =>
      cases skip with
      | succ skip => exact .inl (Nat.zero_lt_succ skip)
      | zero =>
        rw [List.drop_zero] at found
        have long := (sound _ _ found).1
        refine .inr ⟨⟨pos, pos + n⟩, ?_, by dsimp only; omega, by dsimp only; omega⟩
        simp only [scan, found]
        exact List.mem_cons_self
    | succ p =>
      have shift : pos + 1 + p = pos + (p + 1) := by omega
      have bound := Nat.lt_of_succ_lt_succ inside
      cases skip with
      | succ skip =>
        rcases @ih skip (pos + 1) p found bound with early | ⟨s, mem, covers⟩
        · exact .inl (Nat.succ_lt_succ early)
        · exact .inr ⟨s, mem, shift ▸ covers⟩
      | zero =>
        simp only [scan]
        cases here : matchAt (x :: xs) with
        | none =>
          rcases @ih 0 (pos + 1) p found bound with early | ⟨s, mem, covers⟩
          · exact absurd early (Nat.not_lt_zero p)
          · exact .inr ⟨s, mem, shift ▸ covers⟩
        | some m =>
          have long := (sound _ _ here).1
          rcases @ih (m - 1) (pos + 1) p found bound with early | ⟨s, mem, covers⟩
          · refine .inr ⟨⟨pos, pos + m⟩, List.mem_cons_self, ?_, ?_⟩ <;> dsimp only <;> omega
          · exact .inr ⟨s, List.mem_cons_of_mem _ mem, shift ▸ covers⟩

theorem findIter_covers {matchAt : List α → Option ℕ} (sound : Sound matchAt) {xs : List α}
    {p n : ℕ} (found : matchAt (xs.drop p) = some n) (inside : p < xs.length) :
    ∃ s ∈ findIter matchAt xs, s.start ≤ p ∧ p < s.stop := by
  rcases @scan_covers _ _ sound xs 0 0 p n found inside with early | ⟨s, mem, covers⟩
  · exact absurd early (Nat.not_lt_zero p)
  · exact ⟨s, mem, Nat.zero_add p ▸ covers⟩

theorem mem_slice {xs : List α} {start stop : ℕ} {x : α} :
    x ∈ slice xs start stop ↔ ∃ p, start ≤ p ∧ p < stop ∧ xs[p]? = some x := by
  unfold slice
  rw [List.mem_iff_getElem?]
  constructor
  · intro h
    obtain ⟨i, found⟩ := h
    rw [List.getElem?_drop, List.getElem?_take] at found
    split at found
    · exact ⟨start + i, by omega, by omega, found⟩
    · simp at found
  · intro h
    obtain ⟨p, above, below, found⟩ := h
    refine ⟨p - start, ?_⟩
    have same : start + (p - start) = p := by omega
    rw [List.getElem?_drop, same, List.getElem?_take, if_pos below, found]

theorem slice_drop {xs : List α} {start stop : ℕ} (le : start ≤ stop) :
    slice xs start stop ++ xs.drop stop = xs.drop start := by
  unfold slice
  by_cases inside : start ≤ (xs.take stop).length
  · rw [← List.drop_append_of_le_length inside, List.take_append_drop]
  · rw [List.length_take] at inside
    have short : xs.length ≤ start := by omega
    rw [List.drop_of_length_le (by simp; omega), List.drop_of_length_le (by omega),
      List.drop_of_length_le short]
    rfl

theorem gaps_cover {stop cursor p : ℕ} (spans : List Span) (above : cursor ≤ p)
    (below : p < stop) :
    (∃ g ∈ gaps stop cursor spans, g.start ≤ p ∧ p < g.stop) ∨
      ∃ s ∈ spans, s.start ≤ p ∧ p < s.stop := by
  induction spans generalizing cursor with
  | nil => exact .inl ⟨⟨cursor, stop⟩, List.mem_cons_self, above, below⟩
  | cons s spans ih =>
    by_cases before : p < s.start
    · exact .inl ⟨⟨cursor, s.start⟩, List.mem_cons_self, above, before⟩
    · by_cases inside : p < s.stop
      · exact .inr ⟨s, List.mem_cons_self, by omega, inside⟩
      · have after : s.stop ≤ p := by omega
        rcases ih after with gap | span
        · obtain ⟨g, mem, within⟩ := gap
          exact .inl ⟨g, List.mem_cons_of_mem _ mem, within⟩
        · obtain ⟨t, mem, within⟩ := span
          exact .inr ⟨t, List.mem_cons_of_mem _ mem, within⟩

theorem gaps_within {stop cursor : ℕ} {spans : List Span} (chained : Chained stop cursor spans) :
    ∀ g ∈ gaps stop cursor spans, cursor ≤ g.start ∧ g.start ≤ g.stop ∧ g.stop ≤ stop := by
  induction spans generalizing cursor with
  | nil =>
    intro g mem
    rw [gaps, List.mem_singleton] at mem
    rw [mem]
    exact ⟨Nat.le_refl _, chained, Nat.le_refl _⟩
  | cons s spans ih =>
    obtain ⟨before, proper, rest⟩ := chained
    intro g mem
    rcases List.mem_cons.mp mem with here | there
    · rw [here]
      have room := chained_le rest
      dsimp only
      omega
    · have behind := ih rest g there
      omega

theorem gaps_disjoint {stop cursor : ℕ} {spans : List Span}
    (chained : Chained stop cursor spans) :
    (gaps stop cursor spans).Pairwise fun a b => a.stop ≤ b.start := by
  induction spans generalizing cursor with
  | nil => exact List.pairwise_singleton _ _
  | cons s spans ih =>
    obtain ⟨before, proper, rest⟩ := chained
    refine List.Pairwise.cons (fun g mem => ?_) (ih rest)
    have behind := gaps_within rest g mem
    dsimp only
    omega

def Tiles {β : Type*} : β → β → List (β × β) → Prop
  | start, stop, [] => start = stop
  | start, stop, i :: rest => i.1 = start ∧ Tiles i.2 stop rest

section Tilings

variable {β : Type*} {start stop : β} {intervals : List (β × β)}

theorem Tiles.within [Preorder β] (tiles : Tiles start stop intervals)
    (ordered : ∀ i ∈ intervals, i.1 ≤ i.2) :
    start ≤ stop ∧ ∀ i ∈ intervals, start ≤ i.1 ∧ i.2 ≤ stop := by
  induction intervals generalizing start with
  | nil => exact ⟨le_of_eq tiles, by simp⟩
  | cons i rest ih =>
    obtain ⟨first, rest_tiles⟩ := tiles
    simp only [List.forall_mem_cons] at ordered ⊢
    obtain ⟨reach, inside⟩ := ih rest_tiles ordered.2
    rw [← first]
    refine ⟨le_trans ordered.1 reach, ⟨le_refl _, reach⟩, fun j mem => ?_⟩
    exact ⟨le_trans ordered.1 (inside j mem).1, (inside j mem).2⟩

theorem Tiles.starts [Preorder β] (tiles : Tiles start stop intervals)
    (ordered : ∀ i ∈ intervals, i.1 ≤ i.2) :
    intervals.Pairwise fun i j => i.1 ≤ j.1 := by
  induction intervals generalizing start with
  | nil => exact List.Pairwise.nil
  | cons i rest ih =>
    obtain ⟨first, rest_tiles⟩ := tiles
    simp only [List.forall_mem_cons] at ordered
    refine List.Pairwise.cons (fun j mem => ?_) (ih rest_tiles ordered.2)
    exact le_trans ordered.1 ((rest_tiles.within ordered.2).2 j mem).1

theorem Tiles.covers [LinearOrder β] (tiles : Tiles start stop intervals)
    (some : intervals ≠ []) {t : β} (above : start ≤ t) (below : t ≤ stop) :
    ∃ i ∈ intervals, i.1 ≤ t ∧ t ≤ i.2 := by
  induction intervals generalizing start with
  | nil => exact absurd rfl some
  | cons i rest ih =>
    obtain ⟨first, rest_tiles⟩ := tiles
    by_cases inside : t ≤ i.2
    · exact ⟨i, List.mem_cons_self, first ▸ above, inside⟩
    · cases rest with
      | nil =>
        have last : i.2 = stop := rest_tiles
        exact absurd (last ▸ below) inside
      | cons j rest =>
        obtain ⟨k, mem, held⟩ :=
          ih rest_tiles (List.cons_ne_nil j rest) (le_of_lt (not_le.mp inside))
        exact ⟨k, List.mem_cons_of_mem i mem, held⟩

end Tilings

def rejoin (sep : List α) : List (List α) → List (List α)
  | [] => []
  | piece :: pieces => piece :: pieces.map (sep ++ ·)

theorem gaps_rejoin {xs sep : List α} {cursor : ℕ} {spans : List Span}
    (chained : Chained xs.length cursor spans)
    (same : ∀ s ∈ spans, slice xs s.start s.stop = sep) :
    (rejoin sep ((gaps xs.length cursor spans).map fun g => slice xs g.start g.stop)).flatten =
      xs.drop cursor := by
  induction spans generalizing cursor with
  | nil =>
    simp only [gaps, List.map_cons, List.map_nil, rejoin, List.flatten_cons, List.flatten_nil,
      List.append_nil, slice, List.take_length]
  | cons s spans ih =>
    obtain ⟨before, proper, rest⟩ := chained
    have tail := ih rest fun t mem => same t (List.mem_cons_of_mem s mem)
    have here := same s List.mem_cons_self
    cases left : gaps xs.length s.stop spans with
    | nil => cases spans <;> simp [gaps] at left
    | cons g more =>
      rw [left] at tail
      simp only [List.map_cons, rejoin, List.flatten_cons] at tail
      simp only [gaps, left, List.map_cons, rejoin, List.flatten_cons, List.append_assoc, tail]
      rw [← here, slice_drop (Nat.le_of_lt proper), slice_drop before]

end KnowledgeCompanion.SpanScan
