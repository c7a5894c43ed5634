import KnowledgeCompanion.RateLimit
import KnowledgeCompanion.SlidingWindow
import Mathlib.Algebra.Order.Group.Int
import Mathlib.Data.List.AList
import Mathlib.Data.List.Chain
import Mathlib.Tactic.Linarith

/-! The request limiter over whole runs: the decisions for one key, the counting windows
they fall into, and what a sliding window would have allowed. -/

namespace KnowledgeCompanion.RateLimitWindows

open RateLimit SlidingWindow

/-- The requests of `k` with what becomes of them, in a run that starts from `records`. -/
def decisions (rl : RateLimiter) (k : Text) : Records → List (Text × ℤ) → List (ℤ × Bool)
  | _, [] => []
  | records, (k', now) :: requests =>
    let outcome := limit rl records k' now
    if k' = k then (now, outcome.1) :: decisions rl k outcome.2 requests
    else decisions rl k outcome.2 requests

def admittedOf (served : List (ℤ × Bool)) : List ℤ := (served.filter Prod.snd).map Prod.fst

/-- The times of the admitted requests of `k`, from an empty limiter. -/
def admitted (rl : RateLimiter) (k : Text) (requests : List (Text × ℤ)) : List ℤ :=
  admittedOf (decisions rl k ∅ requests)

def times (k : Text) (requests : List (Text × ℤ)) : List ℤ :=
  (requests.filter fun r => r.1 = k).map Prod.snd

def admitNext (rl : RateLimiter) (now : ℤ) : Option RequestRecord → Bool × RequestRecord
  | none => (true, ⟨1, now⟩)
  | some entry =>
    if entry.window + rl.window < now then (true, ⟨1, now⟩)
    else (decide ((entry.count + 1 : ℕ) ≤ rl.requests), ⟨entry.count + 1, entry.window⟩)

def serve (rl : RateLimiter) : Option RequestRecord → List ℤ → List (ℤ × Bool)
  | _, [] => []
  | entry, now :: rest =>
    (now, (admitNext rl now entry).1) :: serve rl (some (admitNext rl now entry).2) rest

theorem limit_eq (rl : RateLimiter) (records : Records) (k : Text) (now : ℤ) :
    limit rl records k now = ((admitNext rl now (records.lookup k)).1,
      records.insert k (admitNext rl now (records.lookup k)).2) := by
  rw [limit]
  cases records.lookup k with
  | none => rfl
  | some entry => by_cases passed : entry.window + rl.window < now <;> simp [admitNext, passed]

theorem decisions_eq (rl : RateLimiter) (k : Text) (records : Records)
    (requests : List (Text × ℤ)) :
    decisions rl k records requests = serve rl (records.lookup k) (times k requests) := by
  induction requests generalizing records with
  | nil => rfl
  | cons r requests ih =>
    obtain ⟨k', now⟩ := r
    rw [decisions, limit_eq]
    by_cases same : k' = k
    · subst same
      simp only [if_true, ih, AList.lookup_insert, times, List.filter_cons, decide_true,
        List.map_cons, serve]
    · have other : k ≠ k' := Ne.symm same
      simp only [same, if_false, ih, AList.lookup_insert_ne other, times, List.filter_cons,
        decide_false, Bool.false_eq_true]

/-- The times up to the next reset of a window that began at `start`, and the windows
from there on. -/
def split (w : ℤ) : ℤ → List ℤ → List ℤ × List (List ℤ)
  | _, [] => ([], [])
  | start, t :: ts =>
    if start + w < t then ([], (t :: (split w t ts).1) :: (split w t ts).2)
    else (t :: (split w start ts).1, (split w start ts).2)

def windows (w : ℤ) : List ℤ → List (List ℤ)
  | [] => []
  | t :: ts => (t :: (split w t ts).1) :: (split w t ts).2

/-- The first `requests` times of each window; the first passes without a check. -/
def counted (rl : RateLimiter) (ts : List ℤ) : List ℤ :=
  (windows rl.window ts).flatMap (List.take (max 1 rl.requests.toNat))

theorem admittedOf_serve_some (rl : RateLimiter) (ts : List ℤ) (entry : RequestRecord)
    (pos : 1 ≤ entry.count) :
    admittedOf (serve rl (some entry) ts) =
      (split rl.window entry.window ts).1.take (rl.requests.toNat - entry.count) ++
        (split rl.window entry.window ts).2.flatMap (List.take (max 1 rl.requests.toNat)) := by
  induction ts generalizing entry with
  | nil => simp [serve, split, admittedOf]
  | cons t ts ih =>
    obtain ⟨m, room⟩ : ∃ m, max 1 rl.requests.toNat = m + 1 :=
      ⟨max 1 rl.requests.toNat - 1, by omega⟩
    by_cases reset : entry.window + rl.window < t
    · have rest := ih ⟨1, t⟩ (le_refl 1)
      have left : rl.requests.toNat - 1 = m := by omega
      rw [left] at rest
      simp only [serve, admitNext, reset, if_true, split, List.take_nil, List.nil_append,
        List.flatMap_cons, room, List.take_succ_cons, List.cons_append] at rest ⊢
      rw [← rest]
      simp [admittedOf]
    · have rest := ih ⟨entry.count + 1, entry.window⟩ (Nat.le_add_left 1 entry.count)
      simp only [serve, admitNext, reset, if_false, split]
      by_cases under : ((entry.count + 1 : ℕ) : ℤ) ≤ rl.requests
      · have more : rl.requests.toNat - entry.count =
            rl.requests.toNat - (entry.count + 1) + 1 := by omega
        rw [more, List.take_succ_cons, List.cons_append, ← rest]
        simp only [admittedOf, under, decide_true, List.filter_cons, if_true, List.map_cons]
      · have none_left : rl.requests.toNat - entry.count = 0 := by omega
        have none_after : rl.requests.toNat - (entry.count + 1) = 0 := by omega
        rw [none_after, List.take_zero] at rest
        rw [none_left, List.take_zero, ← rest]
        simp only [admittedOf, under, decide_false, List.filter_cons, Bool.false_eq_true, if_false]

theorem admitted_eq (rl : RateLimiter) (k : Text) (requests : List (Text × ℤ)) :
    admitted rl k requests = counted rl (times k requests) := by
  rw [admitted, decisions_eq, AList.lookup_empty, counted]
  cases times k requests with
  | nil => rfl
  | cons t ts =>
    have rest := admittedOf_serve_some rl ts ⟨1, t⟩ (le_refl 1)
    have room : max 1 rl.requests.toNat = rl.requests.toNat - 1 + 1 := by omega
    simp only [serve, admitNext, windows, List.flatMap_cons, room, List.take_succ_cons,
      List.cons_append] at rest ⊢
    rw [← rest]
    simp [admittedOf]

theorem split_flatten (w start : ℤ) (ts : List ℤ) :
    (split w start ts).1 ++ (split w start ts).2.flatten = ts := by
  induction ts generalizing start with
  | nil => rfl
  | cons t ts ih => by_cases reset : start + w < t <;> simp [split, reset, ih]

theorem windows_flatten (w : ℤ) (ts : List ℤ) : (windows w ts).flatten = ts := by
  cases ts with
  | nil => rfl
  | cons t ts => simp [windows, split_flatten]

/-- Windows with one between them are at least `w` apart. -/
def Far (w : ℤ) : List (List ℤ) → Prop
  | u :: v :: rest => (∀ x ∈ u, ∀ y ∈ rest.flatten, x + w ≤ y) ∧ Far w (v :: rest)
  | _ => True

theorem lt_of_mem_split {w start y : ℤ} {ts : List ℤ} (ordered : ts.Pairwise (· ≤ ·))
    (later : y ∈ (split w start ts).2.flatten) : start + w < y := by
  induction ts with
  | nil => simp [split] at later
  | cons t ts ih =>
    obtain ⟨first, rest⟩ := List.pairwise_cons.1 ordered
    by_cases reset : start + w < t
    · simp only [split, reset, if_true, List.flatten_cons, List.cons_append,
        split_flatten, List.mem_cons] at later
      obtain rfl | member := later
      · exact reset
      · exact reset.trans_le (first y member)
    · exact ih rest (by simpa only [split, reset, if_false] using later)

theorem far_split {w start : ℤ} {ts before : List ℤ}
    (ordered : (before ++ ts).Pairwise (· ≤ ·)) :
    Far w ((before ++ (split w start ts).1) :: (split w start ts).2) := by
  induction ts generalizing start before with
  | nil => trivial
  | cons t ts ih =>
    by_cases reset : start + w < t
    · obtain ⟨-, after, across⟩ := List.pairwise_append.1 ordered
      simp only [split, reset, if_true, List.append_nil]
      refine ⟨fun x early y late => ?_, @ih t [t] after⟩
      have passed := lt_of_mem_split (List.pairwise_cons.1 after).2 late
      have := across x early t List.mem_cons_self
      omega
    · have moved := @ih start (before ++ [t]) (by simpa using ordered)
      simpa only [split, reset, if_false, List.append_assoc, List.singleton_append] using moved

theorem far_windows (w : ℤ) {ts : List ℤ} (ordered : ts.Pairwise (· ≤ ·)) :
    Far w (windows w ts) := by
  cases ts with
  | nil => trivial
  | cons t ts => exact @far_split w t ts [t] ordered

def Adjacent (n : ℕ) (w : ℤ) (u v : List ℤ) : Prop := Apart n w (u.take n ++ v.take n)

theorem adjacent_of_apart {n : ℕ} {w : ℤ} {us : List (List ℤ)}
    (apart : Apart n w (us.flatMap (List.take n))) : us.IsChain (Adjacent n w) := by
  induction us with
  | nil => exact .nil
  | cons u us ih =>
    cases us with
    | nil => exact .singleton u
    | cons v us =>
      rw [List.flatMap_cons] at apart
      refine .cons_cons ?_ (ih (apart.of_infix (List.suffix_append _ _).isInfix))
      rw [List.flatMap_cons, ← List.append_assoc] at apart
      exact apart.of_infix (List.prefix_append _ _).isInfix

theorem apart_of_adjacent {n : ℕ} {w : ℤ} {us : List (List ℤ)} (far : Far w us)
    (chain : us.IsChain (Adjacent n w)) : Apart n w (us.flatMap (List.take n)) := by
  induction us with
  | nil => exact apart_nil
  | cons u us ih =>
    cases us with
    | nil =>
      intro i x y first second
      obtain ⟨short, -⟩ := List.getElem?_eq_some_iff.1 second
      simp only [List.flatMap_cons, List.flatMap_nil, List.append_nil, List.length_take] at short
      omega
    | cons v us =>
      obtain ⟨near, chain⟩ := List.isChain_cons_cons.1 chain
      have rest := ih far.2 chain
      rw [List.flatMap_cons] at rest ⊢
      refine near.glue rest fun x early y late => far.1 x (List.mem_of_mem_take early) y ?_
      obtain ⟨u', member, taken⟩ := List.mem_flatMap.1 late
      exact List.mem_flatten.2 ⟨u', member, List.mem_of_mem_take taken⟩

theorem counted_ordered (rl : RateLimiter) {ts : List ℤ} (ordered : ts.Pairwise (· ≤ ·)) :
    (counted rl ts).Pairwise (· ≤ ·) := by
  refine ordered.sublist ?_
  conv_rhs => rw [← windows_flatten rl.window ts]
  rw [counted, List.flatMap_def]
  generalize windows rl.window ts = us
  induction us with
  | nil => exact .slnil
  | cons u us ih =>
    simp only [List.map_cons, List.flatten_cons]
    exact (List.take_sublist _ u).append ih

theorem atMost_iff_adjacent (rl : RateLimiter) (pos : 1 ≤ rl.requests) {ts : List ℤ}
    (ordered : ts.Pairwise (· ≤ ·)) :
    AtMost rl.requests.toNat rl.window (counted rl ts) ↔
      (windows rl.window ts).IsChain (Adjacent rl.requests.toNat rl.window) := by
  have room : max 1 rl.requests.toNat = rl.requests.toNat := by omega
  rw [atMost_iff_apart (counted_ordered rl ordered), counted, room]
  exact ⟨adjacent_of_apart, apart_of_adjacent (far_windows _ ordered)⟩

theorem times_filter (k : Text) (requests : List (Text × ℤ)) :
    times k (requests.filter fun r => r.1 = k) = times k requests := by
  simp [times]

/-- No request of another key matters; the bound of a sliding window holds exactly when, put
in order of time, a counted request comes `window` after the one `requests` places before. -/
theorem limit_slides (rl : RateLimiter) (k : Text) (requests : List (Text × ℤ)) :
    decisions rl k ∅ requests = decisions rl k ∅ (requests.filter fun r => r.1 = k) ∧
    (AtMost rl.requests.toNat rl.window (admitted rl k requests) ↔
      Apart rl.requests.toNat rl.window
        ((counted rl (times k requests)).insertionSort (· ≤ ·))) ∧
    (1 ≤ rl.requests → (times k requests).Pairwise (· ≤ ·) →
      (AtMost rl.requests.toNat rl.window (admitted rl k requests) ↔
        (windows rl.window (times k requests)).IsChain
          (Adjacent rl.requests.toNat rl.window))) := by
  refine ⟨?_, ?_, fun pos ordered => ?_⟩
  · rw [decisions_eq, decisions_eq, times_filter]
  · rw [admitted_eq]
    exact atMost_iff_apart_sorted _
  · rw [admitted_eq]
    exact atMost_iff_adjacent rl pos ordered

def straddling : List (Text × ℤ) :=
  ((0 :: List.replicate 9 59000000000) ++ List.replicate 10 60000000001).map (['k'], ·)

theorem limit_not_sliding :
    ¬ AtMost 10 60000000000 (admitted ⟨10, 60000000000⟩ ['k'] straddling) := by
  intro bound
  have many : countFrom 60000000000 59000000000
      (admitted ⟨10, 60000000000⟩ ['k'] straddling) = 19 := by decide +kernel
  have := bound.1 59000000000
  omega

end KnowledgeCompanion.RateLimitWindows
