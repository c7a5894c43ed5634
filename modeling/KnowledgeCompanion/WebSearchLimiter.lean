import KnowledgeCompanion.SlidingWindow
import Mathlib.Algebra.Order.Ring.Rat
import Mathlib.Data.List.Induction
import Mathlib.Data.List.TakeWhile
import Mathlib.Tactic.Linarith

/-! The rate limiter of the web search tool (`agent/tools/web_search_tool.py`): a queue of
the admitted calls that still count. -/

namespace KnowledgeCompanion.WebSearchLimiter

open SlidingWindow

structure SlidingWindowRateLimiter where
  limit : ℤ
  windowSeconds : ℚ

structure RateLimitExceededError where
  message : String
deriving DecidableEq

def prune (limiter : SlidingWindowRateLimiter) (now : ℚ) : List ℚ → List ℚ
  | [] => []
  | head :: calls =>
    if limiter.windowSeconds ≤ now - head then prune limiter now calls else head :: calls

def acquire (limiter : SlidingWindowRateLimiter) (calls : List ℚ) (now : ℚ) :
    Except RateLimitExceededError Unit × List ℚ :=
  if limiter.limit ≤ 0 then (.error ⟨"web search disabled by rate limit"⟩, calls)
  else
    let kept := prune limiter now calls
    if limiter.limit ≤ kept.length then (.error ⟨"web search rate limit exceeded"⟩, kept)
    else (.ok (), kept ++ [now])

structure Run where
  calls : List ℚ
  admitted : List ℚ

def Run.step (limiter : SlidingWindowRateLimiter) (run : Run) (now : ℚ) : Run :=
  match acquire limiter run.calls now with
  | (.ok _, calls) => ⟨calls, run.admitted ++ [now]⟩
  | (.error _, calls) => ⟨calls, run.admitted⟩

def run (limiter : SlidingWindowRateLimiter) (readings : List ℚ) : Run :=
  readings.foldl (Run.step limiter) ⟨[], []⟩

theorem prune_eq_dropWhile (limiter : SlidingWindowRateLimiter) (now : ℚ) (calls : List ℚ) :
    prune limiter now calls = calls.dropWhile fun x => limiter.windowSeconds ≤ now - x := by
  induction calls with
  | nil => rfl
  | cons head calls ih =>
    by_cases out : limiter.windowSeconds ≤ now - head <;> simp [prune, out, ih]

/-- The queue is the admitted calls less some that left the window by `latest`. -/
structure Tracks (limiter : SlidingWindowRateLimiter) (latest : ℚ) (run : Run) : Prop where
  ordered : run.admitted.Pairwise (· ≤ ·)
  past : ∀ x ∈ run.admitted, x ≤ latest
  expired : ∃ old, run.admitted = old ++ run.calls ∧ ∀ x ∈ old, limiter.windowSeconds ≤ latest - x
  apart : Apart limiter.limit.toNat limiter.windowSeconds run.admitted

variable {limiter : SlidingWindowRateLimiter} {latest now : ℚ} {run' : Run}

theorem Tracks.mono (tracks : Tracks limiter latest run') (later : latest ≤ now) :
    Tracks limiter now run' where
  ordered := tracks.ordered
  past x member := (tracks.past x member).trans later
  expired := by
    obtain ⟨old, split, out⟩ := tracks.expired
    refine ⟨old, split, fun x member => (out x member).trans ?_⟩
    gcongr
  apart := tracks.apart

theorem Tracks.pruned (tracks : Tracks limiter now run') :
    Tracks limiter now ⟨prune limiter now run'.calls, run'.admitted⟩ where
  ordered := tracks.ordered
  past := tracks.past
  expired := by
    obtain ⟨old, split, out⟩ := tracks.expired
    let early : ℚ → Bool := fun x => limiter.windowSeconds ≤ now - x
    refine ⟨old ++ run'.calls.takeWhile early, ?_, ?_⟩
    · rw [prune_eq_dropWhile, List.append_assoc, List.takeWhile_append_dropWhile, split]
    · intro x member
      rcases List.mem_append.1 member with member | member
      · exact out x member
      · simpa [early] using List.mem_takeWhile_imp member
  apart := tracks.apart

theorem Tracks.concat (tracks : Tracks limiter now run') (pos : 1 ≤ limiter.limit)
    (room : run'.calls.length < limiter.limit) :
    Tracks limiter now ⟨run'.calls ++ [now], run'.admitted ++ [now]⟩ where
  ordered := by
    rw [List.pairwise_append]
    exact ⟨tracks.ordered, List.pairwise_singleton _ _, by simpa using tracks.past⟩
  past x member := by
    rcases List.mem_append.1 member with member | member
    · exact tracks.past x member
    · exact (List.mem_singleton.1 member).le
  expired := by
    obtain ⟨old, split, out⟩ := tracks.expired
    exact ⟨old, by rw [split, List.append_assoc], out⟩
  apart := by
    obtain ⟨old, split, out⟩ := tracks.expired
    refine tracks.apart.concat (by omega) fun i x first place => ?_
    have size : run'.admitted.length = old.length + run'.calls.length := by simp [split]
    rw [split, List.getElem?_append_left (by omega)] at first
    linarith [out x (List.mem_of_getElem? first)]

theorem acquire_eq (pos : 1 ≤ limiter.limit) (calls : List ℚ) (now : ℚ) :
    acquire limiter calls now =
      if limiter.limit ≤ (prune limiter now calls).length then
        (.error ⟨"web search rate limit exceeded"⟩, prune limiter now calls)
      else (.ok (), prune limiter now calls ++ [now]) := by
  rw [acquire, if_neg (by omega)]

theorem Tracks.step (tracks : Tracks limiter now run') (pos : 1 ≤ limiter.limit) :
    Tracks limiter now (run'.step limiter now) := by
  rw [Run.step, acquire_eq pos]
  by_cases full : limiter.limit ≤ (prune limiter now run'.calls).length
  · rw [if_pos full]
    exact tracks.pruned
  · rw [if_neg full]
    exact tracks.pruned.concat pos (by simpa using full)

end KnowledgeCompanion.WebSearchLimiter
