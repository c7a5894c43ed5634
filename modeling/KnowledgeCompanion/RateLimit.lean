import Mathlib.Data.List.AList
import KnowledgeCompanion.Text

/-! The in-memory request limiter (`middleware/ratelimit.go`): one counter and
one window start for each key, replaced when the window has passed. -/

namespace KnowledgeCompanion.RateLimit

structure RequestRecord where
  count : ℕ
  window : ℤ
deriving DecidableEq

structure RateLimiter where
  requests : ℤ
  window : ℤ

abbrev Records := AList fun _ : Text => RequestRecord

def limit (rl : RateLimiter) (records : Records) (key : Text) (now : ℤ) : Bool × Records :=
  match records.lookup key with
  | none => (true, records.insert key ⟨1, now⟩)
  | some entry =>
    if entry.window + rl.window < now then (true, records.insert key ⟨1, now⟩)
    else
      let count := entry.count + 1
      (decide (count ≤ rl.requests), records.insert key ⟨count, entry.window⟩)

end KnowledgeCompanion.RateLimit
