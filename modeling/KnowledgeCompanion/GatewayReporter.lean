import KnowledgeCompanion.GatewayRuns

/-! The worker's side of task reports (`app/services/gateway_reporter.py`) and how
the gateway decodes them. A field that Python leaves at `None` arrives as the JSON
literal `null`, which Go keeps in a raw JSON field and drops from a string. -/

namespace KnowledgeCompanion.GatewayReporter

open TaskRecords GatewayRuns

inductive Report
  | progressReport (taskID : Text) (progress : ℤ) (status : String)
  | statusReport (taskID : Text) (status : String) (result errorMessage : Option Text)
      (attemptCount : Option ℕ)
deriving DecidableEq

def send (baseURL : Text) (r : Report) : List Report := if baseURL = [] then [] else [r]

def reportProgress (baseURL : Text) (taskID : Text) (progress : ℤ) (status : String) :
    List Report :=
  send baseURL (.progressReport taskID progress status)

def markStatus (baseURL : Text) (taskID : Text) (status : String)
    (result errorMessage : Option Text) (attemptCount : Option ℕ) : List Report :=
  send baseURL (.statusReport taskID status result errorMessage attemptCount)

def decodeUInt8 (n : ℤ) : Option UInt8 :=
  if 0 ≤ n ∧ n < 256 then some (UInt8.ofNat n.toNat) else none

def decodeStatus (status : String) (result errorMessage : Option Text) :
    Option ℕ → Option UpdateStatusRequest
  | none => some ⟨status, some (result.getD "null".toList), errorMessage.getD [], none⟩
  | some attempt =>
    (decodeUInt8 attempt).map fun attempt =>
      ⟨status, some (result.getD "null".toList), errorMessage.getD [], some attempt⟩

def Report.op : Report → Op
  | .progressReport taskID progress _ => .progress taskID (decodeUInt8 progress)
  | .statusReport taskID status result errorMessage attempt =>
    .status taskID (decodeStatus status result errorMessage attempt)

theorem bindStatus_decode {status : TaskStatus} (named : status ≠ .pending)
    {result errorMessage : Option Text} {attempt : Option ℕ} (small : ∀ n ∈ attempt, n < 256) :
    ∃ attemptCount, bindStatus (decodeStatus status.text result errorMessage attempt) =
      some ⟨status, some (result.getD "null".toList), errorMessage.getD [], attemptCount⟩ := by
  have bound (attemptCount : Option UInt8) :
      bindStatus (some ⟨status.text, some (result.getD "null".toList), errorMessage.getD [],
        attemptCount⟩) =
        some ⟨status, some (result.getD "null".toList), errorMessage.getD [], attemptCount⟩ := by
    cases status with
    | pending => exact absurd rfl named
    | running => rfl
    | completed => rfl
    | failed => rfl
  cases attempt with
  | none => exact ⟨none, bound none⟩
  | some n =>
    have fits : n < 256 := small n rfl
    have decoded : decodeUInt8 n = some (UInt8.ofNat n) := by
      have range : (0 : ℤ) ≤ n ∧ (n : ℤ) < 256 := by omega
      simp [decodeUInt8, range]
    exact ⟨some (UInt8.ofNat n), by rw [decodeStatus, decoded]; exact bound _⟩

end KnowledgeCompanion.GatewayReporter
