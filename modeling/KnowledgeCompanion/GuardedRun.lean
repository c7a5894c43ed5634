import Mathlib.Tactic.Common
import Mathlib.Data.List.Basic

/-! Finite runs of an executable step function.
A run is a list of events, oldest first. Nondeterminism (a schedule, a reply of
an external service, a lost message) lives in the events, so one list is one
interleaving and a statement about every list is a statement about all of them.
Events that are not enabled leave the state alone. -/

namespace KnowledgeCompanion.GuardedRun

variable {σ ε : Type*}

def exec (step : σ → ε → σ) (s : σ) (es : List ε) : σ := es.foldl step s

@[simp] theorem exec_nil (step : σ → ε → σ) (s : σ) : exec step s [] = s := rfl

@[simp] theorem exec_cons (step : σ → ε → σ) (s : σ) (e : ε) (es : List ε) :
    exec step s (e :: es) = exec step (step s e) es := rfl

/-- `Q` holds of every event of the run, in the state the event starts from. -/
def EveryStep (step : σ → ε → σ) (Q : σ → ε → Prop) : σ → List ε → Prop
  | _, [] => True
  | s, e :: es => Q s e ∧ EveryStep step Q (step s e) es

/-- `P` holds in every state the run reaches, the first one included. -/
def EveryState (step : σ → ε → σ) (P : σ → Prop) : σ → List ε → Prop
  | s, [] => P s
  | s, e :: es => P s ∧ EveryState step P (step s e) es

instance decidableEveryStep (step : σ → ε → σ) (Q : σ → ε → Prop) [∀ s e, Decidable (Q s e)] :
    (s : σ) → (es : List ε) → Decidable (EveryStep step Q s es)
  | _, [] => .isTrue trivial
  | s, e :: es =>
    have := decidableEveryStep step Q (step s e) es
    inferInstanceAs (Decidable (Q s e ∧ EveryStep step Q (step s e) es))

instance decidableEveryState (step : σ → ε → σ) (P : σ → Prop) [DecidablePred P] :
    (s : σ) → (es : List ε) → Decidable (EveryState step P s es)
  | s, [] => inferInstanceAs (Decidable (P s))
  | s, e :: es =>
    have := decidableEveryState step P (step s e) es
    inferInstanceAs (Decidable (P s ∧ EveryState step P (step s e) es))

section Invariants

variable {step : σ → ε → σ} {I : σ → Prop} {G Q : σ → ε → Prop}

theorem everyStep_imp {s : σ} {es : List ε} (imp : ∀ s e, G s e → Q s e)
    (h : EveryStep step G s es) : EveryStep step Q s es := by
  induction es generalizing s with
  | nil => trivial
  | cons e es ih => exact ⟨imp s e h.1, ih h.2⟩

theorem everyStep_and {s : σ} {es : List ε} (first : EveryStep step G s es)
    (second : EveryStep step Q s es) : EveryStep step (fun s e => G s e ∧ Q s e) s es := by
  induction es generalizing s with
  | nil => trivial
  | cons e es ih => exact ⟨⟨first.1, second.1⟩, ih first.2 second.2⟩

theorem everyState_of_guard (keeps : ∀ s e, I s → G s e → I (step s e)) {s : σ} {es : List ε}
    (start : I s) (guard : EveryStep step G s es) : EveryState step I s es := by
  induction es generalizing s with
  | nil => exact start
  | cons e es ih => exact ⟨start, ih (keeps s e start guard.1) guard.2⟩

theorem everyStep_of_guard (keeps : ∀ s e, I s → G s e → I (step s e))
    (sound : ∀ s e, I s → G s e → Q s e) {s : σ} {es : List ε}
    (start : I s) (guard : EveryStep step G s es) : EveryStep step Q s es := by
  induction es generalizing s with
  | nil => trivial
  | cons e es ih =>
    exact ⟨sound s e start guard.1, ih (keeps s e start guard.1) guard.2⟩

theorem EveryState.head {s : σ} {es : List ε} (h : EveryState step I s es) : I s := by
  cases es with
  | nil => exact h
  | cons e es => exact h.1

theorem everyState_iff_guard (keeps : ∀ s e, I s → G s e → I (step s e))
    (needs : ∀ s e, I s → I (step s e) → G s e) {s : σ} {es : List ε} (start : I s) :
    EveryState step I s es ↔ EveryStep step G s es := by
  refine ⟨fun h => ?_, everyState_of_guard keeps start⟩
  induction es generalizing s with
  | nil => trivial
  | cons e es ih =>
    have next : I (step s e) := h.2.head
    exact ⟨needs s e start next, ih next h.2⟩

theorem everyStep_true (s : σ) (es : List ε) : EveryStep step (fun _ _ => True) s es := by
  induction es generalizing s with
  | nil => trivial
  | cons e es ih => exact ⟨trivial, ih (step s e)⟩

theorem everyStep_of_invariant (keeps : ∀ s e, I s → I (step s e)) (sound : ∀ s e, I s → Q s e)
    {s : σ} (es : List ε) (start : I s) : EveryStep step Q s es :=
  everyStep_of_guard (fun s e h _ => keeps s e h) (fun s e h _ => sound s e h) start
    (everyStep_true s es)

theorem everyState_of_invariant (keeps : ∀ s e, I s → I (step s e)) {s : σ} (es : List ε)
    (start : I s) : EveryState step I s es :=
  everyState_of_guard (fun s e h _ => keeps s e h) start (everyStep_true s es)

theorem everyState_imp {P : σ → Prop} (imp : ∀ s, I s → P s) {s : σ} {es : List ε}
    (h : EveryState step I s es) : EveryState step P s es := by
  induction es generalizing s with
  | nil => exact imp s h
  | cons e es ih => exact ⟨imp s h.1, ih h.2⟩

theorem EveryState.last {P : σ → Prop} {s : σ} {es : List ε} (h : EveryState step P s es) :
    P (exec step s es) := by
  induction es generalizing s with
  | nil => exact h
  | cons e es ih => exact ih h.2

theorem everyState_concat {s : σ} {es : List ε} {e : ε} (h : EveryState step I s es)
    (next : I (step (exec step s es) e)) : EveryState step I s (es ++ [e]) := by
  induction es generalizing s with
  | nil => exact ⟨h, next⟩
  | cons f es ih => exact ⟨h.1, ih h.2 next⟩

theorem everyStep_congr_mem {s : σ} {es : List ε} (same : ∀ s, ∀ e ∈ es, (Q s e ↔ G s e)) :
    EveryStep step Q s es ↔ EveryStep step G s es := by
  induction es generalizing s with
  | nil => exact Iff.rfl
  | cons e es ih =>
    have here : Q s e ↔ G s e := same s e List.mem_cons_self
    have rest := @ih (step s e) fun s f mem => same s f (List.mem_cons_of_mem e mem)
    exact and_congr here rest

theorem exec_eq_iff_everyStep {α : Type*} (f : σ → List α)
    (cases : ∀ s e, (G s e ∧ f (step s e) = f s) ∨
      (¬ G s e ∧ (f (step s e)).length < (f s).length)) {s : σ} {es : List ε} :
    f (exec step s es) = f s ↔ EveryStep step G s es := by
  have falls (s : σ) (es : List ε) : (f (exec step s es)).length ≤ (f s).length := by
    induction es generalizing s with
    | nil => exact Nat.le_refl _
    | cons e es ih =>
      refine Nat.le_trans (ih (step s e)) ?_
      rcases cases s e with ⟨-, same⟩ | ⟨-, less⟩
      · exact Nat.le_of_eq (congrArg List.length same)
      · exact Nat.le_of_lt less
  induction es generalizing s with
  | nil => exact iff_of_true rfl trivial
  | cons e es ih =>
    rw [exec_cons, EveryStep]
    rcases cases s e with ⟨guard, same⟩ | ⟨lost, less⟩
    · have rest := @ih (step s e)
      rw [← same, and_iff_right guard]
      exact rest
    · refine iff_of_false (fun kept => ?_) fun steps => lost steps.1
      have rest := falls (step s e) es
      rw [kept] at rest
      omega

end Invariants

/-- Whichever of its own steps a system takes next, `P` comes to hold, as long as they
meet the guard. -/
inductive Eventually (step : σ → ε → σ) (own guard : σ → ε → Prop) (P : σ → Prop) : σ → Prop
  | now {s : σ} (holds : P s) : Eventually step own guard P s
  | later {s : σ} (some : ∃ e, own s e)
      (all : ∀ e, own s e → guard s e → Eventually step own guard P (step s e)) :
      Eventually step own guard P s

theorem Eventually.holds {step : σ → ε → σ} {own guard : σ → ε → Prop} {P : σ → Prop} {s : σ}
    (h : Eventually step own guard P s) (rest : ∀ e, ¬ own s e) : P s := by
  cases h with
  | now holds => exact holds
  | later some all =>
    obtain ⟨e, mine⟩ := some
    exact absurd mine (rest e)

end KnowledgeCompanion.GuardedRun
