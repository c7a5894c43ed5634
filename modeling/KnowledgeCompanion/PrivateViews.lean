import KnowledgeCompanion.GuardedRun

/-! A system that many users share, where each of them has a part of the state to themselves:
what a user is answered, in whatever company, is what a system of their own would answer. -/

namespace KnowledgeCompanion.PrivateViews

open GuardedRun

variable {σ ε υ ω τ : Type*} [DecidableEq υ]

def answersTo (step : σ → ε → σ) (answer : σ → ε → ω) (user : ε → υ) (u : υ) :
    σ → List ε → List ω
  | _, [] => []
  | s, e :: es =>
    if user e = u then answer s e :: answersTo step answer user u (step s e) es
    else answersTo step answer user u (step s e) es

def answers (step : τ → ε → τ) (answer : τ → ε → ω) : τ → List ε → List ω
  | _, [] => []
  | s, e :: es => answer s e :: answers step answer (step s e) es

/-- Steps keep to the part of their user, which alone decides on the answer. -/
structure Private (step : σ → ε → σ) (answer : σ → ε → ω) (user : ε → υ) (G : σ → ε → Prop)
    (view : σ → υ → τ) (ownStep : τ → ε → τ) (ownAnswer : τ → ε → ω) : Prop where
  other : ∀ s e u, G s e → user e ≠ u → view (step s e) u = view s u
  own : ∀ s e, G s e → view (step s e) (user e) = ownStep (view s (user e)) e
  answer : ∀ s e, G s e → answer s e = ownAnswer (view s (user e)) e

variable {step : σ → ε → σ} {answer : σ → ε → ω} {user : ε → υ} {G : σ → ε → Prop}
  {view : σ → υ → τ} {ownStep : τ → ε → τ} {ownAnswer : τ → ε → ω}

theorem answersTo_eq (views : Private step answer user G view ownStep ownAnswer) (u : υ) {s : σ}
    {es : List ε} (guard : EveryStep step G s es) :
    answersTo step answer user u s es =
      answers ownStep ownAnswer (view s u) (es.filter fun e => user e = u) := by
  induction es generalizing s with
  | nil => rfl
  | cons e es ih =>
    rw [answersTo, ih guard.2]
    by_cases mine : user e = u
    · rw [if_pos mine, List.filter_cons_of_pos (by simpa using mine), answers,
        views.answer s e guard.1, ← mine, views.own s e guard.1]
    · rw [if_neg mine, List.filter_cons_of_neg (by simpa using mine),
        views.other s e u guard.1 mine]

theorem view_exec (views : Private step answer user G view ownStep ownAnswer) (u : υ) {s : σ}
    {es : List ε} (guard : EveryStep step G s es) :
    view (exec step s es) u = exec ownStep (view s u) (es.filter fun e => user e = u) := by
  induction es generalizing s with
  | nil => rfl
  | cons e es ih =>
    rw [exec_cons, ih guard.2]
    by_cases mine : user e = u
    · rw [List.filter_cons_of_pos (by simpa using mine), exec_cons, ← mine,
        views.own s e guard.1]
    · rw [List.filter_cons_of_neg (by simpa using mine), views.other s e u guard.1 mine]

end KnowledgeCompanion.PrivateViews
