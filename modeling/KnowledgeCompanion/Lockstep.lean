import KnowledgeCompanion.GuardedRun

/-! Two systems on one kind of state that take their steps together. An event of the first one
says more than the event of the second that it amounts to: how a request was answered, say, and
not only that it was. -/

namespace KnowledgeCompanion.Lockstep

open GuardedRun

variable {σ ε δ : Type*}

/-- Each event of the first run amounts to the event at its place in the second one, and both
lead to the same state. -/
inductive Together (step : σ → ε → σ) (abstract : σ → δ → σ) (R : σ → ε → δ → Prop) :
    σ → List ε → List δ → Prop
  | nil (s : σ) : Together step abstract R s [] []
  | cons {s : σ} {e : ε} {d : δ} {es : List ε} {ds : List δ} (amounts : R s e d)
      (same : abstract s d = step s e) (rest : Together step abstract R (step s e) es ds) :
      Together step abstract R s (e :: es) (d :: ds)

variable {step : σ → ε → σ} {abstract : σ → δ → σ} {R : σ → ε → δ → Prop}

end KnowledgeCompanion.Lockstep
