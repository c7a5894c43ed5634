import Mathlib.Tactic.Common
import Mathlib.Data.List.Basic

/-! Computations that emit outputs one after the other and then return or raise, as
asynchronous generators do, with rules for what a partial automaton accepts of the outputs. -/

namespace KnowledgeCompanion.Emissions

variable {ω ε δ α β σ : Type}

structure Emission (ω ε α : Type) where
  outputs : List ω
  result : Except ε α

def andThen (c : Emission ω ε α) (f : α → Emission ω ε β) : Emission ω ε β :=
  match c.result with
  | .ok a => ⟨c.outputs ++ (f a).outputs, (f a).result⟩
  | .error e => ⟨c.outputs, .error e⟩

instance : Monad (Emission ω ε) where
  pure a := ⟨[], .ok a⟩
  bind := andThen

def emit (o : ω) : Emission ω ε Unit := ⟨[o], .ok ()⟩

def emitAll (os : List ω) : Emission ω ε Unit := ⟨os, .ok ()⟩

def raise (e : ε) : Emission ω ε α := ⟨[], .error e⟩

def lift (result : Except ε α) : Emission ω ε α := ⟨[], result⟩

def provided (p : Bool) (c : Emission ω ε Unit) : Emission ω ε Unit := if p then c else pure ()

/-- `try` and `except`: what was emitted before stays. -/
def attempt (c : Emission ω ε α) (handler : ε → Emission ω δ α) : Emission ω δ α :=
  match c.result with
  | .ok a => ⟨c.outputs, .ok a⟩
  | .error e => ⟨c.outputs ++ (handler e).outputs, (handler e).result⟩

theorem pure_eq (a : α) : (pure a : Emission ω ε α) = ⟨[], .ok a⟩ := rfl

theorem bind_of_ok {c : Emission ω ε α} {a : α} (f : α → Emission ω ε β) (h : c.result = .ok a) :
    c >>= f = ⟨c.outputs ++ (f a).outputs, (f a).result⟩ := by
  change andThen c f = _
  rw [andThen, h]

theorem bind_of_error {c : Emission ω ε α} {e : ε} (f : α → Emission ω ε β)
    (h : c.result = .error e) : c >>= f = ⟨c.outputs, .error e⟩ := by
  change andThen c f = _
  rw [andThen, h]

@[simp] theorem mk_ok_bind (os : List ω) (a : α) (f : α → Emission ω ε β) :
    (⟨os, .ok a⟩ : Emission ω ε α) >>= f = ⟨os ++ (f a).outputs, (f a).result⟩ := bind_of_ok f rfl

@[simp] theorem mk_error_bind (os : List ω) (e : ε) (f : α → Emission ω ε β) :
    (⟨os, .error e⟩ : Emission ω ε α) >>= f = ⟨os, .error e⟩ := bind_of_error f rfl

variable {next : σ → ω → Option σ}

def Leaves (Q : α → σ → Prop) (E : ε → σ → Prop) (result : Except ε α) (s : σ) : Prop :=
  match result with
  | .ok a => Q a s
  | .error e => E e s

/-- From every state in `P` the automaton accepts the outputs; the state it is in then is in
`Q` of the value returned, or in `E` of the exception. -/
def Triple (next : σ → ω → Option σ) (P : σ → Prop) (c : Emission ω ε α) (Q : α → σ → Prop)
    (E : ε → σ → Prop) : Prop :=
  ∀ s, P s → ∃ t, c.outputs.foldlM next s = some t ∧ Leaves Q E c.result t

variable {P : σ → Prop} {Q : α → σ → Prop} {R : β → σ → Prop} {E : ε → σ → Prop}

theorem triple_pure {a : α} (h : ∀ s, P s → Q a s) : Triple next P (pure a) Q E :=
  fun s holds => ⟨s, rfl, h s holds⟩

theorem triple_raise {e : ε} (h : ∀ s, P s → E e s) : Triple next P (raise e) Q E :=
  fun s holds => ⟨s, rfl, h s holds⟩

theorem triple_lift {result : Except ε α} (ok : ∀ a s, P s → Q a s) (raised : ∀ e s, P s → E e s) :
    Triple next P (lift result) Q E := by
  intro s holds
  refine ⟨s, rfl, ?_⟩
  cases result with
  | ok a => exact ok a s holds
  | error e => exact raised e s holds

theorem triple_emit {o : ω} {Q : Unit → σ → Prop}
    (h : ∀ s, P s → ∃ t, next s o = some t ∧ Q () t) : Triple next P (emit o) Q E := by
  intro s holds
  obtain ⟨t, accepted, then_⟩ := h s holds
  refine ⟨t, ?_, then_⟩
  rw [emit, List.foldlM_cons, accepted]
  rfl

theorem triple_bind {c : Emission ω ε α} {f : α → Emission ω ε β} (first : Triple next P c Q E)
    (rest : ∀ a, Triple next (Q a) (f a) R E) : Triple next P (c >>= f) R E := by
  intro s holds
  obtain ⟨t, accepted, ended⟩ := first s holds
  cases result : c.result with
  | ok a =>
    rw [result] at ended
    obtain ⟨u, accepted', ended'⟩ := rest a t ended
    rw [bind_of_ok f result]
    refine ⟨u, ?_, ended'⟩
    rw [List.foldlM_append, accepted]
    exact accepted'
  | error e =>
    rw [result] at ended
    rw [bind_of_error f result]
    exact ⟨t, accepted, ended⟩

theorem triple_attempt {c : Emission ω ε α} {handler : ε → Emission ω δ α} {F : δ → σ → Prop}
    (body : Triple next P c Q E) (handled : ∀ e, Triple next (E e) (handler e) Q F) :
    Triple next P (attempt c handler) Q F := by
  intro s holds
  obtain ⟨t, accepted, ended⟩ := body s holds
  unfold attempt
  cases result : c.result with
  | ok a =>
    rw [result] at ended
    exact ⟨t, accepted, ended⟩
  | error e =>
    rw [result] at ended
    obtain ⟨u, accepted', ended'⟩ := handled e t ended
    refine ⟨u, ?_, ended'⟩
    rw [List.foldlM_append, accepted]
    exact accepted'

theorem triple_mono {P' : σ → Prop} {Q' : α → σ → Prop} {E' : ε → σ → Prop}
    {c : Emission ω ε α} (h : Triple next P c Q E) (pre : ∀ s, P' s → P s)
    (post : ∀ a s, Q a s → Q' a s) (raised : ∀ e s, E e s → E' e s) :
    Triple next P' c Q' E' := by
  intro s holds
  obtain ⟨t, accepted, ended⟩ := h s (pre s holds)
  refine ⟨t, accepted, ?_⟩
  cases result : c.result with
  | ok a =>
    rw [result] at ended
    exact post a t ended
  | error e =>
    rw [result] at ended
    exact raised e t ended

theorem triple_exists {ι : Type} {P : ι → σ → Prop} {c : Emission ω ε α}
    (h : ∀ i, Triple next (P i) c Q E) : Triple next (fun s => ∃ i, P i s) c Q E :=
  fun s ⟨i, holds⟩ => h i s holds

theorem triple_provided {p : Bool} {c : Emission ω ε Unit} {Q : Unit → σ → Prop}
    (yes : p = true → Triple next P c Q E) (no : p = false → ∀ s, P s → Q () s) :
    Triple next P (provided p c) Q E := by
  cases h : p with
  | true => exact yes h
  | false => exact triple_pure (no h)

end KnowledgeCompanion.Emissions
