import Mathlib.Data.List.Nodup
import KnowledgeCompanion.GuardedRun
import KnowledgeCompanion.TaskService

/-! The in-memory task broadcaster (`service/task_broadcaster.go`) as its atomic
steps: the sections under the lock and the single channel operations. `Publish`
copies the subscribers under the lock and sends to the copies afterwards; `Close`
takes the subscribers off under the lock and closes them afterwards;
`removeSubscriber` does all its work under the lock. -/

namespace KnowledgeCompanion.TaskBroadcast

open TaskService GuardedRun

structure Channel where
  buffer : List TaskEvent := []
  closes : ℕ := 0

def Channel.close (c : Channel) : Channel := { c with closes := c.closes + 1 }

def Channel.offer (size : ℕ) (event : TaskEvent) (c : Channel) : Channel :=
  if c.buffer.length < size then { c with buffer := c.buffer ++ [event] } else c

def Channel.receive (c : Channel) : Channel := { c with buffer := c.buffer.tail }

@[simp] theorem Channel.closes_offer (size : ℕ) (event : TaskEvent) (c : Channel) :
    (c.offer size event).closes = c.closes := by
  unfold Channel.offer
  split <;> rfl

@[simp] theorem Channel.closes_receive (c : Channel) : c.receive.closes = c.closes := rfl

/-- A `Publish` under way, with the channels of its copy that it has not tried. -/
structure Publishing where
  event : TaskEvent
  remaining : List ℕ

/-- Channels are numbered as they are made; a task without subscribers reads as an
empty list, as an absent key of the map does. -/
structure Broadcaster where
  subs : Text → List ℕ
  channels : ℕ → Channel
  made : ℕ
  publishing : List Publishing
  closing : List (List ℕ)

structure BroadcastConfig where
  maxSubscribers : ℕ
  subscriberBufSize : ℕ

def newTaskBroadcaster : BroadcastConfig := ⟨10, 4⟩

def idle : Broadcaster := ⟨fun _ => [], fun _ => {}, 0, [], []⟩

inductive Event
  | subscribe (taskID : Text)
  | removeSubscriber (taskID : Text) (ch : ℕ)
  | publish (taskID : Text) (event : TaskEvent)
  | send (i : ℕ)
  | cancel (i : ℕ)
  | close (taskID : Text)
  | closeNext (i : ℕ)
  | receive (ch : ℕ)

def sendsTo (s : Broadcaster) : Event → Option ℕ
  | .send i => s.publishing[i]?.bind fun p => p.remaining.head?
  | _ => none

def closes (s : Broadcaster) : Event → Option ℕ
  | .removeSubscriber taskID ch => if ch ∈ s.subs taskID then some ch else none
  | .closeNext i => s.closing[i]?.bind List.head?
  | _ => none

def closeChannel (channels : ℕ → Channel) (ch : ℕ) : ℕ → Channel :=
  Function.update channels ch (channels ch).close

def offerTo (cfg : BroadcastConfig) (s : Broadcaster) (i ch : ℕ) : ℕ → Channel :=
  match s.publishing[i]? with
  | none => s.channels
  | some p =>
    Function.update s.channels ch ((s.channels ch).offer cfg.subscriberBufSize p.event)

def step (cfg : BroadcastConfig) (s : Broadcaster) : Event → Broadcaster
  | .subscribe taskID =>
    if cfg.maxSubscribers ≤ (s.subs taskID).length then s
    else
      { s with
        subs := Function.update s.subs taskID (s.subs taskID ++ [s.made])
        channels := Function.update s.channels s.made {}
        made := s.made + 1 }
  | .removeSubscriber taskID ch =>
    match closes s (.removeSubscriber taskID ch) with
    | none => s
    | some ch =>
      { s with
        subs := Function.update s.subs taskID ((s.subs taskID).erase ch)
        channels := closeChannel s.channels ch }
  | .publish taskID event => { s with publishing := s.publishing ++ [⟨event, s.subs taskID⟩] }
  | .send i =>
    match sendsTo s (.send i) with
    | none => s
    | some ch =>
      { s with
        channels := offerTo cfg s i ch
        publishing := s.publishing.modify i fun p => { p with remaining := p.remaining.tail } }
  | .cancel i => { s with publishing := s.publishing.modify i fun p => { p with remaining := [] } }
  | .close taskID =>
    { s with
      subs := Function.update s.subs taskID []
      closing := s.closing ++ [s.subs taskID] }
  | .closeNext i =>
    match closes s (.closeNext i) with
    | none => s
    | some ch =>
      { s with
        channels := closeChannel s.channels ch
        closing := s.closing.modify i List.tail }
  | .receive ch => { s with channels := Function.update s.channels ch (s.channels ch).receive }

structure WellFormed (cfg : BroadcastConfig) (s : Broadcaster) : Prop where
  known : ∀ t, ∀ ch ∈ s.subs t, ch < s.made
  nodup : ∀ t, (s.subs t).Nodup
  apart : ∀ t t' ch, ch ∈ s.subs t → ch ∈ s.subs t' → t = t'
  opened : ∀ t, ∀ ch ∈ s.subs t, (s.channels ch).closes = 0
  distinct : s.closing.flatten.Nodup
  detached : ∀ ch ∈ s.closing.flatten,
    ch < s.made ∧ (s.channels ch).closes = 0 ∧ ∀ t, ch ∉ s.subs t
  once : ∀ ch, (s.channels ch).closes ≤ 1
  limit : ∀ t, (s.subs t).length ≤ cfg.maxSubscribers

theorem idle_wellFormed (cfg : BroadcastConfig) : WellFormed cfg idle where
  known := by simp [idle]
  nodup := by simp [idle]
  apart := by simp [idle]
  opened := by simp [idle]
  distinct := by simp [idle]
  detached := by simp [idle]
  once := by simp [idle]
  limit := by simp [idle]

theorem wellFormed_of_same {cfg : BroadcastConfig} {s s' : Broadcaster} (h : WellFormed cfg s)
    (subs : s'.subs = s.subs) (made : s'.made = s.made) (closing : s'.closing = s.closing)
    (closes : ∀ ch, (s'.channels ch).closes = (s.channels ch).closes) : WellFormed cfg s' where
  known := by rw [subs, made]; exact h.known
  nodup := by rw [subs]; exact h.nodup
  apart := by rw [subs]; exact h.apart
  opened := by
    intro t ch mem
    rw [subs] at mem
    rw [closes, h.opened t ch mem]
  distinct := by rw [closing]; exact h.distinct
  detached := by
    intro ch mem
    rw [closing] at mem
    rw [made, closes, subs]
    exact h.detached ch mem
  once := by
    intro ch
    rw [closes]
    exact h.once ch
  limit := by rw [subs]; exact h.limit

theorem closes_update {channels : ℕ → Channel} {ch : ℕ} {c : Channel}
    (same : c.closes = (channels ch).closes) (ch' : ℕ) :
    (Function.update channels ch c ch').closes = (channels ch').closes := by
  by_cases h : ch' = ch
  · rw [h, Function.update_self, same]
  · rw [Function.update_of_ne h]

theorem closes_closeChannel (channels : ℕ → Channel) (ch ch' : ℕ) :
    (closeChannel channels ch ch').closes =
      if ch' = ch then (channels ch).closes + 1 else (channels ch').closes := by
  unfold closeChannel
  by_cases h : ch' = ch
  · rw [h, Function.update_self, if_pos rfl]
    rfl
  · rw [Function.update_of_ne h, if_neg h]

theorem closes_offerTo (cfg : BroadcastConfig) (s : Broadcaster) (i ch ch' : ℕ) :
    (offerTo cfg s i ch ch').closes = (s.channels ch').closes := by
  unfold offerTo
  cases s.publishing[i]? with
  | none => rfl
  | some p => exact closes_update (Channel.closes_offer _ _ _) ch'

theorem update_all {subs : Text → List ℕ} {taskID : Text} {l : List ℕ} {P : List ℕ → Prop}
    (here : P l) (others : ∀ t, P (subs t)) (t : Text) : P (Function.update subs taskID l t) :=
  (Function.forall_update_iff subs fun _ l => P l).mpr ⟨here, fun t _ => others t⟩ t

theorem mem_subscribed {subs : Text → List ℕ} {taskID t : Text} {made ch : ℕ} :
    ch ∈ Function.update subs taskID (subs taskID ++ [made]) t ↔
      ch ∈ subs t ∨ t = taskID ∧ ch = made := by
  by_cases h : t = taskID
  · rw [h, Function.update_self]
    simp
  · rw [Function.update_of_ne h]
    simp [h]

theorem subscribe_wellFormed {cfg : BroadcastConfig} {s : Broadcaster} (h : WellFormed cfg s)
    {taskID : Text} (room : (s.subs taskID).length < cfg.maxSubscribers) :
    WellFormed cfg { s with
      subs := Function.update s.subs taskID (s.subs taskID ++ [s.made])
      channels := Function.update s.channels s.made {}
      made := s.made + 1 } := by
  have fresh (t : Text) : s.made ∉ s.subs t := fun mem => Nat.lt_irrefl _ (h.known t _ mem)
  have closes (ch : ℕ) (old : ch < s.made) :
      (Function.update s.channels s.made {} ch).closes = (s.channels ch).closes := by
    rw [Function.update_of_ne (Nat.ne_of_lt old)]
  refine ⟨?_, ?_, ?_, ?_, h.distinct, ?_, ?_, ?_⟩
  · intro t ch mem
    rcases mem_subscribed.mp mem with old | ⟨-, new⟩
    · exact Nat.lt_succ_of_lt (h.known t ch old)
    · rw [new]
      exact Nat.lt_succ_self _
  · refine update_all (List.nodup_append.mpr ⟨h.nodup taskID, List.nodup_singleton _, ?_⟩) h.nodup
    intro a ha b hb equal
    rw [equal, List.mem_singleton.mp hb] at ha
    exact fresh taskID ha
  · intro t t' ch mem mem'
    rcases mem_subscribed.mp mem with old | ⟨here, new⟩
    · rcases mem_subscribed.mp mem' with old' | ⟨-, new'⟩
      · exact h.apart t t' ch old old'
      · rw [new'] at old
        exact absurd old (fresh t)
    · rcases mem_subscribed.mp mem' with old' | ⟨here', -⟩
      · rw [new] at old'
        exact absurd old' (fresh t')
      · rw [here, here']
  · intro t ch mem
    rcases mem_subscribed.mp mem with old | ⟨-, new⟩
    · rw [closes ch (h.known t ch old), h.opened t ch old]
    · simp only [new, Function.update_self]
  · intro ch mem
    have before := h.detached ch mem
    refine ⟨Nat.lt_succ_of_lt before.1, by rw [closes ch before.1, before.2.1], ?_⟩
    intro t sub
    rcases mem_subscribed.mp sub with old | ⟨-, new⟩
    · exact before.2.2 t old
    · omega
  · intro ch
    by_cases new : ch = s.made
    · simp only [new, Function.update_self]
      exact Nat.zero_le 1
    · simp only [Function.update_of_ne new]
      exact h.once ch
  · refine update_all (P := fun l => l.length ≤ cfg.maxSubscribers) ?_ h.limit
    rw [List.length_append, List.length_singleton]
    omega

theorem mem_erased {cfg : BroadcastConfig} {s : Broadcaster} (h : WellFormed cfg s)
    {taskID t : Text} {ch ch' : ℕ} (sub : ch ∈ s.subs taskID) :
    ch' ∈ Function.update s.subs taskID ((s.subs taskID).erase ch) t ↔
      ch' ∈ s.subs t ∧ ch' ≠ ch := by
  by_cases same : t = taskID
  · rw [same, Function.update_self, (h.nodup taskID).mem_erase_iff]
    exact And.comm
  · rw [Function.update_of_ne same]
    refine ⟨fun mem => ⟨mem, ?_⟩, And.left⟩
    intro equal
    rw [equal] at mem
    exact same (h.apart t taskID ch mem sub)

theorem remove_wellFormed {cfg : BroadcastConfig} {s : Broadcaster} (h : WellFormed cfg s)
    {taskID : Text} {ch : ℕ} (sub : ch ∈ s.subs taskID) :
    WellFormed cfg { s with
      subs := Function.update s.subs taskID ((s.subs taskID).erase ch)
      channels := closeChannel s.channels ch } := by
  have zero : (s.channels ch).closes = 0 := h.opened taskID ch sub
  refine ⟨?_, ?_, ?_, ?_, h.distinct, ?_, ?_, ?_⟩
  · intro t ch' mem
    exact h.known t ch' ((mem_erased h sub).mp mem).1
  · exact update_all ((h.nodup taskID).erase ch) h.nodup
  · intro t t' ch' mem mem'
    exact h.apart t t' ch' ((mem_erased h sub).mp mem).1 ((mem_erased h sub).mp mem').1
  · intro t ch' mem
    have kept := (mem_erased h sub).mp mem
    rw [closes_closeChannel, if_neg kept.2]
    exact h.opened t ch' kept.1
  · intro ch' mem
    have before := h.detached ch' mem
    have other : ch' ≠ ch := by
      intro equal
      rw [equal] at before
      exact before.2.2 taskID sub
    refine ⟨before.1, by rw [closes_closeChannel, if_neg other, before.2.1], ?_⟩
    intro t still
    exact before.2.2 t ((mem_erased h sub).mp still).1
  · intro ch'
    rw [closes_closeChannel, zero]
    split
    · exact Nat.le_refl 1
    · exact h.once ch'
  · exact update_all (P := fun l => l.length ≤ cfg.maxSubscribers)
      (Nat.le_trans List.length_erase_le (h.limit taskID)) h.limit

theorem mem_detached {subs : Text → List ℕ} {taskID t : Text} {ch : ℕ} :
    ch ∈ Function.update subs taskID [] t ↔ t ≠ taskID ∧ ch ∈ subs t := by
  by_cases same : t = taskID
  · rw [same, Function.update_self]
    simp
  · rw [Function.update_of_ne same]
    simp [same]

theorem close_wellFormed {cfg : BroadcastConfig} {s : Broadcaster} (h : WellFormed cfg s)
    (taskID : Text) :
    WellFormed cfg { s with
      subs := Function.update s.subs taskID []
      closing := s.closing ++ [s.subs taskID] } := by
  have all : (s.closing ++ [s.subs taskID]).flatten = s.closing.flatten ++ s.subs taskID := by
    simp
  refine ⟨?_, ?_, ?_, ?_, ?_, ?_, h.once, ?_⟩
  · intro t ch mem
    exact h.known t ch (mem_detached.mp mem).2
  · exact update_all List.nodup_nil h.nodup
  · intro t t' ch mem mem'
    exact h.apart t t' ch (mem_detached.mp mem).2 (mem_detached.mp mem').2
  · intro t ch mem
    exact h.opened t ch (mem_detached.mp mem).2
  · rw [all]
    refine List.nodup_append.mpr ⟨h.distinct, h.nodup taskID, ?_⟩
    intro a ha b hb equal
    rw [← equal] at hb
    exact (h.detached a ha).2.2 taskID hb
  · intro ch mem
    rw [all] at mem
    rcases List.mem_append.mp mem with old | sub
    · have before := h.detached ch old
      exact ⟨before.1, before.2.1, fun t still => before.2.2 t (mem_detached.mp still).2⟩
    · refine ⟨h.known taskID ch sub, h.opened taskID ch sub, ?_⟩
      intro t still
      have elsewhere := mem_detached.mp still
      exact elsewhere.1 (h.apart t taskID ch elsewhere.2 sub)
  · exact update_all (P := fun l => l.length ≤ cfg.maxSubscribers) (Nat.zero_le _) h.limit

theorem closing_split {closing : List (List ℕ)} {i ch : ℕ}
    (h : closing[i]?.bind List.head? = some ch) :
    ∃ before rest after, closing = before ++ (ch :: rest) :: after ∧
      closing.modify i List.tail = before ++ rest :: after := by
  induction closing generalizing i with
  | nil => simp at h
  | cons l closing ih =>
    cases i with
    | zero =>
      simp only [List.getElem?_cons_zero, Option.bind_some] at h
      cases l with
      | nil => simp at h
      | cons c rest =>
        simp only [List.head?_cons, Option.some.injEq] at h
        exact ⟨[], rest, closing, by rw [h]; rfl, rfl⟩
    | succ i =>
      rw [List.getElem?_cons_succ] at h
      obtain ⟨before, rest, after, split, tail⟩ := ih h
      exact ⟨l :: before, rest, after, by rw [split]; rfl,
        by rw [List.modify_succ_cons, tail]; rfl⟩

theorem closeNext_wellFormed {cfg : BroadcastConfig} {s : Broadcaster} (h : WellFormed cfg s)
    {i ch : ℕ} (next : s.closing[i]?.bind List.head? = some ch) :
    WellFormed cfg { s with
      channels := closeChannel s.channels ch
      closing := s.closing.modify i List.tail } := by
  obtain ⟨before, rest, after, split, tail⟩ := closing_split next
  have order : s.closing.flatten.Perm (ch :: (s.closing.modify i List.tail).flatten) := by
    rw [tail, split]
    simp only [List.flatten_append, List.flatten_cons, List.cons_append]
    exact List.perm_middle
  have distinct := order.nodup_iff.mp h.distinct
  have gone : ch ∉ (s.closing.modify i List.tail).flatten := (List.nodup_cons.mp distinct).1
  have mem (ch' : ℕ) (left : ch' ∈ (s.closing.modify i List.tail).flatten) :
      ch' ∈ s.closing.flatten := order.mem_iff.mpr (List.mem_cons_of_mem ch left)
  have mine := h.detached ch (order.mem_iff.mpr List.mem_cons_self)
  refine ⟨h.known, h.nodup, h.apart, ?_, (List.nodup_cons.mp distinct).2, ?_, ?_, h.limit⟩
  · intro t ch' sub
    have other : ch' ≠ ch := by
      intro equal
      rw [equal] at sub
      exact mine.2.2 t sub
    rw [closes_closeChannel, if_neg other]
    exact h.opened t ch' sub
  · intro ch' left
    have other : ch' ≠ ch := by
      intro equal
      rw [equal] at left
      exact gone left
    have was := h.detached ch' (mem ch' left)
    exact ⟨was.1, by rw [closes_closeChannel, if_neg other, was.2.1], was.2.2⟩
  · intro ch'
    rw [closes_closeChannel, mine.2.1]
    split
    · exact Nat.le_refl 1
    · exact h.once ch'

theorem step_wellFormed {cfg : BroadcastConfig} (s : Broadcaster) (e : Event)
    (h : WellFormed cfg s) : WellFormed cfg (step cfg s e) := by
  cases e with
  | subscribe taskID =>
    simp only [step]
    split
    · exact h
    · exact subscribe_wellFormed h (by omega)
  | removeSubscriber taskID ch =>
    simp only [step]
    split
    · exact h
    · rename_i ch' found
      simp only [closes] at found
      split at found
      · rename_i sub
        rw [← Option.some.inj found]
        exact remove_wellFormed h sub
      · simp at found
  | publish taskID event => exact wellFormed_of_same h rfl rfl rfl fun _ => rfl
  | send i =>
    simp only [step]
    split
    · exact h
    · exact wellFormed_of_same h rfl rfl rfl fun ch => closes_offerTo cfg s i _ ch
  | cancel i => exact wellFormed_of_same h rfl rfl rfl fun _ => rfl
  | close taskID => exact close_wellFormed h taskID
  | closeNext i =>
    simp only [step]
    split
    · exact h
    · rename_i ch found
      exact closeNext_wellFormed h found
  | receive ch =>
    exact wellFormed_of_same h rfl rfl rfl fun ch' => closes_update (Channel.closes_receive _) ch'

def SendsOpen (s : Broadcaster) (e : Event) : Prop :=
  ∀ ch, sendsTo s e = some ch → (s.channels ch).closes = 0

/-- A channel is closed only when no `Publish` under way still has it to try. -/
def Unheld (s : Broadcaster) (e : Event) : Prop :=
  ∀ ch, closes s e = some ch → ∀ p ∈ s.publishing, ch ∉ p.remaining

/-- What a `Publish` has left to try is open. -/
structure HeldOpen (cfg : BroadcastConfig) (s : Broadcaster) : Prop where
  wellFormed : WellFormed cfg s
  held : ∀ p ∈ s.publishing, ∀ ch ∈ p.remaining, ch < s.made ∧ (s.channels ch).closes = 0

theorem mem_modify {α : Type} {xs : List α} {i : ℕ} {f : α → α} {y : α}
    (h : y ∈ xs.modify i f) : y ∈ xs ∨ ∃ x ∈ xs, y = f x := by
  obtain ⟨j, at_j⟩ := List.mem_iff_getElem?.mp h
  rw [List.getElem?_modify] at at_j
  cases found : xs[j]? with
  | none =>
    rw [found] at at_j
    simp at at_j
  | some x =>
    have mem : x ∈ xs := List.mem_of_getElem? found
    rw [found] at at_j
    by_cases here : i = j
    · simp only [if_pos here, Option.map_eq_map, Option.map_some, Option.some.injEq] at at_j
      exact .inr ⟨x, mem, at_j.symm⟩
    · simp only [if_neg here, Option.map_eq_map, Option.map_some, Option.some.injEq] at at_j
      exact .inl (at_j ▸ mem)

theorem held_modify {s : Broadcaster} {i : ℕ} {f : Publishing → Publishing}
    (shrinks : ∀ p, ∀ ch ∈ (f p).remaining, ch ∈ p.remaining) {P : ℕ → Prop}
    (held : ∀ p ∈ s.publishing, ∀ ch ∈ p.remaining, P ch) :
    ∀ p ∈ s.publishing.modify i f, ∀ ch ∈ p.remaining, P ch := by
  intro p mem ch left
  rcases mem_modify mem with old | ⟨p₀, old, same⟩
  · exact held p old ch left
  · rw [same] at left
    exact held p₀ old ch (shrinks p₀ ch left)

theorem step_heldOpen {cfg : BroadcastConfig} (s : Broadcaster) (e : Event)
    (h : HeldOpen cfg s) (unheld : Unheld s e) : HeldOpen cfg (step cfg s e) := by
  refine ⟨step_wellFormed s e h.wellFormed, ?_⟩
  have closed (ch : ℕ) (closing : closes s e = some ch) :
      ∀ p ∈ s.publishing, ∀ ch' ∈ p.remaining,
        ch' < s.made ∧ (closeChannel s.channels ch ch').closes = 0 := by
    intro p mem ch' left
    have other : ch' ≠ ch := by
      intro equal
      rw [equal] at left
      exact unheld ch closing p mem left
    rw [closes_closeChannel, if_neg other]
    exact h.held p mem ch' left
  cases e with
  | subscribe taskID =>
    simp only [step]
    split
    · exact h.held
    · intro p mem ch left
      have before := h.held p mem ch left
      refine ⟨Nat.lt_succ_of_lt before.1, ?_⟩
      simp only [Function.update_of_ne (Nat.ne_of_lt before.1)]
      exact before.2
  | removeSubscriber taskID ch =>
    simp only [step]
    split
    · exact h.held
    · rename_i ch' found
      exact closed ch' found
  | publish taskID event =>
    intro p mem ch left
    rcases List.mem_append.mp mem with old | new
    · exact h.held p old ch left
    · rw [List.mem_singleton.mp new] at left
      exact ⟨h.wellFormed.known taskID ch left, h.wellFormed.opened taskID ch left⟩
  | send i =>
    simp only [step]
    split
    · exact h.held
    · simp only [closes_offerTo]
      exact held_modify (fun p ch left => List.mem_of_mem_tail left) h.held
  | cancel i => exact held_modify (fun p ch left => absurd left List.not_mem_nil) h.held
  | close taskID => exact h.held
  | closeNext i =>
    simp only [step]
    split
    · exact h.held
    · rename_i ch found
      exact closed ch found
  | receive ch =>
    intro p mem ch' left
    have before := h.held p mem ch' left
    refine ⟨before.1, ?_⟩
    simp only [step, closes_update (Channel.closes_receive (s.channels ch))]
    exact before.2

theorem heldOpen_sends {cfg : BroadcastConfig} (s : Broadcaster) (e : Event)
    (h : HeldOpen cfg s) : SendsOpen s e := by
  intro ch sends
  cases e with
  | send i =>
    simp only [sendsTo, Option.bind_eq_some_iff] at sends
    obtain ⟨p, found, head⟩ := sends
    exact (h.held p (List.mem_of_getElem? found) ch (List.mem_of_mem_head? head)).2
  | _ => simp [sendsTo] at sends

/-- Every channel is closed at most once and no task has too many subscribers. -/
structure Bounded (cfg : BroadcastConfig) (s : Broadcaster) : Prop where
  once : ∀ ch, (s.channels ch).closes ≤ 1
  limit : ∀ t, (s.subs t).length ≤ cfg.maxSubscribers

theorem bounded_always (cfg : BroadcastConfig) (es : List Event) :
    EveryState (step cfg) (Bounded cfg) idle es := by
  have always : EveryState (step cfg) (WellFormed cfg) idle es :=
    everyState_of_invariant step_wellFormed es (idle_wellFormed cfg)
  exact everyState_imp (fun s h => ⟨h.once, h.limit⟩) always

def leavesAfterSend (event : TaskEvent) : List Event :=
  [.subscribe event.taskID, .publish event.taskID event, .send 0,
    .removeSubscriber event.taskID 0]

def leavesBeforeSend (event : TaskEvent) : List Event :=
  [.subscribe event.taskID, .publish event.taskID event, .removeSubscriber event.taskID 0,
    .send 0]

def halfway : TaskEvent := ⟨"progress", ['t'], 50, .running, none, 0⟩

theorem leavesAfterSend_unheld :
    EveryStep (step newTaskBroadcaster) Unheld idle (leavesAfterSend halfway) := by
  simp [leavesAfterSend, EveryStep, Unheld, closes, step, sendsTo, idle, newTaskBroadcaster]

/-- In every interleaving that closes no channel a `Publish` still has to try, no
event is sent on a closed channel; the other two laws hold in any case. -/
theorem sends_open (cfg : BroadcastConfig) (es : List Event)
    (unheld : EveryStep (step cfg) Unheld idle es) :
    EveryStep (step cfg) SendsOpen idle es ∧ EveryState (step cfg) (Bounded cfg) idle es := by
  have start : HeldOpen cfg idle := ⟨idle_wellFormed cfg, by simp [idle]⟩
  refine ⟨?_, bounded_always cfg es⟩
  exact everyStep_of_guard step_heldOpen (fun s e h _ => heldOpen_sends s e h) start unheld

theorem sends_open_leaves :
    EveryStep (step newTaskBroadcaster) SendsOpen idle (leavesAfterSend halfway) ∧
      EveryState (step newTaskBroadcaster) (Bounded newTaskBroadcaster) idle
        (leavesAfterSend halfway) :=
  sends_open newTaskBroadcaster _ leavesAfterSend_unheld

/-- `Publish` copies the subscribers, the subscriber goes away and its channel is
closed, and `Publish` sends on the closed channel. -/
theorem closed_channel_sent :
    ¬ EveryStep (step newTaskBroadcaster) SendsOpen idle (leavesBeforeSend halfway) := by
  simp [leavesBeforeSend, EveryStep, SendsOpen, closes, step, sendsTo, idle, newTaskBroadcaster,
    closeChannel, Channel.close]

theorem remaining_reached (cfg : BroadcastConfig) {s : Broadcaster} {i ch : ℕ} {p : Publishing}
    (found : s.publishing[i]? = some p) (held : ch ∈ p.remaining)
    (closed : (s.channels ch).closes ≠ 0) :
    ∃ n, ¬ EveryStep (step cfg) SendsOpen s (List.replicate n (.send i)) := by
  induction left : p.remaining generalizing s p with
  | nil =>
    rw [left] at held
    simp at held
  | cons c rest ih =>
    have tries : sendsTo s (.send i) = some c := by simp [sendsTo, found, left]
    by_cases here : ch = c
    · refine ⟨1, fun sent => closed (sent.1 ch ?_)⟩
      rw [tries, here]
    · have next : (step cfg s (.send i)).publishing[i]? = some { p with remaining := rest } := by
        simp [step, tries, found, left]
      have still : ((step cfg s (.send i)).channels ch).closes ≠ 0 := by
        simpa [step, tries, closes_offerTo] using closed
      have rest_held : ch ∈ rest := by simpa [left, here] using held
      obtain ⟨n, reached⟩ := ih next rest_held still rfl
      exact ⟨n + 1, fun sent => reached sent.2⟩

theorem held_close_reached {cfg : BroadcastConfig} {s : Broadcaster} {e : Event}
    (held : ¬ Unheld s e) :
    ∃ i n, ¬ EveryStep (step cfg) SendsOpen s (e :: List.replicate n (.send i)) := by
  unfold Unheld at held
  push Not at held
  obtain ⟨ch, closing, p, mem, waits⟩ := held
  obtain ⟨i, found⟩ := List.mem_iff_getElem?.mp mem
  have after : (step cfg s e).publishing = s.publishing ∧
      ((step cfg s e).channels ch).closes ≠ 0 := by
    cases e with
    | removeSubscriber taskID ch' => simp [step, closing, closes_closeChannel]
    | closeNext j => simp [step, closing, closes_closeChannel]
    | _ => simp [closes] at closing
  have same : (step cfg s e).publishing[i]? = some p := by rw [after.1, found]
  obtain ⟨n, reached⟩ := remaining_reached cfg same waits after.2
  exact ⟨i, n, fun sent => reached sent.2⟩

end KnowledgeCompanion.TaskBroadcast
