import Mathlib.Data.List.Basic
import Mathlib.Tactic.Common

/-! A buffered channel from one sender to one receiver. What was received and what
is still buffered, in this order, is everything the sender got through. -/

namespace KnowledgeCompanion.BoundedChannel

variable {α : Type*}

structure Channel (α : Type*) where
  buffer : List α := []
  received : List α := []

namespace Channel

def sent (c : Channel α) : List α := c.received ++ c.buffer

def HasRoom (size : ℕ) (c : Channel α) : Prop := c.buffer.length < size

instance (size : ℕ) (c : Channel α) : Decidable (c.HasRoom size) :=
  inferInstanceAs (Decidable (_ < _))

def push (a : α) (c : Channel α) : Channel α := { c with buffer := c.buffer ++ [a] }

def offer (size : ℕ) (a : α) (c : Channel α) : Channel α := if c.HasRoom size then c.push a else c

def receive (c : Channel α) : Channel α :=
  match c.buffer with
  | [] => c
  | a :: rest => ⟨rest, c.received ++ [a]⟩

@[simp] theorem sent_push (a : α) (c : Channel α) : (c.push a).sent = c.sent ++ [a] := by
  simp [sent, push]

@[simp] theorem sent_receive (c : Channel α) : c.receive.sent = c.sent := by
  unfold receive sent
  split
  · rfl
  · rename_i a rest buffer
    simp [buffer]

theorem sent_offer_room {size : ℕ} {a : α} {c : Channel α} (room : c.HasRoom size) :
    (c.offer size a).sent = c.sent ++ [a] := by
  rw [offer, if_pos room, sent_push]

theorem sent_offer_full {size : ℕ} {a : α} {c : Channel α} (full : ¬ c.HasRoom size) :
    (c.offer size a).sent = c.sent := by
  rw [offer, if_neg full]

theorem received_eq_sent {c : Channel α} (drained : c.buffer = []) : c.received = c.sent := by
  rw [sent, drained, List.append_nil]

end Channel

end KnowledgeCompanion.BoundedChannel
