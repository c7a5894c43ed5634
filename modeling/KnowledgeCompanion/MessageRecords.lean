import Mathlib.Data.Int.Notation
import Mathlib.Data.List.Sort
import KnowledgeCompanion.KeyedTable
import KnowledgeCompanion.Text

/-! Messages of conversations as the gateway stores them (`model/message.go`,
`repository/message_repository.go`). A JSON column holds its raw text. -/

namespace KnowledgeCompanion.MessageRecords

open KeyedTable

structure Message where
  id : ℕ
  uuid : Text
  conversationID : ℕ
  parentMessageID : Option ℕ
  role : Text
  content : Text
  reasoning : Text
  citations : Option Text
  tokenUsage : ℤ
  model : Text
  createdAt : ℤ
deriving DecidableEq

abbrev Messages := Table Message Message.id

def Message.Before (a b : Message) : Prop :=
  a.createdAt < b.createdAt ∨ a.createdAt = b.createdAt ∧ a.id ≤ b.id

instance : DecidableRel Message.Before :=
  fun a b => inferInstanceAs (Decidable (a.createdAt < b.createdAt ∨ _))

def conversationMessages (db : Messages) (conversationID : ℕ) : List Message :=
  (db.rows.filter fun m => m.conversationID == conversationID).insertionSort Message.Before

theorem mem_conversationMessages {db : Messages} {conversationID : ℕ} {m : Message} :
    m ∈ conversationMessages db conversationID ↔
      m ∈ db.rows ∧ m.conversationID = conversationID := by
  simp [conversationMessages]

def listLimit (limit : ℤ) : ℕ := if limit ≤ 0 then 100 else limit.toNat

def listByConversationID (db : Messages) (fault : Option String) (conversationID : ℕ)
    (limit : ℤ) : Except String (List Message) :=
  match fault with
  | some cause => .error ("failed to list messages: " ++ cause)
  | none => .ok ((conversationMessages db conversationID).take (listLimit limit))

end KnowledgeCompanion.MessageRecords
