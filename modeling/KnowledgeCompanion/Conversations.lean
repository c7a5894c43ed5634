import KnowledgeCompanion.AppErrors
import KnowledgeCompanion.GoText
import KnowledgeCompanion.PythonText
import KnowledgeCompanion.QaStream
import KnowledgeCompanion.TaskRecords

/-! Conversations and the messages that users post to them
(`service/conversation_service.go`, `repository/conversation_repository.go`). The JSON
column of resource ids is kept as the list that it encodes. -/

namespace KnowledgeCompanion.Conversations

open AppErrors GoText KeyedTable MessageRecords QaStream
open TaskRecords (Resource)

/-- What `uuid.NewString` returns. -/
abbrev Uuid := { t : Text // PythonText.isBlank t = false }

structure Conversation where
  id : ℕ
  uuid : Uuid
  userID : ℕ
  title : Text
  resourceIDs : Option (List Text)

abbrev ConversationTable := Table Conversation Conversation.id

/-- The resources that are not deleted; their uuids are generated and unique, and no blank
text compares equal to one of them. -/
structure LiveResources where
  collation : Collation
  rows : List Resource
  unique : (rows.map fun r => collation.weight r.uuid).Nodup
  named : ∀ r ∈ rows, ∀ t,
    collation.weight t = collation.weight r.uuid → PythonText.isBlank t = false

theorem LiveResources.uuid_named {resources : LiveResources} {r : Resource}
    (mem : r ∈ resources.rows) : PythonText.isBlank r.uuid = false :=
  resources.named r mem r.uuid rfl

theorem LiveResources.uuid_unique (resources : LiveResources) :
    (resources.rows.map Resource.uuid).Nodup := by
  have weights := resources.unique
  rw [show (fun r => resources.collation.weight r.uuid) =
    resources.collation.weight ∘ Resource.uuid from rfl, ← List.map_map] at weights
  exact weights.of_map _

def LiveResources.exact (rows : List Resource) (unique : (rows.map Resource.uuid).Nodup)
    (named : ∀ r ∈ rows, PythonText.isBlank r.uuid = false) : LiveResources where
  collation := ⟨id⟩
  rows := rows
  unique := unique
  named r mem t same := (show t = r.uuid from same) ▸ named r mem

def LiveResources.count (resources : LiveResources) (uuids : List Text) (userID : ℕ) : ℕ :=
  resources.rows.countP fun r =>
    uuids.any (resources.collation.same r.uuid) && r.userID == userID

inductive RepositoryError
  | notFound
  | forbidden
  | failed (message : String)

/-- `GetByUUIDAndUserID` of the conversation repository. -/
def getByUUIDAndUserID (conversations : ConversationTable) (fault : Option String) (uuid : Text)
    (userID : ℕ) : Except RepositoryError Conversation :=
  match fault with
  | some cause => .error (.failed ("failed to get conversation by uuid: " ++ cause))
  | none =>
    match conversations.first fun c => conversations.same c.uuid uuid with
    | none => .error .notFound
    | some c => if c.userID != userID then .error .forbidden else .ok c

def mapConversationRepositoryError : RepositoryError → AppError
  | .notFound => ⟨404, "CONVERSATION_NOT_FOUND", "会话不存在"⟩
  | .forbidden => forbidden "无权访问该会话"
  | .failed _ => internal "failed to load conversation"

def maxTitleLength : ℕ := 255

def maxResourceIDs : ℕ := 100

def maxModelConfigBytes : ℕ := 4096

/-- `modelConfig` is what `json.Marshal` makes of a configuration that is not empty. -/
structure CreateConversationRequest where
  title : Text
  resourceIDs : List Text
  modelConfig : Option (Except String Text)

structure CreateIO where
  uuid : Uuid
  count : Option String := none
  create : Option String := none

def validateModelConfig (req : CreateConversationRequest) : Except AppError Unit :=
  match req.modelConfig with
  | none => .ok ()
  | some (.error _) => .error (badRequest "invalid model_config")
  | some (.ok b) =>
    if maxModelConfigBytes < byteLength b then .error (badRequest "model_config exceeds 4KB")
    else .ok ()

def validateCreateConversationRequest (resources : LiveResources) (io : CreateIO)
    (req : CreateConversationRequest) (userID : ℕ) : Except AppError Unit :=
  if maxTitleLength < byteLength req.title then
    .error (badRequest "title exceeds 255 characters")
  else if maxResourceIDs < req.resourceIDs.length then
    .error (badRequest "too many resource_ids")
  else if req.resourceIDs = [] then validateModelConfig req
  else if io.count.isSome then .error (internal "failed to validate resource_ids")
  else if resources.count req.resourceIDs userID ≠ req.resourceIDs.length then
    .error (badRequest "invalid resource_ids")
  else validateModelConfig req

def newConversation (defaultTitle : Text) (io : CreateIO) (req : CreateConversationRequest)
    (userID id : ℕ) : Conversation where
  id := id
  uuid := io.uuid
  userID := userID
  title := if req.title = [] then defaultTitle else req.title
  resourceIDs := if req.resourceIDs = [] then none else some req.resourceIDs

theorem newConversation_id (defaultTitle : Text) (io : CreateIO) (req : CreateConversationRequest)
    (userID id : ℕ) : (newConversation defaultTitle io req userID id).id = id := rfl

def create (defaultTitle : Text) (resources : LiveResources) (conversations : ConversationTable)
    (io : CreateIO) (userID : ℕ) (req : CreateConversationRequest) :
    Except AppError Conversation × ConversationTable :=
  match validateCreateConversationRequest resources io req userID with
  | .error e => (.error e, conversations)
  | .ok _ =>
    match io.create with
    | some _ => (.error (internal "failed to create conversation"), conversations)
    | none =>
      let make := newConversation defaultTitle io req userID
      (.ok (make conversations.next), conversations.insert make fun id =>
        newConversation_id defaultTitle io req userID id)

theorem LiveResources.named_of_count {resources : LiveResources} {uuids : List Text} {userID : ℕ}
    (counted : resources.count uuids userID = uuids.length) :
    ∀ uuid ∈ uuids, PythonText.isBlank uuid = false := by
  let weight := resources.collation.weight
  let rows := resources.rows.filter fun r =>
    uuids.any (resources.collation.same r.uuid) && r.userID == userID
  let found := rows.map fun r => weight r.uuid
  have length : found.length = (uuids.map weight).length := by
    rw [List.length_map, List.length_map, ← counted, LiveResources.count,
      List.countP_eq_length_filter]
  have distinct : found.Nodup := resources.unique.sublist (List.filter_sublist.map _)
  have known : found ⊆ uuids.map weight := by
    intro key mem
    obtain ⟨r, kept, rfl⟩ := List.mem_map.mp mem
    have tests := (List.mem_filter.mp kept).2
    rw [Bool.and_eq_true, List.any_eq_true] at tests
    obtain ⟨uuid, asked, same⟩ := tests.1
    exact List.mem_map.mpr ⟨uuid, asked, ((resources.collation.same_iff _ _).mp same).symm⟩
  have all : found.Perm (uuids.map weight) :=
    (List.subperm_of_subset distinct known).perm_of_length_le (Nat.le_of_eq length.symm)
  intro uuid mem
  obtain ⟨r, kept, same⟩ := List.mem_map.mp (all.mem_iff.mpr (List.mem_map_of_mem mem))
  exact resources.named r (List.mem_filter.mp kept).1 uuid same.symm

def WellScoped (ids : List Text) : Prop :=
  ids.length ≤ 100 ∧ ∀ id ∈ ids, PythonText.isBlank id = false

theorem wellScoped_nil : WellScoped [] := ⟨Nat.zero_le _, nofun⟩

theorem validateCreate_wellScoped {resources : LiveResources} {io : CreateIO}
    {req : CreateConversationRequest} {userID : ℕ}
    (valid : validateCreateConversationRequest resources io req userID = .ok ()) :
    WellScoped req.resourceIDs := by
  unfold validateCreateConversationRequest at valid
  split at valid
  · cases valid
  · split at valid
    · cases valid
    · rename_i few
      by_cases none : req.resourceIDs = []
      · rw [none]
        exact wellScoped_nil
      · rw [if_neg none] at valid
        split at valid
        · cases valid
        · split at valid
          · cases valid
          · rename_i counted
            exact ⟨Nat.le_of_not_lt few, LiveResources.named_of_count (not_not.mp counted)⟩

def maxMessageContent : ℕ := 10000

def maxMessageModel : ℕ := 64

structure CreateMessageRequest where
  role : Text
  content : Text
  model : Text

def validateCreateMessageRequest (req : CreateMessageRequest) : Except AppError Unit :=
  if req.role ≠ "user".toList then .error (badRequest "message role must be user")
  else if req.content = [] then .error (badRequest "message content is required")
  else if maxMessageContent < byteLength req.content then
    .error (badRequest "message content exceeds 10000 characters")
  else if maxMessageModel < byteLength req.model then
    .error (badRequest "model exceeds 64 characters")
  else .ok ()

structure CreateMessageIO where
  uuid : Uuid
  getConversation : Option String := none
  save : SaveIO := {}

def postedMessage (conversation : Conversation) (io : CreateMessageIO)
    (req : CreateMessageRequest) (id : ℕ) : Message where
  id := id
  uuid := io.uuid
  conversationID := conversation.id
  parentMessageID := none
  role := req.role
  content := req.content
  reasoning := []
  citations := none
  tokenUsage := 0
  model := req.model
  createdAt := io.save.now

theorem postedMessage_id (conversation : Conversation) (io : CreateMessageIO)
    (req : CreateMessageRequest) (id : ℕ) : (postedMessage conversation io req id).id = id := rfl

def createMessage (conversations : ConversationTable) (messages : Messages) (io : CreateMessageIO)
    (userID : ℕ) (conversationUUID : Text) (req : CreateMessageRequest) :
    Except AppError Message × Messages :=
  match validateCreateMessageRequest req with
  | .error e => (.error e, messages)
  | .ok _ =>
    match getByUUIDAndUserID conversations io.getConversation conversationUUID userID with
    | .error e => (.error (mapConversationRepositoryError e), messages)
    | .ok conversation =>
      if io.save.createMessage.isSome || io.save.conversation.isSome || io.save.commit.isSome then
        (.error (internal "failed to create message"), messages)
      else
        let make := postedMessage conversation io req
        (.ok (make messages.next), messages.insert make fun id =>
          postedMessage_id conversation io req id)

def Readable (m : Message) : Prop := m.role ≠ [] ∧ m.content ≠ []

theorem createMessage_readable {conversations : ConversationTable} {messages : Messages}
    {io : CreateMessageIO} {userID : ℕ} {conversationUUID : Text} {req : CreateMessageRequest}
    (before : ∀ m ∈ messages.rows, Readable m) :
    ∀ m ∈ (createMessage conversations messages io userID conversationUUID req).2.rows,
      Readable m := by
  unfold createMessage
  cases valid : validateCreateMessageRequest req with
  | error e => exact before
  | ok _ =>
    have parts : req.role = "user".toList ∧ req.content ≠ [] := by
      unfold validateCreateMessageRequest at valid
      split at valid
      · cases valid
      · rename_i role
        split at valid
        · cases valid
        · rename_i content
          exact ⟨not_not.mp role, content⟩
    dsimp only
    split
    · exact before
    · rename_i conversation _
      split
      · exact before
      · intro m mem
        dsimp only at mem
        rcases Table.mem_insert.mp mem with old | rfl
        · exact before m old
        · refine ⟨?_, parts.2⟩
          simp only [postedMessage, parts.1]
          decide

end KnowledgeCompanion.Conversations
