import Mathlib.Data.List.Sort
import KnowledgeCompanion.Conversations
import KnowledgeCompanion.PrivateViews
import KnowledgeCompanion.ResourceService

/-! The conversations of all users (`service/conversation_service.go` over the conversation and
message repositories). Each request runs alone; what `updated_at` and the messages of a
conversation tell its user is that of a store that nobody shares. -/

namespace KnowledgeCompanion.ConversationService

open AppErrors Conversations GuardedRun KeyedTable MessageRecords PrivateViews

structure Record extends Conversation where
  modelConfig : Option Text
  createdAt : ℤ
  updatedAt : ℤ

def Record.key (c : Record) : ℕ := c.id

def Record.touched (now : ℤ) (c : Record) : Record := { c with updatedAt := now }

theorem key_touched (now : ℤ) (c : Record) : (c.touched now).key = c.key := rfl

theorem map_uuid_touch (collation : Collation) (k : ℕ) (now : ℤ) (rows : List Record) :
    (rows.map (Table.touch Record.key k (Record.touched now))).map
        (fun c => collation.weight c.uuid.1) =
      rows.map fun c => collation.weight c.uuid.1 := by
  rw [List.map_map]
  refine List.map_congr_left fun c _ => ?_
  dsimp only [Function.comp_apply, Table.touch]
  split <;> rfl

abbrev Records := Table Record Record.key

structure Store (collation : Collation) where
  conversations : Records
  messages : Messages
  compares : conversations.collation = collation
  unique : (conversations.rows.map fun c => collation.weight c.uuid.1).Nodup
  linked : ∀ m ∈ messages.rows, ∃ c ∈ conversations.rows, c.key = m.conversationID

variable {collation : Collation}

namespace Store

variable (store : Store collation)

def taken : List Text := store.conversations.rows.map fun c => collation.weight c.uuid.1

def addConversation (make : ℕ → Record) (keyed : ∀ n, (make n).key = n)
    (fresh : collation.weight (make store.conversations.next).uuid.1 ∉ store.taken) :
    Store collation where
  conversations := store.conversations.insert make keyed
  messages := store.messages
  compares := store.compares
  unique := by
    change ((store.conversations.rows ++ [_]).map _).Nodup
    rw [List.map_append, List.nodup_append']
    refine ⟨store.unique, List.nodup_singleton _, fun key old new => fresh ?_⟩
    have same : key = collation.weight (make store.conversations.next).uuid.1 :=
      List.mem_singleton.mp new
    exact same ▸ old
  linked m mem := by
    obtain ⟨c, there, same⟩ := store.linked m mem
    exact ⟨c, Table.mem_insert.mpr (.inl there), same⟩

def addMessage (make : ℕ → Message) (keyed : ∀ n, (make n).id = n)
    (known : ∃ c ∈ store.conversations.rows,
      c.key = (make store.messages.next).conversationID) : Store collation where
  conversations := store.conversations
  messages := store.messages.insert make keyed
  compares := store.compares
  unique := store.unique
  linked m mem := by
    rcases Table.mem_insert.mp mem with old | rfl
    · exact store.linked m old
    · exact known

/-- `UPDATE conversations SET updated_at = now WHERE id = k`. -/
def touch (k : ℕ) (now : ℤ) : Store collation where
  conversations := store.conversations.update k (Record.touched now) (key_touched now)
  messages := store.messages
  compares := store.compares
  unique := (map_uuid_touch collation k now store.conversations.rows).symm ▸ store.unique
  linked m mem := by
    obtain ⟨c, there, same⟩ := store.linked m mem
    exact ⟨_, Table.mem_update.mpr ⟨c, there, rfl⟩,
      (Table.key_touch k (Record.touched now) (key_touched now) c).trans same⟩

def remove (gone : Record → Bool) : Store collation where
  conversations := store.conversations.keep fun c => !gone c
  messages := store.messages.keep fun m =>
    store.conversations.rows.any fun c => c.key == m.conversationID && !gone c
  compares := store.compares
  unique := store.unique.sublist (List.filter_sublist.map _)
  linked m mem := by
    obtain ⟨-, kept⟩ := List.mem_filter.mp mem
    obtain ⟨c, there, law⟩ := List.any_eq_true.mp kept
    rw [Bool.and_eq_true, beq_iff_eq] at law
    exact ⟨c, List.mem_filter.mpr ⟨there, law.2⟩, law.1⟩

end Store

def noConversations (collation : Collation) : Store collation where
  conversations := .empty collation
  messages := .empty collation
  compares := rfl
  unique := List.nodup_nil
  linked _ mem := absurd mem List.not_mem_nil

structure ConversationResponse where
  id : Text
  title : Text
  resourceIDs : List Text
  modelConfig : Option Text
  createdAt : ℤ
  updatedAt : ℤ
deriving DecidableEq

structure MessageResponse where
  id : Text
  role : Text
  content : Text
  reasoning : Text
  model : Text
  citations : Option Text
  createdAt : ℤ
deriving DecidableEq

def mapConversation (c : Record) : ConversationResponse where
  id := c.uuid
  title := c.title
  resourceIDs := c.resourceIDs.getD []
  modelConfig := c.modelConfig
  createdAt := c.createdAt
  updatedAt := c.updatedAt

def mapMessage (m : Message) : MessageResponse where
  id := m.uuid
  role := m.role
  content := m.content
  reasoning := m.reasoning
  model := m.model
  citations := m.citations
  createdAt := m.createdAt

inductive Request
  | create (req : CreateConversationRequest)
  | list (page limit : ℤ)
  | get (id : Text)
  | delete (id : Text)
  | listMessages (id : Text) (page limit : ℤ)
  | createMessage (id : Text) (req : CreateMessageRequest)

/-- The new uuid, the clock, and the statements that fail: the count of the resources, the load
of the conversation, a listing, and whatever writes. -/
structure ServiceIO where
  uuid : Uuid
  now : ℤ := 0
  count : Option String := none
  load : Option String := none
  query : Option String := none
  save : Option String := none

structure Event where
  userID : ℕ
  request : Request
  io : ServiceIO

inductive Reply
  | conversation (c : ConversationResponse)
  | conversations (items : List ConversationResponse) (total : ℕ)
  | deleted
  | messages (items : List MessageResponse) (total : ℕ) (page limit : ℤ)
  | message (m : MessageResponse)
deriving DecidableEq

def Record.Listed (a b : Record) : Prop :=
  b.updatedAt < a.updatedAt ∨ a.updatedAt = b.updatedAt ∧ b.key ≤ a.key

instance : DecidableRel Record.Listed :=
  fun a b => inferInstanceAs (Decidable (b.updatedAt < a.updatedAt ∨ _))

/-- `LIMIT` and `OFFSET` with the defaults of both repositories. -/
def paged {α : Type*} (rows : List α) (page limit : ℤ) : List α :=
  let page := if page ≤ 0 then 1 else page
  let limit := if limit ≤ 0 then 20 else limit
  (rows.drop (ResourceService.wrap ((page - 1) * limit)).toNat).take limit.toNat

def Store.own (store : Store collation) (userID : ℕ) : List Record :=
  store.conversations.rows.filter fun c => c.userID == userID

def Store.load (store : Store collation) (fault : Option String) (uuid : Text) (userID : ℕ) :
    Except RepositoryError Record :=
  match fault with
  | some cause => .error (.failed ("failed to get conversation by uuid: " ++ cause))
  | none =>
    match store.conversations.first fun c => store.conversations.same c.uuid.1 uuid with
    | none => .error .notFound
    | some c => if c.userID != userID then .error .forbidden else .ok c

def ServiceIO.creates (io : ServiceIO) : CreateIO where
  uuid := io.uuid
  count := io.count
  create := io.save

def ServiceIO.posts (io : ServiceIO) : CreateMessageIO where
  uuid := io.uuid
  getConversation := io.load
  save := { now := io.now, createMessage := io.save }

def modelConfigRaw (req : CreateConversationRequest) : Option Text :=
  req.modelConfig.bind fun marshalled => marshalled.toOption

def newRecord (defaultTitle : Text) (io : ServiceIO) (req : CreateConversationRequest)
    (userID id : ℕ) : Record :=
  { newConversation defaultTitle io.creates req userID id with
    modelConfig := modelConfigRaw req
    createdAt := io.now
    updatedAt := io.now }

theorem key_newRecord (defaultTitle : Text) (io : ServiceIO) (req : CreateConversationRequest)
    (userID id : ℕ) : (newRecord defaultTitle io req userID id).key = id := rfl

theorem Store.load_mem {store : Store collation} {fault : Option String} {uuid : Text}
    {userID : ℕ} {c : Record} (found : store.load fault uuid userID = .ok c) :
    c ∈ store.conversations.rows ∧ collation.weight c.uuid.1 = collation.weight uuid ∧
      c.userID = userID := by
  unfold Store.load at found
  cases fault with
  | some cause => cases found
  | none =>
    dsimp only at found
    cases first : store.conversations.first fun c => store.conversations.same c.uuid.1 uuid with
    | none =>
      rw [first] at found
      cases found
    | some r =>
      rw [first] at found
      dsimp only at found
      split at found
      · cases found
      · rename_i own
        obtain rfl := Except.ok.inj found
        obtain ⟨there, alike⟩ := Table.first_same first
        rw [store.compares] at alike
        exact ⟨there, alike, by simpa using own⟩

def Store.sent (store : Store collation) : List Text :=
  store.messages.rows.map fun m => collation.weight m.uuid

def Store.post (store : Store collation) (c : Record) (known : c ∈ store.conversations.rows)
    (io : ServiceIO) (req : CreateMessageRequest) : Store collation :=
  (store.addMessage (postedMessage c.toConversation io.posts req)
    (postedMessage_id c.toConversation io.posts req) ⟨c, known, rfl⟩).touch c.key io.now

def Store.create (store : Store collation) (defaultTitle : Text) (io : ServiceIO)
    (req : CreateConversationRequest) (userID : ℕ)
    (fresh : collation.weight io.uuid.1 ∉ store.taken) : Store collation :=
  store.addConversation (newRecord defaultTitle io req userID)
    (key_newRecord defaultTitle io req userID) fresh

def serveMessage (store : Store collation) (userID : ℕ) (io : ServiceIO) (uuid : Text)
    (req : CreateMessageRequest) : Except AppError Reply × Store collation :=
  match validateCreateMessageRequest req with
  | .error e => (.error e, store)
  | .ok _ =>
    match found : store.load io.load uuid userID with
    | .error e => (.error (mapConversationRepositoryError e), store)
    | .ok c =>
      if io.save.isSome || store.sent.contains (collation.weight io.uuid.1) then
        (.error (internal "failed to create message"), store)
      else
        (.ok (.message (mapMessage (postedMessage c.toConversation io.posts req
          store.messages.next))), store.post c (Store.load_mem found).1 io req)

def serveCreate (defaultTitle : Text) (resources : LiveResources) (store : Store collation)
    (userID : ℕ) (io : ServiceIO) (req : CreateConversationRequest) :
    Except AppError Reply × Store collation :=
  match validateCreateConversationRequest resources io.creates req userID with
  | .error e => (.error e, store)
  | .ok _ =>
    if io.save.isSome then (.error (internal "failed to create conversation"), store)
    else if known : collation.weight io.uuid.1 ∈ store.taken then
      (.error (internal "failed to create conversation"), store)
    else
      (.ok (.conversation (mapConversation
        (newRecord defaultTitle io req userID store.conversations.next))),
        store.create defaultTitle io req userID known)

def serve (defaultTitle : Text) (resources : LiveResources) (store : Store collation)
    (e : Event) : Except AppError Reply × Store collation :=
  match e.request with
  | .create req => serveCreate defaultTitle resources store e.userID e.io req
  | .list page limit =>
    if e.io.query.isSome then (.error (internal "failed to list conversations"), store)
    else
      let own := store.own e.userID
      (.ok (.conversations ((paged (own.insertionSort Record.Listed) page limit).map
        mapConversation) own.length), store)
  | .get uuid =>
    match store.load e.io.load uuid e.userID with
    | .error err => (.error (mapConversationRepositoryError err), store)
    | .ok c => (.ok (.conversation (mapConversation c)), store)
  | .delete uuid =>
    match store.load e.io.load uuid e.userID with
    | .error err => (.error (mapConversationRepositoryError err), store)
    | .ok _ =>
      match e.io.save with
      | some cause =>
        (.error (mapConversationRepositoryError
          (.failed ("failed to delete conversation: " ++ cause))), store)
      | none =>
        (.ok .deleted, store.remove fun c =>
          store.conversations.same c.uuid.1 uuid && c.userID == e.userID)
  | .listMessages uuid page limit =>
    match store.load e.io.load uuid e.userID with
    | .error err => (.error (mapConversationRepositoryError err), store)
    | .ok c =>
      if e.io.query.isSome then (.error (internal "failed to list messages"), store)
      else
        let messages := conversationMessages store.messages c.key
        (.ok (.messages ((paged messages page limit).map mapMessage) messages.length page limit),
          store)
  | .createMessage uuid req => serveMessage store e.userID e.io uuid req

structure Chat where
  conversation : ConversationResponse
  messages : List MessageResponse

def missing : AppError := mapConversationRepositoryError .notFound

def lookup (collation : Collation) (chats : List Chat) (fault : Option String) (id : Text) :
    Except AppError Chat :=
  if fault.isSome then .error (internal "failed to load conversation")
  else
    match chats.find? fun chat => collation.same chat.conversation.id id with
    | none => .error missing
    | some chat => .ok chat

def byUpdate (chats : List Chat) : List ConversationResponse :=
  (chats.map Chat.conversation).insertionSort fun a b => b.updatedAt < a.updatedAt

def byTime (messages : List MessageResponse) : List MessageResponse :=
  messages.insertionSort fun a b => a.createdAt ≤ b.createdAt

def created (defaultTitle : Text) (io : ServiceIO) (req : CreateConversationRequest) :
    ConversationResponse where
  id := io.uuid
  title := if req.title = [] then defaultTitle else req.title
  resourceIDs := req.resourceIDs
  modelConfig := modelConfigRaw req
  createdAt := io.now
  updatedAt := io.now

def posted (io : ServiceIO) (req : CreateMessageRequest) : MessageResponse where
  id := io.uuid
  role := req.role
  content := req.content
  reasoning := []
  model := req.model
  citations := none
  createdAt := io.now

def Chat.post (collation : Collation) (id : Text) (now : ℤ) (m : MessageResponse) (chat : Chat) :
    Chat :=
  if collation.same chat.conversation.id id then
    ⟨{ chat.conversation with updatedAt := now }, chat.messages ++ [m]⟩
  else chat

theorem Chat.post_same {id : Text} {chat : Chat}
    (same : collation.weight chat.conversation.id = collation.weight id) (now : ℤ)
    (m : MessageResponse) : chat.post collation id now m =
      ⟨{ chat.conversation with updatedAt := now }, chat.messages ++ [m]⟩ :=
  if_pos ((collation.same_iff _ _).mpr same)

theorem Chat.post_other {id : Text} {chat : Chat}
    (other : collation.weight chat.conversation.id ≠ collation.weight id) (now : ℤ)
    (m : MessageResponse) : chat.post collation id now m = chat :=
  if_neg fun same => other ((collation.same_iff _ _).mp same)

theorem Chat.post_congr {id id' : Text} (alike : collation.weight id = collation.weight id')
    (now : ℤ) (m : MessageResponse) :
    Chat.post collation id now m = Chat.post collation id' now m := by
  funext chat
  rw [Chat.post, Chat.post, Collation.same, Collation.same, alike]

def serveOwn (collation : Collation) (defaultTitle : Text) (resources : LiveResources)
    (chats : List Chat) (e : Event) : Except AppError Reply × List Chat :=
  match e.request with
  | .create req =>
    match validateCreateConversationRequest resources e.io.creates req e.userID with
    | .error err => (.error err, chats)
    | .ok _ =>
      if e.io.save.isSome then (.error (internal "failed to create conversation"), chats)
      else
        (.ok (.conversation (created defaultTitle e.io req)),
          chats ++ [⟨created defaultTitle e.io req, []⟩])
  | .list page limit =>
    if e.io.query.isSome then (.error (internal "failed to list conversations"), chats)
    else (.ok (.conversations (paged (byUpdate chats) page limit) chats.length), chats)
  | .get id =>
    match lookup collation chats e.io.load id with
    | .error err => (.error err, chats)
    | .ok chat => (.ok (.conversation chat.conversation), chats)
  | .delete id =>
    match lookup collation chats e.io.load id with
    | .error err => (.error err, chats)
    | .ok _ =>
      if e.io.save.isSome then (.error (internal "failed to load conversation"), chats)
      else (.ok .deleted, chats.filter fun chat => !collation.same chat.conversation.id id)
  | .listMessages id page limit =>
    match lookup collation chats e.io.load id with
    | .error err => (.error err, chats)
    | .ok chat =>
      if e.io.query.isSome then (.error (internal "failed to list messages"), chats)
      else (.ok (.messages (paged (byTime chat.messages) page limit) chat.messages.length page
        limit), chats)
  | .createMessage id req =>
    match validateCreateMessageRequest req with
    | .error err => (.error err, chats)
    | .ok _ =>
      match lookup collation chats e.io.load id with
      | .error err => (.error err, chats)
      | .ok _ =>
        if e.io.save.isSome then (.error (internal "failed to create message"), chats)
        else (.ok (.message (posted e.io req)),
          chats.map (Chat.post collation id e.io.now (posted e.io req)))

theorem map_orderedInsert_of {α β : Type*} {r : α → α → Prop} {s : β → β → Prop} [DecidableRel r]
    [DecidableRel s] (f : α → β) {a : α} {xs : List α} (same : ∀ b ∈ xs, r a b ↔ s (f a) (f b)) :
    (xs.orderedInsert r a).map f = (xs.map f).orderedInsert s (f a) := by
  induction xs with
  | nil => rfl
  | cons b xs ih =>
    have rest := ih fun c mem => same c (List.mem_cons_of_mem b mem)
    rw [List.orderedInsert, List.map_cons, List.orderedInsert]
    by_cases first : r a b
    · rw [if_pos first, if_pos ((same b List.mem_cons_self).mp first), List.map_cons, List.map_cons]
    · rw [if_neg first, if_neg fun second => first ((same b List.mem_cons_self).mpr second),
        List.map_cons, rest]

theorem map_insertionSort_of {α β : Type*} {r : α → α → Prop} {s : β → β → Prop} [DecidableRel r]
    [DecidableRel s] (f : α → β) {xs : List α}
    (same : xs.Pairwise fun a b => (r a b ↔ s (f a) (f b))) :
    (xs.insertionSort r).map f = (xs.map f).insertionSort s := by
  induction xs with
  | nil => rfl
  | cons a xs ih =>
    obtain ⟨first, rest⟩ := List.pairwise_cons.mp same
    rw [List.insertionSort_cons, List.map_cons, List.insertionSort_cons, ← ih rest]
    exact map_orderedInsert_of f fun b mem => first b ((List.mem_insertionSort r).mp mem)

def Store.chat (store : Store collation) (c : Record) : Chat where
  conversation := mapConversation c
  messages := (store.messages.rows.filter fun m => m.conversationID == c.key).map mapMessage

def Store.chats (store : Store collation) (userID : ℕ) : List Chat :=
    (store.own userID).map store.chat

def blur (e : AppError) : AppError :=
  if e = mapConversationRepositoryError .forbidden then missing else e

section Views

variable {store : Store collation} {userID : ℕ}

theorem mem_own {c : Record} :
    c ∈ store.own userID ↔ c ∈ store.conversations.rows ∧ c.userID = userID := by
  rw [Store.own, List.mem_filter, beq_iff_eq]

theorem eq_of_uuid {c d : Record} (first : c ∈ store.conversations.rows)
    (second : d ∈ store.conversations.rows)
    (same : collation.weight c.uuid.1 = collation.weight d.uuid.1) : c = d :=
  List.inj_on_of_nodup_map store.unique first second same

theorem find_chat {c : Record} (own : c ∈ store.own userID) {uuid : Text}
    (alike : collation.weight c.uuid.1 = collation.weight uuid) :
    (store.chats userID).find? (fun chat => collation.same chat.conversation.id uuid) =
      some (store.chat c) := by
  rw [Store.chats, List.find?_map]
  cases found : (store.own userID).find? ((fun chat => collation.same chat.conversation.id uuid) ∘
      store.chat) with
  | none =>
    have missed := List.find?_eq_none.mp found c own
    exact absurd ((collation.same_iff _ _).mpr alike) missed
  | some d =>
    have law := List.find?_some found
    have same : collation.weight d.uuid.1 = collation.weight uuid := (collation.same_iff _ _).mp law
    have there := (mem_own.mp (List.mem_of_find?_eq_some found)).1
    rw [eq_of_uuid there (mem_own.mp own).1 (same.trans alike.symm)]
    rfl

theorem find_none {uuid : Text}
    (other : ∀ c ∈ store.own userID, collation.weight c.uuid.1 ≠ collation.weight uuid) :
    (store.chats userID).find? (fun chat => collation.same chat.conversation.id uuid) = none := by
  refine List.find?_eq_none.mpr fun chat mem same => ?_
  obtain ⟨c, own, rfl⟩ := List.mem_map.mp mem
  exact other c own ((collation.same_iff _ _).mp same)

theorem load_cases (store : Store collation) (fault : Option String) (uuid : Text) (userID : ℕ) :
    (∃ c, store.load fault uuid userID = .ok c ∧
      lookup collation (store.chats userID) fault uuid = .ok (store.chat c)) ∨
    ∃ e, store.load fault uuid userID = .error e ∧
      lookup collation (store.chats userID) fault uuid =
        .error (blur (mapConversationRepositoryError e)) := by
  unfold Store.load lookup
  cases fault with
  | some cause => exact .inr ⟨_, rfl, rfl⟩
  | none =>
    dsimp only [Option.isSome_none]
    rw [if_neg Bool.false_ne_true]
    cases first : store.conversations.first fun c => store.conversations.same c.uuid.1 uuid with
    | none =>
      have missed := List.find?_eq_none.mp first
      rw [find_none fun c own same => missed c (mem_own.mp own).1 ?_]
      · exact .inr ⟨.notFound, rfl, rfl⟩
      · rw [Table.same_iff, store.compares]
        exact same
    | some c =>
      obtain ⟨there, named⟩ := Table.first_same first
      rw [store.compares] at named
      dsimp only
      by_cases own : c.userID = userID
      · rw [if_neg (by simpa using own), find_chat (mem_own.mpr ⟨there, own⟩) named]
        exact .inl ⟨c, rfl, rfl⟩
      · rw [if_pos (by simpa using own), find_none fun d mine same => ?_]
        · exact .inr ⟨.forbidden, rfl, rfl⟩
        · obtain ⟨listed, user⟩ := mem_own.mp mine
          have equal := eq_of_uuid listed there (same.trans named.symm)
          exact own (equal ▸ user)

theorem chats_addConversation {make : ℕ → Record} {keyed : ∀ n, (make n).key = n}
    {fresh : collation.weight (make store.conversations.next).uuid.1 ∉ store.taken} :
    (store.addConversation make keyed fresh).chats userID = store.chats userID ++
      if (make store.conversations.next).userID = userID then
        [⟨mapConversation (make store.conversations.next), []⟩] else [] := by
  have empty : store.messages.rows.filter (fun m =>
      m.conversationID == (make store.conversations.next).key) = [] := by
    refine List.filter_eq_nil_iff.mpr fun m mem same => ?_
    obtain ⟨c, there, link⟩ := store.linked m mem
    have below := store.conversations.below c there
    rw [link, beq_iff_eq.mp same, keyed] at below
    exact Nat.lt_irrefl _ below
  change ((store.conversations.rows ++ [make store.conversations.next]).filter _).map store.chat = _
  rw [List.filter_append, List.map_append]
  refine congrArg (store.chats userID ++ ·) ?_
  by_cases mine : (make store.conversations.next).userID = userID
  · rw [if_pos mine, List.filter_cons_of_pos (by simpa using mine), List.filter_nil,
      List.map_singleton]
    unfold Store.chat
    rw [empty]
    rfl
  · rw [if_neg mine, List.filter_cons_of_neg (by simpa using mine)]
    rfl

theorem chat_remove {gone : Record → Bool} {c : Record} (there : c ∈ store.conversations.rows)
    (kept : gone c = false) : (store.remove gone).chat c = store.chat c := by
  have same : (store.remove gone).messages.rows.filter (fun m => m.conversationID == c.key) =
      store.messages.rows.filter fun m => m.conversationID == c.key := by
    change (store.messages.rows.filter _).filter _ = _
    rw [List.filter_filter]
    refine List.filter_congr fun m _ => ?_
    by_cases here : m.conversationID = c.key
    · have stays : (store.conversations.rows.any fun d =>
          d.key == m.conversationID && !gone d) = true :=
        List.any_eq_true.mpr ⟨c, there, by rw [here, kept, beq_self_eq_true]; rfl⟩
      rw [stays, Bool.and_true]
    · rw [beq_eq_false_iff_ne.mpr here, Bool.false_and]
  unfold Store.chat
  rw [same]

theorem chats_remove (gone : Record → Bool) :
    (store.remove gone).chats userID =
      ((store.own userID).filter fun c => !gone c).map store.chat := by
  have own : (store.remove gone).own userID = (store.own userID).filter fun c => !gone c := by
    change (store.conversations.rows.filter _).filter _ =
      (store.conversations.rows.filter _).filter _
    rw [List.filter_filter, List.filter_filter]
    exact List.filter_congr fun c _ => Bool.and_comm _ _
  rw [Store.chats, own]
  refine List.map_congr_left fun c mem => ?_
  obtain ⟨mine, kept⟩ := List.mem_filter.mp mem
  exact chat_remove (mem_own.mp mine).1 (by simpa using kept)

theorem chat_post {c d : Record} (known : c ∈ store.conversations.rows)
    (there : d ∈ store.conversations.rows) (io : ServiceIO) (req : CreateMessageRequest) :
    (store.post c known io req).chat (Table.touch Record.key c.key (Record.touched io.now) d) =
      (store.chat d).post collation c.uuid.1 io.now (posted io req) := by
  have messages : (store.post c known io req).messages.rows = store.messages.rows ++
      [postedMessage c.toConversation io.posts req store.messages.next] := rfl
  have key := Table.key_touch c.key (Record.touched io.now) (key_touched io.now) d
  have new : (postedMessage c.toConversation io.posts req store.messages.next).conversationID =
      c.key := rfl
  by_cases same : d = c
  · subst same
    rw [@Chat.post_same collation d.uuid.1 (store.chat d) rfl]
    unfold Store.chat
    rw [messages, key, List.filter_append, List.map_append,
      List.filter_cons_of_pos (by rw [new]; exact beq_self_eq_true _)]
    unfold Table.touch
    rw [if_pos rfl]
    rfl
  · have other : d.key ≠ c.key := fun equal => same (Table.eq_of_key there known equal)
    have name : collation.weight (store.chat d).conversation.id ≠ collation.weight c.uuid.1 :=
      fun equal => same (eq_of_uuid there known equal)
    rw [Chat.post_other name]
    unfold Store.chat
    rw [messages, key, List.filter_append,
      List.filter_cons_of_neg (by rw [new, beq_iff_eq]; exact other.symm),
      List.filter_nil, List.append_nil]
    unfold Table.touch
    rw [if_neg other]

theorem chats_post {c : Record} (known : c ∈ store.conversations.rows) (io : ServiceIO)
    (req : CreateMessageRequest) :
    (store.post c known io req).chats userID =
      (store.chats userID).map (Chat.post collation c.uuid.1 io.now (posted io req)) := by
  have own : (store.post c known io req).own userID =
      (store.own userID).map (Table.touch Record.key c.key (Record.touched io.now)) := by
    change (store.conversations.rows.map _).filter _ = _
    rw [List.filter_map]
    refine congrArg _ (List.filter_congr fun d _ => ?_)
    dsimp only [Function.comp_apply, Table.touch]
    split <;> rfl
  rw [Store.chats, own, Store.chats, List.map_map, List.map_map]
  exact List.map_congr_left fun d mine => chat_post known (mem_own.mp mine).1 io req

theorem chats_post_other {c : Record} (known : c ∈ store.conversations.rows) (io : ServiceIO)
    (req : CreateMessageRequest) (other : c.userID ≠ userID) :
    (store.post c known io req).chats userID = store.chats userID := by
  rw [chats_post]
  refine List.map_congr_left (g := id) (fun chat mem => ?_) |>.trans (List.map_id _)
  obtain ⟨d, mine, rfl⟩ := List.mem_map.mp mem
  obtain ⟨there, user⟩ := mem_own.mp mine
  refine Chat.post_other (fun same => other ?_) io.now (posted io req)
  rw [← eq_of_uuid there known same]
  exact user

end Views

theorem paged_map {α β : Type*} (f : α → β) (rows : List α) (page limit : ℤ) :
    (paged rows page limit).map f = paged (rows.map f) page limit := by
  unfold paged
  rw [List.map_take, List.map_drop]

theorem listed_map (store : Store collation) (userID : ℕ) :
    ((store.own userID).insertionSort Record.Listed).map mapConversation =
      byUpdate (store.chats userID) := by
  have conversations : (store.chats userID).map Chat.conversation =
      (store.own userID).map mapConversation := by
    rw [Store.chats, List.map_map]
    rfl
  have sorted : (store.own userID).Pairwise fun a b => a.key < b.key :=
    store.conversations.sorted.sublist List.filter_sublist
  rw [byUpdate, conversations]
  refine map_insertionSort_of mapConversation (sorted.imp fun {a b} older => ?_)
  change (b.updatedAt < a.updatedAt ∨ a.updatedAt = b.updatedAt ∧ b.key ≤ a.key) ↔
    b.updatedAt < a.updatedAt
  omega

theorem messages_map (store : Store collation) (c : Record) :
    (conversationMessages store.messages c.key).map mapMessage =
      byTime (store.chat c).messages := by
  have sorted : (store.messages.rows.filter fun m => m.conversationID == c.key).Pairwise
      fun a b => a.id < b.id := store.messages.sorted.sublist List.filter_sublist
  refine map_insertionSort_of mapMessage (sorted.imp fun {a b} older => ?_)
  change (a.createdAt < b.createdAt ∨ a.createdAt = b.createdAt ∧ a.id ≤ b.id) ↔
    a.createdAt ≤ b.createdAt
  omega

theorem length_chats (store : Store collation) (userID : ℕ) :
    (store.chats userID).length = (store.own userID).length := List.length_map _

theorem length_messages (store : Store collation) (c : Record) :
    (store.chat c).messages.length = (conversationMessages store.messages c.key).length := by
  rw [conversationMessages, List.length_insertionSort]
  exact List.length_map _

def seen (result : Except AppError Reply) : Except AppError Reply := result.mapError blur

def Fresh (store : Store collation) (e : Event) : Prop :=
  collation.weight e.io.uuid.1 ∉ store.taken ∧ collation.weight e.io.uuid.1 ∉ store.sent

theorem mapConversation_newRecord (defaultTitle : Text) (io : ServiceIO)
    (req : CreateConversationRequest) (userID id : ℕ) :
    mapConversation (newRecord defaultTitle io req userID id) = created defaultTitle io req := by
  have ids : (if req.resourceIDs = [] then none else some req.resourceIDs).getD [] =
      req.resourceIDs := by
    by_cases empty : req.resourceIDs = []
    · rw [if_pos empty, empty]
      rfl
    · rw [if_neg empty]
      rfl
  unfold mapConversation created newRecord newConversation
  dsimp only
  rw [ids]
  rfl

theorem blur_other {e : AppError} (other : e.status ≠ 403) : blur e = e := by
  refine if_neg fun same => other ?_
  rw [same]
  rfl

theorem validateCreate_status {resources : LiveResources} {io : CreateIO}
    {req : CreateConversationRequest} {userID : ℕ} {e : AppError}
    (wrong : validateCreateConversationRequest resources io req userID = .error e) :
    e.status ≠ 403 := by
  have config {err : AppError} (wrong : validateModelConfig req = .error err) :
      err.status ≠ 403 := by
    unfold validateModelConfig at wrong
    split at wrong
    · cases wrong
    · cases wrong
      decide
    · split at wrong
      · cases wrong
        decide
      · cases wrong
  unfold validateCreateConversationRequest at wrong
  repeat' split at wrong
  all_goals first
    | exact config wrong
    | (cases wrong; decide)

theorem validateMessage_status {req : CreateMessageRequest} {e : AppError}
    (wrong : validateCreateMessageRequest req = .error e) : e.status ≠ 403 := by
  unfold validateCreateMessageRequest at wrong
  repeat' split at wrong
  all_goals
    cases wrong
    try decide

theorem chats_create {store : Store collation} {defaultTitle : Text} {io : ServiceIO}
    {req : CreateConversationRequest} {asker userID : ℕ}
    (fresh : collation.weight io.uuid.1 ∉ store.taken) :
    (store.create defaultTitle io req asker fresh).chats userID = store.chats userID ++
      if asker = userID then [⟨created defaultTitle io req, []⟩] else [] := by
  have added := @chats_addConversation collation store userID (newRecord defaultTitle io req asker)
    (key_newRecord defaultTitle io req asker) fresh
  rwa [mapConversation_newRecord] at added

section Serve

variable (defaultTitle : Text) (resources : LiveResources) {store : Store collation} {userID : ℕ}

theorem serveMessage_own {io : ServiceIO} {uuid : Text} {req : CreateMessageRequest}
    (fresh : collation.weight io.uuid.1 ∉ store.sent) :
    (seen (serveMessage store userID io uuid req).1,
      (serveMessage store userID io uuid req).2.chats userID) =
        serveOwn collation defaultTitle resources (store.chats userID)
          ⟨userID, .createMessage uuid req, io⟩ := by
  unfold serveMessage serveOwn
  dsimp only
  cases valid : validateCreateMessageRequest req with
  | error e => exact congrArg (Except.error · , _) (blur_other (validateMessage_status valid))
  | ok _ =>
    dsimp only
    rcases load_cases store io.load uuid userID with ⟨c, loaded, known⟩ | ⟨e, loaded, known⟩
    · rw [known]
      split
      · rename_i failed
        rw [loaded] at failed
        cases failed
      · rename_i d found
        obtain rfl := Except.ok.inj (loaded.symm.trans found)
        have unused : store.sent.contains (collation.weight io.uuid.1) = false :=
          Bool.eq_false_iff.mpr fun used => fresh (List.contains_iff_mem.mp used)
        rw [unused, Bool.or_false]
        dsimp only
        by_cases fails : io.save.isSome = true
        · rw [if_pos fails, if_pos fails]
          rfl
        · rw [if_neg fails, if_neg fails, chats_post, Chat.post_congr (Store.load_mem found).2.1]
          rfl
    · rw [known]
      split
      · rename_i failed
        obtain rfl := Except.error.inj (loaded.symm.trans failed)
        rfl
      · rename_i d found
        rw [loaded] at found
        cases found

theorem serveCreate_own {io : ServiceIO} {req : CreateConversationRequest}
    (fresh : collation.weight io.uuid.1 ∉ store.taken) :
    (seen (serveCreate defaultTitle resources store userID io req).1,
      (serveCreate defaultTitle resources store userID io req).2.chats userID) =
        serveOwn collation defaultTitle resources (store.chats userID)
          ⟨userID, .create req, io⟩ := by
  unfold serveCreate serveOwn
  dsimp only
  cases valid : validateCreateConversationRequest resources io.creates req userID with
  | error e => exact congrArg (Except.error · , _) (blur_other (validateCreate_status valid))
  | ok _ =>
    dsimp only
    by_cases fails : io.save.isSome = true
    · rw [if_pos fails, if_pos fails]
      rfl
    · rw [if_neg fails, if_neg fails, dif_neg fresh]
      dsimp only
      rw [chats_create, if_pos rfl, mapConversation_newRecord]
      rfl

/-- To its user the shared store is a store of their own. -/
theorem serve_own {e : Event} (fresh : Fresh store e) :
    (seen (serve defaultTitle resources store e).1,
      (serve defaultTitle resources store e).2.chats e.userID) =
        serveOwn collation defaultTitle resources (store.chats e.userID) e := by
  obtain ⟨userID, request, io⟩ := e
  cases request with
  | create req => exact serveCreate_own defaultTitle resources fresh.1
  | createMessage uuid req => exact serveMessage_own defaultTitle resources fresh.2
  | list page limit =>
    unfold serve serveOwn
    dsimp only
    by_cases fails : io.query.isSome = true
    · rw [if_pos fails, if_pos fails]
      rfl
    · rw [if_neg fails, if_neg fails, paged_map, listed_map, length_chats]
      rfl
  | get uuid =>
    unfold serve serveOwn
    dsimp only
    rcases load_cases store io.load uuid userID with ⟨c, loaded, known⟩ | ⟨e, loaded, known⟩
    · rw [loaded, known]
      rfl
    · rw [loaded, known]
      rfl
  | delete uuid =>
    unfold serve serveOwn
    dsimp only
    rcases load_cases store io.load uuid userID with ⟨c, loaded, known⟩ | ⟨e, loaded, known⟩
    · rw [loaded, known]
      dsimp only
      cases fails : io.save with
      | some cause => rfl
      | none =>
        dsimp only [Option.isSome_none]
        rw [if_neg Bool.false_ne_true, chats_remove, Store.chats, List.filter_map]
        refine congrArg (fun rest : List Record =>
          (Except.ok Reply.deleted, rest.map store.chat)) ?_
        refine List.filter_congr fun d mine => ?_
        rw [beq_iff_eq.mpr (mem_own.mp mine).2, Bool.and_true, Table.same, store.compares]
        rfl
    · rw [loaded, known]
      rfl
  | listMessages uuid page limit =>
    unfold serve serveOwn
    dsimp only
    rcases load_cases store io.load uuid userID with ⟨c, loaded, known⟩ | ⟨e, loaded, known⟩
    · rw [loaded, known]
      dsimp only
      by_cases fails : io.query.isSome = true
      · rw [if_pos fails, if_pos fails]
        rfl
      · rw [if_neg fails, if_neg fails, paged_map, messages_map, length_messages]
        rfl
    · rw [loaded, known]
      rfl

/-- A request leaves the conversations of the other users alone. -/
theorem serve_other {e : Event} (other : e.userID ≠ userID) :
    (serve defaultTitle resources store e).2.chats userID = store.chats userID := by
  obtain ⟨asker, request, io⟩ := e
  cases request with
  | create req =>
    unfold serve serveCreate
    dsimp only
    split
    · rfl
    · split
      · rfl
      · split
        · rfl
        · have foreign : ¬ asker = userID := other
          dsimp only
          rw [chats_create, if_neg foreign, List.append_nil]
  | createMessage uuid req =>
    unfold serve serveMessage
    dsimp only
    split
    · rfl
    · split
      · rfl
      · rename_i c found
        split
        · rfl
        · obtain ⟨known, -, user⟩ := Store.load_mem found
          exact chats_post_other known io req fun same => other (user.symm.trans same)
  | list page limit =>
    unfold serve
    dsimp only
    split <;> rfl
  | get uuid =>
    unfold serve
    dsimp only
    split <;> rfl
  | delete uuid =>
    unfold serve
    dsimp only
    split
    · rfl
    · split
      · rfl
      · dsimp only
        rw [chats_remove]
        have all : (store.own userID).filter (fun c =>
            !(store.conversations.same c.uuid.1 uuid && c.userID == asker)) =
            store.own userID := by
          refine List.filter_eq_self.mpr fun c mine => ?_
          have foreign : c.userID ≠ asker := fun same => other (same ▸ (mem_own.mp mine).2)
          rw [beq_eq_false_iff_ne.mpr foreign, Bool.and_false]
          rfl
        rw [all]
        rfl
  | listMessages uuid page limit =>
    unfold serve
    dsimp only
    split
    · rfl
    · split <;> rfl

end Serve

section Runs

variable (defaultTitle : Text) (resources : LiveResources)

def step (store : Store collation) (e : Event) : Store collation :=
  (serve defaultTitle resources store e).2

def answer (store : Store collation) (e : Event) : Except AppError Reply :=
  seen (serve defaultTitle resources store e).1

def ownStep (collation : Collation) (chats : List Chat) (e : Event) : List Chat :=
  (serveOwn collation defaultTitle resources chats e).2

def ownAnswer (collation : Collation) (chats : List Chat) (e : Event) : Except AppError Reply :=
  (serveOwn collation defaultTitle resources chats e).1

theorem private_views (collation : Collation) : Private (step defaultTitle resources)
    (answer defaultTitle resources) Event.userID Fresh (@Store.chats collation)
    (ownStep defaultTitle resources collation) (ownAnswer defaultTitle resources collation) where
  other _ _ _ _ other := serve_other defaultTitle resources other
  own _ _ fresh := congrArg Prod.snd (serve_own defaultTitle resources fresh)
  answer _ _ fresh := congrArg Prod.fst (serve_own defaultTitle resources fresh)

def Store.uuids (store : Store collation) : List Text := store.taken ++ store.sent

theorem fresh_iff {store : Store collation} {e : Event} :
    Fresh store e ↔ collation.weight e.io.uuid.1 ∉ store.uuids := by
  rw [Store.uuids, List.mem_append, not_or]
  rfl

theorem uuids_create {store : Store collation} {io : ServiceIO} {req : CreateConversationRequest}
    {userID : ℕ} (fresh : collation.weight io.uuid.1 ∉ store.taken) :
    ∀ uuid ∈ (store.create defaultTitle io req userID fresh).uuids,
      uuid ∈ store.uuids ∨ uuid = collation.weight io.uuid.1 := by
  intro uuid mem
  have rows : (store.create defaultTitle io req userID fresh).conversations.rows =
      store.conversations.rows ++ [newRecord defaultTitle io req userID store.conversations.next] :=
    rfl
  rw [Store.uuids, Store.taken, rows, List.map_append, List.append_assoc] at mem
  rcases List.mem_append.mp mem with old | mem
  · exact .inl (List.mem_append_left _ old)
  · rcases List.mem_append.mp mem with new | old
    · exact .inr (List.mem_singleton.mp new)
    · exact .inl (List.mem_append_right _ old)

theorem uuids_post {store : Store collation} {c : Record} (known : c ∈ store.conversations.rows)
    (io : ServiceIO) (req : CreateMessageRequest) :
    ∀ uuid ∈ (store.post c known io req).uuids,
      uuid ∈ store.uuids ∨ uuid = collation.weight io.uuid.1 := by
  intro uuid mem
  have conversations : (store.post c known io req).conversations.rows =
      store.conversations.rows.map (Table.touch Record.key c.key (Record.touched io.now)) := rfl
  have messages : (store.post c known io req).messages.rows = store.messages.rows ++
      [postedMessage c.toConversation io.posts req store.messages.next] := rfl
  rw [Store.uuids, Store.taken, Store.sent, conversations, map_uuid_touch, messages,
    List.map_append,
    ← List.append_assoc] at mem
  exact (List.mem_append.mp mem).imp_right List.mem_singleton.mp

theorem uuids_remove (store : Store collation) (gone : Record → Bool) :
    ∀ uuid ∈ (store.remove gone).uuids, uuid ∈ store.uuids := by
  intro uuid mem
  rcases List.mem_append.mp mem with kept | kept
  · exact List.mem_append_left _ ((List.filter_sublist.map _).subset kept)
  · exact List.mem_append_right _ ((List.filter_sublist.map _).subset kept)

theorem uuids_step {store : Store collation} {e : Event} :
    ∀ uuid ∈ (step defaultTitle resources store e).uuids,
      uuid ∈ store.uuids ∨ uuid = collation.weight e.io.uuid.1 := by
  obtain ⟨userID, request, io⟩ := e
  intro uuid mem
  unfold step serve at mem
  cases request with
  | create req =>
    dsimp only at mem
    unfold serveCreate at mem
    repeat' split at mem
    · exact .inl mem
    · exact .inl mem
    · exact .inl mem
    · rename_i fresh
      exact uuids_create defaultTitle fresh uuid mem
  | createMessage id req =>
    dsimp only at mem
    unfold serveMessage at mem
    repeat' split at mem
    · exact .inl mem
    · exact .inl mem
    · exact .inl mem
    · rename_i found _
      exact uuids_post (Store.load_mem found).1 io req uuid mem
  | list page limit =>
    dsimp only at mem
    split at mem
    · exact .inl mem
    · exact .inl mem
  | get id =>
    dsimp only at mem
    split at mem
    · exact .inl mem
    · exact .inl mem
  | delete id =>
    dsimp only at mem
    repeat' split at mem
    · exact .inl mem
    · exact .inl mem
    · exact .inl (uuids_remove store _ uuid mem)
  | listMessages id page limit =>
    dsimp only at mem
    repeat' split at mem
    · exact .inl mem
    · exact .inl mem
    · exact .inl mem

theorem fresh_run {store : Store collation} {es : List Event}
    (distinct : (es.map fun e => collation.weight e.io.uuid.1).Nodup)
    (unused : ∀ e ∈ es, collation.weight e.io.uuid.1 ∉ store.uuids) :
    EveryStep (step defaultTitle resources) Fresh store es := by
  induction es generalizing store with
  | nil => trivial
  | cons e es ih =>
    obtain ⟨once, distinct⟩ := List.nodup_cons.mp distinct
    refine ⟨fresh_iff.mpr (unused e List.mem_cons_self), ih distinct fun f later used => ?_⟩
    rcases uuids_step defaultTitle resources _ used with old | same
    · exact unused f (List.mem_cons_of_mem e later) old
    · exact once (List.mem_map.mpr ⟨f, later, same⟩)

/-- However the requests of all users interleave, each of them is answered as by a store of
their own that only they ever used, and that is what the store holds of them in the end. -/
theorem users_private (collation : Collation) (userID : ℕ) {es : List Event}
    (distinct : (es.map fun e => collation.weight e.io.uuid.1).Nodup) :
    answersTo (step defaultTitle resources) (answer defaultTitle resources) Event.userID userID
        (noConversations collation) es =
      answers (ownStep defaultTitle resources collation)
        (ownAnswer defaultTitle resources collation)
        [] (es.filter fun e => e.userID = userID) ∧
      (exec (step defaultTitle resources) (noConversations collation) es).chats userID =
        exec (ownStep defaultTitle resources collation) []
          (es.filter fun e => e.userID = userID) := by
  have fresh := @fresh_run collation defaultTitle resources (noConversations collation) es distinct
    fun e _ => List.not_mem_nil
  have views := private_views defaultTitle resources collation
  exact ⟨answersTo_eq views userID fresh, view_exec views userID fresh⟩

end Runs

def exchange : List Event :=
  [⟨1, .create ⟨"Trees".toList, [], none⟩, { uuid := ⟨"c1".toList, by decide⟩, now := 1 }⟩,
    ⟨2, .create ⟨[], [], none⟩, { uuid := ⟨"c2".toList, by decide⟩, now := 2 }⟩,
    ⟨2, .listMessages "c1".toList 1 20, { uuid := ⟨"r3".toList, by decide⟩ }⟩,
    ⟨1, .createMessage "c1".toList ⟨"user".toList, "Why?".toList, []⟩,
      { uuid := ⟨"m4".toList, by decide⟩, now := 4 }⟩,
    ⟨2, .delete "c1".toList, { uuid := ⟨"r5".toList, by decide⟩ }⟩,
    ⟨1, .listMessages "c1".toList 1 20, { uuid := ⟨"r6".toList, by decide⟩ }⟩]

theorem users_private_exchange :
    answersTo (step [] ResourceService.lectures) (answer [] ResourceService.lectures) Event.userID 1
        (noConversations ⟨id⟩) exchange =
      answers (ownStep [] ResourceService.lectures ⟨id⟩)
        (ownAnswer [] ResourceService.lectures ⟨id⟩) []
        (exchange.filter fun e => e.userID = 1) ∧
      (exec (step [] ResourceService.lectures) (noConversations ⟨id⟩) exchange).chats 1 =
        exec (ownStep [] ResourceService.lectures ⟨id⟩) []
          (exchange.filter fun e => e.userID = 1) :=
  users_private [] ResourceService.lectures ⟨id⟩ 1 (by decide)

-- the second user is told that there is no such conversation
example : answersTo (step [] ResourceService.lectures) (answer [] ResourceService.lectures)
    Event.userID 2 (noConversations ⟨id⟩) exchange =
      [.ok (.conversation ⟨"c2".toList, [], [], none, 2, 2⟩), .error missing, .error missing] := rfl

end KnowledgeCompanion.ConversationService
