import KnowledgeCompanion.ApiClient
import KnowledgeCompanion.Lockstep
import KnowledgeCompanion.ResourceList
import KnowledgeCompanion.ResourceService
import KnowledgeCompanion.TaskPolling

/-! The resource list of the client on the gateway that serves it: what lies between the notifier
and the handler (`repositories/resource_repository.dart`, `remote/resource_api.dart` and
`models/resource_model.dart` on the client, `pkg/response` on the gateway). -/

namespace KnowledgeCompanion.ResourceBrowsing

open ApiClient (Answer Completed DioException DioExceptionType Response)
open ChatSseClient (Members stringMember boolMember)
open GuardedRun JsonText Lockstep ResourceList ResourceService
open TaskPolling (omitEmpty ofText)

/-- An item as `encoding/json` writes it; a slice without elements was never allocated. -/
def itemMembers (formatTime : ℤ → Text) (item : ResourceListItem) : Members :=
  [("resource_id".toList, .string item.resourceID)] ++
  omitEmpty "task_id" (ofText item.taskID) ++
  [("name".toList, .string item.name), ("type".toList, .string item.type),
    ("status".toList, .string item.status),
    ("summary".toList, item.summary.elim .null .string),
    ("summary_truncated".toList, .bool item.summaryTruncated),
    ("tags".toList, if item.tags = [] then .null else .array (item.tags.map .string)),
    ("updated_at".toList, .string (formatTime item.updatedAt))]

def retryable (status : ℕ) (code : String) : Bool :=
  [429, 408, 503, 504].contains status ||
    ["LLM_TIMEOUT", "RETRIEVAL_TIMEOUT", "WORKER_UNAVAILABLE", "AI_SERVICE_UNAVAILABLE",
      "STREAM_ERROR"].contains code

structure Resource where
  id : Text
  taskID : Option Text
  name : Text
  type : Text
  status : Text
  summary : Option Text
  summaryTruncated : Bool
  tags : List Text
  updatedAt : ℤ
deriving DecidableEq

def stringOf : Json → Option Text
  | .string text => some text
  | _ => none

def readTags (rawTags : Option Json) : List Text :=
  match rawTags with
  | some (.array items) => ((items.filterMap stringOf).map DartText.trim).filter (· ≠ [])
  | _ => []

/-- `ResourceModel.fromJson` and `toDomain`, `none` where a cast throws. -/
def fromJson (parseTime : Text → Option ℤ) (json : Members) : Option Resource := do
  let resourceID ← stringMember json "resource_id"
  let id ← resourceID.elim ((stringMember json "id").map (·.getD [])) some
  let taskID ← stringMember json "task_id"
  let name ← stringMember json "name"
  let type ← stringMember json "type"
  let status ← stringMember json "status"
  let summary ← stringMember json "summary"
  let summaryTruncated ← boolMember json "summary_truncated"
  let updatedAt ← stringMember json "updated_at"
  return {
    id
    taskID
    name := name.getD []
    type := type.getD []
    status := status.getD []
    summary
    summaryTruncated := summaryTruncated.getD false
    tags := readTags (member json "tags".toList)
    updatedAt := (parseTime (updatedAt.getD [])).getD 0 }

def itemsOf : Json → List Json
  | .object members =>
    match member members "items".toList with
    | some (.array items) => items
    | _ => []
  | .array items => items
  | _ => []

def readItem (parseTime : Text → Option ℤ) : Json → Option Resource
  | .object members => fromJson parseTime members
  | _ => none

/-- The parser of the API; a failed cast is an `Error`. -/
def parser (parseTime : Text → Option ℤ) (data : Json) : Except ApiClient.Thrown (List Resource) :=
  match (itemsOf data).mapM (readItem parseTime) with
  | some resources => .ok resources
  | none => .error .error

/-- The tables of the gateway, the signed-in user, and how times are written and read. -/
structure Backend where
  locale : ExtractionSave.Locale
  store : Store locale
  userID : ℕ
  formatTime : ℤ → Text
  parseTime : Text → Option ℤ

/-- A request fails on its way, is refused before the handler with a status that Dio does not
take, or reaches the handler. -/
inductive Delivery
  | failed (type : DioExceptionType)
  | refused (response : Response Json)
  | handled (io : ListIO) (traceID : Text)

def answer (b : Backend) (io : ListIO) (traceID : Text) (query : ListQuery) : Response Json :=
  match handleList b.store io b.userID query with
  | .ok result => ⟨200, .envelope (.typed true)
      (.array (result.items.map fun item => .object (itemMembers b.formatTime item))) .null⟩
  | .error e => ⟨e.status, .envelope (.typed false) .null (.typed ⟨.typed e.code.toList,
      .typed e.message.toList, .typed traceID, .typed (retryable e.status e.code)⟩)⟩

def queryOf (page : ℕ) (tag : Option Text) : ListQuery where
  page := some (PythonText.decimal page)
  limit := some (PythonText.decimal defaultResourcePageSize)
  tag := tag.filter (· ≠ [])

def read (b : Backend) : Except (DioException Json) (Response Json) → Completed (List Resource)
  | .ok response => ApiClient.unpackEnvelope (parser b.parseTime) response
  | .error e => (ApiClient.mapDioException e).elim .thrown .failure

def apiList (b : Backend) (page : ℕ) (tag : Option Text) : Delivery → Completed (List Resource)
  | .failed type => read b (.error ⟨type, none⟩)
  | .refused response => read b (.error ⟨.badResponse, some response⟩)
  | .handled io traceID =>
    read b (Answer.response (answer b io traceID (queryOf page tag))).received

inductive AppException
  | validation (errors : List (String × String))
  | api (e : ApiClient.AppException)
deriving DecidableEq

def maxTagLength : ℕ := 32

def fetched : Completed (List Resource) → Option (Except AppException (List Resource))
  | .success resources => some (.ok resources)
  | .failure e => some (.error (.api e))
  | .thrown => none

/-- `fetchResources`, `none` where an `Error` is thrown. -/
def fetchResources (b : Backend) (page : ℕ) (tag : Option Text) (delivery : Delivery) :
    Option (Except AppException (List Resource)) :=
  let normalizedTag := tag.map DartText.trim
  if normalizedTag = some [] then some (.error (.validation [("tag", "标签不能为空")]))
  else if maxTagLength < (normalizedTag.getD []).length then
    some (.error (.validation [("tag", "标签长度超限")]))
  else fetched (apiList b page normalizedTag delivery)

inductive Event
  | loadInitial
  | loadMore
  | filterByTag (tag : Text)
  | clearFilter
  | respond (i : ℕ) (delivery : Delivery)

abbrev Browsing := System Resource AppException

/-- An `Error` ends the call and leaves the state alone. -/
def step (b : Backend) (s : Browsing) : Event → Browsing
  | .loadInitial => loadInitial s
  | .loadMore => loadMore s
  | .filterByTag tag => filterByTag s tag
  | .clearFilter => clearFilter s
  | .respond i delivery =>
    match s.pending[i]? with
    | none => s
    | some request =>
      let pending := s.pending.eraseIdx i
      match fetchResources b request.page request.tag delivery with
      | some (.ok resources) =>
        ⟨onSuccess s.state resources request, pending, keptAfter s.kept request .served⟩
      | some (.error e) =>
        ⟨onFailure s.state e request, pending, keptAfter s.kept request (.failed e)⟩
      | none => ⟨s.state, pending, s.kept⟩

def received (b : Backend) (item : ResourceListItem) : Resource where
  id := item.resourceID
  taskID := if item.taskID = [] then none else some item.taskID
  name := item.name
  type := item.type
  status := item.status
  summary := item.summary
  summaryTruncated := item.summaryTruncated
  tags := (item.tags.map DartText.trim).filter (· ≠ [])
  updatedAt := (b.parseTime (b.formatTime item.updatedAt)).getD 0

theorem member_taskID (formatTime : ℤ → Text) (item : ResourceListItem) :
    member (itemMembers formatTime item) "task_id".toList = ofText item.taskID := by
  unfold itemMembers ofText
  by_cases empty : item.taskID = []
  · rw [if_pos empty]
    rfl
  · rw [if_neg empty]
    rfl

theorem member_other (formatTime : ℤ → Text) (item : ResourceListItem) {key : Text}
    (other : "task_id".toList ≠ key) (third : "resource_id".toList ≠ key) :
    member (itemMembers formatTime item) key = member
      [("name".toList, .string item.name), ("type".toList, .string item.type),
        ("status".toList, .string item.status),
        ("summary".toList, item.summary.elim .null .string),
        ("summary_truncated".toList, .bool item.summaryTruncated),
        ("tags".toList, if item.tags = [] then .null else .array (item.tags.map .string)),
        ("updated_at".toList, .string (formatTime item.updatedAt))] key := by
  have first : member [("resource_id".toList, .string item.resourceID)] key = none := by
    unfold member
    rw [List.find?_singleton, if_neg (by simpa using third)]
    rfl
  unfold itemMembers
  rw [TaskPolling.member_append, TaskPolling.member_append,
    TaskPolling.member_omitEmpty other, first]
  rfl

theorem readTags_strings (tags : List Text) :
    readTags (some (if tags = [] then .null else .array (tags.map .string))) =
      (tags.map DartText.trim).filter (· ≠ []) := by
  by_cases empty : tags = []
  · rw [if_pos empty, empty]
    rfl
  · rw [if_neg empty]
    have strings : (tags.map Json.string).filterMap stringOf = tags := by
      rw [List.filterMap_map]
      exact List.filterMap_some
    exact congrArg (fun texts => (texts.map DartText.trim).filter (· ≠ [])) strings

/-- Nothing is lost on the wire, but for the blanks around a tag. -/
theorem fromJson_itemMembers (b : Backend) (item : ResourceListItem) :
    fromJson b.parseTime (itemMembers b.formatTime item) = some (received b item) := by
  have text (key : String) (other : "task_id".toList ≠ key.toList)
      (third : "resource_id".toList ≠ key.toList) :=
    member_other b.formatTime item other third
  have resourceID : stringMember (itemMembers b.formatTime item) "resource_id" =
      some (some item.resourceID) := by
    unfold stringMember itemMembers
    rfl
  have taskID : stringMember (itemMembers b.formatTime item) "task_id" =
      some (received b item).taskID := by
    unfold stringMember
    rw [member_taskID]
    by_cases empty : item.taskID = []
    · simp only [ofText, received, if_pos empty]
    · simp only [ofText, received, if_neg empty]
  have name : stringMember (itemMembers b.formatTime item) "name" = some (some item.name) := by
    unfold stringMember
    rw [text "name" (by decide) (by decide)]
    rfl
  have type : stringMember (itemMembers b.formatTime item) "type" = some (some item.type) := by
    unfold stringMember
    rw [text "type" (by decide) (by decide)]
    rfl
  have status : stringMember (itemMembers b.formatTime item) "status" =
      some (some item.status) := by
    unfold stringMember
    rw [text "status" (by decide) (by decide)]
    rfl
  have summary : stringMember (itemMembers b.formatTime item) "summary" = some item.summary := by
    unfold stringMember
    rw [text "summary" (by decide) (by decide)]
    cases found : item.summary <;> rfl
  have truncated : boolMember (itemMembers b.formatTime item) "summary_truncated" =
      some (some item.summaryTruncated) := by
    unfold boolMember
    rw [text "summary_truncated" (by decide) (by decide)]
    rfl
  have updatedAt : stringMember (itemMembers b.formatTime item) "updated_at" =
      some (some (b.formatTime item.updatedAt)) := by
    unfold stringMember
    rw [text "updated_at" (by decide) (by decide)]
    rfl
  have tags : readTags (member (itemMembers b.formatTime item) "tags".toList) =
      (received b item).tags := by
    rw [text "tags" (by decide) (by decide)]
    exact readTags_strings item.tags
  unfold fromJson
  rw [resourceID, taskID, name, type, status, summary, truncated, updatedAt, tags]
  rfl

theorem parser_items (b : Backend) (items : List ResourceListItem) :
    parser b.parseTime
      (.array (items.map fun item => .object (itemMembers b.formatTime item))) =
        .ok (items.map (received b)) := by
  have each : (readItem b.parseTime ∘ fun item => Json.object (itemMembers b.formatTime item)) =
      fun item => pure (received b item) := funext (fromJson_itemMembers b)
  have all : (items.map fun item => Json.object (itemMembers b.formatTime item)).mapM
      (readItem b.parseTime) = some (items.map (received b)) := by
    rw [List.mapM_map, each]
    exact List.mapM_pure
  unfold parser itemsOf
  dsimp only
  rw [all]

theorem apiList_failed (b : Backend) (page : ℕ) (tag : Option Text) (type : DioExceptionType) :
    ∃ e, apiList b page tag (.failed type) = .failure e := by
  cases type <;> exact ⟨_, rfl⟩

theorem read_refused (b : Backend) {response : Response Json}
    (readable : response.body.errorFields.isSome = true) :
    ∃ e, read b (.error ⟨.badResponse, some response⟩) = .failure e := by
  obtain ⟨fields, found⟩ := Option.isSome_iff_exists.mp readable
  have mapped : ∃ e, ApiClient.mapDioException ⟨.badResponse, some response⟩ = some e := by
    unfold ApiClient.mapDioException
    dsimp only [Option.map_some, Option.getD_some]
    rw [found]
    dsimp only
    split
    · exact ⟨_, rfl⟩
    · split
      · exact ⟨_, rfl⟩
      · exact ⟨_, rfl⟩
  obtain ⟨e, mapped⟩ := mapped
  refine ⟨e, ?_⟩
  unfold read
  dsimp only
  rw [mapped]
  rfl

theorem apiList_ok {b : Backend} {page : ℕ} {tag : Option Text} {io : ListIO}
    {result : ListResourcesResult}
    (listed : handleList b.store io b.userID (queryOf page tag) = .ok result) (traceID : Text) :
    apiList b page tag (.handled io traceID) = .success (result.items.map (received b)) := by
  have served : answer b io traceID (queryOf page tag) = ⟨200, .envelope (.typed true)
      (.array (result.items.map fun item => .object (itemMembers b.formatTime item))) .null⟩ := by
    unfold answer
    rw [listed]
  have taken (body : ApiClient.Body Json) :
      (Answer.response ⟨200, body⟩).received = .ok ⟨200, body⟩ := by
    unfold Answer.received
    exact if_pos (by decide : (200 : ℕ) ≤ 200 ∧ (200 : ℕ) < 300)
  unfold apiList
  dsimp only
  rw [served, taken]
  unfold read ApiClient.unpackEnvelope
  dsimp only [ApiClient.Dynamic.cast]
  rw [parser_items]
  rfl

theorem apiList_error {b : Backend} {page : ℕ} {tag : Option Text} {io : ListIO}
    {e : AppErrors.AppError}
    (refused : handleList b.store io b.userID (queryOf page tag) = .error e) (traceID : Text) :
    ∃ f, apiList b page tag (.handled io traceID) = .failure f := by
  have served : answer b io traceID (queryOf page tag) = ⟨e.status, .envelope (.typed false) .null
      (.typed ⟨.typed e.code.toList, .typed e.message.toList, .typed traceID,
        .typed (retryable e.status e.code)⟩)⟩ := by
    unfold answer
    rw [refused]
  unfold apiList
  dsimp only
  rw [served]
  unfold Answer.received
  dsimp only
  by_cases taken : 200 ≤ e.status ∧ e.status < 300
  · rw [if_pos taken]
    exact ⟨_, rfl⟩
  · rw [if_neg taken]
    exact read_refused b rfl

theorem handleList_ok {b : Backend} {io : ListIO} {query : ListQuery} {result : ListResourcesResult}
    (listed : handleList b.store io b.userID query = .ok result) :
    ∃ page limit : ℤ, parsePage (query.page.getD "1".toList) = some page ∧
      parseLimit (query.limit.getD "20".toList) = some limit ∧
      list b.store io b.userID ⟨page, limit, query.tag.getD []⟩ = .ok result := by
  unfold handleList at listed
  cases page : parsePage (query.page.getD "1".toList) with
  | none =>
    rw [page] at listed
    cases listed
  | some p =>
    cases limit : parseLimit (query.limit.getD "20".toList) with
    | none =>
      rw [page, limit] at listed
      cases listed
    | some l =>
      rw [page, limit] at listed
      exact ⟨p, l, rfl, rfl, listed⟩

theorem isWhitespace_of_isSpace {c : Char} (space : GoText.isSpace c = true) :
    DartText.isWhitespace c = true := by
  have split : DartText.isWhitespace c = (GoText.isSpace c || c.toNat == 0xFEFF) := rfl
  rw [split, space, Bool.true_or]

theorem trimSpace_trim (text : Text) :
    GoText.trimSpace (DartText.trim text) = DartText.trim text := by
  have front : (DartText.trim text).dropWhile DartText.isWhitespace = DartText.trim text :=
    GoText.dropWhile_prefix ( List.rdropWhile_prefix _ _)
  have back : (DartText.trim text).rdropWhile DartText.isWhitespace = DartText.trim text :=
    List.rdropWhile_idempotent _ _
  rw [List.dropWhile_eq_self_iff] at front
  rw [List.rdropWhile_eq_self_iff] at back
  have first : (DartText.trim text).dropWhile GoText.isSpace = DartText.trim text :=
    List.dropWhile_eq_self_iff.mpr fun filled space =>
      front filled (isWhitespace_of_isSpace space)
  unfold GoText.trimSpace
  rw [first]
  exact List.rdropWhile_eq_self_iff.mpr fun filled space =>
    back filled (isWhitespace_of_isSpace space)

def shown (b : Backend) (r : TaskRecords.Resource) : Resource := received b (entry b.store r)

def listing (b : Backend) (tag : Option Text) : List Resource :=
  (matching b.store b.userID ((tag.map DartText.trim).getD [])).map (shown b)

def server (b : Backend) : Server Resource where
  listing := listing b
  distinct tag := by
    have ids : (listing b tag).map Resource.id = (matching b.store b.userID
        ((tag.map DartText.trim).getD [])).map TaskRecords.Resource.uuid := by
      unfold listing
      rw [List.map_map]
      rfl
    exact List.Nodup.of_map Resource.id (ids ▸ matching_uuids)

def Valid (tag : Option Text) : Prop :=
  ∀ t ∈ tag, DartText.trim t ≠ [] ∧ (DartText.trim t).length ≤ maxTagLength

theorem queryOf_tag (page : ℕ) (tag : Option Text) :
    GoText.trimSpace ((queryOf page (tag.map DartText.trim)).tag.getD []) =
      (tag.map DartText.trim).getD [] := by
  cases tag with
  | none => rfl
  | some t =>
    change GoText.trimSpace (((some (DartText.trim t)).filter (· ≠ [])).getD []) = DartText.trim t
    by_cases blank : DartText.trim t = []
    · rw [blank]
      rfl
    · rw [Option.filter_some_pos (by simpa using blank), Option.getD_some, trimSpace_trim]

theorem handled_items {b : Backend} {io : ListIO} {page : ℕ} {tag : Option Text}
    {result : ListResourcesResult}
    (listed : handleList b.store io b.userID (queryOf page (tag.map DartText.trim)) = .ok result) :
    ∃ p l : ℤ, parsePage (PythonText.decimal page) = some p ∧
      parseLimit (PythonText.decimal defaultResourcePageSize) = some l ∧
      result.items.map (received b) = (listByUserID b.store b.userID p l
        ((tag.map DartText.trim).getD [])).1.map (shown b) := by
  obtain ⟨p, l, first, second, listed⟩ := handleList_ok listed
  refine ⟨p, l, first, second, ?_⟩
  rw [list_cases listed, queryOf_tag]
  exact List.map_map

section Fetch

variable {b : Backend} {page : ℕ} {tag : Option Text} {delivery : Delivery}

theorem fetch_invalid (wrong : ¬ Valid tag) :
    ∃ errors, fetchResources b page tag delivery = some (.error (.validation errors)) := by
  cases tag with
  | none => exact absurd (fun t mem => (Option.not_mem_none t mem).elim) wrong
  | some t =>
    unfold fetchResources
    dsimp only [Option.map_some, Option.getD_some]
    by_cases blank : DartText.trim t = []
    · rw [if_pos (congrArg some blank)]
      exact ⟨_, rfl⟩
    · rw [if_neg fun same => blank (Option.some.inj same)]
      by_cases long : maxTagLength < (DartText.trim t).length
      · rw [if_pos long]
        exact ⟨_, rfl⟩
      · refine absurd (fun u mem => ?_) wrong
        rw [← Option.some.inj mem]
        exact ⟨blank, Nat.not_lt.mp long⟩

theorem fetch_valid (valid : Valid tag) :
    fetchResources b page tag delivery =
      fetched (apiList b page (tag.map DartText.trim) delivery) := by
  unfold fetchResources
  dsimp only
  cases tag with
  | none => rw [if_neg (by simp), if_neg (by simp)]
  | some t =>
    have both := valid t rfl
    rw [Option.map_some, Option.getD_some, if_neg fun same => both.1 (Option.some.inj same),
      if_neg (Nat.not_lt.mpr both.2)]

/-- Whatever arrives, it is resources of the user. -/
theorem fetch_own {resources : List Resource}
    (arrived : fetchResources b page tag delivery = some (.ok resources)) :
    ∀ resource ∈ resources, ∃ r ∈ b.store.resources.rows, r.userID = b.userID ∧
      resource = shown b r := by
  by_cases valid : Valid tag
  · rw [fetch_valid valid] at arrived
    cases delivery with
    | failed type =>
      obtain ⟨e, failed⟩ := apiList_failed b page (tag.map DartText.trim) type
      rw [failed] at arrived
      cases arrived
    | refused response =>
      unfold apiList read at arrived
      dsimp only at arrived
      cases mapped : ApiClient.mapDioException ⟨.badResponse, some response⟩ with
      | none =>
        rw [mapped] at arrived
        cases arrived
      | some e =>
        rw [mapped] at arrived
        cases arrived
    | handled io traceID =>
      cases listed : handleList b.store io b.userID (queryOf page (tag.map DartText.trim)) with
      | error e =>
        obtain ⟨f, failed⟩ := apiList_error listed traceID
        rw [failed] at arrived
        cases arrived
      | ok result =>
        rw [apiList_ok listed] at arrived
        obtain ⟨p, l, -, -, items⟩ := handled_items listed
        obtain rfl := Except.ok.inj (Option.some.inj arrived)
        intro resource mem
        rw [items] at mem
        obtain ⟨r, row, rfl⟩ := List.mem_map.mp mem
        have matches_ : r ∈ matching b.store b.userID ((tag.map DartText.trim).getD []) :=
          List.mem_of_mem_drop (List.mem_of_mem_take row)
        obtain ⟨there, own, -⟩ := mem_matching.mp matches_
        exact ⟨r, there, own, rfl⟩
  · obtain ⟨errors, failed⟩ := @fetch_invalid b page tag delivery valid
    rw [failed] at arrived
    cases arrived

inductive Answers (tag : Option Text) : Delivery → Reply AppException → Prop
  | invalid (wrong : ¬ Valid tag) (delivery : Delivery) (errors : List (String × String)) :
      Answers tag delivery (.failed (.validation errors))
  | served (valid : Valid tag) (io : ListIO) (traceID : Text) :
      Answers tag (.handled io traceID) .served
  | failed (valid : Valid tag) {delivery : Delivery}
      (faulty : ∀ traceID, delivery ≠ .handled {} traceID) (e : ApiClient.AppException) :
      Answers tag delivery (.failed (.api e))

def Delivery.Readable : Delivery → Prop
  | .refused response => response.body.errorFields.isSome = true
  | _ => True

end Fetch

section Steps

variable {b : Backend} {s : Browsing}

/-- What a step does to the list: it stays where it is, a page arrives, or a request fails. -/
theorem step_state (b : Backend) (s : Browsing) (e : Event) :
    ((step b s e).state.resources = s.state.resources ∧
      ((step b s e).state.currentPage = s.state.currentPage ∨
        (step b s e).state.currentPage = 1)) ∨
    ∃ request ∈ s.pending, (∃ resources delivery,
      fetchResources b request.page request.tag delivery = some (.ok resources) ∧
        (step b s e).state = onSuccess s.state resources request) ∨
      ∃ error, (step b s e).state = onFailure s.state error request := by
  cases e with
  | loadInitial => exact .inl ⟨rfl, .inr rfl⟩
  | loadMore =>
    unfold step loadMore
    dsimp only
    split
    · exact .inl ⟨rfl, .inl rfl⟩
    · exact .inl ⟨rfl, .inl rfl⟩
  | filterByTag tag => exact .inl ⟨rfl, .inr rfl⟩
  | clearFilter => exact .inl ⟨rfl, .inr rfl⟩
  | respond i delivery =>
    cases found : s.pending[i]? with
    | none =>
      unfold step
      dsimp only
      rw [found]
      exact .inl ⟨rfl, .inl rfl⟩
    | some request =>
      have waiting : request ∈ s.pending := List.mem_of_getElem? found
      cases fetched : fetchResources b request.page request.tag delivery with
      | none =>
        unfold step
        dsimp only
        rw [found]
        dsimp only
        rw [fetched]
        exact .inl ⟨rfl, .inl rfl⟩
      | some result =>
        refine .inr ⟨request, waiting, ?_⟩
        unfold step
        dsimp only
        rw [found]
        dsimp only
        rw [fetched]
        cases result with
        | ok resources => exact .inl ⟨resources, delivery, fetched, rfl⟩
        | error error => exact .inr ⟨error, rfl⟩

theorem step_pending {e : Event} {request : Request Resource AppException}
    (waiting : request ∈ (step b s e).pending) :
    request ∈ s.pending ∨ (∃ tag, request = .loadInitial tag) ∨
      (∃ tag, request = .loadMore (s.state.currentPage + 1) tag) ∨
      ∃ tag, request = .filterByTag tag s.state := by
  have last {new : Request Resource AppException} (mem : request ∈ s.pending ++ [new]) :
      request ∈ s.pending ∨ request = new :=
    (List.mem_append.mp mem).imp_right List.mem_singleton.mp
  cases e with
  | loadInitial => exact (last waiting).imp_right fun new => .inl ⟨_, new⟩
  | loadMore =>
    unfold step loadMore at waiting
    dsimp only at waiting
    split at waiting
    · exact .inl waiting
    · exact (last waiting).imp_right fun new => .inr (.inl ⟨_, new⟩)
  | filterByTag tag => exact (last waiting).imp_right fun new => .inr (.inr ⟨_, new⟩)
  | clearFilter => exact (last waiting).imp_right fun new => .inl ⟨_, new⟩
  | respond i delivery =>
    unfold step at waiting
    dsimp only at waiting
    split at waiting
    · exact .inl waiting
    · split at waiting
      · exact .inl (List.mem_of_mem_eraseIdx waiting)
      · exact .inl (List.mem_of_mem_eraseIdx waiting)
      · exact .inl (List.mem_of_mem_eraseIdx waiting)

end Steps

def Own (b : Backend) (s : ResourceListState Resource AppException) : Prop :=
  ∀ resource ∈ s.resources, ∃ r ∈ b.store.resources.rows, r.userID = b.userID ∧
    resource = shown b r

/-- The list is the user's own, and so is the one that a failed filter brings back. -/
def OwnSystem (b : Backend) (s : Browsing) : Prop :=
  Own b s.state ∧ ∀ tag previous, .filterByTag tag previous ∈ s.pending → Own b previous

theorem own_onSuccess {b : Backend} {s : ResourceListState Resource AppException}
    {resources : List Resource} {request : Request Resource AppException} (own : Own b s)
    (arrived : ∀ resource ∈ resources, ∃ r ∈ b.store.resources.rows, r.userID = b.userID ∧
      resource = shown b r) : Own b (onSuccess s resources request) := by
  cases request with
  | loadInitial tag => exact arrived
  | loadMore nextPage tag =>
    intro resource mem
    exact (List.mem_append.mp mem).elim (own resource) (arrived resource)
  | filterByTag tag previous => exact arrived

theorem own_step (b : Backend) (s : Browsing) (e : Event) (own : OwnSystem b s) :
    OwnSystem b (step b s e) := by
  refine ⟨?_, fun tag previous waiting => ?_⟩
  · rcases step_state b s e with ⟨same, -⟩ | ⟨request, waiting, arrived | failed⟩
    · unfold Own
      rw [same]
      exact own.1
    · obtain ⟨resources, delivery, fetched, state⟩ := arrived
      rw [state]
      exact own_onSuccess own.1 (fetch_own fetched)
    · obtain ⟨error, state⟩ := failed
      rw [state]
      cases request with
      | loadInitial tag => exact own.1
      | loadMore nextPage tag => exact own.1
      | filterByTag tag previous => exact own.2 tag previous waiting
  · rcases step_pending waiting with before | ⟨tag, new⟩ | ⟨tag, new⟩ | ⟨tag, new⟩
    · exact own.2 _ _ before
    · cases new
    · cases new
    · cases new
      exact own.1

/-- However requests and answers interleave, and whatever fails, the list only ever shows
resources of the signed-in user, as the gateway has them. -/
theorem run_own (b : Backend) (es : List Event) :
    EveryState (step b) (fun s => ∀ resource ∈ s.state.resources,
      ∃ r ∈ b.store.resources.rows, r.userID = b.userID ∧ resource = shown b r) .opened es := by
  have opened : OwnSystem b .opened := by
    refine ⟨fun resource mem => absurd mem List.not_mem_nil, fun tag previous waiting => ?_⟩
    cases List.mem_singleton.mp waiting
  exact everyState_imp (fun s own => own.1) (everyState_of_invariant (own_step b) es opened)

def InPages (n page : ℕ) : Prop := 1 ≤ page ∧ page ≤ n + 1

def RequestInPages (n : ℕ) : Request Resource AppException → Prop
  | .loadInitial _ => True
  | .loadMore nextPage _ => InPages n nextPage
  | .filterByTag _ previous => InPages n previous.currentPage

def Paged (n : ℕ) (s : Browsing) : Prop :=
  InPages n s.state.currentPage ∧ ∀ request ∈ s.pending, RequestInPages n request

theorem InPages.mono {n page : ℕ} (h : InPages n page) : InPages (n + 1) page :=
  ⟨h.1, Nat.le_succ_of_le h.2⟩

theorem inPages_one (n : ℕ) : InPages n 1 := ⟨Nat.le_refl 1, Nat.le_add_left 1 n⟩

theorem RequestInPages.mono {n : ℕ} {request : Request Resource AppException}
    (h : RequestInPages n request) : RequestInPages (n + 1) request := by
  cases request with
  | loadInitial tag => trivial
  | loadMore nextPage tag => exact InPages.mono h
  | filterByTag tag previous => exact InPages.mono h

theorem RequestInPages.page {n : ℕ} {request : Request Resource AppException}
    (h : RequestInPages n request) : InPages n request.page := by
  cases request with
  | loadInitial tag => exact inPages_one n
  | loadMore nextPage tag => exact h
  | filterByTag tag previous => exact inPages_one n

/-- What an event of the client amounts to on the list: a call is the call, and a delivery is
the reply of the server. -/
inductive Amounts (s : Browsing) : Event → ResourceList.Event AppException → Prop
  | loadInitial : Amounts s .loadInitial .loadInitial
  | loadMore : Amounts s .loadMore .loadMore
  | filterByTag (tag : Text) : Amounts s (.filterByTag tag) (.filterByTag tag)
  | clearFilter : Amounts s .clearFilter .clearFilter
  | respond (i : ℕ) {delivery : Delivery} {reply : Reply AppException}
      (answers : ∀ request, s.pending[i]? = some request → Answers request.tag delivery reply) :
      Amounts s (.respond i delivery) (.respond i reply)

def Event.Readable : Event → Prop
  | .respond _ delivery => delivery.Readable
  | _ => True

def InDate (s : Browsing) (e : Event) : Prop := ∀ d, Amounts s e d → ResourceList.InDate s d

def Listed (b : Backend) (s : ResourceListState Resource AppException) : Prop :=
  s.resources = ((matching b.store b.userID ((s.selectedTag.map DartText.trim).getD [])).map
    (shown b)).take (s.currentPage * defaultResourcePageSize)

end KnowledgeCompanion.ResourceBrowsing
