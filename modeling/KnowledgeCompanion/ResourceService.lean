import Mathlib.Data.List.MinMax
import KnowledgeCompanion.DartText
import KnowledgeCompanion.RagScope
import KnowledgeCompanion.SummaryService

/-! The resource list of the gateway (`handler/resource_handler.go` and
`service/resource_service.go` over the repositories): a page of the user's resources, filtered by
a join with the tags, with what three batched queries add to each of them. -/

namespace KnowledgeCompanion.ResourceService

open AppErrors Conversations ExtractionSave GoText GuardedRun OwnedRows QaService RagScope Ranking
open SummaryService (Summaries listFullByResourceIDs)
open TaskRecords (Resource Task Tasks)

def maxResourceTagLength : ℕ := 32

structure ListResourcesRequest where
  page : ℤ
  limit : ℤ
  tag : Text

structure ResourceListItem where
  resourceID : Text
  taskID : Text
  name : Text
  type : Text
  status : Text
  summary : Option Text
  summaryTruncated : Bool
  tags : List Text
  updatedAt : ℤ
deriving DecidableEq

structure ListResourcesResult where
  items : List ResourceListItem
  total : ℕ
deriving DecidableEq

structure Store (locale : ExtractionSave.Locale) where
  resources : LiveResources
  tags : Stored (tagSchema locale)
  summaries : Summaries
  tasks : Tasks

structure ListIO where
  resources : Option String := none
  summaries : Option String := none
  tags : Option String := none
  tasks : Option String := none

def resourceStatusLabel (status : UInt8) : Text :=
  if status = 1 then "uploading".toList
  else if status = 2 then "processing".toList
  else if status = 3 then "completed".toList
  else if status = 4 then "failed".toList
  else "unknown".toList

section Queries

variable {locale : ExtractionSave.Locale} (store : Store locale)

def equalTags (tag : Text) (r : Resource) : List ResourceTag :=
  store.tags.rows.filter fun t => t.resourceID == r.id && locale.weight t.tag == locale.weight tag

def selected (userID : ℕ) (tag : Text) : List Resource :=
  let own := store.resources.rows.filter fun r => r.userID == userID
  if tag = [] then own else own.flatMap fun r => (equalTags store tag r).map fun _ => r

def wrap (n : ℤ) : ℤ := Int.bmod n (2 ^ 64)

/-- The rows of one page and the number of all rows; an offset below zero is left out of the
query. -/
def listByUserID (userID : ℕ) (page limit : ℤ) (tag : Text) : List Resource × ℕ :=
  let rows := selected store userID tag
  let offset := wrap ((page - 1) * limit)
  (((rows.insertionSort ListedBefore).drop offset.toNat).take limit.toNat, rows.length)

def appendTo (result : List (ℕ × List Text)) (key : ℕ) (value : Text) : List (ℕ × List Text) :=
  match result with
  | [] => [(key, [value])]
  | (k, values) :: rest =>
    if k = key then (k, values ++ [value]) :: rest else (k, values) :: appendTo rest key value

def listTagsByResourceIDs (resourceIDs : List ℕ) : List (ℕ × List Text) :=
  ((store.tags.rows.filter fun t => resourceIDs.contains t.resourceID).insertionSort
    fun a b => a.resourceID ≤ b.resourceID).foldl
      (fun result t => appendTo result t.resourceID t.tag) []

def listTagsByResourceID (resourceID : ℕ) : List Text :=
  (store.tags.of resourceID).map ResourceTag.tag

def maxID (tasks : Tasks) (resourceID : ℕ) : Option ℕ :=
  ((tasks.rows.filter fun t => t.resourceID == resourceID).map Task.id).max?

def listLatestByResourceIDs (tasks : Tasks) (resourceIDs : List ℕ) : List (ℕ × Task) :=
  (tasks.rows.filter fun t => resourceIDs.contains t.resourceID &&
    maxID tasks t.resourceID == some t.id).foldl (fun result t => (t.resourceID, t) :: result) []

def itemOf (resourceIDs : List ℕ) (resource : Resource) : ResourceListItem where
  resourceID := resource.uuid
  taskID := (((listLatestByResourceIDs store.tasks resourceIDs).lookup resource.id).map
    Task.uuid).getD []
  name := resource.name
  type := resource.type
  status := resourceStatusLabel resource.status
  summary := (listFullByResourceIDs store.summaries resourceIDs).lookup resource.id
  summaryTruncated := false
  tags := ((listTagsByResourceIDs store resourceIDs).lookup resource.id).getD []
  updatedAt := resource.updatedAt

def list (io : ListIO) (userID : ℕ) (req : ListResourcesRequest) :
    Except AppError ListResourcesResult :=
  let tag := trimSpace req.tag
  if maxResourceTagLength < tag.length then
    .error ⟨400, codeValidationError, "tag length exceeds limit"⟩
  else if io.resources.isSome then .error (internal "internal server error")
  else
    let (resources, total) := listByUserID store userID req.page req.limit tag
    if resources = [] then .ok ⟨[], total⟩
    else if io.summaries.isSome || io.tags.isSome || io.tasks.isSome then
      .error (internal "internal server error")
    else .ok ⟨resources.map (itemOf store (resources.map Resource.id)), total⟩

end Queries

def defaultLimit : ℤ := 20

def maxLimit : ℤ := 100

def atoi (value : Text) : Option ℤ :=
  let (sign, digits) := DartText.signed value
  (DartText.decimalDigits digits).bind fun n => DartText.asInt (sign * n)

def parsePage (value : Text) : Option ℤ :=
  (atoi value).bind fun page => if page < 1 then none else some page

def parseLimit (value : Text) : Option ℤ :=
  match atoi value with
  | none => some defaultLimit
  | some limit =>
    let limit := if limit < 1 then defaultLimit else limit
    if maxLimit < limit then none else some limit

structure ListQuery where
  page : Option Text := none
  limit : Option Text := none
  tag : Option Text := none

def handleList {locale : ExtractionSave.Locale} (store : Store locale) (io : ListIO) (userID : ℕ)
    (query : ListQuery) : Except AppError ListResourcesResult :=
  match parsePage (query.page.getD "1".toList) with
  | none => .error ⟨400, codeValidationError, "invalid page parameter"⟩
  | some page =>
    match parseLimit (query.limit.getD "20".toList) with
    | none => .error ⟨400, codeValidationError, "invalid limit parameter"⟩
    | some limit => list store io userID ⟨page, limit, query.tag.getD []⟩

section Rows

variable {locale : ExtractionSave.Locale} {store : Store locale} {userID : ℕ} {tag : Text}

theorem join_eq_filter {α β : Type*} {partners : α → List β} {xs : List α}
    (once : ∀ a ∈ xs, (partners a).length ≤ 1) :
    (xs.flatMap fun a => (partners a).map fun _ => a) =
      xs.filter fun a => !(partners a).isEmpty := by
  induction xs with
  | nil => rfl
  | cons a xs ih =>
    have rest := ih fun b mem => once b (List.mem_cons_of_mem a mem)
    have first := once a List.mem_cons_self
    rw [List.flatMap_cons, rest, List.filter_cons]
    cases found : partners a with
    | nil => rfl
    | cons b others =>
      rw [found, List.length_cons] at first
      rw [List.eq_nil_of_length_eq_zero (Nat.le_zero.mp (Nat.le_of_succ_le_succ first))]
      rfl

theorem equalTags_once (store : Store locale) (tag : Text) (r : Resource) :
    (equalTags store tag r).length ≤ 1 := by
  have keys : (equalTags store tag r).map (tagSchema locale).key =
      List.replicate (equalTags store tag r).length (r.id, locale.weight tag) := by
    refine List.eq_replicate_iff.mpr ⟨List.length_map _, fun key mem => ?_⟩
    obtain ⟨t, listed, rfl⟩ := List.mem_map.mp mem
    have equal := (List.mem_filter.mp listed).2
    rw [Bool.and_eq_true, beq_iff_eq, beq_iff_eq] at equal
    exact Prod.ext equal.1 equal.2
  have distinct : ((equalTags store tag r).map (tagSchema locale).key).Nodup :=
    store.tags.unique.sublist (List.filter_sublist.map _)
  rwa [keys, List.nodup_replicate] at distinct

def Carries (store : Store locale) (tag : Text) (r : Resource) : Prop :=
  tag = [] ∨ ∃ t ∈ store.tags.rows, t.resourceID = r.id ∧ locale.weight t.tag = locale.weight tag

def matching (store : Store locale) (userID : ℕ) (tag : Text) : List Resource :=
  (selected store userID tag).insertionSort ListedBefore

theorem selected_filter (store : Store locale) (userID : ℕ) (tag : Text) :
    ∃ p : Resource → Bool, selected store userID tag = store.resources.rows.filter p ∧
      ∀ r, p r = true ↔ r.userID = userID ∧ Carries store tag r := by
  unfold selected
  by_cases all : tag = []
  · refine ⟨fun r => r.userID == userID, if_pos all, fun r => ?_⟩
    simp [Carries, all]
  · refine ⟨fun r => !(equalTags store tag r).isEmpty && r.userID == userID, ?_, fun r => ?_⟩
    · dsimp only
      rw [if_neg all, join_eq_filter fun r _ => equalTags_once store tag r, List.filter_filter]
    · rw [Bool.and_eq_true, Bool.not_eq_true', beq_iff_eq, and_comm, ← Bool.not_eq_true,
        List.isEmpty_iff, equalTags, List.filter_eq_nil_iff]
      simp [Carries, all]

theorem mem_matching {r : Resource} :
    r ∈ matching store userID tag ↔
      r ∈ store.resources.rows ∧ r.userID = userID ∧ Carries store tag r := by
  obtain ⟨p, rows, law⟩ := selected_filter store userID tag
  rw [matching, List.mem_insertionSort, rows, List.mem_filter, law]

theorem matching_uuids : ((matching store userID tag).map Resource.uuid).Nodup := by
  obtain ⟨p, rows, -⟩ := selected_filter store userID tag
  rw [matching, ((List.perm_insertionSort ListedBefore _).map Resource.uuid).nodup_iff, rows]
  exact store.resources.uuid_unique.sublist (List.filter_sublist.map _)

theorem matching_sorted : (matching store userID tag).Pairwise ListedBefore :=
  List.pairwise_insertionSort _ _

theorem listByUserID_eq {page limit : ℕ} (fits : page * limit < 2 ^ 63) :
    listByUserID store userID (page + 1) limit tag =
      (((matching store userID tag).drop (page * limit)).take limit,
        (matching store userID tag).length) := by
  have offset : wrap (((page : ℤ) + 1 - 1) * limit) = ((page * limit : ℕ) : ℤ) := by
    rw [add_sub_cancel_right, ← Int.natCast_mul, wrap, Int.bmod_eq_of_le (by omega) (by omega)]
  unfold listByUserID
  dsimp only
  rw [offset, Int.toNat_natCast, Int.toNat_natCast, matching, List.length_insertionSort]

end Rows

theorem lookup_cons_ne {α : Type*} {j k : ℕ} (other : k ≠ j) (a : α) (rest : List (ℕ × α)) :
    ((j, a) :: rest).lookup k = rest.lookup k := by
  rw [List.lookup_cons, beq_eq_false_iff_ne.mpr other]

theorem lookup_appendTo (result : List (ℕ × List Text)) (key : ℕ) (value : Text) (k : ℕ) :
    (appendTo result key value).lookup k =
      if k = key then some ((result.lookup key).getD [] ++ [value]) else result.lookup k := by
  induction result with
  | nil =>
    by_cases same : k = key
    · rw [if_pos same, same]
      exact List.lookup_cons_self
    · rw [if_neg same]
      exact lookup_cons_ne same _ _
  | cons first rest ih =>
    obtain ⟨j, values⟩ := first
    rw [appendTo]
    by_cases here : j = key
    · rw [if_pos here, here]
      by_cases same : k = key
      · rw [if_pos same, same, List.lookup_cons_self, List.lookup_cons_self, Option.getD_some]
      · rw [if_neg same, lookup_cons_ne same, lookup_cons_ne same]
    · rw [if_neg here]
      by_cases same : k = j
      · rw [same, List.lookup_cons_self, List.lookup_cons_self, if_neg here]
      · rw [lookup_cons_ne same, lookup_cons_ne same, lookup_cons_ne (Ne.symm here), ih]

theorem lookup_foldl_appendTo (rows : List ResourceTag) (result : List (ℕ × List Text)) (k : ℕ) :
    ((rows.foldl (fun result t => appendTo result t.resourceID t.tag) result).lookup k).getD [] =
      (result.lookup k).getD [] ++
        (rows.filter fun t => t.resourceID == k).map ResourceTag.tag := by
  induction rows generalizing result with
  | nil => simp
  | cons t rows ih =>
    rw [List.foldl_cons, ih, lookup_appendTo, List.filter_cons]
    by_cases here : t.resourceID = k
    · rw [if_pos here.symm, if_pos (beq_iff_eq.mpr here), here, Option.getD_some, List.map_cons,
        List.append_assoc]
      rfl
    · rw [if_neg (Ne.symm here), if_neg (by simpa using here)]

theorem beq_and_asked {resourceIDs : List ℕ} {id k : ℕ} (asked : id ∈ resourceIDs) :
    (k == id && resourceIDs.contains k) = (k == id) := by
  by_cases here : k = id
  · rw [here, List.contains_iff_mem.mpr asked, Bool.and_true]
  · rw [beq_eq_false_iff_ne.mpr here, Bool.false_and]

theorem lookup_tags {locale : ExtractionSave.Locale} (store : Store locale) {resourceIDs : List ℕ}
    {id : ℕ} (asked : id ∈ resourceIDs) :
    ((listTagsByResourceIDs store resourceIDs).lookup id).getD [] =
      listTagsByResourceID store id := by
  have total : Std.Total fun a b : ResourceTag => a.resourceID ≤ b.resourceID :=
    ⟨fun a b => Nat.le_total _ _⟩
  have trans : IsTrans ResourceTag fun a b => a.resourceID ≤ b.resourceID :=
    ⟨fun a b c => Nat.le_trans⟩
  have own : store.tags.rows.filter (fun t => t.resourceID == id &&
      resourceIDs.contains t.resourceID) = store.tags.of id := by
    refine List.filter_congr fun t _ => ?_
    change (t.resourceID == id && resourceIDs.contains t.resourceID) = (t.resourceID == id)
    exact beq_and_asked asked
  have level : (store.tags.of id).Pairwise fun a b => a.resourceID ≤ b.resourceID := by
    refine List.Pairwise.imp_of_mem (R := fun _ _ => True) ?_
      (List.pairwise_of_forall fun _ _ => trivial)
    intro a b left right _
    have first := beq_iff_eq.mp (List.mem_filter.mp left).2
    have second := beq_iff_eq.mp (List.mem_filter.mp right).2
    exact (first.trans second.symm).le
  rw [listTagsByResourceIDs, lookup_foldl_appendTo, filter_insertionSort, List.filter_filter, own,
    level.insertionSort_eq]
  rfl

def newestTask (tasks : Tasks) (resourceID : ℕ) : Option Task :=
  (tasks.rows.filter fun t => t.resourceID == resourceID).getLast?

theorem lookup_foldl_cons (rows : List Task) (result : List (ℕ × Task)) (k : ℕ) :
    (rows.foldl (fun result t => (t.resourceID, t) :: result) result).lookup k =
      ((rows.filter fun t => t.resourceID == k).getLast?).or (result.lookup k) := by
  induction rows generalizing result with
  | nil => simp
  | cons t rows ih =>
    rw [List.foldl_cons, ih, List.filter_cons]
    by_cases here : t.resourceID = k
    · rw [if_pos (beq_iff_eq.mpr here), List.getLast?_cons, here, List.lookup_cons_self]
      cases (rows.filter fun t => t.resourceID == k).getLast? <;> rfl
    · rw [if_neg (by simpa using here), lookup_cons_ne (Ne.symm here)]

theorem newestTask_eq (tasks : Tasks) (id : ℕ) :
    ((tasks.rows.filter fun t => t.resourceID == id).filter fun t =>
      maxID tasks id == some t.id).getLast? = newestTask tasks id := by
  have sorted : (tasks.rows.filter fun t => t.resourceID == id).Pairwise fun a b => a.id < b.id :=
    tasks.sorted.sublist List.filter_sublist
  unfold newestTask maxID
  generalize tasks.rows.filter (fun t => t.resourceID == id) = rows at sorted
  cases rows using List.reverseRecOn with
  | nil => rfl
  | append_singleton front last =>
    have before := (List.pairwise_append.mp sorted).2.2
    have largest : ((front ++ [last]).map Task.id).max? = some last.id := by
      rw [List.max?_eq_some_iff]
      refine ⟨by simp, fun k mem => ?_⟩
      obtain ⟨t, listed, rfl⟩ := List.mem_map.mp mem
      rcases List.mem_append.mp listed with early | late
      · exact (before t early last (List.mem_singleton_self _)).le
      · exact (List.mem_singleton.mp late ▸ Nat.le_refl _)
    have gone : front.filter (fun t => some last.id == some t.id) = [] := by
      refine List.filter_eq_nil_iff.mpr fun t early => ?_
      have smaller := before t early last (List.mem_singleton_self _)
      simp only [Option.some_beq_some, beq_iff_eq]
      omega
    rw [largest, List.filter_append, gone, List.nil_append]
    simp

theorem lookup_latest (tasks : Tasks) {resourceIDs : List ℕ} {id : ℕ} (asked : id ∈ resourceIDs) :
    (listLatestByResourceIDs tasks resourceIDs).lookup id = newestTask tasks id := by
  rw [listLatestByResourceIDs, lookup_foldl_cons, ← newestTask_eq, List.filter_filter,
    List.filter_filter, List.lookup_nil, Option.or_none]
  refine congrArg List.getLast? (List.filter_congr fun t _ => ?_)
  rw [← Bool.and_assoc, beq_and_asked asked]
  by_cases here : t.resourceID = id
  · rw [here, Bool.and_comm]
  · rw [beq_eq_false_iff_ne.mpr here, Bool.false_and, Bool.and_false]

section Pages

variable {locale : ExtractionSave.Locale} {store : Store locale} {userID : ℕ}

def entry (store : Store locale) (r : Resource) : ResourceListItem := itemOf store [r.id] r

theorem itemOf_eq {resourceIDs : List ℕ} {r : Resource} (asked : r.id ∈ resourceIDs) :
    itemOf store resourceIDs r = entry store r := by
  have alone : r.id ∈ [r.id] := List.mem_singleton_self _
  unfold entry itemOf
  rw [lookup_latest store.tasks asked, lookup_latest store.tasks alone, lookup_tags store asked,
    lookup_tags store alone, SummaryService.lookup_full, SummaryService.lookup_full, if_pos asked,
    if_pos alone]

theorem list_cases {io : ListIO} {req : ListResourcesRequest} {result : ListResourcesResult}
    (listed : list store io userID req = .ok result) :
    result =
      ⟨(listByUserID store userID req.page req.limit (trimSpace req.tag)).1.map (entry store),
        (listByUserID store userID req.page req.limit (trimSpace req.tag)).2⟩ := by
  rw [list] at listed
  dsimp only at listed
  split at listed
  · cases listed
  · split at listed
    · cases listed
    · split at listed
      · rename_i empty
        rw [empty, List.map_nil]
        exact (Except.ok.inj listed).symm
      · split at listed
        · cases listed
        · rw [← Except.ok.inj listed]
          refine congrArg (ListResourcesResult.mk · _) (List.map_congr_left fun r mem => ?_)
          exact itemOf_eq (List.mem_map_of_mem mem)

theorem list_served {req : ListResourcesRequest}
    (short : (trimSpace req.tag).length ≤ maxResourceTagLength) :
    list store {} userID req =
      .ok ⟨(listByUserID store userID req.page req.limit (trimSpace req.tag)).1.map (entry store),
        (listByUserID store userID req.page req.limit (trimSpace req.tag)).2⟩ := by
  cases listed : list store {} userID req with
  | ok result => rw [list_cases listed]
  | error e =>
    rw [list] at listed
    dsimp only at listed
    rw [if_neg (Nat.not_lt.mpr short), if_neg (by decide)] at listed
    split at listed
    · cases listed
    · cases listed

/-- The pages of a list go once through the resources of the user that carry the tag, the
latest first, and each says how many there are. -/
theorem pages_partition (store : Store locale) (userID : ℕ) {tag : Text}
    (short : (trimSpace tag).length ≤ maxResourceTagLength) :
    ∃ rows : List Resource, rows.Nodup ∧ rows.Pairwise ListedBefore ∧
      (∀ r, r ∈ rows ↔
        r ∈ store.resources.rows ∧ r.userID = userID ∧ Carries store (trimSpace tag) r) ∧
      ∀ page limit : ℕ, page * limit < 2 ^ 63 →
        list store {} userID ⟨page + 1, limit, tag⟩ =
          .ok ⟨((rows.drop (page * limit)).take limit).map (entry store), rows.length⟩ := by
  refine ⟨matching store userID (trimSpace tag), matching_uuids.of_map _, matching_sorted,
    fun r => mem_matching, fun page limit fits => ?_⟩
  have served := @list_served locale store userID ⟨page + 1, limit, tag⟩ short
  rw [served, listByUserID_eq fits]

/-- What other queries say of the resource of an item. -/
structure Reads (store : Store locale) (r : Resource) (item : ResourceListItem) : Prop where
  row : item.resourceID = r.uuid ∧ item.name = r.name ∧ item.type = r.type ∧
    item.status = resourceStatusLabel r.status ∧ item.updatedAt = r.updatedAt
  tags : item.tags = listTagsByResourceID store r.id
  summary : item.summary = (SummaryService.getByResource store.resources store.summaries
    r.userID r.uuid).toOption.bind fun summary =>
      if summary.fullSummary = [] then none else some summary.fullSummary
  task : (item.taskID = [] ∧ ∀ t ∈ store.tasks.rows, t.resourceID ≠ r.id) ∨
    ∃ t ∈ store.tasks.rows, t.resourceID = r.id ∧ item.taskID = t.uuid ∧
      ∀ other ∈ store.tasks.rows, other.resourceID = r.id → other.id ≤ t.id

theorem newestTask_spec (tasks : Tasks) (id : ℕ) :
    (newestTask tasks id = none ∧ ∀ t ∈ tasks.rows, t.resourceID ≠ id) ∨
      ∃ t ∈ tasks.rows, newestTask tasks id = some t ∧ t.resourceID = id ∧
        ∀ other ∈ tasks.rows, other.resourceID = id → other.id ≤ t.id := by
  have sorted : (tasks.rows.filter fun t => t.resourceID == id).Pairwise fun a b => a.id < b.id :=
    tasks.sorted.sublist List.filter_sublist
  have member {t : Task} : t ∈ tasks.rows.filter (fun t => t.resourceID == id) ↔
      t ∈ tasks.rows ∧ t.resourceID = id := by
    rw [List.mem_filter, beq_iff_eq]
  unfold newestTask
  generalize tasks.rows.filter (fun t => t.resourceID == id) = rows at sorted member
  cases rows using List.reverseRecOn with
  | nil => exact .inl ⟨rfl, fun t mem own => absurd (member.mpr ⟨mem, own⟩) List.not_mem_nil⟩
  | append_singleton front last =>
    right
    obtain ⟨there, own⟩ := member.mp (List.mem_append_right front (List.mem_singleton_self last))
    refine ⟨last, there, List.getLast?_concat, own, fun other mem same => ?_⟩
    rcases List.mem_append.mp (member.mpr ⟨mem, same⟩) with early | late
    · exact ((List.pairwise_append.mp sorted).2.2 other early last
        (List.mem_singleton_self _)).le
    · exact (List.mem_singleton.mp late) ▸ Nat.le_refl _

theorem getByUUIDAndUserID_own {r : Resource} (mem : r ∈ store.resources.rows) :
    SummaryService.getByUUIDAndUserID store.resources r.uuid r.userID = some r := by
  unfold SummaryService.getByUUIDAndUserID
  cases found : store.resources.rows.find? fun other =>
      store.resources.collation.same other.uuid r.uuid && other.userID == r.userID with
  | none =>
    have missed := List.find?_eq_none.mp found r mem
    simp at missed
  | some other =>
    have equal := List.find?_some found
    rw [Bool.and_eq_true, KeyedTable.Collation.same_iff] at equal
    exact congrArg some (List.inj_on_of_nodup_map store.resources.unique
      (List.mem_of_find?_eq_some found) mem equal.1)

theorem entry_reads {es : List SummaryService.Event}
    (saved : store.summaries =
      (exec (SummaryService.step store.resources) SummaryService.noSummaries es).table)
    {r : Resource} (mem : r ∈ store.resources.rows) : Reads store r (entry store r) := by
  have alone : r.id ∈ [r.id] := List.mem_singleton_self _
  refine ⟨⟨rfl, rfl, rfl, rfl, rfl⟩, lookup_tags store alone, ?_, ?_⟩
  · have agrees := SummaryService.run_agrees store.resources es
    change (listFullByResourceIDs store.summaries [r.id]).lookup r.id = _
    rw [SummaryService.lookup_full, if_pos alone, saved, SummaryService.newestFull_eq agrees,
      SummaryService.getByResource_eq store.resources agrees,
      getByUUIDAndUserID_own mem]
    dsimp only
    cases (exec (SummaryService.step store.resources) SummaryService.noSummaries es).latest
        r.id with
    | none => rfl
    | some p => rfl
  · have taskID : (entry store r).taskID = ((newestTask store.tasks r.id).map Task.uuid).getD [] :=
      congrArg (fun found => (Option.map Task.uuid found).getD []) (lookup_latest store.tasks alone)
    rw [taskID]
    rcases newestTask_spec store.tasks r.id with ⟨none, others⟩ | ⟨t, there, newest, own, latest⟩
    · exact .inl ⟨by rw [none]; rfl, others⟩
    · exact .inr ⟨t, there, own, by rw [newest]; rfl, latest⟩

/-- Whatever is listed, by any request, an item shows of a resource of the user what the queries
for that resource alone show. -/
theorem list_reads {es : List SummaryService.Event}
    (saved : store.summaries =
      (exec (SummaryService.step store.resources) SummaryService.noSummaries es).table)
    {io : ListIO} {req : ListResourcesRequest} {result : ListResourcesResult}
    (listed : list store io userID req = .ok result) :
    ∀ item ∈ result.items, ∃ r ∈ store.resources.rows, r.userID = userID ∧
      Carries store (trimSpace req.tag) r ∧ Reads store r item := by
  intro item mem
  rw [list_cases listed] at mem
  obtain ⟨r, shown, rfl⟩ := List.mem_map.mp mem
  have matches_ : r ∈ matching store userID (trimSpace req.tag) :=
    List.mem_of_mem_drop (List.mem_of_mem_take shown)
  obtain ⟨there, own, carries⟩ := mem_matching.mp matches_
  exact ⟨r, there, own, carries, entry_reads saved there⟩

end Pages

def notes : Resource := { slides with id := 8, uuid := "res-2".toList, updatedAt := 5 }

def lectures : LiveResources := .exact [slides, notes] (by decide) (by decide)

def summarised : List SummaryService.Event :=
  [⟨slides.uuid, ⟨"Draft".toList, [], [], 0, false⟩, { now := 1 }⟩,
    ⟨slides.uuid, ⟨"Sorting".toList, [], [], 0, false⟩, { now := 2 }⟩]

def lectureStore : Store plainLocale where
  resources := lectures
  tags := ⟨[⟨7, "AI".toList, "llm".toList⟩, ⟨8, "Go".toList, "llm".toList⟩,
    ⟨8, "AI".toList, "llm".toList⟩], by decide⟩
  summaries :=
    (exec (SummaryService.step lectures) SummaryService.noSummaries summarised).table
  tasks := TaskRecords.insertTask (TaskRecords.insertTask .empty "t1".toList 8 1 [] 0) "t2".toList
    8 1 [] 1

theorem pages_partition_lectures :
    ∃ rows : List Resource, rows.Nodup ∧ rows.Pairwise ListedBefore ∧
      (∀ r, r ∈ rows ↔ r ∈ lectures.rows ∧ r.userID = 1 ∧ Carries lectureStore "AI".toList r) ∧
      ∀ page limit : ℕ, page * limit < 2 ^ 63 →
        list lectureStore {} 1 ⟨page + 1, limit, " AI ".toList⟩ =
          .ok ⟨((rows.drop (page * limit)).take limit).map (entry lectureStore), rows.length⟩ :=
  @pages_partition plainLocale lectureStore 1 " AI ".toList (by decide)

theorem list_reads_lectures :
    ∃ result, list lectureStore {} 1 ⟨1, 20, " AI ".toList⟩ = .ok result ∧
      result.items.map (fun item => (item.taskID, item.summary, item.tags)) =
        [("t2".toList, none, ["Go".toList, "AI".toList]),
          ([], some "Sorting".toList, ["AI".toList])] ∧
      ∀ item ∈ result.items, ∃ r ∈ lectures.rows, r.userID = 1 ∧
        Carries lectureStore "AI".toList r ∧ Reads lectureStore r item :=
  ⟨_, list_served (by decide), by decide +kernel,
    list_reads rfl (list_served (by decide))⟩

end KnowledgeCompanion.ResourceService
