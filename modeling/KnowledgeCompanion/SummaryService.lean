import Mathlib.Data.List.Sort
import Mathlib.Data.Rat.Defs
import KnowledgeCompanion.ExtractionSave
import KnowledgeCompanion.GuardedRun

/-! The summaries of resources (`service/summary_service.go` over
`repository/summary_repository.go`): what a worker reports replaces what was stored, and users
read it back, one resource at a time or many in one query. -/

namespace KnowledgeCompanion.SummaryService

open AppErrors Conversations ExtractionSave GuardedRun KeyedTable OwnedRows Ranking
open TaskRecords (Resource)

structure SectionSummary where
  title : Text
  summary : Text
  pageRange : List ℤ
  timestampRange : List ℚ
deriving DecidableEq

structure SaveSummaryRequest where
  fullSummary : Text
  sections : List SectionSummary
  model : Text
  tokens : ℤ
  fallback : Bool

inductive MetaValue
  | text (value : Text)
  | ints (values : List ℤ)
  | floats (values : List ℚ)

abbrev MetaDocument := List (String × MetaValue)

def marshalMeta (s : SectionSummary) : MetaDocument :=
  ("title", .text s.title) ::
    ((if s.pageRange = [] then [] else [("page_range", .ints s.pageRange)]) ++
      if s.timestampRange = [] then [] else [("timestamp_range", .floats s.timestampRange)])

def textOf : Option MetaValue → Text
  | some (.text value) => value
  | _ => []

def intsOf : Option MetaValue → List ℤ
  | some (.ints values) => values
  | _ => []

def floatsOf : Option MetaValue → List ℚ
  | some (.floats values) => values
  | _ => []

/-- `json.Unmarshal` leaves what is missing at its zero value. -/
def unmarshalMeta (document : MetaDocument) (content : Text) : SectionSummary where
  title := textOf (document.lookup "title")
  summary := content
  pageRange := intsOf (document.lookup "page_range")
  timestampRange := floatsOf (document.lookup "timestamp_range")

theorem unmarshal_marshal (s : SectionSummary) : unmarshalMeta (marshalMeta s) s.summary = s := by
  obtain ⟨title, summary, pages, times⟩ := s
  cases pages <;> cases times <;> rfl

inductive SummaryType
  | full
  | ofSection
deriving DecidableEq

def SummaryType.rank : SummaryType → ℕ
  | .full => 0
  | .ofSection => 1

structure SummaryRecord where
  resourceID : ℕ
  type : SummaryType
  content : Text
  sectionMeta : MetaDocument
  model : Text
  tokens : ℤ
  fallback : Bool

structure Summary where
  id : ℕ
  record : SummaryRecord
  updatedAt : ℤ

abbrev Summaries := Table Summary Summary.id

def fullRecord (resourceID : ℕ) (req : SaveSummaryRequest) : SummaryRecord where
  resourceID := resourceID
  type := .full
  content := req.fullSummary
  sectionMeta := []
  model := req.model
  tokens := req.tokens
  fallback := req.fallback

def sectionRecord (resourceID : ℕ) (req : SaveSummaryRequest) (s : SectionSummary) :
    SummaryRecord where
  resourceID := resourceID
  type := .ofSection
  content := s.summary
  sectionMeta := marshalMeta s
  model := req.model
  tokens := req.tokens
  fallback := req.fallback

def records (resourceID : ℕ) (req : SaveSummaryRequest) : List SummaryRecord :=
  (if req.fullSummary = [] then [] else [fullRecord resourceID req]) ++
    req.sections.map (sectionRecord resourceID req)

/-- What goes wrong during a call, the keys that an undone insert takes, and the time. -/
structure SummaryIO where
  getResource : Option String := none
  statement : Statement → Bool := fun _ => false
  taken : ℕ := 0
  now : ℤ

def insertRecords (now : ℤ) (table : Summaries) (records : List SummaryRecord) : Summaries :=
  table.insertAll (fun record id => ⟨id, record, now⟩) (fun _ _ => rfl) records

def upsertMany (io : SummaryIO) (table : Summaries) (records : List SummaryRecord) :
    Bool × Summaries :=
  match records with
  | [] => (true, table)
  | first :: _ =>
    if io.statement .delete then (false, table)
    else if io.statement .create || io.statement .commit then (false, table.skip io.taken)
    else
      (true, insertRecords io.now
        (table.keep fun row => row.record.resourceID != first.resourceID) records)

def saveInternal (io : SummaryIO) (resources : LiveResources) (table : Summaries)
    (resourceUUID : Text) (req : SaveSummaryRequest) :
    Except AppError Unit × Summaries :=
  match getByUUID resources io.getResource resourceUUID with
  | .error .notFound => (.error ⟨404, "RESOURCE_NOT_FOUND", "resource not found"⟩, table)
  | .error _ => (.error (internal "internal server error"), table)
  | .ok resource =>
    if records resource.id req = [] then (.error (badRequest "summary content is empty"), table)
    else
      match upsertMany io table (records resource.id req) with
      | (false, table) => (.error (internal "internal server error"), table)
      | (true, table) => (.ok (), table)

structure ResourceSummary where
  resourceID : Text
  fullSummary : Text
  sections : List SectionSummary
  model : Text
  fallback : Bool
  updatedAt : Option ℤ
deriving DecidableEq

def Listed (a b : Summary) : Prop :=
  a.record.type.rank < b.record.type.rank ∨ (a.record.type = b.record.type ∧ a.id ≤ b.id)

instance : DecidableRel Listed := fun _ _ => inferInstanceAs (Decidable (_ ∨ _))

def listByResourceID (table : Summaries) (resourceID : ℕ) : List Summary :=
  (table.rows.filter fun row => row.record.resourceID == resourceID).insertionSort Listed

def laterOf (shown : Option ℤ) (at' : ℤ) : Option ℤ :=
  match shown with
  | none => some at'
  | some shown => some (if shown < at' then at' else shown)

def addRecord (result : ResourceSummary) (record : SummaryRecord) (updatedAt : ℤ) :
    ResourceSummary :=
  let result := { result with
    updatedAt := laterOf result.updatedAt updatedAt
    model := if result.model = [] then record.model else result.model
    fallback := result.fallback || record.fallback }
  match record.type with
  | .full => { result with fullSummary := record.content }
  | .ofSection =>
    { result with sections := result.sections ++ [unmarshalMeta record.sectionMeta record.content] }

def emptySummary (resource : Resource) : ResourceSummary := ⟨resource.uuid, [], [], [], false, none⟩

def getByUUIDAndUserID (resources : LiveResources) (uuid : Text) (userID : ℕ) :
    Option Resource :=
  resources.rows.find? fun r => resources.collation.same r.uuid uuid && r.userID == userID

def getByResource (resources : LiveResources) (table : Summaries) (userID : ℕ)
    (resourceUUID : Text) : Except AppError ResourceSummary :=
  match getByUUIDAndUserID resources resourceUUID userID with
  | none => .error ⟨404, "RESOURCE_NOT_FOUND", "resource not found"⟩
  | some resource =>
    match listByResourceID table resource.id with
    | [] => .error ⟨404, "SUMMARY_NOT_FOUND", "summary not found"⟩
    | rows =>
      .ok (rows.foldl (fun result row => addRecord result row.record row.updatedAt)
        (emptySummary resource))

def NewestFirst (a b : Summary) : Prop :=
  b.updatedAt < a.updatedAt ∨ (a.updatedAt = b.updatedAt ∧ b.id ≤ a.id)

instance : DecidableRel NewestFirst := fun _ _ => inferInstanceAs (Decidable (_ ∨ _))

def listFullByResourceIDs (table : Summaries) (resourceIDs : List ℕ) : List (ℕ × Text) :=
  let rows := table.rows.filter fun row =>
    resourceIDs.contains row.record.resourceID && row.record.type == .full
  (firstOfEach (fun row => row.record.resourceID) [] (rows.insertionSort NewestFirst)).map
    fun row => (row.record.resourceID, row.record.content)

structure Event where
  resourceUUID : Text
  req : SaveSummaryRequest
  io : SummaryIO

structure Tracked where
  table : Summaries
  latest : ℕ → Option (SaveSummaryRequest × ℤ)

variable (resources : LiveResources)

def step (s : Tracked) (e : Event) : Tracked :=
  let (result, table) := saveInternal e.io resources s.table e.resourceUUID e.req
  match result, getByUUID resources e.io.getResource e.resourceUUID with
  | .ok _, .ok resource => ⟨table, fun id =>
      if id = resource.id then some (e.req, e.io.now) else s.latest id⟩
  | _, _ => ⟨table, s.latest⟩

def noSummaries : Tracked := ⟨.empty, fun _ => none⟩

def stored (resourceID : ℕ) : Option (SaveSummaryRequest × ℤ) → List (SummaryRecord × ℤ)
  | none => []
  | some (req, now) => (records resourceID req).map fun record => (record, now)

def rowsOf (table : Summaries) (resourceID : ℕ) : List Summary :=
  table.rows.filter fun row => row.record.resourceID == resourceID

def columns (row : Summary) : SummaryRecord × ℤ := (row.record, row.updatedAt)

/-- The table holds just the last request of each resource. -/
structure Agrees (s : Tracked) : Prop where
  rows : ∀ id, (rowsOf s.table id).map columns = stored id (s.latest id)
  filled : ∀ id, ∀ p ∈ s.latest id, records id p.1 ≠ []

theorem records_owner {resourceID : ℕ} {req : SaveSummaryRequest} :
    ∀ record ∈ records resourceID req, record.resourceID = resourceID := by
  intro record mem
  rcases List.mem_append.mp mem with full | part
  · split at full
    · exact absurd full List.not_mem_nil
    · rw [List.mem_singleton.mp full]
      rfl
  · obtain ⟨s, -, rfl⟩ := List.mem_map.mp part
    rfl

theorem columns_inserted {now : ℤ} {rs : List SummaryRecord} {added : List Summary}
    (made : List.Forall₂ (fun record row => row = (⟨row.id, record, now⟩ : Summary)) rs added) :
    added.map columns = rs.map fun record => (record, now) := by
  induction made with
  | nil => rfl
  | cons first rest ih =>
    rw [List.map_cons, List.map_cons, ih, first]
    rfl

theorem rowsOf_insertRecords (table : Summaries) (now : ℤ) {resourceID : ℕ}
    {rs : List SummaryRecord} (owner : ∀ record ∈ rs, record.resourceID = resourceID) (id : ℕ) :
    (rowsOf (insertRecords now (table.keep fun row => row.record.resourceID != resourceID) rs)
        id).map columns =
      if id = resourceID then rs.map fun record => (record, now)
      else (rowsOf table id).map columns := by
  obtain ⟨added, rows, made⟩ := Table.rows_insertAll
    (fun record id => (⟨id, record, now⟩ : Summary)) (fun _ _ => rfl)
    (table.keep fun row => row.record.resourceID != resourceID) rs
  have new := columns_inserted made
  have owned : ∀ row ∈ added, row.record.resourceID = resourceID := by
    intro row mem
    have column : columns row ∈ rs.map fun record => (record, now) := new ▸ List.mem_map_of_mem mem
    obtain ⟨record, mem, same⟩ := List.mem_map.mp column
    rw [← (Prod.mk.inj same).1]
    exact owner record mem
  rw [rowsOf, insertRecords, rows, Table.keep, List.filter_append, List.filter_filter]
  split
  · rename_i here
    have gone : table.rows.filter (fun row => row.record.resourceID == id &&
        row.record.resourceID != resourceID) = [] := by
      simp [here]
    have all : added.filter (fun row => row.record.resourceID == id) = added :=
      List.filter_eq_self.mpr fun row mem => beq_iff_eq.mpr ((owned row mem).trans here.symm)
    rw [gone, all, List.nil_append, new]
  · rename_i other
    have none : added.filter (fun row => row.record.resourceID == id) = [] :=
      List.filter_eq_nil_iff.mpr fun row mem same =>
        other ((beq_iff_eq.mp same).symm.trans (owned row mem))
    rw [none, List.append_nil, rowsOf]
    refine congrArg (List.map columns) (List.filter_congr fun row _ => ?_)
    by_cases same : row.record.resourceID = id
    · simp [same, other]
    · simp [same]

/-- A save stores the whole request under its resource, or fails and leaves all rows alone. -/
theorem step_cases (s : Tracked) (e : Event) :
    (∃ resource : Resource, records resource.id e.req ≠ [] ∧
      (∀ id, (rowsOf (step resources s e).table id).map columns =
        if id = resource.id then stored id (some (e.req, e.io.now))
        else (rowsOf s.table id).map columns) ∧
      ∀ id, (step resources s e).latest id =
        if id = resource.id then some (e.req, e.io.now) else s.latest id) ∨
    (step resources s e).table.rows = s.table.rows ∧
      (step resources s e).latest = s.latest := by
  cases found : getByUUID resources e.io.getResource e.resourceUUID with
  | error cause =>
    right
    cases cause <;> simp [step, saveInternal, found]
  | ok resource =>
    cases made : records resource.id e.req with
    | nil =>
      right
      simp [step, saveInternal, found, made]
    | cons first rest =>
      have owner : ∀ record ∈ records resource.id e.req, record.resourceID = resource.id :=
        records_owner
      have here : first.resourceID = resource.id :=
        owner first (by rw [made]; exact List.mem_cons_self)
      have filled : records resource.id e.req ≠ [] := by
        rw [made]
        exact List.cons_ne_nil _ _
      by_cases deletes : e.io.statement .delete = true
      · right
        simp [step, saveInternal, found, made, upsertMany, deletes]
      · by_cases later : (e.io.statement .create || e.io.statement .commit) = true
        · right
          simp [step, saveInternal, found, made, upsertMany, deletes, later, Table.skip]
        · left
          have saved : saveInternal e.io resources s.table e.resourceUUID e.req =
              (.ok (), insertRecords e.io.now (s.table.keep fun row =>
                row.record.resourceID != resource.id) (records resource.id e.req)) := by
            rw [saveInternal, found]
            dsimp only
            rw [if_neg filled, made, upsertMany, if_neg deletes, if_neg later, here]
          have after : step resources s e = ⟨insertRecords e.io.now (s.table.keep fun row =>
                row.record.resourceID != resource.id) (records resource.id e.req), fun id =>
              if id = resource.id then some (e.req, e.io.now) else s.latest id⟩ := by
            rw [step, saved, found]
          rw [after]
          refine ⟨resource, filled, fun id => ?_, fun id => rfl⟩
          rw [rowsOf_insertRecords s.table e.io.now owner id]
          split
          · rename_i same
            rw [same]
            rfl
          · rfl

theorem step_agrees {s : Tracked} {e : Event} (agrees : Agrees s) :
    Agrees (step resources s e) := by
  rcases step_cases resources s e with ⟨resource, filled, rows, latest⟩ | ⟨rows, latest⟩
  · refine ⟨fun id => ?_, fun id p last => ?_⟩
    · rw [rows, latest]
      split
      · rfl
      · exact agrees.rows id
    · rw [latest] at last
      split at last
      · rename_i same
        rw [← Option.some.inj last, same]
        exact filled
      · exact agrees.filled id p last
  · refine ⟨fun id => ?_, fun id p last => agrees.filled id p (latest ▸ last)⟩
    rw [latest, rowsOf, rows]
    exact agrees.rows id

theorem run_agrees (es : List Event) : Agrees (exec (step resources) noSummaries es) := by
  suffices kept : EveryState (step resources) Agrees noSummaries es from kept.last
  refine everyState_of_invariant (fun s e agrees => step_agrees resources agrees) es ?_
  exact ⟨fun _ => rfl, fun _ _ absent => absurd absent (Option.not_mem_none _)⟩

abbrev headed (resource : Resource) (req : SaveSummaryRequest) (now : ℤ) (full : Text)
    (sections : List SectionSummary) : ResourceSummary where
  resourceID := resource.uuid
  fullSummary := full
  sections := sections
  model := req.model
  fallback := req.fallback
  updatedAt := some now

def summaryOf (resource : Resource) (req : SaveSummaryRequest) (now : ℤ) : ResourceSummary :=
  headed resource req now req.fullSummary req.sections

theorem listBy_eq {table : Summaries} {id : ℕ} {req : SaveSummaryRequest} {now : ℤ}
    (rows : (rowsOf table id).map columns = (records id req).map fun record => (record, now)) :
    listByResourceID table id = rowsOf table id := by
  have types : (records id req).Pairwise fun a b =>
      a.type.rank < b.type.rank ∨ a.type = b.type := by
    refine List.pairwise_append.mpr ⟨?_, ?_, fun a mem b later => ?_⟩
    · split
      · exact .nil
      · exact List.pairwise_singleton _ _
    · exact List.pairwise_map.mpr (List.pairwise_of_forall fun _ _ => .inr rfl)
    · obtain ⟨part, -, rfl⟩ := List.mem_map.mp later
      split at mem
      · exact absurd mem List.not_mem_nil
      · rw [List.mem_singleton.mp mem]
        exact .inl Nat.zero_lt_one
  have inTable : (rowsOf table id).Pairwise fun a b =>
      a.record.type.rank < b.record.type.rank ∨ a.record.type = b.record.type := by
    have stamped : ((records id req).map fun record => (record, now)).Pairwise fun a b =>
        a.1.type.rank < b.1.type.rank ∨ a.1.type = b.1.type := List.pairwise_map.mpr types
    rw [← rows] at stamped
    exact List.pairwise_map.mp stamped
  have ids : (rowsOf table id).Pairwise fun a b => a.id < b.id := table.sorted.filter _
  refine List.Pairwise.insertionSort_eq (inTable.imp₂ (fun a b order lower => ?_) ids)
  exact order.imp_right fun same => ⟨same, lower.le⟩

section Fold

variable (resource : Resource) (req : SaveSummaryRequest) (now : ℤ) (id : ℕ)

theorem addRecord_full :
    addRecord (emptySummary resource) (fullRecord id req) now =
      headed resource req now req.fullSummary [] := by
  rfl

theorem addRecord_first (s : SectionSummary) :
    addRecord (emptySummary resource) (sectionRecord id req s) now =
      headed resource req now [] [s] := by
  have same := unmarshal_marshal s
  change headed resource req now [] ([] ++ [unmarshalMeta (marshalMeta s) s.summary]) = _
  rw [same, List.nil_append]

theorem addRecord_next (full : Text) (sections : List SectionSummary) (s : SectionSummary) :
    addRecord (headed resource req now full sections) (sectionRecord id req s) now =
      headed resource req now full (sections ++ [s]) := by
  simp [addRecord, sectionRecord, laterOf, unmarshal_marshal]

theorem foldl_sections (full : Text) (before sections : List SectionSummary) :
    (sections.map (sectionRecord id req)).foldl (fun result record => addRecord result record now)
        (headed resource req now full before) =
      headed resource req now full (before ++ sections) := by
  induction sections generalizing before with
  | nil => rw [List.append_nil, List.map_nil, List.foldl_nil]
  | cons s sections ih =>
    rw [List.map_cons, List.foldl_cons, addRecord_next, ih, List.append_assoc,
      List.singleton_append]

theorem foldl_records (filled : records id req ≠ []) :
    (records id req).foldl (fun result record => addRecord result record now)
      (emptySummary resource) = summaryOf resource req now := by
  rw [summaryOf]
  unfold records at filled ⊢
  split
  · rename_i empty
    rw [if_pos empty, List.nil_append] at filled
    rw [empty, List.nil_append]
    cases sections : req.sections with
    | nil =>
      rw [sections] at filled
      exact absurd rfl filled
    | cons s rest =>
      rw [List.map_cons, List.foldl_cons, addRecord_first, foldl_sections, List.singleton_append]
  · rw [List.singleton_append, List.foldl_cons, addRecord_full, foldl_sections, List.nil_append]

end Fold

theorem getByResource_eq {s : Tracked} (agrees : Agrees s) (userID : ℕ) (resourceUUID : Text) :
    getByResource resources s.table userID resourceUUID =
      match getByUUIDAndUserID resources resourceUUID userID with
      | none => .error ⟨404, "RESOURCE_NOT_FOUND", "resource not found"⟩
      | some resource =>
        match s.latest resource.id with
        | none => .error ⟨404, "SUMMARY_NOT_FOUND", "summary not found"⟩
        | some (req, now) => .ok (summaryOf resource req now) := by
  unfold getByResource
  cases getByUUIDAndUserID resources resourceUUID userID with
  | none => rfl
  | some resource =>
    dsimp only
    have rows := agrees.rows resource.id
    cases last : s.latest resource.id with
    | none =>
      rw [last] at rows
      have none : listByResourceID s.table resource.id = [] := by
        have empty : rowsOf s.table resource.id = [] := List.map_eq_nil_iff.mp rows
        change (rowsOf s.table resource.id).insertionSort Listed = []
        rw [empty]
        rfl
      rw [none]
    | some p =>
      obtain ⟨req, now⟩ := p
      rw [last] at rows
      have filled : records resource.id req ≠ [] := agrees.filled resource.id (req, now) last
      rw [listBy_eq rows]
      have folded : (rowsOf s.table resource.id).foldl
          (fun result row => addRecord result row.record row.updatedAt) (emptySummary resource) =
            summaryOf resource req now := by
        have byColumns : (rowsOf s.table resource.id).foldl
            (fun result row => addRecord result row.record row.updatedAt) (emptySummary resource) =
              ((rowsOf s.table resource.id).map columns).foldl
                (fun result p => addRecord result p.1 p.2) (emptySummary resource) :=
          Eq.symm (List.foldl_map (f := columns) (g := fun result p => addRecord result p.1 p.2))
        rw [byColumns, rows, stored, List.foldl_map]
        exact foldl_records resource req now resource.id filled
      cases listed : rowsOf s.table resource.id with
      | nil =>
        rw [listed] at rows
        exact absurd (List.map_eq_nil_iff.mp rows.symm) filled
      | cons first rest =>
        rw [listed] at folded
        dsimp only
        rw [folded]

/-- After any run of saves, some of which fail, a user reads of an own resource exactly the last
summary that was stored, of no other resource anything. -/
theorem summaries_shown (es : List Event) (userID : ℕ) (resourceUUID : Text) :
    getByResource resources (exec (step resources) noSummaries es).table userID
        resourceUUID =
      match getByUUIDAndUserID resources resourceUUID userID with
      | none => .error ⟨404, "RESOURCE_NOT_FOUND", "resource not found"⟩
      | some resource =>
        match (exec (step resources) noSummaries es).latest resource.id with
        | none => .error ⟨404, "SUMMARY_NOT_FOUND", "summary not found"⟩
        | some (req, now) => .ok (summaryOf resource req now) :=
  getByResource_eq resources (run_agrees resources es) userID resourceUUID

theorem lookup_firstOfEach {α β : Type*} (key : α → ℕ) (value : α → β) (seen : List ℕ)
    (xs : List α) (k : ℕ) :
    ((firstOfEach key seen xs).map fun a => (key a, value a)).lookup k =
      if k ∈ seen then none else (xs.find? fun a => key a == k).map value := by
  induction xs generalizing seen with
  | nil => simp [firstOfEach]
  | cons a xs ih =>
    rw [firstOfEach]
    by_cases known : key a ∈ seen
    · rw [if_pos known, ih]
      split
      · rfl
      · rename_i fresh
        have other : (key a == k) = false :=
          beq_eq_false_iff_ne.mpr fun same => fresh (same ▸ known)
        rw [List.find?_cons, other]
    · rw [if_neg known, List.map_cons, List.lookup_cons, List.find?_cons]
      by_cases here : key a = k
      · rw [here, beq_self_eq_true, if_neg (here ▸ known), Option.map_some]
      · rw [beq_eq_false_iff_ne.mpr here, beq_eq_false_iff_ne.mpr (Ne.symm here), ih]
        simp [Ne.symm here]

instance : Std.Total NewestFirst := ⟨fun a b => by unfold NewestFirst; omega⟩

instance : IsTrans Summary NewestFirst := ⟨fun a b c => by unfold NewestFirst; omega⟩

def newestFull (table : Summaries) (resourceID : ℕ) : Option Summary :=
  ((table.rows.filter fun row => row.record.resourceID == resourceID &&
    row.record.type == .full).insertionSort NewestFirst).head?

theorem lookup_full (table : Summaries) (resourceIDs : List ℕ) (id : ℕ) :
    (listFullByResourceIDs table resourceIDs).lookup id =
      if id ∈ resourceIDs then (newestFull table id).map fun row => row.record.content
      else none := by
  unfold listFullByResourceIDs
  dsimp only
  rw [lookup_firstOfEach, if_neg List.not_mem_nil, ← List.head?_filter, filter_insertionSort,
    List.filter_filter]
  by_cases asked : id ∈ resourceIDs
  · rw [if_pos asked, newestFull]
    congr 3
    refine List.filter_congr fun row _ => ?_
    by_cases here : row.record.resourceID = id
    · simp [here, asked]
    · have other : (row.record.resourceID == id) = false := beq_eq_false_iff_ne.mpr here
      rw [other, Bool.false_and, Bool.false_and]
  · rw [if_neg asked]
    have none : table.rows.filter (fun row => row.record.resourceID == id &&
        (resourceIDs.contains row.record.resourceID && row.record.type == .full)) = [] := by
      refine List.filter_eq_nil_iff.mpr fun row _ => ?_
      by_cases here : row.record.resourceID = id
      · simp [here, asked]
      · simp [here]
    rw [none]
    rfl

section Full

variable {s : Tracked} (agrees : Agrees s)

include agrees

theorem full_row {row : Summary} (mem : row ∈ s.table.rows) (type : row.record.type = .full) :
    ∃ p, s.latest row.record.resourceID = some p ∧ p.1.fullSummary ≠ [] ∧
      row.record.content = p.1.fullSummary := by
  have column : columns row ∈ stored row.record.resourceID (s.latest row.record.resourceID) := by
    rw [← agrees.rows]
    exact List.mem_map_of_mem (List.mem_filter.mpr ⟨mem, beq_self_eq_true _⟩)
  cases last : s.latest row.record.resourceID with
  | none =>
    rw [last] at column
    exact absurd column List.not_mem_nil
  | some p =>
    rw [last] at column
    obtain ⟨record, there, same⟩ := List.mem_map.mp column
    obtain rfl : record = row.record := (Prod.mk.inj same).1
    refine ⟨p, rfl, ?_⟩
    rcases List.mem_append.mp there with full | part
    · split at full
      · exact absurd full List.not_mem_nil
      · rename_i filled
        rw [List.mem_singleton.mp full]
        exact ⟨filled, rfl⟩
    · obtain ⟨s, -, same⟩ := List.mem_map.mp part
      rw [← same] at type
      cases type

theorem exists_full_row {id : ℕ} {p : SaveSummaryRequest × ℤ} (last : s.latest id = some p)
    (filled : p.1.fullSummary ≠ []) :
    ∃ row ∈ s.table.rows, row.record.resourceID = id ∧ row.record.type = .full := by
  have column : (fullRecord id p.1, p.2) ∈ stored id (s.latest id) := by
    rw [last]
    refine List.mem_map.mpr ⟨fullRecord id p.1, List.mem_append_left _ ?_, rfl⟩
    rw [if_neg filled]
    exact List.mem_singleton_self _
  rw [← agrees.rows] at column
  obtain ⟨row, mem, same⟩ := List.mem_map.mp column
  obtain ⟨there, owner⟩ := List.mem_filter.mp mem
  refine ⟨row, there, beq_iff_eq.mp owner, ?_⟩
  exact congrArg SummaryRecord.type (Prod.mk.inj same).1

theorem newestFull_eq (id : ℕ) :
    (newestFull s.table id).map (fun row => row.record.content) =
      (s.latest id).bind fun p =>
        if p.1.fullSummary = [] then none else some p.1.fullSummary := by
  cases newest : newestFull s.table id with
  | some row =>
    have mem := (List.mem_insertionSort _).mp (List.mem_of_head? newest)
    obtain ⟨there, full⟩ := List.mem_filter.mp mem
    rw [Bool.and_eq_true, beq_iff_eq, beq_iff_eq] at full
    obtain ⟨p, last, filled, content⟩ := full_row agrees there full.2
    rw [full.1] at last
    rw [last, Option.map_some, Option.bind_some, if_neg filled, content]
  | none =>
    cases last : s.latest id with
    | none => rfl
    | some p =>
      rw [Option.bind_some]
      split
      · rfl
      · rename_i filled
        obtain ⟨row, there, key, type⟩ := exists_full_row agrees last filled
        have full : row ∈ s.table.rows.filter fun row => row.record.resourceID == id &&
            row.record.type == .full :=
          List.mem_filter.mpr ⟨there, by simp [key, type]⟩
        have listed := (List.mem_insertionSort NewestFirst).mpr full
        rw [List.head?_eq_none_iff.mp newest] at listed
        exact absurd listed List.not_mem_nil

end Full

/-- The map of full summaries has, of each resource asked for, the full summary that was last
stored, if it was not empty. -/
theorem full_summaries_listed (es : List Event) (resourceIDs : List ℕ) (id : ℕ) :
    (listFullByResourceIDs (exec (step resources) noSummaries es).table resourceIDs).lookup
        id =
      if id ∈ resourceIDs then
        ((exec (step resources) noSummaries es).latest id).bind fun p =>
          if p.1.fullSummary = [] then none else some p.1.fullSummary
      else none := by
  rw [lookup_full, newestFull_eq (run_agrees resources es)]

end KnowledgeCompanion.SummaryService
