import KnowledgeCompanion.Conversations
import KnowledgeCompanion.GoText
import KnowledgeCompanion.OwnedRows
import KnowledgeCompanion.Ranking

/-! Storing the tags and entities of a resource (`SaveInternal` of
`service/extraction_service.go` over `repository/extraction_repository.go`): two tables
replaced in two transactions. -/

namespace KnowledgeCompanion.ExtractionSave

open AppErrors Conversations GoText OwnedRows Ranking
open TaskRecords (Resource)

/-- The collation of the two tables and `unicode.ToUpper`. -/
structure Locale extends KeyedTable.Collation where
  toUpper : Char → Char

structure ResourceTagDTO where
  tag : Text
  source : Text

structure ResourceEntityDTO where
  entity : Text
  type : Text
  mention : Text
  source : Text

structure SaveExtractionRequest where
  tags : List ResourceTagDTO
  entities : List ResourceEntityDTO
  source : Text

structure ResourceTag where
  resourceID : ℕ
  tag : Text
  source : Text
deriving DecidableEq

structure ResourceEntity where
  resourceID : ℕ
  entity : Text
  type : Text
  mention : Text
  source : Text
deriving DecidableEq

abbrev EntityKey := Text × Text × Text

def ResourceEntity.key (r : ResourceEntity) : EntityKey := (r.entity, r.type, r.mention)

variable (locale : Locale)

/-- `uk_resource_tags_resource_tag` and the columns of `resource_tags`. -/
def tagSchema : Schema ResourceTag ℕ (ℕ × Text) where
  owner := ResourceTag.resourceID
  key r := (r.resourceID, locale.weight r.tag)
  fits r := decide (r.tag.length ≤ 100 ∧ r.source.length ≤ 20)
  owned _ _ same := congrArg Prod.fst same

/-- `uk_resource_entities_unique` and the columns of `resource_entities`. -/
def entitySchema : Schema ResourceEntity ℕ (ℕ × EntityKey) where
  owner := ResourceEntity.resourceID
  key r := (r.resourceID, locale.weight r.entity, locale.weight r.type, locale.weight r.mention)
  fits r := decide (r.entity.length ≤ 255 ∧ r.type.length ≤ 20 ∧ r.mention.length ≤ 255 ∧
    r.source.length ≤ 20)
  owned _ _ same := congrArg Prod.fst same

structure Tables where
  tags : Stored (tagSchema locale)
  entities : Stored (entitySchema locale)

structure ExtractionIO where
  getResource : Option String
  tags : Statement → Bool
  entities : Statement → Bool

def getByUUID (resources : LiveResources) (fault : Option String) (uuid : Text) :
    Except RepositoryError Resource :=
  match fault with
  | some message => .error (.failed message)
  | none =>
    match resources.rows.find? fun r => resources.collation.same r.uuid uuid with
    | none => .error .notFound
    | some resource => .ok resource

def normalizeExtractionSource (source : Text) : Text :=
  let lower := (trimSpace source).map Char.toLower
  if lower = "rule".toList then "rule".toList
  else if lower = "llm".toList then "llm".toList
  else "llm".toList

/-- `itemSource`, or the source of the request in its place. -/
def itemSource (source item : Text) : Text :=
  let own := normalizeExtractionSource item
  if own = [] then source else own

def tagRow (resourceID : ℕ) (source : Text) (item : ResourceTagDTO) : Option ResourceTag :=
  let tag := trimSpace item.tag
  if tag = [] then none else some ⟨resourceID, tag, itemSource source item.source⟩

def entityRow (resourceID : ℕ) (source : Text) (item : ResourceEntityDTO) :
    Option ResourceEntity :=
  let entity := trimSpace item.entity
  let entityType := (trimSpace item.type).map locale.toUpper
  let mention := trimSpace item.mention
  if entity = [] ∨ entityType = [] ∨ mention = [] then none
  else some ⟨resourceID, entity, entityType, mention, itemSource source item.source⟩

def tagRows (resource : Resource) (req : SaveExtractionRequest) : List ResourceTag :=
  req.tags.filterMap (tagRow resource.id (normalizeExtractionSource req.source))

def entityRows (resource : Resource) (req : SaveExtractionRequest) : List ResourceEntity :=
  req.entities.filterMap (entityRow locale resource.id (normalizeExtractionSource req.source))

def internalError : Err := .app (internal "internal server error")

def saveInternal (io : ExtractionIO) (resources : LiveResources) (s : Tables locale)
    (resourceUUID : Text) (req : SaveExtractionRequest) : Except Err Unit × Tables locale :=
  match getByUUID resources io.getResource resourceUUID with
  | .error .notFound => (.error (.app ⟨404, "RESOURCE_NOT_FOUND", "resource not found"⟩), s)
  | .error _ => (.error internalError, s)
  | .ok resource =>
    match s.tags.replace io.tags resource.id (tagRows resource req) with
    | none => (.error internalError, s)
    | some tags =>
      match s.entities.replace io.entities resource.id (entityRows locale resource req) with
      | none => (.error internalError, { s with tags := tags })
      | some entities => (.ok (), ⟨tags, entities⟩)

def ResourceTagDTO.key (item : ResourceTagDTO) : Text := trimSpace item.tag

def ResourceEntityDTO.key (item : ResourceEntityDTO) : EntityKey :=
  (trimSpace item.entity, (trimSpace item.type).map locale.toUpper, trimSpace item.mention)

def SaveExtractionRequest.distinct (req : SaveExtractionRequest) : SaveExtractionRequest where
  tags := firstOfEach ResourceTagDTO.key [] req.tags
  entities := firstOfEach (ResourceEntityDTO.key locale) [] req.entities
  source := req.source

/-- The resource has just the trimmed and de-duplicated items, every other one what it had. -/
structure Saved (resource : Resource) (req : SaveExtractionRequest) (s s' : Tables locale) :
    Prop where
  tags : ∀ id, s'.tags.of id =
    if id = resource.id then firstOfEach ResourceTag.tag [] (tagRows resource req)
    else s.tags.of id
  entities : ∀ id, s'.entities.of id =
    if id = resource.id then firstOfEach ResourceEntity.key [] (entityRows locale resource req)
    else s.entities.of id

structure Unchanged (s s' : Tables locale) : Prop where
  tags : ∀ id, s'.tags.of id = s.tags.of id
  entities : ∀ id, s'.entities.of id = s.entities.of id

/-- A save stores everything or reports an error and changes nothing, and equal items alone
are no reason to fail. -/
structure Clean (io : ExtractionIO) (resources : LiveResources) (s : Tables locale)
    (resourceUUID : Text) (req : SaveExtractionRequest) : Prop where
  whole : ∀ s', saveInternal locale io resources s resourceUUID req = (.ok (), s') →
    ∃ resource, getByUUID resources io.getResource resourceUUID = .ok resource ∧
      Saved locale resource req s s'
  atomic : ∀ e s', saveInternal locale io resources s resourceUUID req = (.error e, s') →
    Unchanged locale s s'
  tolerant : ∀ e s', saveInternal locale io resources s resourceUUID req = (.error e, s') →
    ∃ e' s'', saveInternal locale io resources s resourceUUID (req.distinct locale) =
      (.error e', s'')

variable {locale} {io : ExtractionIO} {resources : LiveResources} {s s' : Tables locale}
  {resourceUUID : Text} {req : SaveExtractionRequest} {resource : Resource}

theorem Unchanged.refl (s : Tables locale) : Unchanged locale s s := ⟨fun _ => rfl, fun _ => rfl⟩

theorem tagRows_owner (resource : Resource) (req : SaveExtractionRequest) :
    ∀ r ∈ tagRows resource req, r.resourceID = resource.id := by
  simp only [tagRows, List.mem_filterMap, tagRow, Option.ite_none_left_eq_some, Option.some.injEq]
  rintro r ⟨item, -, -, rfl⟩
  rfl

theorem entityRows_owner (resource : Resource) (req : SaveExtractionRequest) :
    ∀ r ∈ entityRows locale resource req, r.resourceID = resource.id := by
  simp only [entityRows, List.mem_filterMap, entityRow, Option.ite_none_left_eq_some,
    Option.some.injEq]
  rintro r ⟨item, -, -, rfl⟩
  rfl

theorem tagRows_distinct (resource : Resource) (req : SaveExtractionRequest) :
    tagRows resource (req.distinct locale) =
      firstOfEach ResourceTag.tag [] (tagRows resource req) := by
  refine filterMap_firstOfEach _ _ _ (fun tag => tag = []) (fun item => ?_)
    (fun item r row => ?_) (fun _ _ => Iff.rfl) req.tags
  · simp [tagRow, ResourceTagDTO.key]
  · rw [Option.mem_def, tagRow] at row
    split at row
    · cases row
    · rw [← Option.some.inj row]
      rfl

theorem entityRows_distinct (resource : Resource) (req : SaveExtractionRequest) :
    entityRows locale resource (req.distinct locale) =
      firstOfEach ResourceEntity.key [] (entityRows locale resource req) := by
  refine filterMap_firstOfEach _ _ _ (fun key => key.1 = [] ∨ key.2.1 = [] ∨ key.2.2 = [])
    (fun item => ?_) (fun item r row => ?_) (fun _ _ => Iff.rfl) req.entities
  · rw [entityRow]
    dsimp only [ResourceEntityDTO.key]
    split
    · simp only [true_iff]
      assumption
    · simp only [reduceCtorEq, false_iff]
      assumption
  · rw [Option.mem_def, entityRow] at row
    split at row
    · cases row
    · rw [← Option.some.inj row]
      rfl

def AcceptsTags (locale : Locale) (io : ExtractionIO) (resource : Resource)
    (req : SaveExtractionRequest) : Prop :=
  Accepts (tagSchema locale) io.tags (tagRows resource req)

def AcceptsEntities (locale : Locale) (io : ExtractionIO) (resource : Resource)
    (req : SaveExtractionRequest) : Prop :=
  Accepts (entitySchema locale) io.entities (entityRows locale resource req)

/-- No two items of the request have become equal. -/
structure Apart (locale : Locale) (resource : Resource) (req : SaveExtractionRequest) : Prop where
  tags : ((tagRows resource req).map ResourceTag.tag).Nodup
  entities : ((entityRows locale resource req).map ResourceEntity.key).Nodup

theorem AcceptsTags.nodup (accepts : AcceptsTags locale io resource req) :
    ((tagRows resource req).map ResourceTag.tag).Nodup := by
  have keys : (tagRows resource req).map (tagSchema locale).key =
      ((tagRows resource req).map ResourceTag.tag).map fun tag =>
        (resource.id, locale.weight tag) := by
    rw [List.map_map]
    refine List.map_congr_left fun r mem => ?_
    exact congrArg (·, locale.weight r.tag) (tagRows_owner resource req r mem)
  exact (keys ▸ accepts.distinct).of_map _

theorem AcceptsEntities.nodup (accepts : AcceptsEntities locale io resource req) :
    ((entityRows locale resource req).map ResourceEntity.key).Nodup := by
  have keys : (entityRows locale resource req).map (entitySchema locale).key =
      ((entityRows locale resource req).map ResourceEntity.key).map fun key =>
        (resource.id, locale.weight key.1, locale.weight key.2.1, locale.weight key.2.2) := by
    rw [List.map_map]
    refine List.map_congr_left fun r mem => ?_
    exact congrArg (·, locale.weight r.entity, locale.weight r.type, locale.weight r.mention)
      (entityRows_owner resource req r mem)
  exact (keys ▸ accepts.distinct).of_map _

theorem Apart.tagRows_eq (apart : Apart locale resource req) :
    firstOfEach ResourceTag.tag [] (tagRows resource req) = tagRows resource req :=
  firstOfEach_of_nodup _ apart.tags fun _ _ => List.not_mem_nil

theorem Apart.entityRows_eq (apart : Apart locale resource req) :
    firstOfEach ResourceEntity.key [] (entityRows locale resource req) =
      entityRows locale resource req :=
  firstOfEach_of_nodup _ apart.entities fun _ _ => List.not_mem_nil

section Outcomes

variable (found : getByUUID resources io.getResource resourceUUID = .ok resource)

include found

theorem saveInternal_tags_refused (refused : ¬ AcceptsTags locale io resource req) :
    saveInternal locale io resources s resourceUUID req = (.error internalError, s) := by
  rw [saveInternal, found]
  dsimp only
  rw [s.tags.replace_of_refused (tagRows_owner resource req) refused]

theorem saveInternal_entities_refused (tags : AcceptsTags locale io resource req)
    (refused : ¬ AcceptsEntities locale io resource req) :
    ∃ after, saveInternal locale io resources s resourceUUID req =
        (.error internalError, { s with tags := after }) ∧
      ∀ id, after.of id = if id = resource.id then tagRows resource req else s.tags.of id := by
  obtain ⟨after, replaced, rows⟩ := s.tags.replace_of_accepts (tagRows_owner resource req) tags
  refine ⟨after, ?_, rows⟩
  rw [saveInternal, found]
  dsimp only
  rw [replaced]
  dsimp only
  rw [s.entities.replace_of_refused (entityRows_owner resource req) refused]

theorem saveInternal_accepted (tags : AcceptsTags locale io resource req)
    (entities : AcceptsEntities locale io resource req) :
    ∃ s', saveInternal locale io resources s resourceUUID req = (.ok (), s') ∧
      Saved locale resource req s s' := by
  have apart : Apart locale resource req := ⟨tags.nodup, entities.nodup⟩
  obtain ⟨after, replaced, rows⟩ := s.tags.replace_of_accepts (tagRows_owner resource req) tags
  obtain ⟨after', replaced', rows'⟩ :=
    s.entities.replace_of_accepts (entityRows_owner resource req) entities
  refine ⟨⟨after, after'⟩, ?_, ⟨?_, ?_⟩⟩
  · rw [saveInternal, found]
    dsimp only
    rw [replaced]
    dsimp only
    rw [replaced']
  · rw [apart.tagRows_eq]
    exact rows
  · rw [apart.entityRows_eq]
    exact rows'

theorem saveInternal_fails_iff :
    (∃ e s', saveInternal locale io resources s resourceUUID req = (.error e, s')) ↔
      ¬ (AcceptsTags locale io resource req ∧ AcceptsEntities locale io resource req) := by
  constructor
  · rintro ⟨e, s', failed⟩ ⟨tags, entities⟩
    obtain ⟨after, saved, -⟩ := saveInternal_accepted (s := s) found tags entities
    simp [saved] at failed
  · intro refused
    by_cases tags : AcceptsTags locale io resource req
    · obtain ⟨after, failed, -⟩ := saveInternal_entities_refused (s := s) found tags
        fun entities => refused ⟨tags, entities⟩
      exact ⟨_, _, failed⟩
    · exact ⟨_, _, saveInternal_tags_refused found tags⟩

end Outcomes

theorem saveInternal_missing (s : Tables locale) (req : SaveExtractionRequest)
    {e : RepositoryError}
    (missing : getByUUID resources io.getResource resourceUUID = .error e) :
    ∃ cause, saveInternal locale io resources s resourceUUID req = (.error cause, s) := by
  rw [saveInternal, missing]
  cases e with
  | notFound => exact ⟨_, rfl⟩
  | forbidden => exact ⟨_, rfl⟩
  | failed message => exact ⟨_, rfl⟩

theorem clean_of_missing {e : RepositoryError}
    (missing : getByUUID resources io.getResource resourceUUID = .error e) :
    Clean locale io resources s resourceUUID req := by
  obtain ⟨cause, failed⟩ := saveInternal_missing s req missing
  obtain ⟨cause', failed'⟩ := saveInternal_missing s (req.distinct locale) missing
  refine ⟨fun s' saved => ?_, fun e' s' stopped => ?_, fun _ _ _ => ⟨_, _, failed'⟩⟩
  · simp [failed] at saved
  · obtain ⟨-, rfl⟩ := Prod.mk.inj (failed.symm.trans stopped)
    exact .refl s

section Found

variable (found : getByUUID resources io.getResource resourceUUID = .ok resource)

include found

theorem Clean.kept (clean : Clean locale io resources s resourceUUID req)
    (tags : AcceptsTags locale io resource req) :
    AcceptsEntities locale io resource req ∨ s.tags.of resource.id = tagRows resource req := by
  by_cases entities : AcceptsEntities locale io resource req
  · exact .inl entities
  · obtain ⟨after, failed, rows⟩ := saveInternal_entities_refused (s := s) found tags entities
    have same := (clean.atomic _ _ failed).tags resource.id
    dsimp only at same
    rw [rows, if_pos rfl] at same
    exact .inr same.symm

theorem Clean.apart (clean : Clean locale io resources s resourceUUID req)
    (tags : AcceptsTags locale io resource (req.distinct locale))
    (entities : AcceptsEntities locale io resource (req.distinct locale)) :
    Apart locale resource req := by
  by_cases both : AcceptsTags locale io resource req ∧ AcceptsEntities locale io resource req
  · exact ⟨both.1.nodup, both.2.nodup⟩
  · obtain ⟨e, s', failed⟩ := (saveInternal_fails_iff (s := s) found).mpr both
    exact absurd ⟨tags, entities⟩
      ((saveInternal_fails_iff found).mp (clean.tolerant e s' failed))

theorem saved_of_ok (done : saveInternal locale io resources s resourceUUID req = (.ok (), s')) :
    Saved locale resource req s s' := by
  have both : AcceptsTags locale io resource req ∧ AcceptsEntities locale io resource req := by
    by_contra refused
    obtain ⟨e, s'', failed⟩ := (saveInternal_fails_iff (s := s) found).mpr refused
    simp [failed] at done
  obtain ⟨after, saved, rows⟩ := saveInternal_accepted (s := s) found both.1 both.2
  obtain ⟨-, rfl⟩ := Prod.mk.inj (saved.symm.trans done)
  exact rows

theorem unchanged_of_kept (kept : AcceptsTags locale io resource req →
      AcceptsEntities locale io resource req ∨ s.tags.of resource.id = tagRows resource req)
    {e : Err} (failed : saveInternal locale io resources s resourceUUID req = (.error e, s')) :
    Unchanged locale s s' := by
  by_cases tags : AcceptsTags locale io resource req
  · have refused := (saveInternal_fails_iff found).mp ⟨e, s', failed⟩
    have entities : ¬ AcceptsEntities locale io resource req := fun more => refused ⟨tags, more⟩
    obtain ⟨after, stopped, rows⟩ := saveInternal_entities_refused (s := s) found tags entities
    obtain ⟨-, rfl⟩ := Prod.mk.inj (stopped.symm.trans failed)
    refine ⟨fun id => ?_, fun id => rfl⟩
    dsimp only
    rw [rows]
    split
    · rename_i here
      rw [here, (kept tags).resolve_left entities]
    · rfl
  · obtain ⟨-, rfl⟩ := Prod.mk.inj ((saveInternal_tags_refused found tags).symm.trans failed)
    exact .refl s

theorem distinct_fails (apart : AcceptsTags locale io resource (req.distinct locale) →
      AcceptsEntities locale io resource (req.distinct locale) → Apart locale resource req)
    {e : Err} (failed : saveInternal locale io resources s resourceUUID req = (.error e, s')) :
    ∃ e' s'', saveInternal locale io resources s resourceUUID (req.distinct locale) =
      (.error e', s'') := by
  refine (saveInternal_fails_iff found).mpr fun both => ?_
  have unequal := apart both.1 both.2
  refine (saveInternal_fails_iff found).mp ⟨e, s', failed⟩ ⟨?_, ?_⟩
  · have tags := both.1
    rwa [AcceptsTags, tagRows_distinct, unequal.tagRows_eq] at tags
  · have entities := both.2
    rwa [AcceptsEntities, entityRows_distinct, unequal.entityRows_eq] at entities

end Found

/-- A save is clean exactly when no transaction is left alone (the entities are accepted, or
the tags are not, or they were stored already) and equal items are not what it fails by. -/
theorem saveInternal_clean_iff (locale : Locale) (io : ExtractionIO) (resources : LiveResources)
    (s : Tables locale) (resourceUUID : Text) (req : SaveExtractionRequest) :
    Clean locale io resources s resourceUUID req ↔
      ∀ resource, getByUUID resources io.getResource resourceUUID = .ok resource →
        (AcceptsTags locale io resource req → AcceptsEntities locale io resource req ∨
          s.tags.of resource.id = tagRows resource req) ∧
        (AcceptsTags locale io resource (req.distinct locale) →
          AcceptsEntities locale io resource (req.distinct locale) →
          Apart locale resource req) := by
  constructor
  · exact fun clean resource found => ⟨clean.kept found, clean.apart found⟩
  · intro condition
    cases found : getByUUID resources io.getResource resourceUUID with
    | error e => exact clean_of_missing found
    | ok resource =>
      obtain ⟨kept, apart⟩ := condition resource found
      exact {
        whole := fun s' done => ⟨resource, found, saved_of_ok found done⟩
        atomic := fun e s' failed => unchanged_of_kept found kept failed
        tolerant := fun e s' failed => distinct_fails found apart failed }

def plainLocale : Locale := ⟨⟨id⟩, Char.toUpper⟩

def slides : Resource where
  id := 7
  uuid := "res-1".toList
  userID := 1
  name := []
  type := []
  status := 3
  storageKey := []
  sizeBytes := 0
  mimeType := []
  autoSummary := false
  createdAt := 0
  updatedAt := 0

def slidesOnly : LiveResources := .exact [slides] (List.nodup_singleton _) (by decide)

def taggedOld : Tables plainLocale where
  tags := ⟨[⟨7, "old".toList, "llm".toList⟩], List.nodup_singleton _⟩
  entities := ⟨[⟨7, "Go".toList, "MISC".toList, "Go".toList, "llm".toList⟩], List.nodup_singleton _⟩

def twiceNamed : SaveExtractionRequest where
  tags := [⟨"new".toList, "llm".toList⟩]
  entities := [⟨"OpenAI".toList, "org".toList, "OpenAI".toList, "llm".toList⟩,
    ⟨" OpenAI ".toList, "ORG".toList, "OpenAI".toList, "llm".toList⟩]
  source := "llm".toList

def noFaults : ExtractionIO := ⟨none, fun _ => false, fun _ => false⟩

/-- An entity that is named twice fails the request, after its tags have replaced the old
ones; without the second naming it is saved. -/
theorem twiceNamed_not_clean :
    (saveInternal plainLocale noFaults slidesOnly taggedOld slides.uuid twiceNamed).1 =
      .error internalError ∧
    ((saveInternal plainLocale noFaults slidesOnly taggedOld slides.uuid twiceNamed).2.tags.of
      7).map ResourceTag.tag = ["new".toList] ∧
    (taggedOld.tags.of 7).map ResourceTag.tag = ["old".toList] ∧
    (saveInternal plainLocale noFaults slidesOnly taggedOld slides.uuid
      (twiceNamed.distinct plainLocale)).1 = .ok () ∧
    ¬ Clean plainLocale noFaults slidesOnly taggedOld slides.uuid twiceNamed := by
  have saved : (saveInternal plainLocale noFaults slidesOnly taggedOld slides.uuid
      (twiceNamed.distinct plainLocale)).1 = .ok () := by decide +kernel
  have failed : (saveInternal plainLocale noFaults slidesOnly taggedOld slides.uuid
      twiceNamed).1 = .error internalError := by decide +kernel
  refine ⟨failed, by decide +kernel, by decide +kernel, saved, fun clean => ?_⟩
  obtain ⟨e, s', stopped⟩ := clean.tolerant _ _ (Prod.ext failed rfl)
  rw [stopped] at saved
  cases saved

end KnowledgeCompanion.ExtractionSave
