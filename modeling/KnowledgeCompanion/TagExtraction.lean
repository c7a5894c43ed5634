import KnowledgeCompanion.ExtractionSave
import KnowledgeCompanion.RuleExtraction

/-! The extraction of tags and entities in the worker (`services/extraction`): what a language
model answers, or else the fixed patterns, is normalised and reported to the gateway. -/

namespace KnowledgeCompanion.TagExtraction

open PythonText Ranking RuleExtraction ExtractionSave OwnedRows Conversations
open TaskRecords (Resource)

/-- The settings of the normaliser; `lower` is `str.lower`. -/
structure TagNormalizer where
  maxCount : ℤ := 10
  lowercase : Bool := false
  synonymMerge : Bool := true
  lower : Text → Text

def synonymMap : List (Text × Text) :=
  [("ai".toList, "人工智能".toList), ("artificial intelligence".toList, "人工智能".toList),
    ("ml".toList, "机器学习".toList), ("machine learning".toList, "机器学习".toList),
    ("nlp".toList, "自然语言处理".toList)]

namespace TagNormalizer

variable (n : TagNormalizer)

def synonyms : List (Text × Text) := if n.synonymMerge then synonymMap else []

def canonical (tag : Text) : Text :=
  let tag := (n.synonyms.lookup (n.lower tag)).getD tag
  if n.lowercase then n.lower tag else tag

def normalizeFrom (seen : List Text) (kept : ℕ) : List Text → List Text
  | [] => []
  | raw :: tags =>
    let tag := strip raw
    if tag = [] then normalizeFrom seen kept tags
    else
      let tag := n.canonical tag
      if n.lower tag ∈ seen then normalizeFrom seen kept tags
      else
        tag ::
          if n.maxCount ≤ kept + 1 then [] else normalizeFrom (n.lower tag :: seen) (kept + 1) tags

def normalize (tags : List Text) : List Text := n.normalizeFrom [] 0 tags

end TagNormalizer

def trimEntity (item : Entity) : Option Entity :=
  let entity := strip item.entity
  let mention := strip item.mention
  if entity = [] ∨ mention = [] then none else some ⟨entity, item.type, mention, item.source⟩

def entityKey (lower : Text → Text) (item : Entity) : Text × EntityType × Text :=
  (lower item.entity, item.type, lower item.mention)

def resolveFrom (lower : Text → Text) (seen : List (Text × EntityType × Text)) :
    List Entity → List Entity
  | [] => []
  | item :: items =>
    match trimEntity item with
    | none => resolveFrom lower seen items
    | some entity =>
      if entityKey lower entity ∈ seen then resolveFrom lower seen items
      else entity :: resolveFrom lower (entityKey lower entity :: seen) items

def resolve (lower : Text → Text) (entities : List Entity) : List Entity :=
  resolveFrom lower [] entities

structure ExtractionResponse where
  resourceID : Text
  tags : List (Text × ExtractionSource)
  entities : List Entity
  source : ExtractionSource
  fallback : Bool

/-- `llm` is the provider that asks the language model, its retries included. -/
structure ExtractionService where
  llm : Text → Except String ExtractionResult
  normalizer : TagNormalizer

def respond (svc : ExtractionService) (resourceID : Text) (extracted : ExtractionResult)
    (fallback : Bool) : ExtractionResponse :=
  let source := if fallback then .rule else extracted.source
  { resourceID := resourceID
    tags := (svc.normalizer.normalize extracted.tags).map (·, source)
    entities := (resolve svc.normalizer.lower extracted.entities).map fun item =>
      { item with source := source }
    source := source
    fallback := fallback }

def extract (svc : ExtractionService) (resourceID content : Text) : ExtractionResponse :=
  let content := strip content
  if content = [] then ⟨resourceID, [], [], .rule, true⟩
  else
    match svc.llm content with
    | .ok extracted => respond svc resourceID extracted false
    | .error _ => respond svc resourceID (ruleExtract svc.normalizer.lower content) true

def payload (response : ExtractionResponse) : SaveExtractionRequest where
  tags := response.tags.map fun tag => ⟨tag.1, tag.2.text⟩
  entities := response.entities.map fun item =>
    ⟨item.entity, item.type.text, item.mention, item.source.text⟩
  source := response.source.text

section Normalizer

variable (n : TagNormalizer)

def tagOf (raw : Text) : Option Text :=
  if strip raw = [] then none else some (n.canonical (strip raw))

theorem normalizeFrom_eq (seen : List Text) (kept : ℕ) (tags : List Text) :
    n.normalizeFrom seen kept tags =
      (firstOfEach n.lower seen (tags.filterMap (tagOf n))).take
        (max 1 (n.maxCount - kept)).toNat := by
  induction tags generalizing seen kept with
  | nil => simp [TagNormalizer.normalizeFrom, firstOfEach]
  | cons raw tags ih =>
    unfold TagNormalizer.normalizeFrom
    by_cases blank : strip raw = []
    · have skipped : tagOf n raw = none := if_pos blank
      rw [List.filterMap_cons_none skipped, ← ih]
      exact if_pos blank
    · have kept' : tagOf n raw = some (n.canonical (strip raw)) := if_neg blank
      rw [List.filterMap_cons_some kept', firstOfEach]
      dsimp only
      rw [if_neg blank]
      by_cases known : n.lower (n.canonical (strip raw)) ∈ seen
      · rw [if_pos known, if_pos known, ih]
      · rw [if_neg known, if_neg known]
        by_cases full : n.maxCount ≤ kept + 1
        · have one : (max 1 (n.maxCount - kept)).toNat = 0 + 1 := by omega
          rw [if_pos full, one, List.take_succ_cons, List.take_zero]
        · have more : (max 1 (n.maxCount - kept)).toNat =
              (max 1 (n.maxCount - ((kept + 1 : ℕ) : ℤ))).toNat + 1 := by omega
          rw [if_neg full, ih, more, List.take_succ_cons]

theorem normalize_eq (tags : List Text) :
    n.normalize tags =
      (firstOfEach n.lower [] (tags.filterMap (tagOf n))).take (max 1 n.maxCount).toNat := by
  have whole := normalizeFrom_eq n [] 0 tags
  rwa [Nat.cast_zero, sub_zero] at whole

variable {n} {tags : List Text}

theorem normalize_length : (n.normalize tags).length ≤ (max 1 n.maxCount).toNat := by
  rw [normalize_eq]
  exact List.length_take_le _ _

theorem normalize_apart : (n.normalize tags).Pairwise fun a b => n.lower a ≠ n.lower b := by
  rw [normalize_eq]
  exact (firstOfEach_pairwise n.lower [] _).sublist (List.take_sublist _ _)

theorem normalize_mem {tag : Text} (mem : tag ∈ n.normalize tags) :
    ∃ raw ∈ tags, strip raw ≠ [] ∧ tag = n.canonical (strip raw) := by
  rw [normalize_eq] at mem
  have kept := (firstOfEach_sublist _ _ _).subset (List.mem_of_mem_take mem)
  obtain ⟨raw, given, made⟩ := List.mem_filterMap.mp kept
  rw [tagOf] at made
  split at made
  · cases made
  · rename_i filled
    exact ⟨raw, given, filled, (Option.some.inj made).symm⟩

theorem normalize_covers {raw : Text} (mem : raw ∈ tags) (filled : strip raw ≠ []) :
    (∃ tag ∈ n.normalize tags, n.lower tag = n.lower (n.canonical (strip raw))) ∨
      (n.normalize tags).length = (max 1 n.maxCount).toNat := by
  rw [normalize_eq]
  have made : n.canonical (strip raw) ∈ tags.filterMap (tagOf n) :=
    List.mem_filterMap.mpr ⟨raw, mem, if_neg filled⟩
  obtain ⟨tag, kept, same⟩ := exists_firstOfEach n.lower made List.not_mem_nil
  rcases Nat.le_total (firstOfEach n.lower [] (tags.filterMap (tagOf n))).length
    (max 1 n.maxCount).toNat with few | many
  · left
    rw [List.take_of_length_le few]
    exact ⟨tag, kept, same⟩
  · right
    rw [List.length_take, Nat.min_eq_left many]

end Normalizer

theorem resolveFrom_eq (lower : Text → Text) (seen : List (Text × EntityType × Text))
    (entities : List Entity) :
    resolveFrom lower seen entities =
      firstOfEach (entityKey lower) seen (entities.filterMap trimEntity) := by
  induction entities generalizing seen with
  | nil => rfl
  | cons item items ih =>
    unfold resolveFrom
    cases trimmed : trimEntity item with
    | none => rw [List.filterMap_cons_none trimmed, ih]
    | some entity =>
      dsimp only
      rw [List.filterMap_cons_some trimmed, firstOfEach]
      by_cases known : entityKey lower entity ∈ seen
      · rw [if_pos known, if_pos known, ih]
      · rw [if_neg known, if_neg known, ih]

variable {lower : Text → Text} {entities : List Entity}

theorem resolve_eq (lower : Text → Text) (entities : List Entity) :
    resolve lower entities = firstOfEach (entityKey lower) [] (entities.filterMap trimEntity) :=
  resolveFrom_eq lower [] entities

theorem resolve_mem {item : Entity} (mem : item ∈ resolve lower entities) :
    ∃ raw ∈ entities, trimEntity raw = some item := by
  rw [resolve_eq] at mem
  exact List.mem_filterMap.mp ((firstOfEach_sublist _ _ _).subset mem)

theorem resolve_apart :
    (resolve lower entities).Pairwise fun a b => entityKey lower a ≠ entityKey lower b := by
  rw [resolve_eq]
  exact firstOfEach_pairwise _ [] _

theorem resolve_covers {raw item : Entity} (mem : raw ∈ entities)
    (trimmed : trimEntity raw = some item) :
    ∃ kept ∈ resolve lower entities, entityKey lower kept = entityKey lower item := by
  rw [resolve_eq]
  exact exists_firstOfEach _ (List.mem_filterMap.mpr ⟨raw, mem, trimmed⟩) List.not_mem_nil

def Stripped (text : Text) : Prop := text ≠ [] ∧ strip text = text

theorem strip_strip (text : Text) : strip (strip text) = strip text := by
  have front : lstrip (strip text) = strip text :=
    GoText.dropWhile_prefix (List.rdropWhile_prefix isSpace (lstrip text))
  rw [strip, front]
  exact List.rdropWhile_idempotent isSpace (lstrip text)

theorem stripped_strip {text : Text} (filled : strip text ≠ []) : Stripped (strip text) :=
  ⟨filled, strip_strip text⟩

theorem isSpace_of_go {c : Char} (space : GoText.isSpace c = true) : isSpace c = true := by
  simp only [GoText.isSpace, isSpace, Bool.or_eq_true, Bool.and_eq_true, decide_eq_true_eq,
    beq_iff_eq] at space ⊢
  omega

theorem Stripped.trimSpace {text : Text} (stripped : Stripped text) :
    GoText.trimSpace text = text := by
  have front : text.dropWhile isSpace = text := by
    refine (List.dropWhile_suffix isSpace).eq_of_length_le ?_
    conv_lhs => rw [← stripped.2]
    exact (List.rdropWhile_prefix isSpace (lstrip text)).length_le
  have back : text.rdropWhile isSpace = text := by
    have both := stripped.2
    rwa [strip, lstrip, front] at both
  have front' : text.dropWhile GoText.isSpace = text := by
    rw [List.dropWhile_eq_self_iff] at front ⊢
    exact fun some_ space => front some_ (isSpace_of_go space)
  rw [GoText.trimSpace, front', List.rdropWhile_eq_self_iff]
  rw [List.rdropWhile_eq_self_iff] at back
  exact fun some_ space => back some_ (isSpace_of_go space)

theorem trimEntity_spec {raw item : Entity} (trimmed : trimEntity raw = some item) :
    item = ⟨strip raw.entity, raw.type, strip raw.mention, raw.source⟩ ∧ Stripped item.entity ∧
      Stripped item.mention := by
  unfold trimEntity at trimmed
  dsimp only at trimmed
  split at trimmed
  · cases trimmed
  · rename_i filled
    rw [not_or] at filled
    obtain rfl := Option.some.inj trimmed
    exact ⟨rfl, stripped_strip filled.1, stripped_strip filled.2⟩

theorem synonymMap_stripped : ∀ pair ∈ synonymMap, Stripped pair.2 := by
  have values : ∀ pair ∈ synonymMap, pair.2 ≠ [] ∧ strip pair.2 = pair.2 := by decide
  exact values

theorem canonical_stripped {n : TagNormalizer}
    (lowers : ∀ text, Stripped text → Stripped (n.lower text)) {tag : Text}
    (stripped : Stripped tag) : Stripped (n.canonical tag) := by
  have merged : Stripped ((n.synonyms.lookup (n.lower tag)).getD tag) := by
    cases known : n.synonyms.lookup (n.lower tag) with
    | none => exact stripped
    | some value =>
      obtain ⟨front, back, whole, -⟩ := List.lookup_eq_some_iff.mp known
      have listed : (n.lower tag, value) ∈ n.synonyms := by rw [whole]; simp
      rw [TagNormalizer.synonyms] at listed
      split at listed
      · exact synonymMap_stripped _ listed
      · exact absurd listed List.not_mem_nil
  rw [TagNormalizer.canonical]
  split
  · exact lowers _ merged
  · exact merged

section Reports

variable (svc : ExtractionService) (resourceID content : Text)

theorem extract_cases :
    (strip content = [] ∧ extract svc resourceID content = ⟨resourceID, [], [], .rule, true⟩) ∨
      (∃ extracted, strip content ≠ [] ∧ svc.llm (strip content) = .ok extracted ∧
        extract svc resourceID content = respond svc resourceID extracted false) ∨
      (∃ e, strip content ≠ [] ∧ svc.llm (strip content) = .error e ∧
        extract svc resourceID content =
          respond svc resourceID (ruleExtract svc.normalizer.lower (strip content)) true) := by
  rw [extract]
  by_cases blank : strip content = []
  · exact .inl ⟨blank, if_pos blank⟩
  · right
    cases asked : svc.llm (strip content) with
    | ok extracted => exact .inl ⟨extracted, blank, rfl, if_neg blank⟩
    | error e => exact .inr ⟨e, blank, rfl, if_neg blank⟩

/-- The lists of a response: trimmed, without repetitions and of one source. -/
structure Normal (n : TagNormalizer) (response : ExtractionResponse) : Prop where
  few : response.tags.length ≤ (max 1 n.maxCount).toNat
  apart : response.tags.Pairwise fun a b => n.lower a.1 ≠ n.lower b.1
  entities : response.entities.Pairwise fun a b => entityKey n.lower a ≠ entityKey n.lower b
  trimmed : ∀ item ∈ response.entities, Stripped item.entity ∧ Stripped item.mention
  source : (∀ tag ∈ response.tags, tag.2 = response.source) ∧
    ∀ item ∈ response.entities, item.source = response.source
  marked : response.fallback = true → response.source = .rule

theorem respond_normal (extracted : ExtractionResult) (fallback : Bool) :
    Normal svc.normalizer (respond svc resourceID extracted fallback) where
  few := by
    rw [respond, List.length_map]
    exact normalize_length
  apart := List.pairwise_map.mpr normalize_apart
  entities := List.pairwise_map.mpr resolve_apart
  trimmed := by
    intro item mem
    obtain ⟨kept, resolved, rfl⟩ := List.mem_map.mp mem
    obtain ⟨raw, -, trimmed⟩ := resolve_mem resolved
    exact (trimEntity_spec trimmed).2
  source := by
    constructor
    · intro tag mem
      obtain ⟨kept, -, rfl⟩ := List.mem_map.mp mem
      rfl
    · intro item mem
      obtain ⟨kept, -, rfl⟩ := List.mem_map.mp mem
      rfl
  marked := fun marked => if_pos marked

/-- The tags and entities of an answer that a response leaves out are blank, equal to others
that it has, or behind as many tags as are allowed. -/
structure Covers (n : TagNormalizer) (extracted : ExtractionResult)
    (response : ExtractionResponse) : Prop where
  tags : ∀ raw ∈ extracted.tags, strip raw ≠ [] →
    (∃ tag ∈ response.tags, n.lower tag.1 = n.lower (n.canonical (strip raw))) ∨
      response.tags.length = (max 1 n.maxCount).toNat
  entities : ∀ raw ∈ extracted.entities, strip raw.entity ≠ [] → strip raw.mention ≠ [] →
    ∃ item ∈ response.entities, entityKey n.lower item =
      (n.lower (strip raw.entity), raw.type, n.lower (strip raw.mention))

theorem respond_covers (extracted : ExtractionResult) (fallback : Bool) :
    Covers svc.normalizer extracted (respond svc resourceID extracted fallback) where
  tags := by
    intro raw mem filled
    rw [respond, List.length_map]
    refine (normalize_covers mem filled).imp_left ?_
    rintro ⟨tag, kept, same⟩
    exact ⟨_, List.mem_map_of_mem kept, same⟩
  entities := by
    intro raw mem entity mention
    have trimmed : trimEntity raw =
        some ⟨strip raw.entity, raw.type, strip raw.mention, raw.source⟩ :=
      if_neg (not_or.mpr ⟨entity, mention⟩)
    obtain ⟨kept, resolved, same⟩ :=
      @resolve_covers svc.normalizer.lower extracted.entities _ _ mem trimmed
    exact ⟨_, List.mem_map_of_mem resolved, same⟩

/-- What the language model answers is reported in normal form and nothing of it is lost. -/
theorem extract_normal :
    Normal svc.normalizer (extract svc resourceID content) ∧
      ∀ extracted, strip content ≠ [] → svc.llm (strip content) = .ok extracted →
        Covers svc.normalizer extracted (extract svc resourceID content) := by
  rcases extract_cases svc resourceID content with ⟨blank, empty⟩ | ⟨answer, some_, asked, said⟩ |
    ⟨e, some_, failed, said⟩
  · rw [empty]
    refine ⟨⟨Nat.zero_le _, .nil, .nil, by simp, by simp, fun _ => rfl⟩, ?_⟩
    exact fun _ filled => absurd blank filled
  · rw [said]
    refine ⟨respond_normal svc resourceID answer false, fun extracted _ same => ?_⟩
    obtain rfl := Except.ok.inj (asked.symm.trans same)
    exact respond_covers svc resourceID answer false
  · rw [said]
    refine ⟨respond_normal svc resourceID _ true, fun extracted _ same => ?_⟩
    cases failed.symm.trans same

theorem ruleExtract_entity {lower : Text → Text} {text : Text} {item : Entity} :
    item ∈ (ruleExtract lower text).entities ↔
      ∃ pattern ∈ [(EntityType.date, dateAt), (.org, orgAt), (.gpe, gpeAt)],
        item ∈ entitiesOf pattern.1 pattern.2 text := by
  simp [ruleExtract]

theorem mentions_strip {matchAt : Text → Option ℕ} {text mention : Text}
    (mem : mention ∈ mentions matchAt text) : strip mention = mention := by
  obtain ⟨s, -, rfl⟩ := List.mem_map.mp mem
  exact strip_strip _

/-- When no language model answers, every tag is the kept form of a part of the text, every
entity is a part of it, and each match of the patterns is reported. -/
theorem fallback_grounded {e : String} (some_ : strip content ≠ [])
    (failed : svc.llm (strip content) = .error e) :
    (extract svc resourceID content).fallback = true ∧
    (∀ tag ∈ (extract svc resourceID content).tags, ∃ word, Stripped word ∧ word <:+: content ∧
      tag.1 = svc.normalizer.canonical word) ∧
    (∀ item ∈ (extract svc resourceID content).entities,
      item.entity = item.mention ∧ item.mention <:+: content) ∧
    ∀ pattern ∈ [(EntityType.date, dateAt), (.org, orgAt), (.gpe, gpeAt)],
      ∀ mention ∈ mentions pattern.2 (strip content), mention ≠ [] →
        ∃ item ∈ (extract svc resourceID content).entities, item.type = pattern.1 ∧
          svc.normalizer.lower item.mention = svc.normalizer.lower mention := by
  obtain said : extract svc resourceID content =
      respond svc resourceID (ruleExtract svc.normalizer.lower (strip content)) true := by
    rcases extract_cases svc resourceID content with ⟨blank, -⟩ | ⟨answer, -, asked, -⟩ |
      ⟨-, -, -, said⟩
    · exact absurd blank some_
    · cases failed.symm.trans asked
    · exact said
  have covers := respond_covers svc resourceID
    (ruleExtract svc.normalizer.lower (strip content)) true
  rw [said]
  refine ⟨rfl, fun tag mem => ?_, fun item mem => ?_, fun pattern listed mention found filled => ?_⟩
  · obtain ⟨kept, normal, rfl⟩ := List.mem_map.mp mem
    obtain ⟨raw, keyword, filled, rfl⟩ := normalize_mem normal
    have stands := (extractKeywords_spec svc.normalizer.lower (strip content)).2.2 raw keyword
    exact ⟨strip raw, stripped_strip filled,
      ((infix_strip raw).trans stands).trans (infix_strip content), rfl⟩
  · obtain ⟨kept, resolved, rfl⟩ := List.mem_map.mp mem
    obtain ⟨raw, given, trimmed⟩ := resolve_mem resolved
    obtain ⟨pattern, -, found⟩ := ruleExtract_entity.mp given
    obtain ⟨same, -, stands⟩ := entitiesOf_literal found
    obtain ⟨rfl, -, -⟩ := trimEntity_spec trimmed
    exact ⟨congrArg strip same, ((infix_strip _).trans stands).trans (infix_strip content)⟩
  · have given : ⟨mention, pattern.1, mention, .rule⟩ ∈
        (ruleExtract svc.normalizer.lower (strip content)).entities := by
      refine ruleExtract_entity.mpr ⟨pattern, listed, ?_⟩
      exact List.mem_map_of_mem (List.mem_filter.mpr ⟨found, decide_eq_true filled⟩)
    have fixed := mentions_strip found
    obtain ⟨item, kept, same⟩ := covers.entities _ given (fixed.symm ▸ filled) (fixed.symm ▸ filled)
    obtain ⟨-, rest⟩ := Prod.mk.inj same
    obtain ⟨type, lowered⟩ := Prod.mk.inj rest
    rw [fixed] at lowered
    exact ⟨item, kept, type, lowered⟩

end Reports

theorem extract_stripped {svc : ExtractionService} {resourceID content : Text}
    (lowers : ∀ text, Stripped text → Stripped (svc.normalizer.lower text)) :
    ∀ tag ∈ (extract svc resourceID content).tags, Stripped tag.1 := by
  have responds : ∀ extracted fallback, ∀ tag ∈ (respond svc resourceID extracted fallback).tags,
      Stripped tag.1 := by
    intro extracted fallback tag mem
    obtain ⟨kept, normal, rfl⟩ := List.mem_map.mp mem
    obtain ⟨raw, -, filled, rfl⟩ := normalize_mem normal
    exact canonical_stripped lowers (stripped_strip filled)
  rcases extract_cases svc resourceID content with ⟨-, said⟩ | ⟨answer, -, -, said⟩ |
    ⟨e, -, -, said⟩
  · simp [said]
  · exact said ▸ responds answer false
  · exact said ▸ responds _ true

section Stored

def shownTags (resource : ℕ) (response : ExtractionResponse) : List ResourceTag :=
  response.tags.map fun tag => ⟨resource, tag.1, tag.2.text⟩

def shownEntities (resource : ℕ) (response : ExtractionResponse) : List ResourceEntity :=
  response.entities.map fun item =>
    ⟨resource, item.entity, item.type.text, item.mention, item.source.text⟩

/-- The resource has the tags and entities of the response, every other one what it had. -/
structure Shown {locale : ExtractionSave.Locale} (resource : ℕ) (response : ExtractionResponse)
    (s s' : Tables locale) : Prop where
  tags : ∀ id, s'.tags.of id = if id = resource then shownTags resource response else s.tags.of id
  entities : ∀ id, s'.entities.of id =
    if id = resource then shownEntities resource response else s.entities.of id

/-- No text is too long for its column, and the collation tells all of them apart. -/
structure Storable (locale : ExtractionSave.Locale) (response : ExtractionResponse) : Prop where
  tags : ∀ tag ∈ response.tags, tag.1.length ≤ 100
  entities : ∀ item ∈ response.entities, item.entity.length ≤ 255 ∧ item.mention.length ≤ 255
  tagWeights : (response.tags.map fun tag => locale.weight tag.1).Nodup
  entityWeights : (response.entities.map fun item =>
    (locale.weight item.entity, locale.weight item.type.text, locale.weight item.mention)).Nodup

theorem itemSource_text (other : Text) (source : ExtractionSource) :
    itemSource other source.text = source.text := by
  have known : ∀ source : ExtractionSource, normalizeExtractionSource source.text = source.text ∧
      source.text ≠ [] := by
    intro source
    cases source <;> decide
  unfold itemSource
  dsimp only
  rw [(known source).1, if_neg (known source).2]

theorem source_text_length (source : ExtractionSource) : source.text.length ≤ 20 := by
  cases source <;> decide

theorem type_text_length (type : EntityType) : type.text.length ≤ 20 := by
  cases type <;> decide

theorem type_text_trimmed (type : EntityType) :
    GoText.trimSpace type.text = type.text ∧ type.text ≠ [] := by
  cases type <;> decide

variable {locale : ExtractionSave.Locale} {resource : Resource} {response : ExtractionResponse}

theorem tagRows_payload (stripped : ∀ tag ∈ response.tags, Stripped tag.1) :
    tagRows resource (payload response) = shownTags resource.id response := by
  rw [tagRows, payload, shownTags, List.filterMap_map]
  refine List.filterMap_eq_map_iff_forall_eq_some.mpr fun tag mem => ?_
  have kept := stripped tag mem
  dsimp only [Function.comp_apply]
  unfold tagRow
  dsimp only
  rw [kept.trimSpace, if_neg kept.1, itemSource_text]

theorem entityRows_payload (upper : ∀ type : EntityType, type.text.map locale.toUpper = type.text)
    (stripped : ∀ item ∈ response.entities, Stripped item.entity ∧ Stripped item.mention) :
    entityRows locale resource (payload response) = shownEntities resource.id response := by
  rw [entityRows, payload, shownEntities, List.filterMap_map]
  refine List.filterMap_eq_map_iff_forall_eq_some.mpr fun item mem => ?_
  obtain ⟨entity, mention⟩ := stripped item mem
  obtain ⟨type, typed⟩ := type_text_trimmed item.type
  dsimp only [Function.comp_apply]
  unfold entityRow
  dsimp only
  rw [entity.trimSpace, mention.trimSpace, type, upper, itemSource_text,
    if_neg (not_or.mpr ⟨entity.1, not_or.mpr ⟨typed, mention.1⟩⟩)]

theorem accepts_iff {io : ExtractionIO}
    (works : ∀ statement, io.tags statement = false ∧ io.entities statement = false)
    (upper : ∀ type : EntityType, type.text.map locale.toUpper = type.text)
    (tags : ∀ tag ∈ response.tags, Stripped tag.1)
    (entities : ∀ item ∈ response.entities, Stripped item.entity ∧ Stripped item.mention) :
    (AcceptsTags locale io resource (payload response) ∧
      AcceptsEntities locale io resource (payload response)) ↔ Storable locale response := by
  rw [AcceptsTags, tagRows_payload tags, AcceptsEntities, entityRows_payload upper entities]
  have tagKeys : ((shownTags resource.id response).map (tagSchema locale).key).Nodup ↔
      (response.tags.map fun tag => locale.weight tag.1).Nodup := by
    have keys : (shownTags resource.id response).map (tagSchema locale).key =
        (response.tags.map fun tag => locale.weight tag.1).map (Prod.mk resource.id) := by
      rw [shownTags, List.map_map, List.map_map]
      rfl
    rw [keys]
    exact List.nodup_map_iff (Prod.mk_right_injective _)
  have entityKeys : ((shownEntities resource.id response).map (entitySchema locale).key).Nodup ↔
      (response.entities.map fun item => (locale.weight item.entity, locale.weight item.type.text,
        locale.weight item.mention)).Nodup := by
    have keys : (shownEntities resource.id response).map (entitySchema locale).key =
        (response.entities.map fun item => (locale.weight item.entity,
          locale.weight item.type.text, locale.weight item.mention)).map
            (Prod.mk resource.id) := by
      rw [shownEntities, List.map_map, List.map_map]
      rfl
    rw [keys]
    exact List.nodup_map_iff (Prod.mk_right_injective _)
  constructor
  · rintro ⟨first, second⟩
    refine ⟨fun tag mem => ?_, fun item mem => ?_, tagKeys.mp first.distinct,
      entityKeys.mp second.distinct⟩
    · exact (of_decide_eq_true (first.fits _ (List.mem_map_of_mem mem))).1
    · have fits := of_decide_eq_true (second.fits _ (List.mem_map_of_mem mem))
      exact ⟨fits.1, fits.2.2.1⟩
  · intro storable
    refine ⟨⟨(works _).1, fun _ => (works _).1, fun r mem => ?_, tagKeys.mpr storable.tagWeights,
      (works _).1⟩, ⟨(works _).2, fun _ => (works _).2, fun r mem => ?_,
      entityKeys.mpr storable.entityWeights, (works _).2⟩⟩
    · obtain ⟨tag, listed, rfl⟩ := List.mem_map.mp mem
      exact decide_eq_true ⟨storable.tags tag listed, source_text_length _⟩
    · obtain ⟨item, listed, rfl⟩ := List.mem_map.mp mem
      obtain ⟨entity, mention⟩ := storable.entities item listed
      exact decide_eq_true ⟨entity, type_text_length _, mention, source_text_length _⟩

/-- With a database that works, the gateway stores just what the worker reports exactly when
nothing is too long and the collation tells the tags apart and the entities too. -/
theorem extracted_stored_iff {svc : ExtractionService} {io : ExtractionIO}
    {resources : LiveResources} (s : Tables locale) (content : Text)
    (found : getByUUID resources io.getResource resource.uuid = .ok resource)
    (works : ∀ statement, io.tags statement = false ∧ io.entities statement = false)
    (lowers : ∀ text, Stripped text → Stripped (svc.normalizer.lower text))
    (upper : ∀ type : EntityType, type.text.map locale.toUpper = type.text) :
    (∃ s', saveInternal locale io resources s resource.uuid
        (payload (extract svc resource.uuid content)) = (.ok (), s') ∧
      Shown resource.id (extract svc resource.uuid content) s s') ↔
      Storable locale (extract svc resource.uuid content) := by
  have tags := @extract_stripped svc resource.uuid content lowers
  have entities := (extract_normal svc resource.uuid content).1.trimmed
  rw [← @accepts_iff _ resource _ io works upper tags entities]
  constructor
  · rintro ⟨s', stored, -⟩
    by_contra refused
    obtain ⟨e, after, failed⟩ := (saveInternal_fails_iff (s := s) found).mpr refused
    simp [failed] at stored
  · rintro ⟨first, second⟩
    obtain ⟨s', saved, rows⟩ := saveInternal_accepted (s := s) found first second
    have apart : Apart locale resource (payload (extract svc resource.uuid content)) :=
      ⟨first.nodup, second.nodup⟩
    refine ⟨s', saved, fun id => ?_, fun id => ?_⟩
    · rw [rows.tags, apart.tagRows_eq, tagRows_payload tags]
    · rw [rows.entities, apart.entityRows_eq, entityRows_payload upper entities]

theorem isSpace_toLower (c : Char) : PythonText.isSpace c.toLower = PythonText.isSpace c := by
  by_cases upper : 'A'.val ≤ c.val ∧ c.val ≤ 'Z'.val
  · have range : 65 ≤ c.toNat ∧ c.toNat ≤ 90 := upper
    have value : c.toLower.toNat = c.toNat + 32 := by
      have whole : c.toLower.val = c.val + 32 := congrArg Char.val (dif_pos upper)
      have sum := congrArg UInt32.toNat whole
      rw [UInt32.toNat_add] at sum
      exact sum.trans (Nat.mod_eq_of_lt (show c.toNat + 32 < 2 ^ 32 by omega))
    have letter : ∀ d : Char, 65 ≤ d.toNat → d.toNat ≤ 122 → PythonText.isSpace d = false := by
      intro d low high
      simp only [PythonText.isSpace, Bool.or_eq_false_iff, Bool.and_eq_false_iff,
        decide_eq_false_iff_not, beq_eq_false_iff_ne]
      omega
    rw [letter c range.1 (by omega), letter _ (by omega) (by omega)]
  · exact congrArg PythonText.isSpace (dif_neg upper)

theorem toLower_stripped {text : Text} (stripped : Stripped text) :
    Stripped (text.map Char.toLower) := by
  have same : isSpace ∘ Char.toLower = isSpace := funext isSpace_toLower
  have commutes : strip (text.map Char.toLower) = (strip text).map Char.toLower := by
    rw [strip, lstrip, rstrip, List.dropWhile_map, same, List.rdropWhile, ← List.map_reverse,
      List.dropWhile_map, same, ← List.map_reverse]
    rfl
  rw [stripped.2] at commutes
  exact ⟨fun none => stripped.1 (List.map_eq_nil_iff.mp none), commutes⟩

def halfDown : ExtractionService where
  llm content :=
    if content = "Google在北京，2024-1-5".toList then .error "TimeoutError"
    else .ok ⟨[" AI ".toList, "人工智能".toList, "Go".toList],
      [⟨"Go".toList, .misc, "Go".toList, .llm⟩], .llm⟩
  normalizer := { lower := List.map Char.toLower }

def lecture : Text := " Google在北京，2024-1-5".toList

theorem extract_normal_lecture :
    Covers halfDown.normalizer
      ⟨[" AI ".toList, "人工智能".toList, "Go".toList], [⟨"Go".toList, .misc, "Go".toList, .llm⟩], .llm⟩
      (extract halfDown slides.uuid "AI".toList) :=
  (extract_normal halfDown slides.uuid "AI".toList).2 _ (by decide) rfl

theorem fallback_grounded_lecture :
    (extract halfDown slides.uuid lecture).fallback = true ∧
    (extract halfDown slides.uuid lecture).entities.map Entity.mention =
      ["2024-1-5".toList, "Google".toList, "北京".toList] ∧
    ∀ item ∈ (extract halfDown slides.uuid lecture).entities,
      item.entity = item.mention ∧ item.mention <:+: lecture := by
  have grounded := @fallback_grounded halfDown slides.uuid lecture "TimeoutError" (by decide) rfl
  exact ⟨grounded.1, by decide +kernel, grounded.2.2.1⟩

theorem extracted_stored_lecture :
    ∃ s', saveInternal plainLocale noFaults slidesOnly taggedOld slides.uuid
        (payload (extract halfDown slides.uuid lecture)) = (.ok (), s') ∧
      Shown slides.id (extract halfDown slides.uuid lecture) taggedOld s' := by
  refine (@extracted_stored_iff plainLocale slides halfDown noFaults slidesOnly taggedOld lecture
    rfl (fun _ => ⟨rfl, rfl⟩) (fun _ => toLower_stripped) ?_).mpr ⟨?_, ?_, ?_, ?_⟩
  · intro type
    cases type <;> decide
  all_goals decide +kernel

end Stored

end KnowledgeCompanion.TagExtraction
