import Mathlib.Data.Finset.Max
import Mathlib.Data.Fintype.EquivFin
import KnowledgeCompanion.ChromaFilters
import KnowledgeCompanion.MilvusFilters
import KnowledgeCompanion.VectorStore

/-! The two encodings of one query: which queries select in both stores exactly the
records whose user and resource are the ones given. -/

namespace KnowledgeCompanion.StoreSelection

open BaseChunker VectorIndexing QuotedScan FilterExpression StoreQueries

variable {F : Type}

/-- Both stores select exactly the records that the query asks for. -/
def Agree (escapes : Escapes Char) (q : Query) (store : Store F) : Prop :=
  MilvusFilters.selected escapes q store = some (q.asked store) ∧
    ChromaFilters.selected q store = q.asked store

/-- A value that a quoted literal shows as it is. -/
structure Plain (value : Text) : Prop where
  unquoted : '\'' ∉ value
  unescaped : '\\' ∉ value
  oneLine : ∀ c ∈ value, lineBreak c = false

/-- The query can be written in both languages; `carried` is the metadata that the stored
records may have. -/
structure Expressible (q : Query) (carried : Metadata → Prop) : Prop where
  plain : ∀ value ∈ q.values, Plain value
  listed : q.resources ≠ some []
  named : ∀ resourceID, q ≠ .delete resourceID (some [])
  ownResource : q.resources ≠ none → ∀ m, carried m → ¬ ChromaFilters.Shadows m "resource_id"
  ownUser : q.user ≠ none → ∀ m, carried m → ¬ ChromaFilters.Shadows m "user_id"

variable {escapes : Escapes Char}

theorem Plain.closes {value : Text} (plain : Plain value) : Closes literals '\'' value :=
  closes_of_plain plain.unquoted plain.unescaped

theorem Plain.textValue {value : Text} (plain : Plain value) :
    textValue escapes value = some value :=
  unescape_plain plain.unescaped plain.oneLine

theorem plain_of_self {value : Text} (closes : Closes literals '\'' value)
    (same : textValue escapes value = some value) : Plain value := by
  obtain ⟨-, shorter, whole⟩ := unescape_some same
  have unescaped : '\\' ∉ value := fun mem => lt_irrefl _ (shorter mem)
  exact ⟨closes.1, unescaped, (whole unescaped).2⟩

theorem self_of_denoted {values : List Text}
    (denoted : ∀ v ∈ values, ∃ w ∈ values, textValue escapes w = some v) :
    ∀ v ∈ values, textValue escapes v = some v := by
  have unescaped : ∀ v ∈ values, '\\' ∉ v := by
    by_contra some'
    push Not at some'
    obtain ⟨v, mem, escaped⟩ := some'
    obtain ⟨top, topMem, longest⟩ := Finset.exists_max_image
      (values.filter fun v => '\\' ∈ v).toFinset List.length
      ⟨v, by simpa using ⟨mem, escaped⟩⟩
    simp only [List.mem_toFinset, List.mem_filter, decide_eq_true_eq] at topMem longest
    obtain ⟨w, wMem, denotes⟩ := denoted top topMem.1
    obtain ⟨-, shorter, whole⟩ := unescape_some denotes
    by_cases wEscaped : '\\' ∈ w
    · have less := shorter wEscaped
      have most := longest w ⟨wMem, wEscaped⟩
      omega
    · exact wEscaped ((whole wEscaped).1 ▸ topMem.2)
  intro v mem
  obtain ⟨w, wMem, denotes⟩ := denoted v mem
  obtain ⟨-, -, whole⟩ := unescape_some denotes
  rw [(whole (unescaped w wMem)).1]
  rwa [(whole (unescaped w wMem)).1] at denotes

def recordOf (userID resourceID : Text) (metadata : Metadata) : VectorRecord F where
  id := []
  resourceID := resourceID
  userID := userID
  text := []
  vector := []
  metadata := metadata
  createdAt := 0

def MilvusMatches (escapes : Escapes Char) (q : Query) (r : VectorRecord F) : Prop :=
  MilvusFilters.Denotes escapes q.sought (MilvusFilters.namedUser q) r

def ChromaMatches (q : Query) (r : VectorRecord F) : Prop :=
  (ChromaFilters.whereClause q).all (fun clause =>
    clause.holds (ChromaFilters.recordToChromaMetadata r)) = true

theorem chromaMatches_iff (q : Query) (r : VectorRecord F) :
    ChromaMatches q r ↔
      (∀ ids ∈ q.sought, ∃ id ∈ ids, (r.metadata.reverse.lookup "resource_id").or
        (some (.text r.resourceID)) = some (.text id)) ∧
      ∀ u ∈ q.user, (r.metadata.reverse.lookup "user_id").or (some (.text r.userID)) =
        some (.text u) := by
  rw [ChromaMatches, ChromaFilters.whereClause_holds, (ChromaFilters.lookup_record r).1,
    (ChromaFilters.lookup_record r).2]

theorem filter_eq_filter_iff {β : Type*} {p p' : β → Bool} {bs : List β} :
    bs.filter p = bs.filter p' ↔ ∀ b ∈ bs, (p b = true ↔ p' b = true) := by
  constructor
  · intro same b mem
    have left : b ∈ bs.filter p ↔ b ∈ bs.filter p' := by rw [same]
    simpa [List.mem_filter, mem] using left
  · intro same
    exact List.filter_congr fun b mem => Bool.eq_iff_iff.mpr (same b mem)

theorem chroma_agrees_iff {q : Query} {store : Store F} :
    ChromaFilters.selected q store = q.asked store ↔
      ∀ r ∈ store, (ChromaMatches q r ↔ q.Asks r) := by
  rw [ChromaFilters.selected, Query.asked, filter_eq_filter_iff]
  refine forall₂_congr fun r _ => ?_
  rw [ChromaMatches, decide_eq_true_eq]

def Accepted (escapes : Escapes Char) (q : Query) : Prop :=
  ∀ v ∈ q.sought.getD [] ++ (MilvusFilters.namedUser q).toList,
    Closes literals '\'' v ∧ (textValue escapes v).isSome = true

theorem milvus_agrees_iff {q : Query} {store : Store F} :
    MilvusFilters.selected escapes q store = some (q.asked store) ↔
      Accepted escapes q ∧ ∀ r ∈ store, (MilvusMatches escapes q r ↔ q.Asks r) := by
  rw [MilvusFilters.selected, MilvusFilters.expression_eq]
  by_cases unfiltered : q.sought = none ∧ MilvusFilters.namedUser q = none
  · have accepted : Accepted escapes q := by
      rw [Accepted, unfiltered.1, unfiltered.2]
      exact fun v mem => nomatch mem
    have matched (r : VectorRecord F) : MilvusMatches escapes q r := by
      rw [MilvusMatches, unfiltered.1, unfiltered.2]
      exact ⟨fun _ absent => (nomatch absent), fun _ absent => (nomatch absent)⟩
    rw [if_pos unfiltered, Option.some.injEq, Query.asked, eq_comm, List.filter_eq_self]
    simp [accepted, matched]
  · have reads := MilvusFilters.template_reads (F := F) escapes q.sought_ne_nil
      unfiltered
    rw [if_neg unfiltered]
    constructor
    · intro selected
      obtain ⟨holds, parsed, same⟩ := Option.map_eq_some_iff.mp selected
      obtain ⟨accepted, means⟩ := reads.sound holds parsed
      rw [Query.asked, filter_eq_filter_iff] at same
      refine ⟨accepted, fun r mem => ?_⟩
      have here := same r mem
      rw [means, decide_eq_true_eq] at here
      exact here
    · rintro ⟨accepted, same⟩
      obtain ⟨holds, parsed⟩ := reads.complete accepted
      obtain ⟨-, means⟩ := reads.sound holds parsed
      have chosen : store.filter holds = q.asked store := by
        rw [Query.asked, filter_eq_filter_iff]
        intro r mem
        rw [means, decide_eq_true_eq]
        exact same r mem
      exact (congrArg (Option.map fun holds => store.filter holds) parsed).trans
        (congrArg some chosen)

theorem milvus_selects_single {q : Query} {r : VectorRecord F} (accepted : Accepted escapes q)
    (filtered : ¬(q.sought = none ∧ MilvusFilters.namedUser q = none))
    (matched : MilvusMatches escapes q r) : MilvusFilters.selected escapes q [r] = some [r] := by
  have reads := MilvusFilters.template_reads (F := F) escapes q.sought_ne_nil filtered
  obtain ⟨holds, parsed⟩ := reads.complete accepted
  have here : holds r = true := ((reads.sound holds parsed).2 r).mpr matched
  rw [MilvusFilters.selected, MilvusFilters.expression_eq, if_neg filtered]
  refine (congrArg (Option.map fun holds => List.filter holds [r]) parsed).trans ?_
  rw [Option.map_some, List.filter_cons_of_pos here, List.filter_nil]

theorem agree_all_iff {q : Query} {carried : Metadata → Prop} :
    (∀ store : Store F, (∀ r ∈ store, carried r.metadata) → Agree escapes q store) ↔
      Accepted escapes q ∧ ∀ r : VectorRecord F, carried r.metadata →
        (MilvusMatches escapes q r ↔ q.Asks r) ∧ (ChromaMatches q r ↔ q.Asks r) := by
  simp only [Agree, milvus_agrees_iff, chroma_agrees_iff]
  constructor
  · intro agree
    refine ⟨(agree [] fun r mem => nomatch mem).1.1, fun r allowed => ?_⟩
    obtain ⟨⟨-, milvus⟩, chroma⟩ := agree [r] (by simpa using allowed)
    exact ⟨milvus r List.mem_cons_self, chroma r List.mem_cons_self⟩
  · rintro ⟨accepted, agree⟩ store allowed
    exact ⟨⟨accepted, fun r mem => (agree r (allowed r mem)).1⟩,
      fun r mem => (agree r (allowed r mem)).2⟩

theorem sought_eq {q : Query} (listed : q.resources ≠ some []) : q.sought = q.resources := by
  rw [Query.sought]
  cases given : q.resources with
  | none => rfl
  | some ids =>
    have some' : ids ≠ [] := fun empty => listed (by rw [given, empty])
    rw [Option.map_some, if_neg some']

theorem namedUser_eq {q : Query} (named : ∀ resourceID, q ≠ .delete resourceID (some [])) :
    MilvusFilters.namedUser q = q.user := by
  cases q with
  | search filters => rfl
  | delete resourceID userID =>
    rw [MilvusFilters.namedUser, Query.user]
    cases userID with
    | none => rfl
    | some u =>
      have some' : u ≠ [] := fun empty => named resourceID (by rw [empty])
      exact if_neg some'

theorem agree_of_expressible {q : Query} {carried : Metadata → Prop}
    (expressible : Expressible q carried) :
    Accepted escapes q ∧ ∀ r : VectorRecord F, carried r.metadata →
      (MilvusMatches escapes q r ↔ q.Asks r) ∧ (ChromaMatches q r ↔ q.Asks r) := by
  have sought := sought_eq expressible.listed
  have named := namedUser_eq expressible.named
  have plain := expressible.plain
  rw [Query.values] at plain
  have resource (ids : List Text) (given : q.resources = some ids) (id : Text) (mem : id ∈ ids) :
      textValue escapes id = some id :=
    (plain id (List.mem_append_left _ (by rwa [given]))).textValue
  have user (u : Text) (given : q.user = some u) : textValue escapes u = some u :=
    (plain u (List.mem_append_right _ (by simp [given]))).textValue
  constructor
  · rw [Accepted, sought, named]
    exact fun v mem => ⟨(plain v mem).closes, by rw [(plain v mem).textValue]; rfl⟩
  · intro r allowed
    constructor
    · rw [MilvusMatches, MilvusFilters.Denotes, sought, named, Query.Asks]
      refine and_congr (forall₂_congr fun ids given => ?_) (forall₂_congr fun u given => ?_)
      · constructor
        · rintro ⟨id, mem, denotes⟩
          rw [resource ids given id mem] at denotes
          exact Option.some.inj denotes ▸ mem
        · exact fun mem => ⟨_, mem, resource ids given _ mem⟩
      · rw [user u given, Option.some.injEq]
        exact eq_comm
    · rw [chromaMatches_iff, sought, Query.Asks]
      refine and_congr (forall₂_congr fun ids given => ?_) (forall₂_congr fun u given => ?_)
      · have own := expressible.ownResource (fun absent =>
          Option.some_ne_none _ (given.symm.trans absent))
          r.metadata allowed
        rw [ChromaFilters.lookup_unshadowed own, Option.none_or]
        simp
      · have own := expressible.ownUser (fun absent =>
          Option.some_ne_none _ (given.symm.trans absent))
          r.metadata allowed
        rw [ChromaFilters.lookup_unshadowed own, Option.none_or]
        simp

/-- The two matches hold of just the records asked for. -/
structure Matched (escapes : Escapes Char) (F : Type) (q : Query) (carried : Metadata → Prop) :
    Prop where
  accepted : Accepted escapes q
  milvus : ∀ r : VectorRecord F, carried r.metadata → (MilvusMatches escapes q r ↔ q.Asks r)
  chroma : ∀ r : VectorRecord F, carried r.metadata → (ChromaMatches q r ↔ q.Asks r)

variable {q : Query} {carried : Metadata → Prop} {m : Metadata}

theorem listed_of_matched (matched : Matched escapes F q carried) (allowed : carried m) :
    q.resources ≠ some [] := by
  intro empty
  have sought : q.sought = some [[]] := by
    rw [Query.sought, empty]
    rfl
  have nothing : textValue escapes [] = some [] := unescape_plain List.not_mem_nil fun a mem =>
    absurd mem List.not_mem_nil
  obtain ⟨u, denotes⟩ : ∃ u, ∀ named ∈ MilvusFilters.namedUser q,
      textValue escapes named = some u := by
    cases named : MilvusFilters.namedUser q with
    | none => exact ⟨[], fun _ absent => absurd absent (Option.not_mem_none _)⟩
    | some v =>
      have present := (matched.accepted v (by simp [named])).2
      obtain ⟨u, value⟩ := Option.isSome_iff_exists.mp present
      exact ⟨u, fun _ same => Option.some.inj same ▸ value⟩
  have chosen : MilvusMatches escapes q (recordOf (F := F) u [] m) := by
    refine ⟨fun ids given => ?_, denotes⟩
    rw [sought] at given
    rw [← Option.some.inj given]
    exact ⟨[], List.mem_singleton_self _, nothing⟩
  have asked := (matched.milvus _ allowed).mp chosen
  exact List.not_mem_nil (asked.1 [] empty)

theorem exists_asked (listed : q.resources ≠ some []) :
    ∃ rid uid, (∀ ids ∈ q.resources, rid ∈ ids) ∧ ∀ u ∈ q.user, uid = u := by
  obtain ⟨rid, within⟩ : ∃ rid, ∀ ids ∈ q.resources, rid ∈ ids := by
    cases given : q.resources with
    | none => exact ⟨[], fun _ absent => nomatch absent⟩
    | some ids =>
      cases ids with
      | nil => exact absurd given listed
      | cons id ids => exact ⟨id, fun _ same => Option.some.inj same ▸ List.mem_cons_self⟩
  cases q.user with
  | none => exact ⟨rid, [], within, fun _ absent => nomatch absent⟩
  | some u => exact ⟨rid, u, within, fun _ same => Option.some.inj same⟩

theorem named_of_matched (matched : Matched escapes F q carried) (allowed : carried m) :
    ∀ resourceID, q ≠ .delete resourceID (some []) := by
  rintro rid rfl
  have asks : (Query.delete rid (some [])).Asks (recordOf (F := F) [] rid m) :=
    ⟨fun ids same => Option.some.inj same ▸ List.mem_singleton_self _,
      fun u same => Option.some.inj same⟩
  have chosen := (matched.milvus _ allowed).mpr asks
  have other : MilvusMatches escapes (.delete rid (some []))
      (recordOf (F := F) "other".toList rid m) :=
    ⟨chosen.1, fun _ absent => nomatch absent⟩
  have wrong := ((matched.milvus _ allowed).mp other).2 [] rfl
  exact List.cons_ne_nil _ _ wrong

theorem plain_of_matched (matched : Matched escapes F q carried) (allowed : carried m) :
    ∀ value ∈ q.values, Plain value := by
  have listed := listed_of_matched matched allowed
  have sought := sought_eq listed
  have named := namedUser_eq (named_of_matched matched allowed)
  obtain ⟨rid, uid, within, owner⟩ := exists_asked listed
  have accepted := matched.accepted
  rw [Accepted, sought, named] at accepted
  intro value mem
  suffices same : textValue escapes value = some value from
    plain_of_self (accepted value mem).1 same
  rcases List.mem_append.mp mem with mem | mem
  · cases given : q.resources with
    | none =>
      rw [given] at mem
      exact nomatch mem
    | some ids =>
      rw [given] at mem
      refine self_of_denoted (fun id idMem => ?_) value mem
      have asks : q.Asks (recordOf (F := F) uid id m) :=
        ⟨fun ids' same => Option.some.inj (given.symm.trans same) ▸ idMem, owner⟩
      exact ((matched.milvus _ allowed).mpr asks).1 ids (by rw [sought]; exact given)
  · have given : q.user = some value := by simpa using mem
    have asks : q.Asks (recordOf (F := F) uid rid m) := ⟨within, owner⟩
    have denotes := ((matched.milvus _ allowed).mpr asks).2 value (by rw [named]; exact given)
    rw [denotes]
    exact congrArg some (owner value given)

theorem ownResource_of_matched (matched : Matched escapes F q carried) (allowed : carried m)
    (given : q.resources ≠ none) : ¬ ChromaFilters.Shadows m "resource_id" := by
  intro shadowed
  obtain ⟨kept, found⟩ := ChromaFilters.shadows_iff.mp shadowed
  obtain ⟨rid, uid, within, owner⟩ := exists_asked (listed_of_matched matched allowed)
  obtain ⟨ids, given⟩ := Option.ne_none_iff_exists'.mp given
  obtain ⟨fresh, absent⟩ := Infinite.exists_notMem_finset ids.toFinset
  have asks : q.Asks (recordOf (F := F) uid rid m) := ⟨within, owner⟩
  have chosen := (chromaMatches_iff _ _).mp ((matched.chroma _ allowed).mpr asks)
  have other : ChromaMatches q (recordOf (F := F) uid fresh m) := by
    rw [chromaMatches_iff]
    refine ⟨fun ids' same => ?_, chosen.2⟩
    have here := chosen.1 ids' same
    simp only [recordOf, found, Option.some_or] at here ⊢
    exact here
  exact absent (List.mem_toFinset.mpr (((matched.chroma _ allowed).mp other).1 ids given))

theorem ownUser_of_matched (matched : Matched escapes F q carried) (allowed : carried m)
    (given : q.user ≠ none) : ¬ ChromaFilters.Shadows m "user_id" := by
  intro shadowed
  obtain ⟨kept, found⟩ := ChromaFilters.shadows_iff.mp shadowed
  obtain ⟨rid, uid, within, owner⟩ := exists_asked (listed_of_matched matched allowed)
  obtain ⟨u, given⟩ := Option.ne_none_iff_exists'.mp given
  obtain ⟨fresh, other⟩ := exists_ne u
  have asks : q.Asks (recordOf (F := F) uid rid m) := ⟨within, owner⟩
  have chosen := (chromaMatches_iff _ _).mp ((matched.chroma _ allowed).mpr asks)
  have selected : ChromaMatches q (recordOf (F := F) fresh rid m) := by
    rw [chromaMatches_iff]
    refine ⟨chosen.1, fun u' same => ?_⟩
    have here := chosen.2 u' same
    simp only [recordOf, found, Option.some_or] at here ⊢
    exact here
  exact other (((matched.chroma _ allowed).mp selected).2 u given)

/-- Whatever the stored records are, the filter expression and the where clause select
exactly the records asked for, just when the query is expressible with the metadata that
these records may carry. -/
theorem stores_agree_iff (carries : ∃ m, carried m) :
    (∀ store : Store F, (∀ r ∈ store, carried r.metadata) → Agree escapes q store) ↔
      Expressible q carried := by
  obtain ⟨m, allowed⟩ := carries
  rw [agree_all_iff]
  constructor
  · rintro ⟨accepted, agree⟩
    have matched : Matched escapes F q carried :=
      ⟨accepted, fun r fine => (agree r fine).1, fun r fine => (agree r fine).2⟩
    exact ⟨plain_of_matched matched allowed, listed_of_matched matched allowed,
      named_of_matched matched allowed,
      fun given m fine => ownResource_of_matched matched fine given,
      fun given m fine => ownUser_of_matched matched fine given⟩
  · exact agree_of_expressible

def ownKeys (metadata : Metadata) : Prop :=
  ¬ ChromaFilters.Shadows metadata "resource_id" ∧ ¬ ChromaFilters.Shadows metadata "user_id"

def lectures : Query :=
  .search { userID := some "alice".toList,
            resourceIDs := some (.many ["lecture-1".toList, "lecture-2".toList]) }

theorem plain_of_all (values : List Text)
    (fine : values.all (fun value => !value.contains '\'' && !value.contains '\\' &&
      value.all fun c => !lineBreak c) = true) :
    ∀ value ∈ values, Plain value := by
  intro value mem
  have ok := List.all_eq_true.mp fine value mem
  simp only [Bool.and_eq_true, Bool.not_eq_true', List.all_eq_true] at ok
  exact ⟨by simpa using ok.1.1, by simpa using ok.1.2, ok.2⟩

theorem stores_agree_lectures :
    Agree cEscapes lectures
      [recordOf (F := ℕ) "alice".toList "lecture-1".toList [("page", .int 3)],
        recordOf "bob".toList "lecture-2".toList []] := by
  have expressible : Expressible lectures ownKeys := {
    plain := plain_of_all lectures.values (by decide)
    listed := by decide
    named := fun _ same => nomatch same
    ownResource := fun _ _ own => own.1
    ownUser := fun _ _ own => own.2 }
  refine (stores_agree_iff ⟨[], List.not_mem_nil, List.not_mem_nil⟩).mpr expressible _ ?_
  intro r mem
  simp only [List.mem_cons, List.not_mem_nil, or_false] at mem
  rcases mem with rfl | rfl <;> simp [ownKeys, ChromaFilters.Shadows, recordOf]

def emptyUserDeletion : Query := .delete "lecture".toList (some [])

def aliceStore : Store ℕ := [recordOf "alice".toList "lecture".toList []]

/-- A deletion for the empty user reaches the records of every user in one store, and no
record of alice in the other. -/
theorem empty_user_disagrees :
    MilvusFilters.selected cEscapes emptyUserDeletion aliceStore = some aliceStore ∧
      ChromaFilters.selected emptyUserDeletion aliceStore = [] ∧
      ¬ Agree cEscapes emptyUserDeletion aliceStore := by
  have value : textValue cEscapes "lecture".toList = some "lecture".toList :=
    unescape_plain (by decide) (List.forall_iff_forall_mem.mp (by decide))
  have accepted : Accepted cEscapes emptyUserDeletion := by
    intro v mem
    obtain rfl : v = "lecture".toList := List.mem_singleton.mp mem
    exact ⟨closes_of_plain (by decide) (by decide), by rw [value]; rfl⟩
  have matched : MilvusMatches cEscapes emptyUserDeletion
      (recordOf (F := ℕ) "alice".toList "lecture".toList []) := by
    refine ⟨fun ids given => ?_, fun _ absent => nomatch absent⟩
    rw [← Option.some.inj given]
    exact ⟨_, List.mem_singleton_self _, value⟩
  have milvus := milvus_selects_single accepted (fun h => nomatch h.1) matched
  have chroma : ChromaFilters.selected emptyUserDeletion aliceStore = [] := rfl
  refine ⟨milvus, chroma, fun agree => ?_⟩
  have same := (Option.some.inj (milvus.symm.trans agree.1)).trans (agree.2.symm.trans chroma)
  exact List.cons_ne_nil _ _ same

open RetrievalModels in
def ofScope (filters : Filters) : Query :=
  .search { userID := some filters.userID, resourceIDs := some (.many filters.resourceIDs) }

theorem agree_of_carried (expressible : Expressible q carried) {store : Store F}
    (allowed : ∀ r ∈ store, carried r.metadata) : Agree escapes q store :=
  agree_all_iff.mpr (agree_of_expressible expressible) store allowed

end KnowledgeCompanion.StoreSelection
