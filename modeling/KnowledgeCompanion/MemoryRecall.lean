import Mathlib.Algebra.Order.BigOperators.Group.List
import KnowledgeCompanion.MemoryService

/-! What a question recalls after any run: memories of its user and conversation only, and a
saved turn again as long as nothing more similar fills the context. -/

namespace KnowledgeCompanion.MemoryRecall

open GuardedRun PythonText VectorIndexing Embeddings StoreQueries StoreSearch Ranking
open BudgetedPrefix ApiExceptions Retrieval StoreSelection QuotedScan BackendRankings
open FilterExpression MemoryService

variable {F K : Type} [Field K] [LinearOrder K]

inductive Serves (c : Collection F) : Search F K → Prop
  | milvus (escapes : Escapes Char) (similarity : List F → List F → K)
      (config : VectorStoreConfig) : Serves c (MilvusStore.search escapes similarity config c)
  | chroma (similarity : List F → List F → K) : Serves c (ChromaStore.search similarity c)

def Remembers (userID conversationID text : Text) : Event F → Prop
  | .saveTurn turn _ _ => turn.userID = userID ∧ turn.conversationID = conversationID ∧
      turn.text = text
  | .saveUserFacts saved _ _ => saved.userID = userID ∧ ∃ fact ∈ saved.facts, strip fact = text
  | .upsert _ => False
  | .deleteByResource _ _ => False

def Separate (cfg : MemoryConfig K) : Prop :=
  ∀ conversationID userID, cfg.conversationResource conversationID ≠ cfg.userResource userID

variable {cfg : MemoryConfig K} {es : List (Event F)} {userID conversationID : Text}

section Scope

omit [Field K] [LinearOrder K]

theorem scope_asks {r : VectorRecord F} (asks : (cfg.scope userID conversationID).Asks r) :
    r.userID = userID ∧ (r.resourceID = cfg.conversationResource conversationID ∨
      r.resourceID = cfg.userResource userID) := by
  have resource := asks.1 _ rfl
  simp only [ResourceIDs.values, List.mem_cons, List.not_mem_nil, or_false] at resource
  exact ⟨asks.2 userID rfl, resource⟩

theorem scope_agree (escapes : Escapes Char) (c : Collection F)
    (plain : ∀ value ∈ (cfg.scope userID conversationID).values, Plain value) :
    Agree escapes (cfg.scope userID conversationID) c.records := by
  have expressible : Expressible (cfg.scope userID conversationID)
      fun m => ∀ key ∈ reservedKeys, ¬ ChromaFilters.Shadows m key :=
    { plain := plain
      listed := fun same => List.cons_ne_nil _ _ (Option.some.inj same)
      named := fun _ same => Query.noConfusion same
      ownResource := fun _ m own => own "resource_id" (by decide)
      ownUser := fun _ m own => own "user_id" (by decide) }
  exact agree_of_carried expressible c.unreserved

theorem asked_remembered (separate : Separate cfg) (foreign : ∀ e ∈ es, Foreign cfg e)
    {r : VectorRecord F} (mem : r ∈ exec (step cfg) [] es)
    (asks : (cfg.scope userID conversationID).Asks r) :
    ∃ e ∈ es, Remembers userID conversationID r.text e := by
  obtain ⟨user, resource⟩ := scope_asks asks
  obtain ⟨e, there, writes⟩ := run_writes mem
  refine ⟨e, there, ?_⟩
  cases e with
  | saveTurn turn embed stored =>
    obtain ⟨embedding, rfl⟩ := writes
    refine ⟨user, ?_, rfl⟩
    rcases resource with same | same
    · exact (List.cons_inj_right ':').mp ((List.append_right_inj _).mp same)
    · exact absurd same (separate _ _)
  | saveUserFacts saved embed stored =>
    obtain ⟨chunk, made, embedding, rfl⟩ := writes
    obtain ⟨⟨fact, i⟩, indexed, rfl⟩ := List.mem_map.mp made
    have kept : fact ∈ saved.facts.filter fun fact => !isBlank fact :=
      List.mem_of_getElem? (List.mem_zipIdx_iff_getElem?.mp indexed)
    exact ⟨user, fact, (List.mem_filter.mp kept).1, rfl⟩
  | upsert records =>
    refine absurd ?_ (foreign _ there r writes).1
    rcases resource with same | same
    · exact .inl ⟨conversationID, same.symm⟩
    · exact .inr ⟨userID, same.symm⟩
  | deleteByResource resourceID userID => exact writes.elim

end Scope

theorem serves_answers [IsStrictOrderedRing K] {c : Collection F} {search : Search F K}
    (serves : Serves c search)
    (plain : ∀ value ∈ (cfg.scope userID conversationID).values, Plain value)
    (vector : List F) (k : ℕ) :
    ∃ (close : VectorRecord F → K) (hit : VectorRecord F → SearchHit K),
      search vector k (cfg.scope userID conversationID) =
        .ok ((closest close c k (cfg.scope userID conversationID)).map hit) ∧
      ∀ r, (hit r).text <+: r.text := by
  cases serves with
  | milvus escapes similarity config =>
    exact ⟨_, _, milvus_search similarity config (scope_agree escapes c plain) vector k,
      fun r => List.take_prefix _ _⟩
  | chroma similarity =>
    exact ⟨_, _, chroma_search similarity (scope_agree cEscapes c plain) vector k,
      fun r => List.prefix_rfl⟩

omit [Field K] in
theorem length_snippets_le (hits : List (SearchHit K)) :
    (snippets cfg hits).length ≤ hits.length := by
  have reaching := List.length_filter_le (fun r => decide (cfg.scoreThreshold ≤ r.score)) hits
  refine (List.IsPrefix.length_le <| keepWithin_prefix _).trans ?_
  refine (List.length_filter_le _ _).trans ?_
  rw [List.length_map, (ranked_perm _ _).length_eq]
  exact reaching

omit [Field K] in
theorem snippet_of_hit {hits : List (SearchHit K)} {snippet : Text}
    (mem : snippet ∈ snippets cfg hits) :
    snippet ≠ [] ∧ ∃ hit ∈ hits, cfg.scoreThreshold ≤ hit.score ∧ strip hit.text = snippet := by
  obtain ⟨shown, some'⟩ := List.mem_filter.mp (List.IsPrefix.subset ( keepWithin_prefix _) mem)
  obtain ⟨hit, here, rfl⟩ := List.mem_map.mp shown
  obtain ⟨found, reaches⟩ := List.mem_filter.mp ((mem_ranked _).mp here)
  exact ⟨of_decide_eq_true some', hit, found, of_decide_eq_true reaches, rfl⟩

omit [Field K] in
theorem snippets_fit (hits : List (SearchHit K)) :
    ((snippets cfg hits).map estimateTokens).sum ≤ cfg.maxContextTokens := by
  have fits : Fits estimateTokens cfg.maxContextTokens 0 (snippets cfg hits) :=
    keepWithin_fits (Nat.zero_le _)
  rwa [Fits, Nat.zero_add] at fits

/-- A few texts within the budget, each the beginning of what the user said in the
conversation or stated as a fact. -/
structure Isolated (cfg : MemoryConfig K) (es : List (Event F)) (userID conversationID : Text)
    (recalled : List Text) : Prop where
  few : recalled.length ≤ cfg.topK
  within : (recalled.map estimateTokens).sum ≤ cfg.maxContextTokens
  own : ∀ snippet ∈ recalled, snippet ≠ [] ∧ ∃ e ∈ es, ∃ text,
    Remembers userID conversationID text e ∧ ∃ part, part <+: text ∧ strip part = snippet

omit [Field K] [LinearOrder K] in
theorem isolated_nil : Isolated cfg es userID conversationID [] where
  few := Nat.zero_le _
  within := Nat.zero_le _
  own _ absent := absurd absent List.not_mem_nil

omit [Field K] in
theorem loadContext_answered {embedQuery : Text → Except ApiException (List F)}
    {search : Search F K} {question : Text} {vector : List F} {results : List (SearchHit K)}
    (enabled : cfg.enabled = true) (asked : embedQuery question = .ok vector)
    (answered : search vector cfg.topK (cfg.scope userID conversationID) = .ok results) :
    loadContext cfg embedQuery search userID conversationID question =
      contextText (snippets cfg results) := by
  have found : (do search (← embedQuery question) cfg.topK (cfg.scope userID conversationID)) =
      .ok results := by
    rw [asked]
    exact answered
  rw [loadContext, if_pos enabled, found]

/-- Whatever is in the store after a run, a question is shown nothing but memories of its own
user and conversation. -/
theorem context_isolated [IsStrictOrderedRing K] (separate : Separate cfg)
    (foreign : ∀ e ∈ es, Foreign cfg e)
    (plain : ∀ value ∈ (cfg.scope userID conversationID).values, Plain value)
    (embedQuery : Text → Except ApiException (List F)) {search : Search F K}
    (serves : Serves (runCollection cfg es foreign) search) (question : Text) :
    ∃ recalled, loadContext cfg embedQuery search userID conversationID question =
        contextText recalled ∧
      Isolated cfg es userID conversationID recalled := by
  by_cases enabled : cfg.enabled = true
  · cases asked : embedQuery question with
    | error e =>
      refine ⟨[], ?_, isolated_nil⟩
      rw [loadContext, if_pos enabled, asked]
      rfl
    | ok vector =>
      obtain ⟨close, hit, answered, shortened⟩ := serves_answers serves plain vector cfg.topK
      refine ⟨_, loadContext_answered enabled asked answered, ?_, snippets_fit _,
        fun snippet mem => ?_⟩
      · refine (length_snippets_le _).trans ?_
        rw [List.length_map, closest]
        exact (List.length_take_le _ _).trans (Nat.min_le_left _ _)
      · obtain ⟨filled, found, here, -, rfl⟩ := snippet_of_hit mem
        obtain ⟨r, near, rfl⟩ := List.mem_map.mp here
        obtain ⟨stored, asks⟩ := mem_closest near
        obtain ⟨e, there, remembers⟩ := asked_remembered separate foreign stored asks
        exact ⟨filled, e, there, r.text, remembers, _, shortened r, rfl⟩
  · exact ⟨[], if_neg enabled, isolated_nil⟩

def defaultConfig : MemoryConfig ℚ where
  scoreThreshold := 7 / 10

theorem separate_default : Separate defaultConfig := by
  intro conversationID userID same
  have front : "memory:c".toList = "memory:u".toList := congrArg (List.take 8) same
  revert front
  decide

def said (userID conversationID question answer recordID : String) (createdAt : ℤ) : Turn where
  userID := userID.toList
  conversationID := conversationID.toList
  question := question.toList
  answer := answer.toList
  chunkID := recordID.toList
  recordID := recordID.toList
  createdAt := createdAt

def axis (chunks : List ChunkInput) : Except ApiException (List (Embedding ℚ)) :=
  .ok (chunks.map fun chunk => ⟨chunk.id, chunk.resourceID, [1, 0], [], 2⟩)

def twoUsers : List (Event ℚ) :=
  [.saveTurn (said "alice" "c1" "When is the exam?" "On Friday." "t1" 1) axis true,
    .saveTurn (said "bob" "c1" "Where is it?" "In the hall." "t2" 2) axis true,
    .saveUserFacts ⟨"alice".toList, [" likes tea ".toList], fun _ => "f1".toList, 3⟩ axis true]

theorem twoUsers_foreign : ∀ e ∈ twoUsers, Foreign defaultConfig e := by
  intro e mem
  simp only [twoUsers, List.mem_cons, List.not_mem_nil, or_false] at mem
  rcases mem with rfl | rfl | rfl <;> trivial

theorem twoUsers_plain : ∀ value ∈ (defaultConfig.scope "alice".toList "c1".toList).values,
    Plain value :=
  plain_of_all _ (by decide)

theorem context_isolated_alice :
    ∃ recalled, loadContext defaultConfig (fun _ => .ok [1, 0])
        (ChromaStore.search dot (runCollection defaultConfig twoUsers twoUsers_foreign))
        "alice".toList "c1".toList "exam?".toList = contextText recalled ∧
      Isolated defaultConfig twoUsers "alice".toList "c1".toList recalled :=
  context_isolated separate_default twoUsers_foreign twoUsers_plain (fun _ => .ok [1, 0])
    (.chroma dot) "exam?".toList

/-- The second user's turn is not among what the first is shown. -/
example : loadContext defaultConfig (fun _ => .ok [1, 0])
    (ChromaStore.search dot (runCollection defaultConfig twoUsers twoUsers_foreign))
    "alice".toList "c1".toList "exam?".toList =
      contextText ["User: When is the exam?\nAssistant: On Friday.".toList,
        "likes tea".toList] := by
  decide +kernel

theorem infix_intercalate (sep : Text) {part : Text} {parts : List Text} (mem : part ∈ parts) :
    part <:+: sep.intercalate parts := by
  induction parts with
  | nil => exact absurd mem List.not_mem_nil
  | cons first rest ih =>
    cases rest with
    | nil =>
      rw [List.intercalate_singleton, List.mem_singleton.mp mem]
    | cons second rest =>
      rw [List.intercalate_cons_cons]
      rcases List.mem_cons.mp mem with rfl | later
      · exact (List.prefix_append _ _).isInfix.trans (List.prefix_append _ _).isInfix
      · exact (ih later).trans (List.suffix_append _ _).isInfix

theorem infix_contextText {recalled : List Text} {snippet : Text} (mem : snippet ∈ recalled) :
    "- ".toList ++ snippet <:+: contextText recalled := by
  have filled : recalled ≠ [] := List.ne_nil_of_mem mem
  rw [contextText, if_neg filled]
  have line := infix_intercalate ['\n'] (List.mem_map_of_mem (f := ("- ".toList ++ ·)) mem)
  exact line.trans ((List.suffix_append _ _).isInfix.trans (List.prefix_append _ _).isInfix)

theorem strip_turn (turn : Turn) : strip turn.text ≠ [] := by
  intro blank
  have spaces := isBlank_iff.mp (List.isEmpty_iff.mpr blank)
  have user : 'U' ∈ turn.text := List.mem_cons_self
  exact absurd (spaces 'U' user) Bool.false_ne_true

def rivals (close : VectorRecord F → K) (c : Collection F) (q : Query) (r : VectorRecord F) :
    Store F :=
  (q.asked c.records).filter fun r' => close r ≤ close r'

/-- Of the hits for the closest records, the text of one with few rivals is shown. -/
theorem shown_of_few [IsStrictOrderedRing K] {close : VectorRecord F → K} {c : Collection F}
    {q : Query} {r : VectorRecord F} (asked : r ∈ q.asked c.records) (positive : 0 < close r)
    (reaches : cfg.scoreThreshold ≤ close r) (filled : strip r.text ≠ [])
    (few : (rivals close c q r).length ≤ min cfg.topK topKLimit)
    (short : ((rivals close c q r).map fun r' => estimateTokens (strip r'.text)).sum ≤
      cfg.maxContextTokens) :
    strip r.text ∈ snippets cfg ((closest close c cfg.topK q).map (chromaHit close)) := by
  have near : r ∈ closest close c cfg.topK q :=
    (bestFew_take close _ (q.asked c.records)).mem_of_few asked few
  have score (r' : VectorRecord F) : (chromaHit close r').score = max 0 (close r') :=
    chromaHit_score r'
  have high : cfg.scoreThreshold ≤ (chromaHit close r).score :=
    reaches.trans ((le_max_right _ _).trans_eq (score r).symm)
  generalize best : closest close c cfg.topK q = rs at near
  have within : ∀ r' ∈ rs, r' ∈ q.asked c.records := fun r' mem =>
    (bestFew_take close _ (q.asked c.records)).mem (best ▸ mem)
  have distinct : rs.Nodup := by
    rw [← best]
    have stored : c.records.Nodup := c.distinct.of_map _
    exact ((ranked_perm _ _).nodup_iff.mpr (stored.filter _)).sublist (List.take_sublist _ _)
  -- the hits in order are those of records, of which the rivals come first
  generalize ordered : ranked (fun r' => (chromaHit close r').score)
    (rs.filter fun r' => cfg.scoreThreshold ≤ (chromaHit close r').score) = kept
  have here : r ∈ kept := by
    rw [← ordered, mem_ranked]
    exact List.mem_filter.mpr ⟨near, decide_eq_true high⟩
  obtain ⟨front, back, rfl⟩ := List.append_of_mem here
  have sorted := ranked_pairwise (fun r' => (chromaHit close r').score)
    (rs.filter fun r' => cfg.scoreThreshold ≤ (chromaHit close r').score)
  rw [ordered] at sorted
  have better : ∀ r' ∈ front ++ [r], r' ∈ rivals close c q r := by
    intro r' mem
    have kept : r' ∈ front ++ r :: back :=
      (List.append_sublist_append_left front).mpr (List.singleton_sublist.mpr List.mem_cons_self)
        |>.subset mem
    rw [← ordered, mem_ranked] at kept
    refine List.mem_filter.mpr ⟨within r' (List.mem_filter.mp kept).1, decide_eq_true ?_⟩
    rcases List.mem_append.mp mem with before | itself
    · have order := (List.pairwise_append.mp sorted).2.2 r' before r List.mem_cons_self
      rw [score, score] at order
      rcases le_max_iff.mp ((le_max_right _ _).trans order) with low | high
      · exact absurd low (not_le_of_gt positive)
      · exact high
    · rw [List.mem_singleton.mp itself]
  have apart : (front ++ [r]).Nodup := by
    have whole : (front ++ r :: back).Nodup := by
      rw [← ordered]
      exact (ranked_perm _ _).nodup_iff.mpr (distinct.filter _)
    exact whole.sublist
      ((List.append_sublist_append_left front).mpr (List.singleton_sublist.mpr List.mem_cons_self))
  obtain ⟨early, same, part⟩ := apart.subperm better
  have cheap : (((front ++ [r]).map fun r' => strip r'.text).map estimateTokens).sum ≤
      cfg.maxContextTokens := by
    rw [List.map_map]
    refine le_trans ?_ short
    rw [← (same.map _).sum_eq]
    exact (part.map _).sum_le_sum fun _ _ => Nat.zero_le _
  have texts : snippets cfg (rs.map (chromaHit close)) =
      keepWithin estimateTokens cfg.maxContextTokens 0
        (((front ++ r :: back).map fun r' => strip r'.text).filter fun text => text ≠ []) := by
    have hits : (rs.map (chromaHit close)).filter (fun hit => cfg.scoreThreshold ≤ hit.score) =
        (rs.filter fun r' => cfg.scoreThreshold ≤ (chromaHit close r').score).map
          (chromaHit close) := List.filter_map
    rw [snippets, hits, ranked_map, ordered, List.map_map]
    rfl
  have first : ((front ++ [r]).map fun r' => strip r'.text).filter (fun text => text ≠ []) <+:
      ((front ++ r :: back).map fun r' => strip r'.text).filter fun text => text ≠ [] := by
    refine List.IsPrefix.filter _ (List.IsPrefix.map _ ?_)
    exact ⟨back, List.append_assoc front [r] back⟩
  rw [texts]
  refine (prefix_keepWithin first ?_).subset (List.mem_filter.mpr ⟨?_, decide_eq_true filled⟩)
  · rw [Fits, Nat.zero_add]
    exact ((List.filter_sublist.map _).sum_le_sum fun _ _ => Nat.zero_le _).trans cheap
  · exact List.mem_map_of_mem (List.mem_append_right _ (List.mem_singleton_self r))

omit [Field K] [LinearOrder K] in
theorem turn_stored {before after : List (Event F)} {turn : Turn}
    {embed : List ChunkInput → Except ApiException (List (Embedding F))}
    {embedding : Embedding F} {rest : List (Embedding F)}
    (enabled : cfg.enabled = true) (said : turn.blank = false)
    (embedded : embed [turnChunk cfg turn] = .ok (embedding :: rest))
    (spared : ∀ e ∈ after, Spares cfg (turnRecord cfg turn embedding) e) :
    turnRecord cfg turn embedding ∈
      exec (step cfg) [] (before ++ .saveTurn turn embed true :: after) := by
  have made : saveTurn cfg embed turn = .ok [turnRecord cfg turn embedding] := by
    rw [saveTurn, enabled, said, embedded]
    rfl
  rw [exec, List.foldl_append, List.foldl_cons]
  refine run_keeps ?_ spared
  change _ ∈ write _ (saveTurn cfg embed turn) true
  rw [made]
  exact KeyedUpsert.mem_putAll (List.nodup_singleton _) (List.mem_singleton_self _)

/-- A saved turn is shown again in its conversation, at any time before it is deleted or
written over, if it reaches the threshold and its rivals leave it room. -/
theorem turn_recalled [IsStrictOrderedRing K] {before after : List (Event F)} {turn : Turn}
    {embed : List ChunkInput → Except ApiException (List (Embedding F))}
    {embedding : Embedding F} {rest : List (Embedding F)}
    (foreign : ∀ e ∈ before ++ .saveTurn turn embed true :: after, Foreign cfg e)
    (enabled : cfg.enabled = true) (said : turn.blank = false)
    (embedded : embed [turnChunk cfg turn] = .ok (embedding :: rest))
    (spared : ∀ e ∈ after, Spares cfg (turnRecord cfg turn embedding) e)
    (plain : ∀ value ∈ (cfg.scope turn.userID turn.conversationID).values, Plain value)
    {embedQuery : Text → Except ApiException (List F)} {question : Text} {vector : List F}
    (asked : embedQuery question = .ok vector) (similarity : List F → List F → K)
    (positive : 0 < similarity vector embedding.vector)
    (reaches : cfg.scoreThreshold ≤ similarity vector embedding.vector)
    (few : (rivals (fun r => similarity vector r.vector) (runCollection cfg _ foreign)
      (cfg.scope turn.userID turn.conversationID) (turnRecord cfg turn embedding)).length ≤
        min cfg.topK topKLimit)
    (short : ((rivals (fun r => similarity vector r.vector) (runCollection cfg _ foreign)
      (cfg.scope turn.userID turn.conversationID) (turnRecord cfg turn embedding)).map
        fun r => estimateTokens (strip r.text)).sum ≤ cfg.maxContextTokens) :
    "- ".toList ++ strip turn.text <:+:
      loadContext cfg embedQuery (ChromaStore.search similarity (runCollection cfg _ foreign))
        turn.userID turn.conversationID question := by
  have stored : turnRecord cfg turn embedding ∈ (runCollection cfg _ foreign).records :=
    turn_stored enabled said embedded spared
  have asks : (cfg.scope turn.userID turn.conversationID).Asks (turnRecord cfg turn embedding) :=
    ⟨fun ids given => Option.some.inj given ▸ List.mem_cons_self,
      fun user given => Option.some.inj given⟩
  have wanted : turnRecord cfg turn embedding ∈
      (cfg.scope turn.userID turn.conversationID).asked (runCollection cfg _ foreign).records :=
    List.mem_filter.mpr ⟨stored, decide_eq_true asks⟩
  have shown := shown_of_few wanted positive reaches (strip_turn turn) few short
  rw [loadContext_answered enabled asked
    (chroma_search similarity (scope_agree cEscapes _ plain) vector cfg.topK)]
  exact infix_contextText shown

theorem twoUsers_spare : ∀ e ∈ twoUsers.tail, Spares defaultConfig
    (turnRecord defaultConfig (said "alice" "c1" "When is the exam?" "On Friday." "t1" 1)
      (⟨[], [], [1, 0], [], 2⟩ : Embedding ℚ)) e := by
  intro e mem
  simp only [twoUsers, List.tail_cons, List.mem_cons, List.not_mem_nil, or_false] at mem
  rcases mem with rfl | rfl
  · refine ⟨?_, fun _ _ other => by cases other⟩
    rintro r ⟨embedding, rfl⟩
    change "t2".toList ≠ "t1".toList
    decide
  · refine ⟨?_, fun _ _ other => by cases other⟩
    rintro r ⟨chunk, mem, embedding, rfl⟩
    obtain ⟨fact, -, rfl⟩ := List.mem_map.mp mem
    change "f1".toList ≠ "t1".toList
    decide

theorem turn_recalled_alice :
    "- User: When is the exam?\nAssistant: On Friday.".toList <:+:
      loadContext defaultConfig (fun _ => .ok [1, 0])
        (ChromaStore.search dot (runCollection defaultConfig twoUsers twoUsers_foreign))
        "alice".toList "c1".toList "exam?".toList :=
  @turn_recalled ℚ ℚ _ _ defaultConfig _ [] twoUsers.tail
    (said "alice" "c1" "When is the exam?" "On Friday." "t1" 1) axis
    ⟨"t1".toList, "memory:conversation:c1".toList, [1, 0], [], 2⟩ [] twoUsers_foreign rfl rfl rfl
    twoUsers_spare twoUsers_plain (fun _ => .ok [1, 0]) "exam?".toList [1, 0] rfl dot
    (by decide +kernel) (by decide +kernel) (by decide +kernel) (by decide +kernel)

end KnowledgeCompanion.MemoryRecall
