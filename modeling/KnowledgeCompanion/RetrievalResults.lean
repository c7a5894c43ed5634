import KnowledgeCompanion.NotANumber
import KnowledgeCompanion.Retrieval

/-! What `RetrievalService.retrieve` returns for any candidates: the filtered candidates as
a maximal selection of the ranked ones, and their longest prefix that fits the context. -/

namespace KnowledgeCompanion.RetrievalResults

open VectorIndexing StoreSearch Ranking BudgetedPrefix ApiExceptions Retrieval
open NotANumber WithNaN PythonText

variable {F K S : Type}

def InScope (request : RetrievalRequest S) (hit : SearchHit S) : Prop :=
  hit.userID = request.userID ∧ hit.resourceID ∈ request.resourceIDs

def tokenLimit (svc : RetrievalService F S) (request : RetrievalRequest S) : ℕ :=
  request.maxContextTokens.getD svc.config.maxContextTokens

def WithinLimit (svc : RetrievalService F S) (maxTokens : ℕ) (hits : List (SearchHit S)) : Prop :=
  (hits.map fun hit => svc.count hit.text).sum ≤ maxTokens ∨ hits.length ≤ 1

/-- The chunks are the longest prefix of the filtered candidates within the token limit. -/
structure LongestPrefix (svc : RetrievalService F S) (maxTokens : ℕ)
    (filtered hits : List (SearchHit S)) : Prop where
  isPrefix : hits <+: filtered
  within : WithinLimit svc maxTokens hits
  longest : ∀ longer, longer <+: filtered → WithinLimit svc maxTokens longer →
    longer.length ≤ hits.length

variable [LinearOrder K]

def Numbers (hits : List (SearchHit (WithNaN K))) : Prop := ∀ hit ∈ hits, hit.score.IsNumber

/-- Where the scores are numbers, nothing is left out but what is below the threshold, repeats
the text of a better candidate, or stands behind `topK` better ones. -/
structure Filtered (svc : RetrievalService F (WithNaN K)) (request : RetrievalRequest (WithNaN K))
    (candidates filtered : List (SearchHit (WithNaN K))) : Prop where
  order : filtered.Sublist (ranked SearchHit.score candidates)
  reaches : ∀ hit ∈ filtered, request.threshold svc.config ≤ hit.score
  limited : filtered.length ≤ request.limit svc.config
  distinct : request.broad = true → filtered.Pairwise fun a b => chunkKey svc a ≠ chunkKey svc b
  complete : Numbers candidates → ∀ hit ∈ candidates, request.threshold svc.config ≤ hit.score →
    hit ∈ filtered ∨
      (request.broad = true ∧ ∃ kept ∈ filtered, chunkKey svc kept = chunkKey svc hit ∧
        hit.score ≤ kept.score) ∨
      (filtered.length = request.limit svc.config ∧ ∀ kept ∈ filtered, hit.score ≤ kept.score)

/-- The bounds that a result keeps. -/
structure Bounded (svc : RetrievalService F (WithNaN K)) (request : RetrievalRequest (WithNaN K))
    (candidates : List (SearchHit (WithNaN K))) (result : RetrievalResult (WithNaN K)) :
    Prop where
  sorted : Numbers candidates → result.chunks.Pairwise fun a b => b.score ≤ a.score
  resources : ∀ chunk ∈ result.chunks, chunk.resourceID ∈ request.resourceIDs
  reaches : ∀ chunk ∈ result.chunks, request.threshold svc.config ≤ chunk.score
  limited : result.chunks.length ≤ request.limit svc.config
  distinct : request.broad = true → result.chunks.Pairwise fun a b =>
    chunkFingerprint svc a.text = chunkFingerprint svc b.text → chunkFingerprint svc a.text = []
  tokens : result.contextTokenCount = (result.chunks.map fun chunk => svc.count chunk.text).sum
  budget : result.contextTokenCount ≤ tokenLimit svc request ∨ result.chunks.length = 1

section Selection

variable {svc : RetrievalService F (WithNaN K)} {request : RetrievalRequest (WithNaN K)}
  {candidates : List (SearchHit (WithNaN K))}

theorem select_eq (svc : RetrievalService F (WithNaN K)) (request : RetrievalRequest (WithNaN K))
    (candidates : List (SearchHit (WithNaN K))) : select svc request candidates =
      admitted SearchHit.score (request.threshold svc.config) (request.limit svc.config)
        (if request.broad then firstOfEach (chunkKey svc) [] (ranked SearchHit.score candidates)
          else ranked SearchHit.score candidates) := rfl

theorem select_filtered (svc : RetrievalService F (WithNaN K))
    (request : RetrievalRequest (WithNaN K)) (candidates : List (SearchHit (WithNaN K))) :
    Filtered svc request candidates (select svc request candidates) := by
  rw [select_eq]
  by_cases broad : request.broad = true
  · rw [if_pos broad]
    have part := firstOfEach_sublist (chunkKey svc) [] (ranked SearchHit.score candidates)
    refine ⟨(admitted_sublist _ _ _ _).trans part, fun hit mem => admitted_reaches mem,
      List.length_take_le _ _, fun _ => ?_, fun numbers hit mem reaches => ?_⟩
    · exact (firstOfEach_pairwise _ _ _).sublist (admitted_sublist _ _ _ _)
    · have sorted := @ranked_pairwise_of_numbers _ _ _ SearchHit.score _ numbers
      obtain ⟨kept, first, same, before⟩ := exists_firstOfEach_before (chunkKey svc) sorted
        ((mem_ranked SearchHit.score).mpr mem) List.not_mem_nil
      have best : hit.score ≤ kept.score :=
        before.elim (fun equal => by rw [equal]; exact le_self_of_le reaches) id
      have let_through := @mem_admitted_or_full _ _ _ _ _ _ (request.limit svc.config) _ _
        (sorted.sublist part) first (le_of_le_of_le reaches best)
      rcases let_through with here | ⟨full, above⟩
      · exact .inr (.inl ⟨broad, kept, here, same, best⟩)
      · exact .inr (.inr ⟨full, fun other mem => le_of_le_of_le best (above other mem)⟩)
  · rw [if_neg broad]
    refine ⟨admitted_sublist _ _ _ _, fun hit mem => admitted_reaches mem,
      List.length_take_le _ _, fun yes => absurd yes broad, fun numbers hit mem reaches => ?_⟩
    have let_through := @mem_admitted_or_full _ _ _ _ _ _ (request.limit svc.config) _ _
      (ranked_pairwise_of_numbers numbers) ((mem_ranked SearchHit.score).mpr mem) reaches
    exact let_through.imp_right .inr

omit [LinearOrder K] in
theorem compressContext_longest (svc : RetrievalService F S) (maxTokens : ℕ)
    (filtered : List (SearchHit S)) :
    LongestPrefix svc maxTokens filtered (compressContext svc maxTokens filtered) := by
  cases filtered with
  | nil =>
    refine ⟨List.prefix_rfl, .inr (Nat.zero_le 1), fun longer isPrefix _ => ?_⟩
    rw [List.prefix_nil.mp isPrefix]
    exact le_rfl
  | cons hit hits =>
    have kept : IsLongest (fun hit => svc.count hit.text) maxTokens (svc.count hit.text) hits _ :=
      keepWithin_isLongest hits
    refine ⟨List.cons_prefix_cons.mpr ⟨rfl, kept.isPrefix⟩, ?_, fun longer isPrefix within => ?_⟩
    · by_cases alone : keepWithin (fun hit => svc.count hit.text) maxTokens
          (svc.count hit.text) hits = []
      · right
        rw [compressContext, alone]
        exact le_rfl
      · left
        rw [compressContext, List.map_cons, List.sum_cons]
        exact kept.fits alone
    · cases longer with
      | nil => exact Nat.zero_le _
      | cons first rest =>
        obtain ⟨rfl, shorter⟩ := List.cons_prefix_cons.mp isPrefix
        rw [compressContext, List.length_cons, List.length_cons]
        refine Nat.succ_le_succ ?_
        rcases within with fits | alone
        · rw [List.map_cons, List.sum_cons] at fits
          exact kept.longest rest shorter fits
        · rw [List.length_cons] at alone
          omega

omit [LinearOrder K] in
theorem validateAuthorization_eq (request : RetrievalRequest S) (hits : List (SearchHit S)) :
    (validateAuthorization request hits = .ok () ∧ ∀ hit ∈ hits, InScope request hit) ∨
      (validateAuthorization request hits = .error retrievalForbiddenError ∧
        ∃ hit ∈ hits, ¬ InScope request hit) := by
  have reads : (hits.all fun hit => hit.userID == request.userID &&
      request.resourceIDs.contains hit.resourceID) = true ↔ ∀ hit ∈ hits, InScope request hit := by
    simp [InScope]
  by_cases all : ∀ hit ∈ hits, InScope request hit
  · exact .inl ⟨if_pos (reads.mpr all), all⟩
  · refine .inr ⟨if_neg fun yes => all (reads.mp yes), ?_⟩
    push Not at all
    exact all

theorem retrieve_eq {search : Search F (WithNaN K)}
    (found : searchCandidates svc search request = .ok candidates) :
    retrieve svc search request =
      (validateAuthorization request (select svc request candidates)).map fun _ =>
        assemble svc request (select svc request candidates) := by
  rw [retrieve, found]
  rfl

theorem assemble_bounded (within : ∀ hit ∈ select svc request candidates, InScope request hit) :
    Bounded svc request candidates (assemble svc request (select svc request candidates)) := by
  have filtered := select_filtered svc request candidates
  have kept := compressContext_longest svc (tokenLimit svc request) (select svc request candidates)
  have mem := fun hit here => kept.isPrefix.subset (a := hit) here
  have chunks : (assemble svc request (select svc request candidates)).chunks =
    (compressContext svc (tokenLimit svc request)
      (select svc request candidates)).map toChunk := rfl
  refine ⟨fun numbers => ?_, ?_, ?_, ?_, fun broad => ?_, ?_, ?_⟩
  · rw [chunks, List.pairwise_map]
    exact ((ranked_pairwise_of_numbers numbers).sublist filtered.order).sublist
      kept.isPrefix.sublist
  · rw [chunks, List.forall_mem_map]
    exact fun hit here => (within hit (mem hit here)).2
  · rw [chunks, List.forall_mem_map]
    exact fun hit here => filtered.reaches hit (mem hit here)
  · rw [chunks, List.length_map]
    exact kept.isPrefix.length_le.trans filtered.limited
  · rw [chunks, List.pairwise_map]
    refine ((filtered.distinct broad).sublist kept.isPrefix.sublist).imp fun {a b} apart same => ?_
    by_contra solid
    apply apart
    dsimp only [toChunk] at same solid
    rw [chunkKey, chunkKey, if_neg solid, if_neg (same ▸ solid), same]
  · rw [chunks, List.map_map]
    rfl
  · rw [chunks, List.length_map]
    rcases kept.within with fits | alone
    · exact .inl fits
    · rcases Nat.le_one_iff_eq_zero_or_eq_one.mp alone with none | one
      · left
        have empty := List.length_eq_zero_iff.mp none
        have zero : (assemble svc request (select svc request candidates)).contextTokenCount =
          ((compressContext svc (tokenLimit svc request) (select svc request candidates)).map
            fun hit => svc.count hit.text).sum := rfl
        rw [zero, empty]
        exact Nat.zero_le _
      · exact .inr one

end Selection

/-- The service refuses candidates outside the request, or returns the longest prefix of the
filtered candidates that fits, within every bound, and in order where the scores are numbers. -/
theorem retrieve_selects (svc : RetrievalService F (WithNaN K)) (search : Search F (WithNaN K))
    (request : RetrievalRequest (WithNaN K)) (candidates : List (SearchHit (WithNaN K)))
    (found : searchCandidates svc search request = .ok candidates) :
    ∃ filtered, Filtered svc request candidates filtered ∧
      ((retrieve svc search request = .error retrievalForbiddenError ∧
          ∃ hit ∈ filtered, ¬ InScope request hit) ∨
        ∃ result hits, retrieve svc search request = .ok result ∧
          result.chunks = hits.map toChunk ∧ (∀ hit ∈ hits, InScope request hit) ∧
          LongestPrefix svc (tokenLimit svc request) filtered hits ∧
          Bounded svc request candidates result) := by
  refine ⟨_, select_filtered svc request candidates, ?_⟩
  rw [retrieve_eq found]
  rcases validateAuthorization_eq request (select svc request candidates) with
    ⟨allowed, within⟩ | ⟨refused, outside⟩
  · right
    have kept := compressContext_longest svc (tokenLimit svc request)
      (select svc request candidates)
    refine ⟨_, _, by rw [allowed]; rfl, rfl, fun hit mem => ?_, kept, assemble_bounded within⟩
    exact within hit (kept.isPrefix.subset mem)
  · left
    rw [refused]
    exact ⟨rfl, outside⟩

def service : RetrievalService ℕ (WithNaN ℕ) where
  embedQuery _ := []
  count := List.length
  sha1 := id
  build _ question := question
  config := ⟨5, .num 1, 1000⟩

def askedOf (resourceIDs : List Text) : RetrievalRequest (WithNaN ℕ) where
  question := ['q']
  userID := ['u']
  resourceIDs := resourceIDs
  topK_pos := defaultTopK_pos

def twoResources : RetrievalRequest (WithNaN ℕ) := askedOf [['a'], ['b']]

def hitOf (resource : Char) (text : Text) (score : WithNaN ℕ) : SearchHit (WithNaN ℕ) :=
  ⟨['0'], [resource], ['u'], text, [], score, 0⟩

def blankHits : Search ℕ (WithNaN ℕ) := fun _ _ _ =>
  .ok [hitOf 'a' [' '] (.num 7), hitOf 'b' [' '] (.num 7)]

def numberlessHits : Search ℕ (WithNaN ℕ) := fun _ _ _ =>
  .ok [hitOf 'a' ['x'] (.num 8), hitOf 'a' ['y'] .nan, hitOf 'a' ['z'] (.num 9)]

/-- Chunks without text have the empty fingerprint in common, and a score that is no number
keeps the worse of two chunks in front of the better one. -/
theorem blank_chunks_share_fingerprint :
    (Function.Injective service.sha1 ∧ twoResources.broad = true ∧
      ∃ result, retrieve service blankHits twoResources = .ok result ∧
        result.chunks.map RetrievalChunk.resourceID = [['a'], ['b']] ∧
        ¬ result.chunks.Pairwise fun a b =>
          chunkFingerprint service a.text ≠ chunkFingerprint service b.text) ∧
    ∃ result, retrieve service numberlessHits (askedOf [['a']]) = .ok result ∧
      result.chunks.map RetrievalChunk.score = [.num 8, .num 9] ∧
      ¬ result.chunks.Pairwise fun a b => b.score ≤ a.score :=
  ⟨⟨Function.injective_id, by decide, _, rfl, by decide, by decide⟩, _, rfl, by decide, by decide⟩

theorem retrieve_selects_blank :
    ∃ candidates filtered, Filtered service twoResources candidates filtered ∧
      ((retrieve service blankHits twoResources = .error retrievalForbiddenError ∧
          ∃ hit ∈ filtered, ¬ InScope twoResources hit) ∨
        ∃ result hits, retrieve service blankHits twoResources = .ok result ∧
          result.chunks = hits.map toChunk ∧ (∀ hit ∈ hits, InScope twoResources hit) ∧
          LongestPrefix service (tokenLimit service twoResources) filtered hits ∧
          Bounded service twoResources candidates result) :=
  ⟨_, retrieve_selects service blankHits twoResources _ rfl⟩

end KnowledgeCompanion.RetrievalResults
