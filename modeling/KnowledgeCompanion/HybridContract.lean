import KnowledgeCompanion.Ranking
import KnowledgeCompanion.RetrievalDegradation

/-! What hybrid retrieval promises of the chunks it returns, whichever way it leaves: both
paths or one of them, reranked or not, in time or past the timeout. -/

namespace KnowledgeCompanion.HybridContract

open RetrievalModels ApiExceptions RankFusion HybridRetrieval RetrievalDegradation Ranking
open NotANumber

variable {F K : Type} [LE K]

/-- Hits in the order of their scores, each chunk once. -/
structure RankedHits (hits : List (SearchResult K)) : Prop where
  ordered : hits.Pairwise fun a b => b.score ≤ a.score
  distinct : (hits.map SearchResult.chunkID).Nodup

def hitsOf : Except Raised (List SearchResult) → List SearchResult
  | .ok hits => hits
  | .error _ => []

def Numbers (io : RetrievalIO F) : Prop :=
  ∀ pairs scores, io.predict pairs = some scores → ∀ score ∈ scores, score.IsNumber

structure Contract (io : RetrievalIO F) (request : HybridRetrievalRequest)
    (params : ResolvedParams) (hits : List SearchResult) (chunks : List (SearchResult RawScore)) :
    Prop where
  within : ∀ chunk ∈ chunks, InScope request.filters chunk.userID chunk.resourceID
  recalled : ∀ chunk ∈ chunks, ∃ hit ∈ hits, Carries hit chunk
  distinct : (chunks.map SearchResult.chunkID).Nodup
  bounded : chunks.length ≤ params.finalTopK
  reaching : ∀ chunk ∈ chunks, rawScore params.scoreThreshold ≤ chunk.score
  ordered : Numbers io → chunks.Pairwise fun a b => b.score ≤ a.score

theorem RankedHits.sublist {hits kept : List (SearchResult K)} (ranked : RankedHits hits)
    (sub : kept.Sublist hits) : RankedHits kept where
  ordered := ranked.ordered.sublist sub
  distinct := ranked.distinct.sublist (sub.map _)

theorem RankedHits.take {hits : List (SearchResult K)} (ranked : RankedHits hits) (n : ℕ) :
    RankedHits (hits.take n) := ranked.sublist (List.take_sublist n hits)

theorem rawScore_le_rawScore {a b : ℚ} : rawScore a ≤ rawScore b ↔ a ≤ b := by
  rw [rawScore, rawScore, WithNaN.num_le_num, WithBot.coe_le_coe, WithTop.coe_le_coe]

theorem RankedHits.raw {hits : List SearchResult} (ranked : RankedHits hits) :
    RankedHits (hits.map SearchResult.raw) where
  ordered := List.pairwise_map.mpr (ranked.ordered.imp rawScore_le_rawScore.mpr)
  distinct := by
    rw [List.map_map]
    exact ranked.distinct

/-- At most `n` chunks, each once, and in order if the model answers numbers. -/
structure Presented (io : RetrievalIO F) (n : ℕ) (chunks : List (SearchResult RawScore)) :
    Prop where
  distinct : (chunks.map SearchResult.chunkID).Nodup
  bounded : chunks.length ≤ n
  ordered : Numbers io → chunks.Pairwise fun a b => b.score ≤ a.score

theorem RankedHits.presented {io : RetrievalIO F} {hits : List SearchResult}
    (ranked : RankedHits hits) (n : ℕ) :
    Presented io n ((hits.take n).map SearchResult.raw) where
  distinct := (ranked.take n).raw.distinct
  bounded := by
    rw [List.length_map]
    exact List.length_take_le n hits
  ordered _ := (ranked.take n).raw.ordered

theorem Presented.filter {io : RetrievalIO F} {n : ℕ} {chunks : List (SearchResult RawScore)}
    (presented : Presented io n chunks) (p : SearchResult RawScore → Bool) :
    Presented io n (chunks.filter p) where
  distinct := presented.distinct.sublist (List.filter_sublist.map _)
  bounded := (List.length_filter_le p chunks).trans presented.bounded
  ordered numbers := (presented.ordered numbers).filter p

theorem nodup_addHit {hit : SearchResult} {share : ℚ} {fused : Fused}
    (distinct : (fused.map fun p => p.1.chunkID).Nodup) :
    ((addHit hit share fused).map fun p => p.1.chunkID).Nodup := by
  induction fused with
  | nil => exact List.nodup_singleton _
  | cons p fused ih =>
    obtain ⟨carrier, score⟩ := p
    obtain ⟨fresh, rest⟩ := List.nodup_cons.mp distinct
    rw [addHit]
    by_cases same : carrier.chunkID = hit.chunkID
    · rw [if_pos same]
      exact distinct
    · rw [if_neg same]
      refine List.nodup_cons.mpr ⟨fun mem => fresh ?_, ih rest⟩
      obtain ⟨q, added, equal⟩ := List.mem_map.mp mem
      rcases mem_addHit added with new | old
      · rw [new] at equal
        exact absurd equal.symm same
      · obtain ⟨q', there, first⟩ := List.mem_map.mp old
        exact List.mem_map.mpr ⟨q', there, by rw [first, equal]⟩

theorem nodup_addHits {weight : ℚ} {k : ℕ} {fused : Fused} (hits : List SearchResult)
    (distinct : (fused.map fun p => p.1.chunkID).Nodup) :
    ((addHits weight k fused hits).map fun p => p.1.chunkID).Nodup := by
  have folded (numbered : List (SearchResult × ℕ)) (fused : Fused)
      (distinct : (fused.map fun p => p.1.chunkID).Nodup) :
      ((numbered.foldl (fun fused q => addHit q.1 (weight / (k + q.2 + 1 : ℕ)) fused) fused).map
        fun p => p.1.chunkID).Nodup := by
    induction numbered generalizing fused with
    | nil => exact distinct
    | cons q numbered ih => exact ih _ (nodup_addHit distinct)
  exact folded hits.zipIdx fused distinct

theorem reciprocalRankFusion_ranked (bm25Hits vectorHits : List SearchResult)
    (bm25Weight vectorWeight : ℚ) (k : ℕ) :
    RankedHits (reciprocalRankFusion bm25Hits vectorHits bm25Weight vectorWeight k) where
  ordered := List.pairwise_map.mpr (ranked_pairwise Prod.snd _)
  distinct := by
    rw [reciprocalRankFusion, List.map_map]
    exact ((ranked_perm Prod.snd _).map _).nodup_iff.mpr
      (nodup_addHits vectorHits (nodup_addHits bm25Hits List.nodup_nil))

/-- A reranker returns ranked candidates, disabled or with the scores of its model. -/
theorem rerank_presented {enabled : Bool} {io : RetrievalIO F} {question : Text}
    {candidates : List SearchResult} {chunks : List (SearchResult RawScore)} {topN : ℕ}
    (ranked : RankedHits candidates)
    (ok : rerank enabled io question candidates topN = some chunks) :
    Presented io topN chunks := by
  unfold rerank at ok
  split at ok
  · rw [← Option.some.inj ok]
    exact ranked.presented topN
  · split at ok
    · cases ok
    · rename_i scores predicted
      by_cases lengths : scores.length ≠ candidates.length
      · rw [if_pos lengths] at ok
        cases ok
      · rw [if_neg lengths] at ok
        have same : candidates.length ≤ scores.length := by
          rw [ne_eq, not_not] at lengths
          omega
        have distinct : ((candidates.zip scores).map fun p => p.1.chunkID).Nodup := by
          have first : (candidates.zip scores).map (fun p => p.1.chunkID) =
              candidates.map SearchResult.chunkID := by
            conv_rhs => rw [← List.map_fst_zip same, List.map_map]
            rfl
          rw [first]
          exact ranked.distinct
        rw [← Option.some.inj ok]
        refine ⟨?_, ?_, fun numbers => ?_⟩
        · rw [List.map_map]
          have all := ((ranked_perm Prod.snd (candidates.zip scores)).map
            fun p => p.1.chunkID).nodup_iff.mpr distinct
          exact all.sublist ((List.take_sublist topN _).map _)
        · rw [List.length_map]
          exact List.length_take_le topN _
        · have answered : ∀ p ∈ candidates.zip scores, p.2.IsNumber := fun p mem =>
            numbers _ scores predicted p.2 (List.of_mem_zip mem).2
          exact List.pairwise_map.mpr
            ((ranked_pairwise_of_numbers answered).sublist (List.take_sublist topN _))

theorem timeoutFallbackChunks_presented {io : RetrievalIO F} {params : ResolvedParams}
    {vectorHits fusedTop : List SearchResult} (vector : RankedHits vectorHits)
    (fused : RankedHits fusedTop) :
    Presented io params.finalTopK
      ((timeoutFallbackChunks params vectorHits fusedTop).map SearchResult.raw) := by
  unfold timeoutFallbackChunks
  split
  · have first := @RankedHits.presented _ io _ vector params.finalTopK
    rw [List.map_map]
    refine ⟨?_, ?_, fun numbers => ?_⟩
    · have distinct := first.distinct
      rw [List.map_map] at distinct ⊢
      exact distinct
    · have bounded := first.bounded
      rw [List.length_map] at bounded ⊢
      exact bounded
    · exact List.pairwise_map.mpr (List.pairwise_map.mp (first.ordered numbers))
  · exact fused.presented params.finalTopK

theorem rankChunks_presented {io : RetrievalIO F} {request : HybridRetrievalRequest}
    {params : ResolvedParams} {vectorHits fused : List SearchResult}
    (vector : RankedHits vectorHits) (ranked : RankedHits fused) :
    Presented io params.finalTopK (rankChunks io request params vectorHits fused).1 := by
  have top := ranked.take params.rerankTopN
  unfold rankChunks
  dsimp only
  split
  · exact timeoutFallbackChunks_presented vector top
  · split
    · unfold rerankChunks
      split
      · rename_i chunks reranked
        exact rerank_presented top reranked
      · exact top.presented params.finalTopK
    · exact top.presented params.finalTopK

theorem combine_contract {io : RetrievalIO F} {request : HybridRetrievalRequest}
    {params : ResolvedParams} {bm25Hits vectorHits : List SearchResult} {degraded : Bool}
    {result : HybridRetrievalResult} (vector : RankedHits vectorHits)
    (ok : combine io request params bm25Hits vectorHits degraded = .ok result) :
    Contract io request params (bm25Hits ++ vectorHits) result.chunks := by
  unfold combine at ok
  by_cases none : bm25Hits = [] ∧ vectorHits = []
  · rw [if_pos none] at ok
    rw [← Except.ok.inj ok]
    exact ⟨fun _ mem => absurd mem List.not_mem_nil, fun _ mem => absurd mem List.not_mem_nil,
      List.nodup_nil, Nat.zero_le _, fun _ mem => absurd mem List.not_mem_nil,
      fun _ => List.Pairwise.nil⟩
  · rw [if_neg none] at ok
    dsimp only at ok
    generalize both : reciprocalRankFusion bm25Hits vectorHits params.bm25Weight
      params.vectorWeight params.rrfK = fused at ok
    have fusedRanked : RankedHits fused := by
      rw [← both]
      exact reciprocalRankFusion_ranked _ _ _ _ _
    have presented : Presented io params.finalTopK
        (rankChunks io request params vectorHits fused).1 := rankChunks_presented vector fusedRanked
    have origin (chunk : SearchResult RawScore)
        (mem : chunk ∈ (rankChunks io request params vectorHits fused).1) :=
      mem_rankChunks chunk mem
    generalize (rankChunks io request params vectorHits fused).1 = chunks at ok presented origin
    unfold finalizeResult validateAuthorization at ok
    by_cases allowed : (chunks.all fun chunk =>
        decide (InScope request.filters chunk.userID chunk.resourceID)) = true
    · rw [if_pos allowed] at ok
      rw [← Except.ok.inj ok]
      have kept := presented.filter fun chunk =>
        decide (rawScore params.scoreThreshold ≤ chunk.score)
      refine ⟨fun chunk mem => ?_, fun chunk mem => ?_, kept.distinct, kept.bounded,
        fun chunk mem => ?_, kept.ordered⟩
      · exact of_decide_eq_true (List.all_eq_true.mp allowed chunk (List.mem_filter.mp mem).1)
      · obtain ⟨hit, found, same⟩ := origin chunk (List.mem_filter.mp mem).1
        rcases found with recalled | there
        · exact ⟨hit, List.mem_append_right _ recalled, same⟩
        · rw [← both] at there
          obtain ⟨first, listed, carried⟩ := mem_reciprocalRankFusion there
          refine ⟨first, List.mem_append.mpr listed, Carries.trans ?_ same⟩
          rw [carried]
          rfl
      · exact of_decide_eq_true (List.mem_filter.mp mem).2
    · rw [if_neg allowed] at ok
      cases ok

/-- Whatever the two paths recall, where the vector hits are ranked, and whatever the
reranker and the clock do, the chunks that are returned keep the contract; their order asks
that the model of the reranker answers numbers. -/
theorem answer_contract (io : RetrievalIO F) (request : HybridRetrievalRequest)
    (params : ResolvedParams) (bm25 vector : Except Raised (List SearchResult))
    {result : HybridRetrievalResult} (ranked : RankedHits (hitsOf vector))
    (ok : answer io request params bm25 vector = .ok result) :
    Contract io request params (hitsOf bm25 ++ hitsOf vector) result.chunks := by
  have guardedHits (outcome : Except Raised (List SearchResult)) {hits : List SearchResult}
      {failed : Bool} (passed : guarded outcome = .ok (hits, failed)) : hits = hitsOf outcome := by
    cases outcome with
    | ok found => exact (Prod.mk.inj (Except.ok.inj passed)).1.symm
    | error e =>
      cases e with
      | api e => cases passed
      | other => exact (Prod.mk.inj (Except.ok.inj passed)).1.symm
  unfold answer at ok
  split at ok
  · cases ok
  · rename_i bm25Hits bm25Failed bm25Passed
    split at ok
    · cases ok
    · rename_i vectorHits vectorFailed vectorPassed
      split at ok
      · cases ok
      · rw [guardedHits bm25 bm25Passed, guardedHits vector vectorPassed] at ok
        exact combine_contract ranked ok

def scoredBy (score : Text → RawScore) : RetrievalIO ℚ where
  query _ _ := .ok []
  embedQuery _ := .ok []
  search _ _ _ := .ok []
  predict pairs := some (pairs.map fun p => score p.2)
  clock _ := 0
  search_scoped _ _ _ _ found := scoped_nil found

def lengthScores : RetrievalIO ℚ := scoredBy fun text => rawScore text.length

theorem lengthScores_numbers : Numbers lengthScores := by
  intro pairs scores predicted score mem
  rw [← Option.some.inj predicted] at mem
  obtain ⟨p, -, rfl⟩ := List.mem_map.mp mem
  exact nofun

def hitOf {K : Type} (source : SearchSource) (id text : String) (score : K) : SearchResult K :=
  ⟨id.toList, "res-1".toList, "user-1".toList, text.toList, score, source, []⟩

def reranked : HybridRetrievalResult :=
  ⟨[hitOf .rerank "res-1-2" "gamma ray" (rawScore 9),
    hitOf .rerank "res-1-0" "alpha" (rawScore 5)], ⟨1, 2, 2⟩, false, 0⟩

theorem answer_contract_reranked :
    Contract lengthScores askAboutAlpha (resolveParams {} askAboutAlpha)
      ([hitOf .bm25 "res-1-0" "alpha" 1] ++
        [hitOf .vector "res-1-0" "alpha" (9 / 10), hitOf .vector "res-1-2" "gamma ray" (4 / 5)])
      reranked.chunks ∧ reranked.chunks.Pairwise fun a b => b.score ≤ a.score :=
  have contract := answer_contract lengthScores askAboutAlpha _
    (.ok [hitOf .bm25 "res-1-0" "alpha" 1])
    (.ok [hitOf .vector "res-1-0" "alpha" (9 / 10), hitOf .vector "res-1-2" "gamma ray" (4 / 5)])
    ⟨by decide +kernel, by decide +kernel⟩ (by decide +kernel)
  ⟨contract, contract.ordered lengthScores_numbers⟩

def numberlessScores : RetrievalIO ℚ := scoredBy fun text =>
  if text.length = 1 then rawScore 8 else if text.length = 2 then .nan else rawScore 9

def threeHits : List SearchResult :=
  [hitOf .vector "res-1-0" "a" 3, hitOf .vector "res-1-1" "aa" 2, hitOf .vector "res-1-2" "aaa" 1]

def unordered : HybridRetrievalResult :=
  ⟨[hitOf .rerank "res-1-0" "a" (rawScore 8), hitOf .rerank "res-1-2" "aaa" (rawScore 9)],
    ⟨0, 3, 3⟩, false, 0⟩

theorem numberless_unordered : RankedHits threeHits ∧
    answer numberlessScores askAboutAlpha (resolveParams {} askAboutAlpha) (.ok [])
      (.ok threeHits) = .ok unordered ∧
    ¬ unordered.chunks.Pairwise fun a b => b.score ≤ a.score :=
  ⟨⟨by decide +kernel, by decide +kernel⟩, by decide +kernel, by decide +kernel⟩

end KnowledgeCompanion.HybridContract
