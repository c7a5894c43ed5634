import KnowledgeCompanion.RetrievalModels

/-! Reciprocal rank fusion of two ranked lists (`services/hybrid_retrieval/rrf.py`). -/

namespace KnowledgeCompanion.RankFusion

open RetrievalModels Ranking

/-- The entries of the two dictionaries: the first hit of each chunk and its score. -/
abbrev Fused := List (SearchResult × ℚ)

def addHit (hit : SearchResult) (share : ℚ) : Fused → Fused
  | [] => [(hit, 0 + share)]
  | (carrier, score) :: rest =>
    if carrier.chunkID = hit.chunkID then (carrier, score + share) :: rest
    else (carrier, score) :: addHit hit share rest

def addHits (weight : ℚ) (k : ℕ) (fused : Fused) (hits : List SearchResult) : Fused :=
  hits.zipIdx.foldl (fun fused p => addHit p.1 (weight / (k + p.2 + 1 : ℕ)) fused) fused

def reciprocalRankFusion (bm25Hits vectorHits : List SearchResult) (bm25Weight vectorWeight : ℚ)
    (k : ℕ) : List SearchResult :=
  let fused := addHits vectorWeight k (addHits bm25Weight k [] bm25Hits) vectorHits
  (ranked Prod.snd fused).map fun p => { p.1 with score := p.2 }

theorem mem_addHit {hit : SearchResult} {share : ℚ} {fused : Fused} {p : SearchResult × ℚ}
    (mem : p ∈ addHit hit share fused) : p.1 = hit ∨ p.1 ∈ fused.map Prod.fst := by
  induction fused with
  | nil => exact .inl (by rw [List.mem_singleton.mp mem])
  | cons first fused ih =>
    obtain ⟨carrier, score⟩ := first
    rw [addHit] at mem
    split at mem
    · rcases List.mem_cons.mp mem with here | later
      · exact .inr (by simp [here])
      · exact .inr (List.mem_cons_of_mem _ (List.mem_map_of_mem later))
    · rcases List.mem_cons.mp mem with here | later
      · exact .inr (by simp [here])
      · rcases ih later with new | there
        · exact .inl new
        · exact .inr (List.mem_cons_of_mem _ there)

theorem mem_addHits {weight : ℚ} {k : ℕ} {fused : Fused} {hits : List SearchResult}
    {p : SearchResult × ℚ} (mem : p ∈ addHits weight k fused hits) :
    p.1 ∈ hits ∨ p.1 ∈ fused.map Prod.fst := by
  have folded (ranked : List (SearchResult × ℕ)) (fused : Fused)
      (mem : p ∈ ranked.foldl
        (fun fused q => addHit q.1 (weight / (k + q.2 + 1 : ℕ)) fused) fused) :
      p.1 ∈ ranked.map Prod.fst ∨ p.1 ∈ fused.map Prod.fst := by
    induction ranked generalizing fused with
    | nil => exact .inr (List.mem_map_of_mem mem)
    | cons q ranked ih =>
      rcases ih _ mem with later | there
      · exact .inl (List.mem_cons_of_mem _ later)
      · obtain ⟨first, added, same⟩ := List.mem_map.mp there
        rcases mem_addHit added with new | old
        · exact .inl (by simp [← same, new])
        · exact .inr (same ▸ old)
  rcases folded hits.zipIdx fused mem with new | old
  · rw [List.zipIdx_map_fst] at new
    exact .inl new
  · exact .inr old

theorem mem_reciprocalRankFusion {bm25Hits vectorHits : List SearchResult}
    {bm25Weight vectorWeight : ℚ} {k : ℕ} {chunk : SearchResult}
    (mem : chunk ∈ reciprocalRankFusion bm25Hits vectorHits bm25Weight vectorWeight k) :
    ∃ hit, (hit ∈ bm25Hits ∨ hit ∈ vectorHits) ∧ chunk = { hit with score := chunk.score } := by
  obtain ⟨p, sorted, rfl⟩ := List.mem_map.mp mem
  refine ⟨p.1, ?_, rfl⟩
  rcases mem_addHits ((mem_ranked _).mp sorted) with vector | first
  · exact .inr vector
  · obtain ⟨q, added, same⟩ := List.mem_map.mp first
    rcases mem_addHits added with bm25 | none
    · exact .inl (same ▸ bm25)
    · simp at none

end KnowledgeCompanion.RankFusion
