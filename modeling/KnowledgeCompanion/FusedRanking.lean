import Mathlib.Algebra.Order.Field.Basic
import Mathlib.Algebra.Order.Ring.Rat
import KnowledgeCompanion.HybridContract

/-! What fusion makes of the ranks in its two lists
(`services/hybrid_retrieval/rrf.py`): the dictionary of partial sums holds the share of
each list that has the chunk, with the record that was seen first. -/

namespace KnowledgeCompanion.FusedRanking

open RetrievalModels RankFusion HybridContract Ranking

def rank (hits : List SearchResult) (id : Text) : Option ℕ :=
  hits.findIdx? fun hit => hit.chunkID == id

def share (weight : ℚ) (k : ℕ) (hits : List SearchResult) (id : Text) : ℚ :=
  match rank hits id with
  | some r => weight / (k + r + 1 : ℕ)
  | none => 0

def fusedScore (bm25Hits vectorHits : List SearchResult) (bm25Weight vectorWeight : ℚ) (k : ℕ)
    (id : Text) : ℚ :=
  share bm25Weight k bm25Hits id + share vectorWeight k vectorHits id

/-- The first chunk stands no later than the second, who may be absent. -/
def NoWorse (hits : List SearchResult) (first second : Text) : Prop :=
  ∀ s, rank hits second = some s → ∃ r, r ≤ s ∧ rank hits first = some r

def entry (id : Text) (fused : Fused) : Option (SearchResult × ℚ) :=
  fused.find? fun p => p.1.chunkID == id

def bump (hit : SearchResult) (amount : ℚ) : Option (SearchResult × ℚ) → SearchResult × ℚ
  | none => (hit, 0 + amount)
  | some (carrier, score) => (carrier, score + amount)

theorem entry_addHit (id : Text) (hit : SearchResult) (amount : ℚ) (fused : Fused) :
    entry id (addHit hit amount fused) =
      if hit.chunkID = id then some (bump hit amount (entry id fused)) else entry id fused := by
  induction fused with
  | nil =>
    by_cases own : hit.chunkID = id <;> simp [addHit, entry, bump, own]
  | cons p fused ih =>
    obtain ⟨carrier, score⟩ := p
    simp only [entry] at ih ⊢
    rw [addHit]
    by_cases same : carrier.chunkID = hit.chunkID
    · by_cases own : hit.chunkID = id
      · simp [same, own, bump]
      · simp [same, own]
    · rw [if_neg same]
      by_cases here : carrier.chunkID = id
      · have other : ¬ hit.chunkID = id := fun own => same (here.trans own.symm)
        simp [here, other]
      · simp [here, ih]

def numbered (id : Text) (n : ℕ) (hits : List SearchResult) : Option (SearchResult × ℕ) :=
  (hits.zipIdx n).find? fun q => q.1.chunkID == id

theorem numbered_rank (id : Text) (n : ℕ) (hits : List SearchResult) :
    (numbered id n hits).map Prod.snd = (rank hits id).map (n + ·) := by
  induction hits generalizing n with
  | nil => rfl
  | cons hit hits ih =>
    simp only [numbered, rank] at ih
    by_cases own : hit.chunkID = id
    · simp [numbered, rank, own, List.findIdx?_cons]
    · simp only [numbered, rank, List.zipIdx_cons, List.findIdx?_cons, beq_eq_false_iff_ne.mpr own,
        List.find?_cons_of_neg, Bool.false_eq_true, if_false, Option.map_map, not_false_eq_true, ih]
      congr 1
      funext r
      simp only [Function.comp_apply]
      omega

theorem numbered_mem {id : Text} {n : ℕ} {hits : List SearchResult} {q : SearchResult × ℕ}
    (found : numbered id n hits = some q) : q.1 ∈ hits ∧ q.1.chunkID = id :=
  ⟨List.fst_mem_of_mem_zipIdx (List.mem_of_find?_eq_some found),
    by simpa using List.find?_some found⟩

theorem numbered_none {id : Text} {n : ℕ} {hits : List SearchResult} :
    numbered id n hits = none ↔ id ∉ hits.map SearchResult.chunkID := by
  have absent : numbered id n hits = none ↔ (numbered id n hits).map Prod.snd = none := by simp
  rw [absent, numbered_rank, Option.map_eq_none_iff, rank, List.findIdx?_eq_none_iff]
  simp

theorem entry_fold (id : Text) (weight : ℚ) (k n : ℕ) {hits : List SearchResult}
    (distinct : (hits.map SearchResult.chunkID).Nodup) (fused : Fused) :
    entry id ((hits.zipIdx n).foldl
        (fun fused p => addHit p.1 (weight / (k + p.2 + 1 : ℕ)) fused) fused) =
      match numbered id n hits with
      | some q => some (bump q.1 (weight / (k + q.2 + 1 : ℕ)) (entry id fused))
      | none => entry id fused := by
  induction hits generalizing n fused with
  | nil => rfl
  | cons hit hits ih =>
    obtain ⟨fresh, rest⟩ := List.nodup_cons.mp distinct
    rw [List.zipIdx_cons, List.foldl_cons, ih (n + 1) rest, entry_addHit]
    by_cases own : hit.chunkID = id
    · have none : numbered id (n + 1) hits = none := numbered_none.mpr (own ▸ fresh)
      have here : numbered id n (hit :: hits) = some (hit, n) := by simp [numbered, own]
      rw [none, here, if_pos own]
    · have skip : numbered id n (hit :: hits) = numbered id (n + 1) hits := by
        simp [numbered, own]
      rw [skip, if_neg own]

theorem mem_iff_entry {fused : Fused} (distinct : (fused.map fun p => p.1.chunkID).Nodup)
    {p : SearchResult × ℚ} : p ∈ fused ↔ entry p.1.chunkID fused = some p := by
  constructor
  · intro mem
    cases found : entry p.1.chunkID fused with
    | none =>
      have absent := List.find?_eq_none.mp found p mem
      simp at absent
    | some q =>
      have same : q.1.chunkID = p.1.chunkID := by simpa using List.find?_some found
      rw [List.inj_on_of_nodup_map distinct (List.mem_of_find?_eq_some found) mem same]
  · exact List.mem_of_find?_eq_some

section Fusion

variable {bm25Hits vectorHits : List SearchResult} {bm25Weight vectorWeight : ℚ} {k : ℕ}

def fusedEntries (bm25Hits vectorHits : List SearchResult) (bm25Weight vectorWeight : ℚ) (k : ℕ) :
    Fused :=
  addHits vectorWeight k (addHits bm25Weight k [] bm25Hits) vectorHits

theorem fusedEntries_distinct :
    ((fusedEntries bm25Hits vectorHits bm25Weight vectorWeight k).map
      fun p => p.1.chunkID).Nodup :=
  nodup_addHits vectorHits (nodup_addHits bm25Hits List.nodup_nil)

theorem share_numbered (weight : ℚ) (k : ℕ) (hits : List SearchResult) (id : Text) :
    share weight k hits id =
      match numbered id 0 hits with
      | some q => weight / (k + q.2 + 1 : ℕ)
      | none => 0 := by
  have positions := numbered_rank id 0 hits
  unfold share
  cases found : numbered id 0 hits with
  | none =>
    rw [found, Option.map_none, eq_comm, Option.map_eq_none_iff] at positions
    rw [positions]
  | some q =>
    rw [found, Option.map_some, eq_comm, Option.map_eq_some_iff] at positions
    obtain ⟨r, ranked, same⟩ := positions
    rw [ranked]
    simp only [← same, Nat.zero_add]

theorem entry_fused (first : (bm25Hits.map SearchResult.chunkID).Nodup)
    (second : (vectorHits.map SearchResult.chunkID).Nodup) (id : Text) :
    entry id (fusedEntries bm25Hits vectorHits bm25Weight vectorWeight k) =
      match numbered id 0 bm25Hits, numbered id 0 vectorHits with
      | none, none => none
      | some q, none => some (q.1, 0 + bm25Weight / (k + q.2 + 1 : ℕ))
      | none, some r => some (r.1, 0 + vectorWeight / (k + r.2 + 1 : ℕ))
      | some q, some r =>
        some (q.1, 0 + bm25Weight / (k + q.2 + 1 : ℕ) + vectorWeight / (k + r.2 + 1 : ℕ)) := by
  rw [fusedEntries, addHits, entry_fold id vectorWeight k 0 second, addHits,
    entry_fold id bm25Weight k 0 first]
  cases numbered id 0 bm25Hits <;> cases numbered id 0 vectorHits <;> rfl

theorem fused_score (first : (bm25Hits.map SearchResult.chunkID).Nodup)
    (second : (vectorHits.map SearchResult.chunkID).Nodup) {p : SearchResult × ℚ}
    (mem : p ∈ fusedEntries bm25Hits vectorHits bm25Weight vectorWeight k) :
    p.2 = fusedScore bm25Hits vectorHits bm25Weight vectorWeight k p.1.chunkID := by
  rw [mem_iff_entry fusedEntries_distinct, entry_fused first second] at mem
  rw [fusedScore, share_numbered, share_numbered]
  cases bm25 : numbered p.1.chunkID 0 bm25Hits <;>
    cases vector : numbered p.1.chunkID 0 vectorHits <;>
    simp only [bm25, vector, Option.some.injEq, reduceCtorEq] at mem ⊢
  all_goals simp only [← mem, zero_add, add_zero]

theorem fused_mem_iff (first : (bm25Hits.map SearchResult.chunkID).Nodup)
    (second : (vectorHits.map SearchResult.chunkID).Nodup) (id : Text) :
    id ∈ (fusedEntries bm25Hits vectorHits bm25Weight vectorWeight k).map
        (fun p => p.1.chunkID) ↔
      id ∈ bm25Hits.map SearchResult.chunkID ∨ id ∈ vectorHits.map SearchResult.chunkID := by
  have present (fused : Fused) : id ∈ fused.map (fun p => p.1.chunkID) ↔ entry id fused ≠ none := by
    rw [Ne, entry, List.find?_eq_none]
    simp
  have absent (hits : List SearchResult) :
      id ∈ hits.map SearchResult.chunkID ↔ numbered id 0 hits ≠ none := by
    rw [Ne, numbered_none, not_not]
  rw [present, absent, absent, entry_fused first second]
  cases numbered id 0 bm25Hits <;> cases numbered id 0 vectorHits <;> simp

theorem fused_carrier (first : (bm25Hits.map SearchResult.chunkID).Nodup)
    (second : (vectorHits.map SearchResult.chunkID).Nodup) {p : SearchResult × ℚ}
    (mem : p ∈ fusedEntries bm25Hits vectorHits bm25Weight vectorWeight k) {hit : SearchResult}
    (listed : hit ∈ bm25Hits) (same : hit.chunkID = p.1.chunkID) : p.1 = hit := by
  rw [mem_iff_entry fusedEntries_distinct, entry_fused first second] at mem
  cases bm25 : numbered p.1.chunkID 0 bm25Hits with
  | none => exact absurd (List.mem_map.mpr ⟨hit, listed, same⟩) (numbered_none.mp bm25)
  | some q =>
    obtain ⟨found, own⟩ := numbered_mem bm25
    have carried : q.1 = p.1 := by
      cases vector : numbered p.1.chunkID 0 vectorHits <;>
        simp only [bm25, vector, Option.some.injEq] at mem <;> rw [← mem]
    rw [← carried]
    exact List.inj_on_of_nodup_map first found listed (own.trans same.symm)

end Fusion

theorem share_mono {weight : ℚ} (nonneg : 0 ≤ weight) {k : ℕ} {hits : List SearchResult}
    {a b : Text} (noWorse : NoWorse hits a b) : share weight k hits b ≤ share weight k hits a := by
  unfold share
  cases second : rank hits b with
  | none =>
    cases first : rank hits a with
    | none => exact le_refl 0
    | some r => exact div_nonneg nonneg (Nat.cast_nonneg _)
  | some s =>
    obtain ⟨r, before, first⟩ := noWorse s second
    rw [first]
    have smaller : ((k + r + 1 : ℕ) : ℚ) ≤ ((k + s + 1 : ℕ) : ℚ) :=
      Nat.cast_le.mpr (by omega)
    exact div_le_div_of_nonneg_left nonneg (Nat.cast_pos.mpr (Nat.succ_pos _)) smaller

theorem fusion_ranks {bm25Hits vectorHits : List SearchResult} {bm25Weight vectorWeight : ℚ}
    (first : (bm25Hits.map SearchResult.chunkID).Nodup)
    (second : (vectorHits.map SearchResult.chunkID).Nodup)
    (bm25_nonneg : 0 ≤ bm25Weight) (vector_nonneg : 0 ≤ vectorWeight) (k : ℕ) :
    let fused := reciprocalRankFusion bm25Hits vectorHits bm25Weight vectorWeight k
    (fused.map SearchResult.chunkID).Nodup ∧
      (∀ id, id ∈ fused.map SearchResult.chunkID ↔
        id ∈ bm25Hits.map SearchResult.chunkID ∨ id ∈ vectorHits.map SearchResult.chunkID) ∧
      (fused.Pairwise fun a b => b.score ≤ a.score) ∧
      (∀ chunk ∈ fused, chunk.score =
        fusedScore bm25Hits vectorHits bm25Weight vectorWeight k chunk.chunkID) ∧
      (∀ chunk ∈ fused, ∀ hit ∈ bm25Hits, hit.chunkID = chunk.chunkID →
        chunk = { hit with score := chunk.score }) ∧
      ∀ a ∈ fused, ∀ b ∈ fused, NoWorse bm25Hits a.chunkID b.chunkID →
        NoWorse vectorHits a.chunkID b.chunkID → b.score ≤ a.score := by
  dsimp only
  have ranked := reciprocalRankFusion_ranked bm25Hits vectorHits bm25Weight vectorWeight k
  have origin {chunk : SearchResult}
      (mem : chunk ∈ reciprocalRankFusion bm25Hits vectorHits bm25Weight vectorWeight k) :
      ∃ p ∈ fusedEntries bm25Hits vectorHits bm25Weight vectorWeight k,
        chunk = { p.1 with score := p.2 } := by
    obtain ⟨p, sorted, same⟩ := List.mem_map.mp mem
    exact ⟨p, (mem_ranked _).mp sorted, same.symm⟩
  have scored {chunk : SearchResult}
      (mem : chunk ∈ reciprocalRankFusion bm25Hits vectorHits bm25Weight vectorWeight k) :
      chunk.score = fusedScore bm25Hits vectorHits bm25Weight vectorWeight k chunk.chunkID := by
    obtain ⟨p, entered, rfl⟩ := origin mem
    exact fused_score first second entered
  refine ⟨ranked.distinct, fun id => ?_, ranked.ordered, fun chunk => scored, ?_, ?_⟩
  · rw [← fused_mem_iff first second id, reciprocalRankFusion, List.map_map]
    exact ((ranked_perm Prod.snd _).map _).mem_iff
  · intro chunk mem hit listed same
    obtain ⟨p, entered, rfl⟩ := origin mem
    rw [← fused_carrier first second entered listed same]
  · intro a in_a b in_b noWorse_bm25 noWorse_vector
    rw [scored in_a, scored in_b]
    exact add_le_add (share_mono bm25_nonneg noWorse_bm25) (share_mono vector_nonneg noWorse_vector)

def sampleHit (id : Text) (source : SearchSource) : SearchResult :=
  ⟨id, [], [], [], 0, source, []⟩

theorem fusion_ranks_two :
    let bm25 := [sampleHit ['a'] .bm25]
    let vector := [sampleHit ['a'] .vector, sampleHit ['b'] .vector]
    ∀ chunk ∈ reciprocalRankFusion bm25 vector 1 1 60,
      chunk.score = fusedScore bm25 vector 1 1 60 chunk.chunkID :=
  (fusion_ranks (by decide) (by decide) (by decide +kernel) (by decide +kernel) 60).2.2.2.1

end KnowledgeCompanion.FusedRanking
