import KnowledgeCompanion.Bm25
import KnowledgeCompanion.Ranking

/-! What a search of the BM25 index returns: the cut to `top_k` comes before the documents
outside the scope are dropped. -/

namespace KnowledgeCompanion.Bm25Search

open RetrievalModels Bm25 Ranking NotANumber

variable {K : Type}

/-- Where the slice `[:top_k]` of a list of `n` elements stops. -/
def sliceEnd (topK : ℤ) (n : ℕ) : ℕ := if 0 ≤ topK then topK.toNat else (n + topK).toNat

def scored (scores : ℕ → K) (docs : List (SearchResult K)) : List (SearchResult K × K) :=
  docs.zipIdx.map fun p => (p.1, scores p.2)

def asHit (p : SearchResult K × K) : SearchResult K := { p.1 with score := p.2, source := .bm25 }

theorem fst_mem_of_scored {scores : ℕ → K} {docs : List (SearchResult K)}
    {p : SearchResult K × K} (h : p ∈ scored scores docs) : p.1 ∈ docs := by
  obtain ⟨q, mem, rfl⟩ := List.mem_map.mp h
  exact List.fst_mem_of_mem_zipIdx mem

theorem index_eq {libs : Libraries K} {store : Bm25Store K} {docs : List (SearchResult K)}
    {scores : List Text → ℕ → K}
    (known : libs.okapi (docs.map fun doc => tokenize libs store.tokenizer doc.text) =
      some scores) :
    index libs store docs =
      some { store with docs, bm25 := if docs = [] then none else some scores } := by
  cases docs with
  | nil => rfl
  | cons doc docs =>
    rw [List.map_cons] at known
    simp [index, known]

variable [LinearOrder K] [Zero K]

def isPositive (p : SearchResult K × K) : Bool := decide (0 < p.2)

def answers (filters : Filters) (p : SearchResult K × K) : Bool :=
  isPositive p && matchesFilters p.1 filters

theorem search_eq {libs : Libraries K} {store : Bm25Store K} {docs : List (SearchResult K)}
    {scores : List Text → ℕ → K} {question : Text}
    (asked : tokenize libs store.tokenizer question ≠ []) (topK : ℕ) (filters : Filters) :
    search libs { store with docs, bm25 := if docs = [] then none else some scores } question topK
        filters =
      (((ranked Prod.snd
        (scored (scores (tokenize libs store.tokenizer question)) docs)).take topK).filter
          (answers filters)).map asHit := by
  cases docs with
  | nil => simp [search, scored, ranked]
  | cons doc docs =>
    have positive (p : SearchResult K × K) :
        (!decide (p.2 ≤ 0) && matchesFilters p.1 filters) = answers filters p := by
      rw [answers, isPositive, ← decide_not, decide_eq_decide.mpr not_le]
    simp only [search, asked, reduceCtorEq, if_false, positive]
    rfl

omit [Zero K] in
theorem asHit_sorted {best : List (SearchResult K × K)}
    (sorted : best.Pairwise fun a b => b.2 ≤ a.2) :
    (best.map asHit).Pairwise fun a b => b.score ≤ a.score :=
  List.pairwise_map.mpr sorted

theorem filter_take_answers {xs : List (SearchResult K × K)} {filters : Filters} {limit : ℕ}
    (harmless : (∀ p ∈ xs, matchesFilters p.1 filters = true) ∨
      (xs.filter isPositive).length ≤ limit) :
    ((ranked Prod.snd xs).take limit).filter (answers filters) =
      (ranked Prod.snd (xs.filter (answers filters))).take limit := by
  have split : ∀ ys : List (SearchResult K × K), ys.filter (answers filters) =
      (ys.filter isPositive).filter fun p => matchesFilters p.1 filters := by
    intro ys
    rw [List.filter_filter]
    exact List.filter_congr fun p _ => Bool.and_comm _ _
  have cut : ((ranked Prod.snd xs).take limit).filter isPositive =
      (ranked Prod.snd (xs.filter isPositive)).take limit := filter_take_ranked Prod.snd 0 limit xs
  rcases harmless with scope | few
  · have all : ∀ ys : List (SearchResult K × K), (∀ p ∈ ys, p ∈ xs) →
        ys.filter (fun p => matchesFilters p.1 filters) = ys := fun ys sub =>
      List.filter_eq_self.mpr fun p mem => scope p (sub p mem)
    rw [split, split xs, cut, all (xs.filter isPositive) fun p mem => List.mem_of_mem_filter mem]
    refine all _ fun p mem => ?_
    have listed := (mem_ranked Prod.snd).mp (List.mem_of_mem_take mem)
    exact List.mem_of_mem_filter listed
  · have whole : ((ranked Prod.snd (xs.filter isPositive)).take limit) =
        ranked Prod.snd (xs.filter isPositive) :=
      List.take_of_length_le ((ranked_perm _ _).length_eq.trans_le few)
    have kept : (xs.filter (answers filters)).length ≤ limit := by
      rw [split]
      exact (List.length_filter_le _ _).trans few
    rw [split, cut, whole, filter_ranked, ← split,
      List.take_of_length_le ((ranked_perm _ _).length_eq.trans_le kept)]

/-- Of scores that are numbers a search returns, best first, those of the `top_k` best documents
of the whole index that are in the scope and have a positive score. They are the `top_k` best such
documents of the scope when the index holds the scope only, or at most `top_k` positive ones. -/
theorem search_best {libs : Libraries K} {store : Bm25Store K} {docs : List (SearchResult K)}
    {scores : List Text → ℕ → K} {question : Text}
    (known : libs.okapi (docs.map fun doc => tokenize libs store.tokenizer doc.text) = some scores)
    (asked : tokenize libs store.tokenizer question ≠ []) :
    ∃ built, index libs store docs = some built ∧ ∀ (topK : ℤ) (filters : Filters),
      let all := scored (scores (tokenize libs store.tokenizer question)) docs
      let limit := sliceEnd topK docs.length
      let hits := search libs built question limit filters
      (hits.Pairwise fun a b => b.score ≤ a.score) ∧
      (∃ best, BestFew Prod.snd limit all best ∧
        hits = (best.filter (answers filters)).map asHit) ∧
      ((∀ doc ∈ docs, matchesFilters doc filters = true) ∨
          (all.filter isPositive).length ≤ limit →
        ∃ best, BestFew Prod.snd limit (all.filter (answers filters)) best ∧
          hits = best.map asHit) := by
  refine ⟨_, index_eq known, fun topK filters => ?_⟩
  intro all limit hits
  have found : hits = (((ranked Prod.snd all).take limit).filter (answers filters)).map asHit :=
    search_eq asked limit filters
  have top := bestFew_take Prod.snd limit all
  refine ⟨?_, ⟨_, top, found⟩, fun harmless => ⟨_, bestFew_take _ _ _, ?_⟩⟩
  · rw [found]
    exact asHit_sorted (top.sorted.filter _)
  · rw [found, filter_take_answers]
    exact harmless.imp_left fun scope p mem => scope p.1 (fst_mem_of_scored mem)

def libraries : Libraries := ⟨fun _ => [], fun _ => some fun _ n => if n = 0 then 2 else 1⟩

def document (user : Text) : SearchResult :=
  ⟨user ++ "-chunk".toList, "r1".toList, user, "word".toList, 0, .bm25, []⟩

def emptyStore : Bm25Store := ⟨.whitespace, [], none⟩

def twoUsers : List SearchResult := [document "v".toList, document "u".toList]

def onlyU : Filters := ⟨"u".toList, ["r1".toList]⟩

theorem search_best_example : ∃ built, index libraries emptyStore twoUsers = some built ∧
    ∃ best, BestFew Prod.snd 2 ((scored (fun n => if n = 0 then 2 else 1) twoUsers).filter
      (answers onlyU)) best ∧ search libraries built "word".toList 2 onlyU = best.map asHit := by
  obtain ⟨built, indexed, found⟩ :=
    @search_best _ _ _ libraries emptyStore twoUsers _ "word".toList rfl (by decide)
  exact ⟨built, indexed, (found 2 onlyU).2.2 (.inr (by decide))⟩

def numberless : Libraries (WithNaN ℚ) where
  cut _ := []
  okapi _ := some fun _ n => if n = 0 then .num 8 else if n = 1 then .nan else .num 9

def unscored (id : Text) : SearchResult (WithNaN ℚ) :=
  ⟨id, "r1".toList, "u".toList, "word".toList, .num 0, .bm25, []⟩

/-- The only document of the scope scores positive, but the other user's document scores more
and takes the one place. A score that is no number is not dropped and not put in order either. -/
theorem search_displaced : (∃ built, index libraries emptyStore twoUsers = some built ∧
    search libraries built "word".toList 1 onlyU = [] ∧
    ¬ ∃ best, BestFew Prod.snd 1 ((scored (fun n => if n = 0 then 2 else 1) twoUsers).filter
      (answers onlyU)) best ∧ search libraries built "word".toList 1 onlyU = best.map asHit) ∧
    ∃ built, index numberless ⟨.whitespace, [], none⟩
        [unscored "a".toList, unscored "b".toList, unscored "c".toList] = some built ∧
      (search numberless built "word".toList 3 onlyU).map SearchResult.score =
        [.num 8, .nan, .num 9] ∧
      ¬ (search numberless built "word".toList 3 onlyU).Pairwise fun a b => b.score ≤ a.score := by
  refine ⟨⟨_, rfl, by decide, ?_⟩, _, rfl, by decide, by decide⟩
  rintro ⟨best, few, same⟩
  have empty : best = [] := List.map_eq_nil_iff.mp (same.symm.trans (by decide))
  have one := few.length
  rw [empty] at one
  exact absurd one (by decide)

end KnowledgeCompanion.Bm25Search
