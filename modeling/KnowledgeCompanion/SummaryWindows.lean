import KnowledgeCompanion.MapReduce
import KnowledgeCompanion.StridedWindows

/-! The windows that `_split_chunks` of the map-reduce summarizer cuts a long text into, for
every token estimator. -/

namespace KnowledgeCompanion.SummaryWindows

open SpanScan TokenWindows MapReduce StridedWindows

/-- `encode` and `decode` of the token estimator. -/
structure TokenEstimator (τ : Type*) where
  encode : Text → List τ
  decode : List τ → Text

variable {τ : Type*}

def chunksAt (estimator : TokenEstimator τ) (tokens : List τ) (limit : ℕ) : List ℕ → List Text
  | [] => []
  | start :: later =>
    estimator.decode (slice tokens start (start + limit)) ::
      if tokens.length ≤ start + limit then [] else chunksAt estimator tokens limit later

def step (limit overlap : ℤ) : ℕ := (max 1 (limit - max 0 overlap)).toNat

def splitChunks (estimator : TokenEstimator τ) (limit overlap : ℤ) (text : Text) : List Text :=
  let tokens := estimator.encode text
  if limit ≤ 0 then [text]
  else if (tokens.length : ℤ) ≤ limit then [text]
  else chunksAt estimator tokens limit.toNat (starts tokens.length (step limit overlap))

def fallbackEstimator : TokenEstimator ℕ := ⟨fallbackEncode, decode⟩

theorem chunksAt_fallback (tokens : List ℕ) (limit : ℕ) (begins : List ℕ) :
    chunksAt fallbackEstimator tokens limit begins = windowsAt tokens limit begins := by
  induction begins with
  | nil => rfl
  | cons start later ih => rw [chunksAt, windowsAt, ih]; rfl

theorem splitChunks_fallback (s : MapReduceSummarizer) (text : Text) :
    splitChunks fallbackEstimator s.limit s.overlap text = s.splitChunks text := by
  simp only [splitChunks, MapReduceSummarizer.splitChunks, chunksAt_fallback]
  rfl

theorem chunksAt_eq_map (estimator : TokenEstimator τ) (tokens : List τ) (limit : ℕ)
    (begins : List ℕ) : chunksAt estimator tokens limit begins =
      (untilEnd tokens.length limit begins).map fun start =>
        estimator.decode (slice tokens start (start + limit)) := by
  induction begins with
  | nil => rfl
  | cons start later ih =>
    rw [chunksAt, untilEnd, ih, List.map_cons]
    split <;> rfl

theorem length_window (tokens : List τ) (limit start : ℕ) :
    (slice tokens start (start + limit)).length = min (start + limit) tokens.length - start := by
  rw [slice, List.length_drop, List.length_take]

theorem step_pos (limit overlap : ℤ) : 0 < step limit overlap := by
  unfold step
  omega

theorem step_le {limit : ℤ} (overlap : ℤ) (positive : 0 < limit) :
    step limit overlap ≤ limit.toNat := by
  unfold step
  omega

/-- The windows of `limit` tokens that begin at some positions of a token list. -/
structure Windows (tokens : List τ) (limit step : ℕ) (begins : List ℕ) : Prop where
  nonempty : ∀ start ∈ begins, slice tokens start (start + limit) ≠ []
  within : ∀ start ∈ begins, (slice tokens start (start + limit)).length ≤ limit
  first : begins.head? = some 0
  next : ∀ i (h : i + 1 < begins.length), begins[i + 1] = begins[i] + step
  covered : ∀ p < tokens.length, ∃ start ∈ begins, p ∈ span tokens.length limit start
  last : ∀ i (h : i < begins.length),
    tokens.length - 1 ∈ span tokens.length limit begins[i] ↔ i + 1 = begins.length
  apart : ∀ i j (hi : i < begins.length) (hj : j < begins.length), i ≠ j →
    ¬ span tokens.length limit begins[i] ⊆ span tokens.length limit begins[j]

theorem windows_of_covering {tokens : List τ} {limit step : ℕ} {begins : List ℕ}
    (some : 0 < tokens.length) (positive : 0 < step) (within : step ≤ limit)
    (h : Covering tokens.length limit step begins) : Windows tokens limit step begins where
  nonempty := by
    intro start mem
    obtain ⟨i, hi, rfl⟩ := List.getElem_of_mem mem
    have inside := h.inside some within hi
    have length := length_window tokens limit begins[i]
    intro empty
    rw [empty, List.length_nil] at length
    omega
  within := by
    intro start _
    rw [length_window]
    omega
  first := by
    have length := List.length_pos_iff.mpr h.some
    rw [List.head?_eq_getElem?, List.getElem?_eq_getElem length, h.strided 0 length, Nat.zero_mul]
  next := by
    intro i hi
    rw [h.strided (i + 1) hi, h.strided i (by omega), Nat.succ_mul]
  covered := fun p hp => h.covers positive within hp
  last := fun i hi => h.mem_last some within hi
  apart := fun i j hi hj => h.apart some positive within hi hj

/-- Every limit and overlap cuts a text of more tokens than the limit into such windows, and
each of them is decoded into one chunk. -/
theorem split_windows (estimator : TokenEstimator τ) (text : Text) {limit : ℤ} (overlap : ℤ)
    (positive : 0 < limit) (long : limit < (estimator.encode text).length) :
    ∃ begins, Windows (estimator.encode text) limit.toNat (step limit overlap) begins ∧
      splitChunks estimator limit overlap text = begins.map fun start =>
        estimator.decode (slice (estimator.encode text) start (start + limit.toNat)) := by
  have moves := step_pos limit overlap
  have within := step_le overlap positive
  have count : ((estimator.encode text).length + step limit overlap - 1) / step limit overlap =
      ((estimator.encode text).length - 1) / step limit overlap + 1 := by
    rw [← Nat.add_div_right _ moves]
    congr 1
    omega
  have reach : (estimator.encode text).length ≤ step limit overlap *
      (((estimator.encode text).length - 1) / step limit overlap) + limit.toNat := by
    have rest := Nat.lt_mul_div_succ ((estimator.encode text).length - 1) moves
    rw [Nat.mul_succ] at rest
    omega
  refine ⟨_, windows_of_covering (by omega) moves within (covering_range _ _ _ _ reach), ?_⟩
  unfold splitChunks
  dsimp only
  rw [if_neg (by omega), if_neg (by omega), chunksAt_eq_map, starts, count]

/-- The windows `abc` and `cde`. -/
theorem split_windows_example : ∃ begins,
    Windows (fallbackEncode "abcde".toList) 3 2 begins ∧
      splitChunks fallbackEstimator 3 1 "abcde".toList = begins.map fun start =>
        decode (slice (fallbackEncode "abcde".toList) start (start + 3)) :=
  @split_windows ℕ fallbackEstimator "abcde".toList 3 1 (by decide) (by decide)

end KnowledgeCompanion.SummaryWindows
