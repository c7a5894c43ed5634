import KnowledgeCompanion.ChatNotifier
import KnowledgeCompanion.Citations

/-! The markers of a streamed answer beside its citations: the client rewrites the answer
at each citation that arrives, and once when it loads the stored message. -/

namespace KnowledgeCompanion.CitationSync

open MarkerText Citations ChatNotifier

variable {D : Type}

def received (c : Citations.Citation D) : ChatNotifier.Citation :=
  ⟨c.resourceID, some c.index, c.originalIndex, some c.chunkID⟩

def streamed (answer : Text) : Message :=
  { id := [], conversationID := [], role := .assistant, content := answer }

def displayed (answer : Text) (cs : List (Citations.Citation D)) : Message :=
  cs.foldl (fun message c => withCitation (received c) message) (streamed answer)

def reloaded (answer : Text) (cs : List (Citations.Citation D)) : Message :=
  withCitationMarkersSynced { streamed answer with citations := cs.map received }

def Visible (answer : Text) (n : ℕ) : Prop :=
  ∃ digits, .marker digits ∈ tokens dartDigits answer ∧ tryParse digits = some n

/-- Each marker that bears the number of a shown citation stands where the answer
referenced its chunk, and the text is that of the loaded message. -/
structure Faithful (chunks : List RetrievalChunk) (answer : Text)
    (cs : List (Citations.Citation D)) : Prop where
  placed : ∀ (k : ℕ) (digits : Text) (n : ℕ),
    (tokens dartDigits (displayed answer cs).content)[k]? =
    some (Token.marker digits) → tryParse digits = some n → ∀ c ∈ cs, c.index = n →
      ∃ (original : Text) (m : ℕ), (tokens dartDigits answer)[k]? = some (Token.marker original) ∧
        tryParse original = some m ∧ From chunks m c
  agrees : (displayed answer cs).content = (reloaded answer cs).content

/-- No number that a marker of the answer takes is the original number of a renumbered
citation, but that the last citation may take one which an earlier citation has left. -/
def Apart (answer : Text) (cs : List (Citations.Citation D)) : Prop :=
  ∀ a ∈ cs, ∀ b ∈ cs, Visible answer a.original → a.originalIndex ≠ none →
    b.originalIndex = some a.index → b.index < a.index ∧ cs.getLast? = some a

/-- No marker whose own citation is not shown bears the number of a shown citation of
another chunk. -/
def Owned (chunks : List RetrievalChunk) (answer : Text) (cs : List (Citations.Citation D)) :
    Prop :=
  ∀ m, Visible answer m → m ∉ cs.map Citations.Citation.original →
    ∀ c ∈ cs, c.index = m → From chunks m c

theorem tryParse_decimal (n : ℕ) :
    tryParse (decimal n) = if n < 2 ^ 63 then some n else none := by
  have value : (decimal n).foldl (fun n c => 10 * n + (c.toNat - 48)) 0 = n :=
    Nat.ofDigitChars_toDigits (by decide) (by decide)
  simp only [tryParse, value]

theorem tryParse_lt {digits : Text} {n : ℕ} (read : tryParse digits = some n) : n < 2 ^ 63 := by
  unfold tryParse at read
  dsimp only at read
  split at read
  · rename_i small
    rw [← Option.some.inj read]
    exact small
  · cases read

theorem number_decimal (n : ℕ) : Number dartDigits (decimal n) := by
  refine ⟨Nat.toDigits_ne_nil, fun c mem => ?_⟩
  have digit := Nat.isDigit_of_mem_toDigits (by decide) (by decide) mem
  simp only [Char.isDigit, Bool.and_eq_true, decide_eq_true_eq] at digit
  simp only [dartDigits, Bool.and_eq_true, decide_eq_true_eq]
  exact ⟨digit.1, digit.2⟩

def synced (cs : List (Citations.Citation D)) (digits : Text) : Text :=
  syncedDigits (cs.map received) digits

theorem syncedDigits_proper (citations : List ChatNotifier.Citation) :
    Proper dartDigits (syncedDigits citations) := by
  intro digits number
  unfold syncedDigits
  split
  · exact number
  · exact number_decimal _

theorem synced_content (m : Message) :
    (withCitationMarkersSynced m).content =
      sub dartDigits (syncedDigits m.citations) m.content := by
  have still (empty : m.citations.filterMap markerEntry = []) :
      m.content = sub dartDigits (syncedDigits m.citations) m.content := by
    have same : syncedDigits m.citations = id := by
      funext digits
      have none : (tryParse digits).bind (markerMap m.citations) = none := by
        cases tryParse digits with
        | none => rfl
        | some n => simp [markerMap, empty]
      rw [syncedDigits, none]
      rfl
    rw [same, sub_id]
  unfold withCitationMarkersSynced
  split
  · rename_i empty
    exact still (by rw [empty]; rfl)
  · split
    · rename_i empty
      exact still empty
    · dsimp only [syncCitationMarkers]
      split
      · rename_i blank
        rw [blank]
        rfl
      · rfl

theorem entries_eq {chunks : List RetrievalChunk} {cs : List (Citations.Citation D)}
    (numbered : Numbered chunks cs) :
    (cs.map received).filterMap markerEntry =
      cs.filterMap fun c => c.originalIndex.map fun original => (original, c.index) := by
  rw [List.filterMap_map]
  refine List.filterMap_congr fun c mem => ?_
  have ne := numbered.renumbered c mem
  simp only [Function.comp_apply, received, markerEntry]
  cases origin : c.originalIndex with
  | none => rfl
  | some original =>
    rw [origin] at ne
    have apart : original ≠ c.index := fun same => ne (by rw [same])
    simp [apart]

theorem nodup_entries {chunks : List RetrievalChunk} {cs : List (Citations.Citation D)}
    (numbered : Numbered chunks cs) :
    (((cs.map received).filterMap markerEntry).map Prod.fst).Nodup := by
  have inner : ((cs.map received).filterMap markerEntry).map Prod.fst =
      cs.filterMap Citations.Citation.originalIndex := by
    rw [entries_eq numbered, List.map_filterMap]
    refine List.filterMap_congr fun c _ => ?_
    cases c.originalIndex <;> rfl
  rw [inner]
  have distinct := numbered.distinct
  clear inner numbered
  induction cs with
  | nil => exact List.nodup_nil
  | cons c cs ih =>
    obtain ⟨fresh, rest⟩ := List.nodup_cons.mp distinct
    cases origin : c.originalIndex with
    | none =>
      rw [List.filterMap_cons_none origin]
      exact ih rest
    | some original =>
      rw [List.filterMap_cons_some origin]
      refine List.nodup_cons.mpr ⟨fun mem => fresh ?_, ih rest⟩
      obtain ⟨d, there, same⟩ := List.mem_filterMap.mp mem
      refine List.mem_map.mpr ⟨d, there, ?_⟩
      rw [Citations.Citation.original, Citations.Citation.original, same, origin]
      rfl

theorem synced_key {chunks : List RetrievalChunk} {cs : List (Citations.Citation D)}
    (numbered : Numbered chunks cs) {c : Citations.Citation D} (mem : c ∈ cs) {digits : Text}
    {m : ℕ} (origin : c.originalIndex = some m) (read : tryParse digits = some m) :
    synced cs digits = decimal c.index := by
  have entry : (m, c.index) ∈ (cs.map received).filterMap markerEntry := by
    rw [entries_eq numbered]
    exact List.mem_filterMap.mpr ⟨c, mem, by rw [origin]; rfl⟩
  have found : markerMap (cs.map received) m = some c.index := by
    refine lookup_of_mem ?_ (List.mem_reverse.mpr entry)
    rw [List.map_reverse]
    exact List.nodup_reverse.mpr (nodup_entries numbered)
  rw [synced, syncedDigits, read, Option.bind_some, found]

theorem synced_other {chunks : List RetrievalChunk} {cs : List (Citations.Citation D)}
    (numbered : Numbered chunks cs) {digits : Text}
    (free : ∀ c ∈ cs, ∀ m, tryParse digits = some m → c.originalIndex ≠ some m) :
    synced cs digits = digits := by
  have none : (tryParse digits).bind (markerMap (cs.map received)) = none := by
    cases read : tryParse digits with
    | none => rfl
    | some m =>
      rw [Option.bind_some, markerMap, List.lookup_eq_none_iff]
      intro e mem
      rw [List.mem_reverse, entries_eq numbered] at mem
      obtain ⟨c, there, same⟩ := List.mem_filterMap.mp mem
      obtain ⟨original, origin, pair⟩ := Option.map_eq_some_iff.mp same
      have ne := free c there m read
      rw [← pair]
      simp only [bne_iff_ne, ne_eq]
      rintro rfl
      exact ne origin
  rw [synced, syncedDigits, none]

def sweep : List (Citations.Citation D) → List (Citations.Citation D) → Text → Text
  | _, [], digits => digits
  | done, c :: rest, digits => sweep (done ++ [c]) rest (synced (done ++ [c]) digits)

theorem sweep_append (done xs ys : List (Citations.Citation D)) (digits : Text) :
    sweep done (xs ++ ys) digits = sweep (done ++ xs) ys (sweep done xs digits) := by
  induction xs generalizing done digits with
  | nil => rw [List.nil_append, List.append_nil, sweep]
  | cons x xs ih =>
    rw [List.cons_append, sweep, ih, sweep, List.append_assoc, List.singleton_append]

theorem sweep_proper (done rest : List (Citations.Citation D)) :
    Proper dartDigits (sweep done rest) := by
  induction rest generalizing done with
  | nil =>
    intro digits number
    exact number
  | cons c rest ih =>
    intro digits number
    exact ih (done ++ [c]) _ (syncedDigits_proper _ _ number)

theorem foldl_content (done rest : List (Citations.Citation D)) (m : Message)
    (shown : m.citations = done.map received) :
    (rest.foldl (fun message c => withCitation (received c) message) m).content =
      sub dartDigits (sweep done rest) m.content := by
  induction rest generalizing done m with
  | nil => exact (sub_id m.content).symm
  | cons c rest ih =>
    have citations (m' : Message) : (withCitationMarkersSynced m').citations = m'.citations := by
      unfold withCitationMarkersSynced
      split
      · rfl
      · split <;> rfl
    have shown' : (withCitation (received c) m).citations = (done ++ [c]).map received := by
      rw [withCitation, citations, List.map_append, ← shown]
      rfl
    have step : (withCitation (received c) m).content =
        sub dartDigits (synced (done ++ [c])) m.content := by
      rw [withCitation, synced_content]
      dsimp only
      rw [shown, ← List.map_singleton, ← List.map_append]
      rfl
    have proper : Proper dartDigits (synced (done ++ [c])) := syncedDigits_proper _
    rw [List.foldl_cons, ih (done ++ [c]) _ shown', step, sub_sub proper]
    rfl

theorem displayed_content (answer : Text) (cs : List (Citations.Citation D)) :
    (displayed answer cs).content = sub dartDigits (sweep [] cs) answer :=
  foldl_content [] cs (streamed answer) rfl

theorem reloaded_content (answer : Text) (cs : List (Citations.Citation D)) :
    (reloaded answer cs).content = sub dartDigits (synced cs) answer :=
  synced_content _

theorem agrees_iff (answer : Text) (cs : List (Citations.Citation D)) :
    (displayed answer cs).content = (reloaded answer cs).content ↔
      ∀ digits, .marker digits ∈ tokens dartDigits answer →
        sweep [] cs digits = synced cs digits := by
  rw [displayed_content, reloaded_content]
  exact sub_eq_sub_iff (sweep_proper _ _) (syncedDigits_proper _)

variable {chunks : List RetrievalChunk}

theorem sweep_fixed {done rest : List (Citations.Citation D)}
    (numbered : Numbered chunks (done ++ rest)) {digits : Text}
    (free : ∀ c ∈ done ++ rest, ∀ m, tryParse digits = some m → c.originalIndex ≠ some m) :
    sweep done rest digits = digits := by
  induction rest generalizing done with
  | nil => rfl
  | cons c rest ih =>
    have moved : done ++ c :: rest = done ++ [c] ++ rest := by simp
    rw [moved] at numbered free
    have first : synced (done ++ [c]) digits = digits :=
      synced_other (numbered.sublist (List.sublist_append_left _ _))
        fun d mem => free d (List.mem_append_left _ mem)
    rw [sweep, first]
    exact ih numbered free

theorem eq_of_original {cs : List (Citations.Citation D)} (numbered : Numbered chunks cs)
    {c d : Citations.Citation D} (memC : c ∈ cs) (memD : d ∈ cs) {m : ℕ}
    (originC : c.originalIndex = some m) (originD : d.originalIndex = some m) : c = d := by
  refine List.inj_on_of_nodup_map numbered.distinct memC memD ?_
  rw [Citations.Citation.original, Citations.Citation.original, originC, originD]
  rfl

theorem eq_of_index {cs : List (Citations.Citation D)} (numbered : Numbered chunks cs)
    {c d : Citations.Citation D} (memC : c ∈ cs) (memD : d ∈ cs) (same : c.index = d.index) :
    c = d := by
  have strict : (cs.map Citations.Citation.index).Pairwise (· < ·) :=
    List.pairwise_map.mpr numbered.increasing
  exact List.inj_on_of_nodup_map (strict.imp ne_of_lt) memC memD same

theorem sweep_arrived {pre post : List (Citations.Citation D)} {a : Citations.Citation D}
    (numbered : Numbered chunks (pre ++ a :: post)) {digits : Text} {m : ℕ}
    (origin : a.originalIndex = some m) (read : tryParse digits = some m) :
    sweep [] (pre ++ a :: post) digits = sweep (pre ++ [a]) post (decimal a.index) := by
  have before : sweep [] pre digits = digits := by
    refine sweep_fixed (numbered.sublist (List.sublist_append_left _ _)) ?_
    intro c mem n read' origin'
    rw [List.nil_append] at mem
    rw [Option.some.inj (read'.symm.trans read)] at origin'
    have same := eq_of_original numbered (List.mem_append_left _ mem)
      (List.mem_append_right _ List.mem_cons_self) origin' origin
    have ordered := (List.pairwise_append.mp numbered.increasing).2.2 c mem a List.mem_cons_self
    rw [same] at ordered
    exact absurd ordered (lt_irrefl _)
  have moved : pre ++ a :: post = pre ++ [a] ++ post := by simp
  have now : synced (pre ++ [a]) digits = decimal a.index := by
    rw [moved] at numbered
    exact synced_key (numbered.sublist (List.sublist_append_left _ _)) (by simp) origin read
  rw [sweep_append, before, List.nil_append, sweep, now]

/-- Where the numbers are apart, all synchronisations do what the last alone would do. -/
theorem sweep_eq_synced {answer : Text} {cs : List (Citations.Citation D)}
    (numbered : Numbered chunks cs) (apart : Apart answer cs) {digits : Text}
    (mem : .marker digits ∈ tokens dartDigits answer) : sweep [] cs digits = synced cs digits := by
  by_cases owned : ∃ a ∈ cs, ∃ m, tryParse digits = some m ∧ a.originalIndex = some m
  · obtain ⟨a, there, m, read, origin⟩ := owned
    have visible : Visible answer a.original := by
      refine ⟨digits, mem, ?_⟩
      rw [read, Citations.Citation.original, origin]
      rfl
    have taken := synced_key numbered there origin read
    obtain ⟨pre, post, rfl⟩ := List.append_of_mem there
    rw [sweep_arrived numbered origin read, taken]
    cases post with
    | nil => rfl
    | cons c post =>
      have moved : pre ++ a :: c :: post = pre ++ [a] ++ c :: post := by simp
      have numbered' := numbered
      rw [moved] at numbered'
      refine sweep_fixed numbered' ?_
      intro b memB n read' origin'
      rw [← moved] at memB
      have small : n = a.index := by
        rw [tryParse_decimal] at read'
        split at read'
        · exact (Option.some.inj read').symm
        · cases read'
      rw [small] at origin'
      have renumbered : a.originalIndex ≠ none := by
        rw [origin]
        exact Option.some_ne_none m
      have last := (apart a there b memB visible renumbered origin').2
      have tail : a ∈ c :: post := by
        rw [moved, List.getLast?_append_of_ne_nil _ (List.cons_ne_nil c post)] at last
        exact List.mem_of_getLast? last
      have later := (List.pairwise_append.mp numbered.increasing).2.1
      exact absurd ((List.pairwise_cons.mp later).1 a tail) (lt_irrefl _)
  · have free : ∀ c ∈ cs, ∀ m, tryParse digits = some m → c.originalIndex ≠ some m :=
      fun c there m read origin => owned ⟨c, there, m, read, origin⟩
    rw [sweep_fixed numbered free, synced_other numbered free]

def Readable (answer : Text) (cs : List (Citations.Citation D)) : Prop :=
  ∀ c ∈ cs, Visible answer c.original

/-- A marker that takes the original number of a later citation is merged with the markers
of that citation. -/
theorem sweep_merges {pre mid post : List (Citations.Citation D)} {a b : Citations.Citation D}
    (numbered : Numbered chunks (pre ++ a :: (mid ++ b :: post))) {digits digits' : Text} {m : ℕ}
    (originA : a.originalIndex = some m) (readA : tryParse digits = some m)
    (originB : b.originalIndex = some a.index) (readB : tryParse digits' = some a.index) :
    sweep [] (pre ++ a :: (mid ++ b :: post)) digits =
      sweep [] (pre ++ a :: (mid ++ b :: post)) digits' := by
  have shape : pre ++ a :: (mid ++ b :: post) = pre ++ a :: mid ++ b :: post := by simp
  have read : tryParse (decimal a.index) = some a.index := by
    rw [tryParse_decimal, if_pos (tryParse_lt readB)]
  have early : sweep (pre ++ [a]) mid (decimal a.index) = decimal a.index := by
    have sub : (pre ++ [a] ++ mid).Sublist (pre ++ a :: (mid ++ b :: post)) := by
      rw [shape, List.append_assoc, List.singleton_append]
      exact List.sublist_append_left _ _
    refine sweep_fixed (numbered.sublist sub) ?_
    intro c mem n read' origin'
    rw [read, Option.some.injEq] at read'
    rw [← read'] at origin'
    have same := eq_of_original numbered (sub.mem mem) (by simp) origin' originB
    have ordered : (pre ++ [a] ++ mid ++ b :: post).Pairwise fun c d => c.index < d.index := by
      have increasing := numbered.increasing
      rw [shape] at increasing
      simpa using increasing
    have before := (List.pairwise_append.mp ordered).2.2 c mem b List.mem_cons_self
    rw [same] at before
    exact lt_irrefl _ before
  have first : sweep [] (pre ++ a :: (mid ++ b :: post)) digits =
      sweep (pre ++ a :: mid ++ [b]) post (decimal b.index) := by
    have now : synced (pre ++ [a] ++ mid ++ [b]) (decimal a.index) = decimal b.index := by
      refine synced_key (numbered.sublist ?_) (by simp) originB read
      rw [shape]
      simp
    rw [sweep_arrived numbered originA readA, sweep_append, early, sweep, now]
    simp
  have second := numbered
  rw [shape] at second
  rw [first, shape, sweep_arrived second originB readB]

theorem sweep_sinks {done rest : List (Citations.Citation D)}
    (numbered : Numbered chunks (done ++ rest))
    (sinks : ∀ a ∈ done ++ rest, ∀ b ∈ done ++ rest, a.originalIndex ≠ none →
      b.originalIndex = some a.index → b.index < a.index)
    {e : Citations.Citation D} (mem : e ∈ done ++ rest) (renumbered : e.originalIndex ≠ none) :
    ∃ n, n ≤ e.index ∧ sweep done rest (decimal e.index) = decimal n := by
  induction rest generalizing done e with
  | nil => exact ⟨e.index, le_rfl, rfl⟩
  | cons c rest ih =>
    have moved : done ++ c :: rest = done ++ [c] ++ rest := by simp
    rw [moved] at numbered sinks mem
    have part : Numbered chunks (done ++ [c]) :=
      numbered.sublist (List.sublist_append_left _ _)
    rw [sweep]
    by_cases again : ∃ d ∈ done ++ [c], ∃ m, tryParse (decimal e.index) = some m ∧
        d.originalIndex = some m
    · obtain ⟨d, there, m, read, origin⟩ := again
      rw [synced_key part there origin read]
      have small : m = e.index := by
        rw [tryParse_decimal] at read
        split at read
        · exact (Option.some.inj read).symm
        · cases read
      have inside := List.mem_append_left rest there
      have lower := sinks e mem d inside renumbered (by rw [origin, small])
      have again : d.originalIndex ≠ none := by
        rw [origin]
        exact Option.some_ne_none m
      obtain ⟨n, bound, same⟩ := ih numbered sinks inside again
      exact ⟨n, bound.trans lower.le, same⟩
    · rw [synced_other part fun d there m read origin => again ⟨d, there, m, read, origin⟩]
      exact ih numbered sinks mem renumbered

theorem split_two {cs : List (Citations.Citation D)} (numbered : Numbered chunks cs)
    {a b : Citations.Citation D} (memA : a ∈ cs) (memB : b ∈ cs) (less : a.index < b.index) :
    ∃ pre mid post, cs = pre ++ a :: (mid ++ b :: post) := by
  obtain ⟨pre, post, rfl⟩ := List.append_of_mem memA
  have later : b ∈ post := by
    rcases List.mem_append.mp memB with before | here
    · have ordered := (List.pairwise_append.mp numbered.increasing).2.2 b before a
        List.mem_cons_self
      omega
    · rcases List.mem_cons.mp here with same | after
      · rw [same] at less
        exact absurd less (lt_irrefl _)
      · exact after
  obtain ⟨mid, post, rfl⟩ := List.append_of_mem later
  exact ⟨pre, mid, post, rfl⟩

theorem sinks_of_agrees {answer : Text} {cs : List (Citations.Citation D)}
    (numbered : Numbered chunks cs) (readable : Readable answer cs)
    (agrees : (displayed answer cs).content = (reloaded answer cs).content) :
    ∀ a ∈ cs, ∀ b ∈ cs, a.originalIndex ≠ none →
      b.originalIndex = some a.index → b.index < a.index := by
  rw [agrees_iff] at agrees
  intro a memA b memB renumbered originB
  obtain ⟨m, originA⟩ := Option.ne_none_iff_exists'.mp renumbered
  obtain ⟨digits, markerA, readA⟩ := readable a memA
  obtain ⟨digits', markerB, readB⟩ := readable b memB
  rw [Citations.Citation.original, originA, Option.getD_some] at readA
  rw [Citations.Citation.original, originB, Option.getD_some] at readB
  have apart : a ≠ b := by
    intro same
    rw [← same] at originB
    exact numbered.renumbered a memA originB
  by_contra high
  have differ : a.index ≠ b.index := fun same => apart (eq_of_index numbered memA memB same)
  have less : a.index < b.index := by omega
  have reloadedA := synced_key numbered memA originA readA
  have reloadedB := synced_key numbered memB originB readB
  have both : sweep [] cs digits = sweep [] cs digits' := by
    obtain ⟨pre, mid, post, rfl⟩ := split_two numbered memA memB less
    exact sweep_merges numbered originA readA originB readB
  rw [agrees digits markerA, agrees digits' markerB, reloadedA, reloadedB] at both
  exact differ (PythonText.decimal_inj both)

theorem mem_before {pre post : List (Citations.Citation D)} {a b : Citations.Citation D}
    (numbered : Numbered chunks (pre ++ a :: post)) (mem : b ∈ pre ++ a :: post)
    (lower : b.index < a.index) : b ∈ pre := by
  rcases List.mem_append.mp mem with there | here
  · exact there
  · rcases List.mem_cons.mp here with same | after
    · rw [same] at lower
      exact absurd lower (lt_irrefl _)
    · have later := (List.pairwise_append.mp numbered.increasing).2.1
      have above := (List.pairwise_cons.mp later).1 b after
      omega

theorem apart_of_agrees {answer : Text} {cs : List (Citations.Citation D)}
    (numbered : Numbered chunks cs) (readable : Readable answer cs)
    (agrees : (displayed answer cs).content = (reloaded answer cs).content) :
    Apart answer cs := by
  have sinks := sinks_of_agrees numbered readable agrees
  rw [agrees_iff] at agrees
  intro a memA b memB visible renumbered originB
  have lower := sinks a memA b memB renumbered originB
  refine ⟨lower, ?_⟩
  obtain ⟨m, originA⟩ := Option.ne_none_iff_exists'.mp renumbered
  obtain ⟨digits, markerA, readA⟩ := visible
  rw [Citations.Citation.original, originA, Option.getD_some] at readA
  have reloadedA := synced_key numbered memA originA readA
  have shownA := agrees digits markerA
  rw [reloadedA] at shownA
  obtain ⟨pre, post, rfl⟩ := List.append_of_mem memA
  rw [sweep_arrived numbered originA readA] at shownA
  cases post with
  | nil => simp
  | cons c post =>
    exfalso
    have before : b ∈ pre := mem_before numbered memB lower
    have readB : tryParse (decimal a.index) = some a.index := by
      obtain ⟨digits', -, read⟩ := readable b memB
      rw [Citations.Citation.original, originB, Option.getD_some] at read
      rw [tryParse_decimal, if_pos (tryParse_lt read)]
    have moved : pre ++ a :: c :: post = pre ++ [a] ++ [c] ++ post := by simp
    have now : synced (pre ++ [a] ++ [c]) (decimal a.index) = decimal b.index := by
      refine synced_key (numbered.sublist ?_) (by simp [before]) originB readB
      rw [moved]
      exact List.sublist_append_left _ _
    rw [sweep, now] at shownA
    rw [moved] at numbered sinks memB
    have renumbered : b.originalIndex ≠ none := by
      rw [originB]
      exact Option.some_ne_none _
    obtain ⟨n, bound, same⟩ := sweep_sinks numbered sinks memB renumbered
    rw [same] at shownA
    have equal := PythonText.decimal_inj shownA
    omega

theorem displayed_token {answer : Text} {cs : List (Citations.Citation D)} (k : ℕ) :
    (tokens dartDigits (displayed answer cs).content)[k]? =
      (tokens dartDigits answer)[k]?.map (relabel (sweep [] cs)) := by
  rw [displayed_content, tokens_sub (sweep_proper _ _), List.getElem?_map]

theorem placed_of_apart {answer : Text} {cs : List (Citations.Citation D)}
    (numbered : Numbered chunks cs) (apart : Apart answer cs) (owned : Owned chunks answer cs) :
    Faithful chunks answer cs := by
  have agree (digits : Text) (mem : .marker digits ∈ tokens dartDigits answer) :
      sweep [] cs digits = synced cs digits := sweep_eq_synced numbered apart mem
  refine ⟨?_, (agrees_iff answer cs).mpr agree⟩
  intro k digits n shown read c there bears
  rw [displayed_token] at shown
  obtain ⟨token, here, same⟩ := Option.map_eq_some_iff.mp shown
  cases token with
  | lit _ => cases same
  | marker original =>
    have mem := List.mem_of_getElem? here
    have rewritten : synced cs original = digits := by
      rw [← agree original mem]
      exact Token.marker.inj same
    by_cases own : ∃ a ∈ cs, ∃ m, tryParse original = some m ∧ a.originalIndex = some m
    · obtain ⟨a, memA, m, readA, origin⟩ := own
      rw [← rewritten, synced_key numbered memA origin readA, tryParse_decimal] at read
      split at read
      · have same : a = c := eq_of_index numbered memA there
          ((Option.some.inj read).trans bears.symm)
        have source := numbered.grounded a memA
        rw [Citations.Citation.original, origin, Option.getD_some, same] at source
        exact ⟨original, m, here, readA, source⟩
      · cases read
    · have kept : original = digits := by
        rw [← rewritten]
        exact (synced_other numbered fun a memA m readA origin =>
          own ⟨a, memA, m, readA, origin⟩).symm
      rw [← kept] at read
      refine ⟨original, n, here, read, ?_⟩
      by_cases cited : n ∈ cs.map Citations.Citation.original
      · obtain ⟨d, memD, source⟩ := List.mem_map.mp cited
        have still : d.originalIndex = none := by
          cases origin : d.originalIndex with
          | none => rfl
          | some m =>
            rw [Citations.Citation.original, origin, Option.getD_some] at source
            exact absurd ⟨d, memD, n, read, by rw [origin, source]⟩ own
        have ground := numbered.grounded d memD
        rw [source] at ground
        rw [Citations.Citation.original, still, Option.getD_none] at source
        rwa [eq_of_index numbered memD there (source.trans bears.symm)] at ground
      · exact owned n ⟨original, mem, read⟩ cited c there bears

theorem owned_of_placed {answer : Text} {cs : List (Citations.Citation D)}
    (numbered : Numbered chunks cs) (faithful : Faithful chunks answer cs) :
    Owned chunks answer cs := by
  intro m visible uncited c there bears
  obtain ⟨digits, mem, read⟩ := visible
  obtain ⟨k, here⟩ := List.getElem?_of_mem mem
  have stays : sweep [] cs digits = digits := by
    refine sweep_fixed numbered ?_
    intro d memD n read' origin
    rw [List.nil_append] at memD
    apply uncited
    refine List.mem_map.mpr ⟨d, memD, ?_⟩
    rw [Citations.Citation.original, origin, Option.getD_some]
    exact Option.some.inj (read'.symm.trans read)
  have shown : (tokens dartDigits (displayed answer cs).content)[k]? =
      some (Token.marker digits) := by
    rw [displayed_token, here, Option.map_some, relabel, stays]
  obtain ⟨original, n, here', read', source⟩ := faithful.placed k digits m shown read c there bears
  rw [here, Option.some.injEq, Token.marker.injEq] at here'
  rw [← here', read, Option.some.injEq] at read'
  rwa [← read'] at source

/-- The streamed markers are those of the loaded message, each at its chunk, exactly where
no taken number is an original one and no foreign marker bears a shown number. -/
theorem faithful_iff (fmt : CitationFormatter D) (maxCitations : ℤ) (answer : Text)
    (chunks : List RetrievalChunk) (authorized : List Text) :
    let cs := (buildCitations fmt maxCitations answer chunks authorized).2
    (Apart answer cs ∧ Owned chunks answer cs → Faithful chunks answer cs) ∧
      (Readable answer cs →
        (Faithful chunks answer cs ↔ Apart answer cs ∧ Owned chunks answer cs)) := by
  intro cs
  have numbered : Numbered chunks cs :=
    buildCitations_numbered fmt maxCitations answer chunks authorized
  have enough : Apart answer cs ∧ Owned chunks answer cs → Faithful chunks answer cs :=
    fun h => placed_of_apart numbered h.1 h.2
  refine ⟨enough, fun readable => ⟨fun faithful => ?_, enough⟩⟩
  exact ⟨apart_of_agrees numbered readable faithful.agrees, owned_of_placed numbered faithful⟩

private def swapped : Text := "[^2] [^1]".toList

private def sources : List RetrievalChunk := [⟨['a'], ['r'], [], 0, []⟩, ⟨['b'], ['r'], [], 0, []⟩]

private def shown : List (Citations.Citation Unit) :=
  (buildCitations ⟨fun _ => some ()⟩ 5 swapped sources [['r']]).2

/-- Two cited chunks in the other order: both streamed markers end with the number of the
second citation, while the loaded message has both numbers. -/
theorem swapped_not_faithful :
    ((displayed swapped shown).content = "[^2] [^2]".toList ∧
      (reloaded swapped shown).content = "[^1] [^2]".toList) ∧
    ¬ ∀ (fmt : CitationFormatter Unit) (maxCitations : ℤ) (answer : Text)
      (chunks : List RetrievalChunk) (authorized : List Text),
      Faithful chunks answer (buildCitations fmt maxCitations answer chunks authorized).2 := by
  have displayed : (displayed swapped shown).content = "[^2] [^2]".toList := by decide +kernel
  have reloaded : (reloaded swapped shown).content = "[^1] [^2]".toList := by decide +kernel
  refine ⟨⟨displayed, reloaded⟩, fun all => ?_⟩
  have agrees := (all ⟨fun _ => some ()⟩ 5 swapped sources [['r']]).agrees
  change (CitationSync.displayed swapped shown).content =
    (CitationSync.reloaded swapped shown).content at agrees
  rw [displayed, reloaded] at agrees
  exact absurd agrees (by decide)

end KnowledgeCompanion.CitationSync
