import KnowledgeCompanion.PythonText
import KnowledgeCompanion.Replacement

/-! The rules that clean a transcribed text (`text_cleaning/rule_cleaner.py`): repeated words,
filler words, repeated characters and whitespace, one pass after the other. -/

namespace KnowledgeCompanion.TextRules

open PythonText Replacement

/-- The lengths of the repetitions of `w` with a gap before each, as many as there are; every one
takes a character, so that the length of the text is fuel enough. -/
def repeats (gapAt : Text → Option ℕ) (w : Text) : ℕ → Text → List ℕ
  | 0, _ => []
  | fuel + 1, t =>
    match gapAt t with
    | none => []
    | some gap =>
      if w <+: t.drop gap then
        (gap + w.length) :: repeats gapAt w fuel (t.drop (gap + w.length))
      else []

def spacesAt (t : Text) : Option ℕ :=
  match t.takeWhile isSpace with
  | [] => none
  | c :: run => some (c :: run).length

/-- A match of a group `w` that is followed by `{2,}` repetitions of itself. -/
def repeated (gapAt : Text → Option ℕ) (w t : Text) : Option (ℕ × ℕ) :=
  let found := repeats gapAt w t.length (t.drop w.length)
  if w ≠ [] ∧ w <+: t ∧ 2 ≤ found.length then some (w.length, w.length + found.sum) else none

/-- `\b\w+\b` at a position: the run of word characters that begins there. -/
def wordAt (isWord : Char → Bool) (prev : Option Char) (t : Text) : Text :=
  if (prev.map isWord).getD false then [] else t.takeWhile isWord

def wordRepeat (isWord : Char → Bool) : Matcher Char := fun prev t =>
  repeated spacesAt (wordAt isWord prev t) t

def isCjk (c : Char) : Bool := decide (0x4E00 ≤ c.toNat) && decide (c.toNat ≤ 0x9FFF)

def cjkAt (t : Text) : Text :=
  match t with
  | [] => []
  | c :: _ => if isCjk c then [c] else []

def cjkRepeat : Matcher Char := fun _ t => repeated (fun _ => some 0) (cjkAt t) t

def cjkSpacedRepeat : Matcher Char := fun _ t => repeated spacesAt (cjkAt t) t

def tokenRepeat (isWord : Char → Bool) : Matcher Char := fun prev t =>
  if (wordAt isWord prev t).length ≤ 4 then
    repeated (fun _ => some 0) (wordAt isWord prev t) t
  else none

def whitespace : Matcher Char := fun _ t => (spacesAt t).map fun n => (0, n)

def occurrence (w : Text) : Matcher Char := fun _ t =>
  if w ≠ [] ∧ w <+: t then some (0, w.length) else none

def defaultFillerWords : List Text :=
  ["嗯".toList, "啊".toList, "哦".toList, "呃".toList, "那个".toList, "就是".toList, "然后".toList,
    "这个".toList, "那個".toList, "這個".toList]

/-- `isWord` is what `\w` matches, which is any set of characters here. -/
structure RuleCleaner where
  isWord : Char → Bool
  fillerWords : List Text

def RuleCleaner.init (isWord : Char → Bool) (fillerWords : Option (List Text)) : RuleCleaner where
  isWord := isWord
  fillerWords := if (fillerWords.getD []).isEmpty then defaultFillerWords else fillerWords.getD []

def removeWordRepetitions (isWord : Char → Bool) (text : Text) : Text :=
  replace (wordRepeat isWord) [] text

def removeFillerWords (fillerWords : List Text) (text : Text) : Text :=
  fillerWords.foldl (fun cleaned word => replace (occurrence word) [] cleaned) text

def collapseAdjacentRepeats (isWord : Char → Bool) (text : Text) : Text :=
  replace (tokenRepeat isWord) [] (replace cjkSpacedRepeat [] (replace cjkRepeat [] text))

def normalizeWhitespace (text : Text) : Text := replace whitespace [' '] text

def RuleCleaner.clean (cleaner : RuleCleaner) (text : Text) : Text :=
  strip (normalizeWhitespace (collapseAdjacentRepeats cleaner.isWord
    (removeFillerWords cleaner.fillerWords (removeWordRepetitions cleaner.isWord text))))

def Deletes (matchAt : Matcher Char) : Prop :=
  ∀ prev t k n, matchAt prev t = some (k, n) → k < n ∧ n ≤ t.length

section Deleting

variable {matchAt : Matcher Char} (deletes : Deletes matchAt)

include deletes

theorem Deletes.sound : Sound matchAt := by
  intro prev t k n found
  obtain ⟨shorter, inside⟩ := deletes prev t k n found
  exact ⟨Nat.zero_lt_of_lt shorter, inside, Nat.le_of_lt shorter⟩

theorem Deletes.length_le (t : Text) : (replace matchAt [] t).length ≤ t.length := by
  have shrinks : Shrinks matchAt [] :=
    fun prev t k n found => Nat.le_of_lt (deletes prev t k n found).1
  exact length_replace_le deletes.sound shrinks t

theorem Deletes.of_length {t : Text} (same : (replace matchAt [] t).length = t.length) :
    replace matchAt [] t = t ∧ ∀ p < t.length, ∃ q, matchAt q (t.drop p) = none := by
  have shrinks (prev : Option Char) (t : Text) (k n : ℕ) (found : matchAt prev t = some (k, n)) :
      k + ([] : Text).length < n := (deletes prev t k n found).1
  exact replace_of_length deletes.sound shrinks same

theorem Deletes.mem {t : Text} {c : Char} (mem : c ∈ replace matchAt [] t) : c ∈ t :=
  (mem_replace deletes.sound mem).resolve_right List.not_mem_nil

end Deleting

theorem repeats_bounds {gapAt : Text → Option ℕ} {w : Text} (some_ : w ≠ []) (fuel : ℕ) (t : Text) :
    (repeats gapAt w fuel t).sum ≤ t.length ∧
      (repeats gapAt w fuel t).length ≤ (repeats gapAt w fuel t).sum := by
  induction fuel generalizing t with
  | zero => exact ⟨Nat.zero_le _, Nat.le_refl 0⟩
  | succ fuel ih =>
    rw [repeats]
    cases gapAt t with
    | none => exact ⟨Nat.zero_le _, Nat.le_refl 0⟩
    | some gap =>
      dsimp only
      split
      · rename_i here
        have positive := List.length_pos_iff.mpr some_
        have inside := here.length_le
        obtain ⟨total, count⟩ := ih (t.drop (gap + w.length))
        rw [List.length_drop] at inside total
        rw [List.sum_cons, List.length_cons]
        omega
      · exact ⟨Nat.zero_le _, Nat.le_refl 0⟩

theorem repeated_bounds {gapAt : Text → Option ℕ} {w t : Text} {k n : ℕ}
    (found : repeated gapAt w t = some (k, n)) : k < n ∧ n ≤ t.length := by
  unfold repeated at found
  dsimp only at found
  split at found
  · rename_i here
    obtain ⟨kept, whole⟩ := Prod.mk.inj (Option.some.inj found)
    have bounds := @repeats_bounds gapAt _ here.1 t.length (t.drop w.length)
    have inside := here.2.1.length_le
    rw [List.length_drop] at bounds
    omega
  · exact nomatch found

theorem wordRepeat_deletes (isWord : Char → Bool) : Deletes (wordRepeat isWord) :=
  fun _ _ _ _ found => repeated_bounds found

theorem cjkRepeat_deletes : Deletes cjkRepeat := fun _ _ _ _ found => repeated_bounds found

theorem cjkSpacedRepeat_deletes : Deletes cjkSpacedRepeat :=
  fun _ _ _ _ found => repeated_bounds found

theorem tokenRepeat_deletes (isWord : Char → Bool) : Deletes (tokenRepeat isWord) := by
  intro prev t k n found
  unfold tokenRepeat at found
  split at found
  · exact repeated_bounds found
  · exact nomatch found

theorem occurrence_deletes (w : Text) : Deletes (occurrence w) := by
  intro prev t k n found
  unfold occurrence at found
  split at found
  · rename_i here
    obtain ⟨kept, whole⟩ := Prod.mk.inj (Option.some.inj found)
    have positive := List.length_pos_iff.mpr here.1
    have inside := here.2.length_le
    omega
  · exact nomatch found

theorem not_infix_of_missed {w t : Text} (some_ : w ≠ [])
    (missed : ∀ p < t.length, ∃ q, occurrence w q (t.drop p) = none) : ¬w <:+: t := by
  rintro ⟨front, back, same⟩
  have positive := List.length_pos_iff.mpr some_
  have inside : front.length < t.length := by
    rw [← same, List.length_append, List.length_append]
    omega
  obtain ⟨q, none_⟩ := missed front.length inside
  have here : w <+: t.drop front.length := by
    rw [← same, List.append_assoc, List.drop_left]
    exact List.prefix_append w back
  rw [occurrence, if_pos ⟨some_, here⟩] at none_
  exact nomatch none_

theorem removeFillerWords_cons (w : Text) (ws : List Text) (t : Text) :
    removeFillerWords (w :: ws) t = removeFillerWords ws (replace (occurrence w) [] t) := rfl

theorem length_removeFillerWords_le (ws : List Text) (t : Text) :
    (removeFillerWords ws t).length ≤ t.length := by
  induction ws generalizing t with
  | nil => exact Nat.le_refl _
  | cons w ws ih =>
    rw [removeFillerWords_cons]
    exact Nat.le_trans (ih _) ((occurrence_deletes w).length_le t)

theorem removeFillerWords_of_length {ws : List Text} {t : Text}
    (same : (removeFillerWords ws t).length = t.length) :
    removeFillerWords ws t = t ∧ ∀ w ∈ ws, w ≠ [] → ¬w <:+: t := by
  induction ws generalizing t with
  | nil => exact ⟨rfl, nofun⟩
  | cons w ws ih =>
    rw [removeFillerWords_cons] at same ⊢
    have first := (occurrence_deletes w).length_le t
    have rest := length_removeFillerWords_le ws (replace (occurrence w) [] t)
    obtain ⟨unchanged, missed⟩ := (occurrence_deletes w).of_length (by omega : _ = t.length)
    rw [unchanged] at same ⊢
    obtain ⟨kept, absent⟩ := ih same
    exact ⟨kept, List.forall_mem_cons.mpr
      ⟨fun some_ => not_infix_of_missed some_ missed, absent⟩⟩

theorem mem_removeFillerWords {ws : List Text} {t : Text} {c : Char}
    (mem : c ∈ removeFillerWords ws t) : c ∈ t := by
  induction ws generalizing t with
  | nil => exact mem
  | cons w ws ih => exact (occurrence_deletes w).mem (ih mem)

theorem not_mem_occurrence (c : Char) (t : Text) : c ∉ replace (occurrence [c]) [] t := by
  have sound := (occurrence_deletes [c]).sound
  rw [replace]
  generalize none = prev
  induction prev, t using induction_on sound with
  | nil prev => exact List.not_mem_nil
  | same prev x xs none_ ih =>
    rw [pieces_none none_, List.flatMap_cons, Piece.target, List.singleton_append, List.mem_cons]
    rintro (here | later)
    · rw [occurrence, if_pos ⟨List.cons_ne_nil c [], by rw [here]; exact ⟨xs, rfl⟩⟩] at none_
      exact absurd none_ (Option.some_ne_none _)
    · exact ih later
  | cut prev t k n found ih =>
    obtain ⟨here, same⟩ := Option.ite_none_right_eq_some.mp found
    rw [pieces_some sound found, List.flatMap_cons, Piece.target, List.append_nil,
      ← (Prod.mk.inj (Option.some.inj same)).1]
    exact ih

theorem not_mem_removeFillerWords {ws : List Text} {c : Char} (listed : [c] ∈ ws) (t : Text) :
    c ∉ removeFillerWords ws t := by
  induction ws generalizing t with
  | nil => exact absurd listed List.not_mem_nil
  | cons w ws ih =>
    rw [removeFillerWords_cons]
    rcases List.mem_cons.mp listed with here | there
    · exact fun mem => not_mem_occurrence c t
        (by rw [← here] at mem; exact mem_removeFillerWords mem)
    · exact ih there _

theorem spacesAt_eq {t : Text} {n : ℕ} (found : spacesAt t = some n) :
    n = (t.takeWhile isSpace).length ∧ 0 < n := by
  unfold spacesAt at found
  split at found
  · exact nomatch found
  · rename_i c run same
    rw [same, ← Option.some.inj found]
    exact ⟨rfl, Nat.succ_pos run.length⟩

theorem whitespace_eq {q : Option Char} {t : Text} {k n : ℕ}
    (found : whitespace q t = some (k, n)) :
    k = 0 ∧ n = (t.takeWhile isSpace).length ∧ 0 < n := by
  obtain ⟨m, here, same⟩ := Option.map_eq_some_iff.mp found
  obtain ⟨kept, whole⟩ := Prod.mk.inj same
  subst whole
  exact ⟨kept.symm, spacesAt_eq here⟩

theorem whitespace_sound : Sound whitespace := by
  intro q t k n found
  obtain ⟨rfl, rfl, positive⟩ := whitespace_eq found
  exact ⟨positive, List.IsPrefix.length_le (List.takeWhile_prefix isSpace), Nat.zero_le _⟩

theorem whitespace_shrinks : Shrinks whitespace [' '] := by
  intro q t k n found
  obtain ⟨rfl, -, positive⟩ := whitespace_eq found
  exact positive

def Spaced (t : Text) : Prop := ∀ c ∈ t, isSpace c = true → c = ' '

theorem spaced_normalizeWhitespace (t : Text) : Spaced (normalizeWhitespace t) := by
  unfold normalizeWhitespace replace
  generalize none = prev
  induction prev, t using induction_on whitespace_sound with
  | nil prev => exact fun _ mem => absurd mem List.not_mem_nil
  | same prev x xs none_ ih =>
    rw [pieces_none none_, List.flatMap_cons, Piece.target, List.singleton_append]
    refine List.forall_mem_cons.mpr ⟨fun blank => ?_, ih⟩
    rw [whitespace, spacesAt, List.takeWhile_cons_of_pos blank] at none_
    exact absurd none_ (Option.some_ne_none _)
  | cut prev t k n found ih =>
    obtain ⟨rfl, -, -⟩ := whitespace_eq found
    rw [pieces_some whitespace_sound found, List.flatMap_cons, Piece.target, List.take_zero,
      List.nil_append, List.singleton_append]
    exact List.forall_mem_cons.mpr ⟨fun _ => rfl, ih⟩

theorem normalizeWhitespace_of_length {t : Text} (spaced : Spaced t)
    (same : (normalizeWhitespace t).length = t.length) : normalizeWhitespace t = t := by
  unfold normalizeWhitespace replace at *
  generalize none = prev at *
  induction prev, t using induction_on whitespace_sound with
  | nil prev => rfl
  | same prev x xs none_ ih =>
    rw [pieces_none none_, List.flatMap_cons, Piece.target, List.singleton_append] at same ⊢
    exact congrArg (x :: ·)
      (ih (fun c mem => spaced c (List.mem_cons_of_mem x mem)) (Nat.succ.inj same))
  | cut prev t k n found ih =>
    obtain ⟨rfl, run, positive⟩ := whitespace_eq found
    have rest := length_target_le whitespace_sound whitespace_shrinks (before prev t n) (t.drop n)
    have inside := (whitespace_sound _ _ _ _ found).2.1
    rw [pieces_some whitespace_sound found, List.flatMap_cons, Piece.target, List.take_zero,
      List.nil_append, List.singleton_append] at same ⊢
    rw [List.length_cons] at same
    rw [List.length_drop] at rest
    have one : n = 1 := by omega
    subst one
    cases t with
    | nil => exact absurd inside (Nat.not_succ_le_zero 0)
    | cons c t =>
      have blank : isSpace c = true := by
        cases here : isSpace c with
        | true => rfl
        | false =>
          rw [List.takeWhile_cons_of_neg (Bool.eq_false_iff.mp here)] at run
          exact absurd run Nat.one_ne_zero
      obtain rfl := spaced c List.mem_cons_self blank
      exact congrArg (' ' :: ·)
        (ih (fun x mem => spaced x (List.mem_cons_of_mem _ mem)) (Nat.succ.inj same))

theorem strip_within (t : Text) : strip t <:+: t :=
  (List.rdropWhile_prefix isSpace _).isInfix.trans (List.dropWhile_suffix isSpace).isInfix

section Passes

variable (cleaner : RuleCleaner) (t : Text)

def RuleCleaner.reduced : Text :=
  collapseAdjacentRepeats cleaner.isWord
    (removeFillerWords cleaner.fillerWords (removeWordRepetitions cleaner.isWord t))

theorem clean_eq : cleaner.clean t = strip (normalizeWhitespace (cleaner.reduced t)) := rfl

theorem length_collapse_le (isWord : Char → Bool) :
    (collapseAdjacentRepeats isWord t).length ≤ t.length :=
  Nat.le_trans ((tokenRepeat_deletes isWord).length_le _)
    (Nat.le_trans (cjkSpacedRepeat_deletes.length_le _) (cjkRepeat_deletes.length_le t))

theorem collapse_of_length {isWord : Char → Bool} {t : Text}
    (same : (collapseAdjacentRepeats isWord t).length = t.length) :
    collapseAdjacentRepeats isWord t = t := by
  unfold collapseAdjacentRepeats at *
  have third := (tokenRepeat_deletes isWord).length_le
    (replace cjkSpacedRepeat [] (replace cjkRepeat [] t))
  have second := cjkSpacedRepeat_deletes.length_le (replace cjkRepeat [] t)
  have first := cjkRepeat_deletes.length_le t
  rw [((tokenRepeat_deletes isWord).of_length (by omega)).1,
    (cjkSpacedRepeat_deletes.of_length (by omega)).1, (cjkRepeat_deletes.of_length (by omega)).1]

theorem length_reduced_le : (cleaner.reduced t).length ≤ t.length :=
  Nat.le_trans (length_collapse_le _ cleaner.isWord)
    (Nat.le_trans (length_removeFillerWords_le cleaner.fillerWords _)
      ((wordRepeat_deletes cleaner.isWord).length_le t))

theorem reduced_of_length {cleaner : RuleCleaner} {t : Text}
    (same : (cleaner.reduced t).length = t.length) :
    cleaner.reduced t = t ∧ ∀ w ∈ cleaner.fillerWords, w ≠ [] → ¬w <:+: t := by
  unfold RuleCleaner.reduced at *
  have third := length_collapse_le
    (removeFillerWords cleaner.fillerWords (removeWordRepetitions cleaner.isWord t)) cleaner.isWord
  have second := length_removeFillerWords_le cleaner.fillerWords
    (removeWordRepetitions cleaner.isWord t)
  have first := (wordRepeat_deletes cleaner.isWord).length_le t
  change (removeWordRepetitions cleaner.isWord t).length ≤ t.length at first
  have words : removeWordRepetitions cleaner.isWord t = t :=
    ((wordRepeat_deletes cleaner.isWord).of_length (by
      change (removeWordRepetitions cleaner.isWord t).length = t.length
      omega)).1
  rw [collapse_of_length (by omega), words]
  rw [words] at second third same
  exact removeFillerWords_of_length (by omega)

theorem length_normalize_le : (normalizeWhitespace t).length ≤ t.length :=
  length_replace_le whitespace_sound whitespace_shrinks t

theorem length_clean_le : (cleaner.clean t).length ≤ t.length :=
  Nat.le_trans (strip_within _).length_le
    (Nat.le_trans (length_normalize_le _) (length_reduced_le cleaner t))

theorem no_filler_of_length {cleaner : RuleCleaner} {t : Text}
    (same : (cleaner.clean t).length = t.length) :
    ∀ w ∈ cleaner.fillerWords, w ≠ [] → ¬w <:+: t := by
  rw [clean_eq] at same
  have last := (strip_within (normalizeWhitespace (cleaner.reduced t))).length_le
  have spaces := length_normalize_le (cleaner.reduced t)
  have first := length_reduced_le cleaner t
  exact (reduced_of_length (by omega)).2

theorem spaced_clean : Spaced (cleaner.clean t) :=
  fun c mem => spaced_normalizeWhitespace _ c ((strip_within _).subset mem)

theorem clean_of_length {cleaner : RuleCleaner} {t : Text} (spaced : Spaced t)
    (same : (cleaner.clean t).length = t.length) : cleaner.clean t = t := by
  rw [clean_eq] at *
  have last := (strip_within (normalizeWhitespace (cleaner.reduced t))).length_le
  have spaces := length_normalize_le (cleaner.reduced t)
  have first := length_reduced_le cleaner t
  have reduced := (reduced_of_length (by omega : (cleaner.reduced t).length = t.length)).1
  rw [reduced] at same last spaces ⊢
  have normal := normalizeWhitespace_of_length spaced (by omega)
  rw [normal] at same ⊢
  exact (strip_within t).sublist.eq_of_length same

theorem mem_clean {cleaner : RuleCleaner} {t : Text} {c : Char} (mem : c ∈ cleaner.clean t) :
    c ∈ removeFillerWords cleaner.fillerWords (removeWordRepetitions cleaner.isWord t) ∨
      c = ' ' := by
  rcases mem_replace whitespace_sound ((strip_within _).subset mem) with reduced | space
  · exact .inl (cjkRepeat_deletes.mem (cjkSpacedRepeat_deletes.mem
      ((tokenRepeat_deletes cleaner.isWord).mem reduced)))
  · exact .inr (List.mem_singleton.mp space)

end Passes

theorem clean_settles (cleaner : RuleCleaner) (n : ℕ) {t : Text} (spaced : Spaced t)
    (short : t.length ≤ n) : cleaner.clean (cleaner.clean^[n] t) = cleaner.clean^[n] t := by
  induction n generalizing t with
  | zero =>
    rw [List.length_eq_zero_iff.mp (Nat.le_zero.mp short)]
    exact List.length_eq_zero_iff.mp (Nat.le_zero.mp (length_clean_le cleaner []))
  | succ n ih =>
    rw [Function.iterate_succ_apply]
    by_cases same : (cleaner.clean t).length = t.length
    · have fixed := clean_of_length spaced same
      rw [fixed, Function.iterate_fixed fixed]
      exact fixed
    · have smaller := length_clean_le cleaner t
      exact ih (spaced_clean cleaner t) (by omega)

/-- What a pass and what repeated passes leave of a text. -/
structure Cleaned (cleaner : RuleCleaner) (t : Text) : Prop where
  shorter : (cleaner.clean t).length ≤ t.length
  characters : ∀ c, [c] ∈ cleaner.fillerWords → isSpace c = false → c ∉ cleaner.clean t
  fixed : cleaner.clean t = t → ∀ w ∈ cleaner.fillerWords, w ≠ [] → ¬w <:+: t
  settles : ∃ n ≤ t.length + 1, cleaner.clean (cleaner.clean^[n] t) = cleaner.clean^[n] t ∧
    ∀ w ∈ cleaner.fillerWords, w ≠ [] → ¬w <:+: cleaner.clean^[n] t

/-- Every text is cleaned so, by every cleaner. -/
theorem clean_cleaned (cleaner : RuleCleaner) (t : Text) : Cleaned cleaner t where
  shorter := length_clean_le cleaner t
  characters := by
    intro c listed visible mem
    rcases mem_clean mem with kept | space
    · exact not_mem_removeFillerWords listed _ kept
    · rw [space] at visible
      exact absurd visible (by decide)
  fixed same := no_filler_of_length (congrArg List.length same)
  settles := by
    have settled := clean_settles cleaner t.length (spaced_clean cleaner t)
      (length_clean_le cleaner t)
    exact ⟨t.length + 1, Nat.le_refl _, settled, no_filler_of_length (congrArg List.length settled)⟩

def chineseCleaner : RuleCleaner := .init (fun c => c.isAlphanum || isCjk c) none

/-- What surrounds a removed filler word can be another one, and a second pass removes it. -/
theorem nested_filler_left :
    chineseCleaner.clean "那那个个".toList = "那个".toList ∧
      "那个".toList ∈ chineseCleaner.fillerWords ∧
      chineseCleaner.clean (chineseCleaner.clean "那那个个".toList) ≠
        chineseCleaner.clean "那那个个".toList := by
  decide +kernel

end KnowledgeCompanion.TextRules
