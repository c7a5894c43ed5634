import Mathlib.Tactic.Common
import Mathlib.Data.List.Basic

/-! A list is searched from left to right for matches that do not overlap; each match keeps a
first part of itself, and a mark takes the place of the rest. A matcher also sees the element
before the position where it is tried. -/

namespace KnowledgeCompanion.Replacement

variable {α : Type}

/-- How much of a match at the head of a list is kept, and how long the match is. -/
abbrev Matcher (α : Type) := Option α → List α → Option (ℕ × ℕ)

def Sound (matchAt : Matcher α) : Prop :=
  ∀ prev t k n, matchAt prev t = some (k, n) → 0 < n ∧ n ≤ t.length ∧ k ≤ n

inductive Piece (α : Type)
  | same (x : α)
  | cut (kept removed : List α)
deriving DecidableEq

def Piece.source : Piece α → List α
  | .same x => [x]
  | .cut kept removed => kept ++ removed

def Piece.target (mark : List α) : Piece α → List α
  | .same x => [x]
  | .cut kept _ => kept ++ mark

/-- The pieces of a list whose next `skip` elements belong to the last match. -/
def piecesFrom (matchAt : Matcher α) : ℕ → Option α → List α → List (Piece α)
  | _, _, [] => []
  | skip + 1, _, x :: xs => piecesFrom matchAt skip (some x) xs
  | 0, prev, x :: xs =>
    match matchAt prev (x :: xs) with
    | none => .same x :: piecesFrom matchAt 0 (some x) xs
    | some (k, n) =>
      .cut ((x :: xs).take k) (((x :: xs).take n).drop k) ::
        piecesFrom matchAt (n - 1) (some x) xs

def pieces (matchAt : Matcher α) (prev : Option α) (t : List α) : List (Piece α) :=
  piecesFrom matchAt 0 prev t

def replace (matchAt : Matcher α) (mark t : List α) : List α :=
  (pieces matchAt none t).flatMap (Piece.target mark)

def before (prev : Option α) (t : List α) : ℕ → Option α
  | 0 => prev
  | n + 1 =>
    match t with
    | [] => prev
    | x :: xs => before (some x) xs n

theorem before_zero (prev : Option α) (t : List α) : before prev t 0 = prev := by
  cases t <;> rfl

theorem piecesFrom_skip (matchAt : Matcher α) (skip : ℕ) (prev : Option α) (t : List α) :
    piecesFrom matchAt skip prev t = pieces matchAt (before prev t skip) (t.drop skip) := by
  induction skip generalizing prev t with
  | zero => rw [before_zero, List.drop_zero, pieces]
  | succ skip ih =>
    cases t with
    | nil => rfl
    | cons x xs => exact ih (some x) xs

theorem pieces_none {matchAt : Matcher α} {prev : Option α} {x : α} {xs : List α}
    (none_ : matchAt prev (x :: xs) = none) :
    pieces matchAt prev (x :: xs) = .same x :: pieces matchAt (some x) xs := by
  rw [pieces, piecesFrom, none_]
  rfl

theorem pieces_some {matchAt : Matcher α} (sound : Sound matchAt) {prev : Option α} {t : List α}
    {k n : ℕ} (found : matchAt prev t = some (k, n)) :
    pieces matchAt prev t =
      .cut (t.take k) ((t.take n).drop k) :: pieces matchAt (before prev t n) (t.drop n) := by
  obtain ⟨positive, inside, -⟩ := sound _ _ _ _ found
  cases t with
  | nil => exact absurd (Nat.lt_of_lt_of_le positive inside) (Nat.lt_irrefl 0)
  | cons x xs =>
    obtain ⟨n, rfl⟩ := Nat.exists_eq_succ_of_ne_zero (Nat.pos_iff_ne_zero.mp positive)
    rw [pieces, piecesFrom, found]
    exact congrArg _ (piecesFrom_skip matchAt n (some x) xs)

theorem induction_on {matchAt : Matcher α} (sound : Sound matchAt)
    {P : Option α → List α → Prop} (nil : ∀ prev, P prev [])
    (same : ∀ prev x xs, matchAt prev (x :: xs) = none → P (some x) xs → P prev (x :: xs))
    (cut : ∀ prev t k n, matchAt prev t = some (k, n) → P (before prev t n) (t.drop n) → P prev t)
    (prev : Option α) (t : List α) : P prev t := by
  induction h : t.length using Nat.strongRecOn generalizing prev t with
  | _ size ih =>
    cases t with
    | nil => exact nil prev
    | cons x xs =>
      cases found : matchAt prev (x :: xs) with
      | none =>
        rw [List.length_cons] at h
        exact same prev x xs found (ih xs.length (by omega) (some x) xs rfl)
      | some m =>
        obtain ⟨k, n⟩ := m
        obtain ⟨positive, inside, -⟩ := sound _ _ _ _ found
        refine cut prev (x :: xs) k n found (ih ((x :: xs).drop n).length ?_ _ _ rfl)
        rw [List.length_drop]
        omega

theorem take_append_part {t : List α} {k n : ℕ} (le : k ≤ n) :
    t.take k ++ (t.take n).drop k = t.take n := by
  have whole := List.take_append_drop k (t.take n)
  rwa [List.take_take, Nat.min_eq_left le] at whole

theorem pieces_source {matchAt : Matcher α} (sound : Sound matchAt) (prev : Option α)
    (t : List α) : (pieces matchAt prev t).flatMap Piece.source = t := by
  induction prev, t using induction_on sound with
  | nil prev => rfl
  | same prev x xs none_ ih => rw [pieces_none none_, List.flatMap_cons, ih]; rfl
  | cut prev t k n found ih =>
    rw [pieces_some sound found, List.flatMap_cons, ih, Piece.source,
      take_append_part (sound _ _ _ _ found).2.2, List.take_append_drop]

/-- A match with its bounds; the part before `kept` stays. -/
structure Cut where
  start : ℕ
  kept : ℕ
  stop : ℕ
deriving DecidableEq

def cutsFrom : ℕ → List (Piece α) → List Cut
  | _, [] => []
  | pos, .same _ :: ps => cutsFrom (pos + 1) ps
  | pos, .cut kept removed :: ps =>
    ⟨pos, pos + kept.length, pos + (kept.length + removed.length)⟩ ::
      cutsFrom (pos + (kept.length + removed.length)) ps

def cuts (matchAt : Matcher α) (t : List α) : List Cut := cutsFrom 0 (pieces matchAt none t)

def Removed (matchAt : Matcher α) (t : List α) (p : ℕ) : Prop :=
  ∃ c ∈ cuts matchAt t, c.kept ≤ p ∧ p < c.stop

instance (matchAt : Matcher α) (t : List α) (p : ℕ) : Decidable (Removed matchAt t p) :=
  inferInstanceAs (Decidable (∃ c ∈ cuts matchAt t, c.kept ≤ p ∧ p < c.stop))

theorem length_cut {matchAt : Matcher α} (sound : Sound matchAt) {prev : Option α} {t : List α}
    {k n : ℕ} (found : matchAt prev t = some (k, n)) :
    (t.take k).length = k ∧ (t.take k).length + ((t.take n).drop k).length = n := by
  obtain ⟨-, inside, kept⟩ := sound _ _ _ _ found
  rw [List.length_drop, List.length_take, List.length_take]
  omega

theorem cuts_above {pos : ℕ} {ps : List (Piece α)} {c : Cut} (mem : c ∈ cutsFrom pos ps) :
    pos ≤ c.start ∧ c.start ≤ c.kept := by
  induction ps generalizing pos with
  | nil => exact absurd mem List.not_mem_nil
  | cons piece ps ih =>
    cases piece with
    | same x =>
      have rest := ih mem
      exact ⟨Nat.le_of_succ_le rest.1, rest.2⟩
    | cut kept removed =>
      rcases List.mem_cons.mp mem with here | there
      · rw [here]
        exact ⟨Nat.le_refl pos, Nat.le_add_right pos kept.length⟩
      · have rest := ih there
        exact ⟨Nat.le_trans (Nat.le_add_right _ _) rest.1, rest.2⟩

theorem cutsFrom_match {matchAt : Matcher α} (sound : Sound matchAt) {prev : Option α}
    {t : List α} {pos : ℕ} {c : Cut} (mem : c ∈ cutsFrom pos (pieces matchAt prev t)) :
    ∃ q, matchAt q (t.drop (c.start - pos)) = some (c.kept - c.start, c.stop - c.start) := by
  induction prev, t using induction_on sound generalizing pos with
  | nil prev => exact absurd mem List.not_mem_nil
  | same prev x xs none_ ih =>
    rw [pieces_none none_, cutsFrom] at mem
    obtain ⟨q, found⟩ := ih mem
    have above := (cuts_above mem).1
    refine ⟨q, ?_⟩
    rw [show c.start - pos = c.start - (pos + 1) + 1 by omega, List.drop_succ_cons]
    exact found
  | cut prev t k n found ih =>
    obtain ⟨kept, whole⟩ := length_cut sound found
    rw [pieces_some sound found, cutsFrom, whole, kept] at mem
    rcases List.mem_cons.mp mem with here | there
    · refine ⟨prev, ?_⟩
      rw [here]
      simpa using found
    · obtain ⟨q, later⟩ := ih there
      have above := (cuts_above there).1
      refine ⟨q, ?_⟩
      rw [List.drop_drop] at later
      rw [show c.start - pos = n + (c.start - (pos + n)) by omega]
      exact later

theorem cutsFrom_cover {matchAt : Matcher α} (sound : Sound matchAt) {prev : Option α}
    {t : List α} {pos p : ℕ} (above : pos ≤ p) (below : p < pos + t.length) :
    (∃ c ∈ cutsFrom pos (pieces matchAt prev t), c.start ≤ p ∧ p < c.stop) ∨
      ∃ q, matchAt q (t.drop (p - pos)) = none := by
  induction prev, t using induction_on sound generalizing pos with
  | nil prev => exact absurd below (Nat.not_lt.mpr above)
  | same prev x xs none_ ih =>
    rw [pieces_none none_]
    by_cases here : p = pos
    · refine .inr ⟨prev, ?_⟩
      rw [here, Nat.sub_self]
      exact none_
    · rw [List.length_cons] at below
      rcases ih (show pos + 1 ≤ p by omega) (by omega) with covered | ⟨q, missed⟩
      · exact .inl covered
      · refine .inr ⟨q, ?_⟩
        rw [show p - pos = p - (pos + 1) + 1 by omega, List.drop_succ_cons]
        exact missed
  | cut prev t k n found ih =>
    obtain ⟨kept, whole⟩ := length_cut sound found
    rw [pieces_some sound found, cutsFrom, whole, kept]
    by_cases inside : p < pos + n
    · exact .inl ⟨_, List.mem_cons_self, above, inside⟩
    · rcases ih (show pos + n ≤ p by omega) (by rw [List.length_drop]; omega) with
        ⟨c, mem, covered⟩ | ⟨q, missed⟩
      · exact .inl ⟨c, List.mem_cons_of_mem _ mem, covered⟩
      · refine .inr ⟨q, ?_⟩
        rw [List.drop_drop] at missed
        rw [show p - pos = n + (p - (pos + n)) by omega]
        exact missed

/-- Where an element of the result comes from: a position of the list, or a mark. -/
inductive Origin (α : Type)
  | copied (p : ℕ) (x : α)
  | written (x : α)
deriving DecidableEq

def Origin.symbol : Origin α → α
  | .copied _ x | .written x => x

def copies (pos : ℕ) (t : List α) : List (Origin α) :=
  (t.zipIdx pos).map fun e => .copied e.2 e.1

def originsFrom (mark : List α) : ℕ → List (Piece α) → List (Origin α)
  | _, [] => []
  | pos, .same x :: ps => .copied pos x :: originsFrom mark (pos + 1) ps
  | pos, .cut kept removed :: ps =>
    copies pos kept ++ (mark.map .written ++
      originsFrom mark (pos + (kept.length + removed.length)) ps)

def origins (matchAt : Matcher α) (mark t : List α) : List (Origin α) :=
  originsFrom mark 0 (pieces matchAt none t)

theorem copies_symbols (pos : ℕ) (t : List α) : (copies pos t).map Origin.symbol = t := by
  rw [copies, List.map_map]
  exact List.zipIdx_map_fst pos t

theorem originsFrom_symbols (mark : List α) (pos : ℕ) (ps : List (Piece α)) :
    (originsFrom mark pos ps).map Origin.symbol = ps.flatMap (Piece.target mark) := by
  induction ps generalizing pos with
  | nil => rfl
  | cons piece ps ih =>
    cases piece with
    | same x =>
      rw [originsFrom, List.map_cons, ih, List.flatMap_cons]
      rfl
    | cut kept removed =>
      have marks : (mark.map Origin.written).map Origin.symbol = mark := by
        rw [List.map_map]
        exact List.map_id mark
      rw [originsFrom, List.map_append, List.map_append, ih, copies_symbols, marks,
        List.flatMap_cons, Piece.target, List.append_assoc]

theorem origins_symbols (matchAt : Matcher α) (mark t : List α) :
    (origins matchAt mark t).map Origin.symbol = replace matchAt mark t :=
  originsFrom_symbols mark 0 _

theorem mem_copies {pos p : ℕ} {t : List α} {x : α} :
    .copied p x ∈ copies pos t ↔ pos ≤ p ∧ t[p - pos]? = some x := by
  unfold copies
  simp only [List.mem_map, Prod.exists, Origin.copied.injEq,
    List.mk_mem_zipIdx_iff_le_and_getElem?_sub]
  aesop

theorem uncovered_early {pos p : ℕ} (ps : List (Piece α)) (early : p < pos) :
    ¬∃ c ∈ cutsFrom pos ps, c.kept ≤ p ∧ p < c.stop := by
  rintro ⟨c, mem, kept, -⟩
  have above := cuts_above mem
  omega

/-- The symbol at a position stays under the pieces from `pos` on. -/
def Stays (pos : ℕ) (ps : List (Piece α)) (p : ℕ) (x : α) : Prop :=
  pos ≤ p ∧ (ps.flatMap Piece.source)[p - pos]? = some x ∧
    ¬∃ c ∈ cutsFrom pos ps, c.kept ≤ p ∧ p < c.stop

theorem stays_same {pos p : ℕ} {y x : α} {ps : List (Piece α)} :
    Stays pos (.same y :: ps) p x ↔ p = pos ∧ x = y ∨ Stays (pos + 1) ps p x := by
  unfold Stays
  rw [cutsFrom, List.flatMap_cons, Piece.source, List.singleton_append]
  by_cases here : p = pos
  · rw [here, Nat.sub_self, List.getElem?_cons_zero]
    constructor
    · rintro ⟨-, same, -⟩
      exact .inl ⟨rfl, (Option.some.inj same).symm⟩
    · rintro (⟨-, rfl⟩ | later)
      · exact ⟨Nat.le_refl pos, rfl, uncovered_early ps (Nat.lt_succ_self pos)⟩
      · exact absurd later.1 (Nat.not_succ_le_self pos)
  · rw [or_iff_right fun first => here first.1]
    by_cases above : pos + 1 ≤ p
    · rw [show p - pos = p - (pos + 1) + 1 by omega, List.getElem?_cons_succ,
        and_iff_right above, and_iff_right (Nat.le_of_succ_le above)]
    · exact iff_of_false (fun h => above (by omega)) fun later => above later.1

theorem stays_kept {pos p : ℕ} {kept removed : List α} {x : α} {ps : List (Piece α)}
    (early : p < pos + kept.length) :
    Stays pos (.cut kept removed :: ps) p x ↔ pos ≤ p ∧ kept[p - pos]? = some x := by
  unfold Stays
  rw [cutsFrom, List.flatMap_cons, Piece.source, List.append_assoc]
  refine and_congr_right fun above => ?_
  rw [List.getElem?_append_left (by omega)]
  refine and_iff_left ?_
  rintro ⟨c, mem, covered⟩
  rcases List.mem_cons.mp mem with this | later
  · rw [this] at covered
    exact Nat.not_lt.mpr covered.1 early
  · exact uncovered_early ps (by omega) ⟨c, later, covered⟩

theorem not_stays_removed {pos p : ℕ} {kept removed : List α} {x : α} {ps : List (Piece α)}
    (late : pos + kept.length ≤ p) (inside : p < pos + (kept.length + removed.length)) :
    ¬Stays pos (.cut kept removed :: ps) p x :=
  fun h => h.2.2 ⟨_, List.mem_cons_self, late, inside⟩

theorem stays_behind {pos p : ℕ} {kept removed : List α} {x : α} {ps : List (Piece α)}
    (behind : pos + (kept.length + removed.length) ≤ p) :
    Stays pos (.cut kept removed :: ps) p x ↔
      Stays (pos + (kept.length + removed.length)) ps p x := by
  unfold Stays
  rw [cutsFrom, List.flatMap_cons, Piece.source, List.append_assoc,
    List.getElem?_append_right (by omega), List.getElem?_append_right (by omega),
    show p - pos - kept.length - removed.length =
      p - (pos + (kept.length + removed.length)) by omega,
    and_iff_right behind, and_iff_right (by omega : pos ≤ p)]
  refine and_congr_right fun _ => not_congr ⟨?_, ?_⟩
  · rintro ⟨c, mem, covered⟩
    rcases List.mem_cons.mp mem with this | later
    · rw [this] at covered
      exact absurd covered.2 (Nat.not_lt.mpr behind)
    · exact ⟨c, later, covered⟩
  · rintro ⟨c, mem, covered⟩
    exact ⟨c, List.mem_cons_of_mem _ mem, covered⟩

theorem stays_cut {pos p : ℕ} {kept removed : List α} {x : α} {ps : List (Piece α)} :
    Stays pos (.cut kept removed :: ps) p x ↔
      (pos ≤ p ∧ kept[p - pos]? = some x) ∨
        Stays (pos + (kept.length + removed.length)) ps p x := by
  by_cases early : p < pos + kept.length
  · rw [stays_kept early, or_iff_left fun later => Nat.not_lt.mpr later.1 (by omega)]
  · have outside : kept[p - pos]? = none := List.getElem?_eq_none (by omega)
    rw [outside, or_iff_right fun first => absurd first.2.symm (Option.some_ne_none x)]
    by_cases inside : p < pos + (kept.length + removed.length)
    · exact iff_of_false (not_stays_removed (Nat.not_lt.mp early) inside)
        fun later => Nat.not_lt.mpr later.1 inside
    · exact stays_behind (Nat.not_lt.mp inside)

theorem mem_originsFrom (mark : List α) {pos p : ℕ} {ps : List (Piece α)} {x : α} :
    .copied p x ∈ originsFrom mark pos ps ↔ Stays pos ps p x := by
  induction ps generalizing pos with
  | nil => simp [originsFrom, Stays]
  | cons piece ps ih =>
    cases piece with
    | same y => rw [originsFrom, List.mem_cons, ih, stays_same, Origin.copied.injEq]
    | cut kept removed =>
      have unwritten : ¬Origin.copied p x ∈ mark.map .written := by
        intro mem
        obtain ⟨_, -, same⟩ := List.mem_map.mp mem
        cases same
      rw [originsFrom, List.mem_append, List.mem_append, or_iff_right unwritten, ih, mem_copies,
        stays_cut]

theorem mem_origins {matchAt : Matcher α} (sound : Sound matchAt) (mark : List α) {t : List α}
    {p : ℕ} {x : α} :
    .copied p x ∈ origins matchAt mark t ↔ t[p]? = some x ∧ ¬Removed matchAt t p := by
  rw [origins, mem_originsFrom, Stays, pieces_source sound, Nat.sub_zero,
    and_iff_right (Nat.zero_le p)]
  rfl

theorem cut_match {matchAt : Matcher α} (sound : Sound matchAt) {t : List α} {c : Cut}
    (mem : c ∈ cuts matchAt t) :
    ∃ q, matchAt q (t.drop c.start) = some (c.kept - c.start, c.stop - c.start) :=
  cutsFrom_match sound mem

theorem cut_bounds {matchAt : Matcher α} (sound : Sound matchAt) {t : List α} {c : Cut}
    (mem : c ∈ cuts matchAt t) : c.start ≤ c.kept ∧ c.kept ≤ c.stop ∧ c.stop ≤ t.length := by
  obtain ⟨q, found⟩ := cut_match sound mem
  obtain ⟨positive, inside, kept⟩ := sound _ _ _ _ found
  have above := (cuts_above mem).2
  rw [List.length_drop] at inside
  omega

theorem cut_of_match {matchAt : Matcher α} (sound : Sound matchAt) {t : List α} {p : ℕ}
    (below : p < t.length) (found : ∀ q, matchAt q (t.drop p) ≠ none) :
    ∃ c ∈ cuts matchAt t, c.start ≤ p ∧ p < c.stop := by
  have cover : (∃ c ∈ cuts matchAt t, c.start ≤ p ∧ p < c.stop) ∨
      ∃ q, matchAt q (t.drop (p - 0)) = none :=
    cutsFrom_cover sound (Nat.zero_le p) (by omega)
  rcases cover with covered | ⟨q, missed⟩
  · exact covered
  · exact absurd missed (found q)

def Shrinks (matchAt : Matcher α) (mark : List α) : Prop :=
  ∀ prev t k n, matchAt prev t = some (k, n) → k + mark.length ≤ n

theorem length_target_le {matchAt : Matcher α} (sound : Sound matchAt) {mark : List α}
    (shrinks : Shrinks matchAt mark) (prev : Option α) (t : List α) :
    ((pieces matchAt prev t).flatMap (Piece.target mark)).length ≤ t.length := by
  induction prev, t using induction_on sound with
  | nil prev => exact Nat.le_refl 0
  | same prev x xs none_ ih =>
    rw [pieces_none none_, List.flatMap_cons, Piece.target, List.singleton_append]
    exact Nat.succ_le_succ ih
  | cut prev t k n found ih =>
    obtain ⟨kept, whole⟩ := length_cut sound found
    have inside := (sound _ _ _ _ found).2.1
    have smaller := shrinks _ _ _ _ found
    rw [pieces_some sound found, List.flatMap_cons, Piece.target, List.length_append,
      List.length_append, kept]
    rw [List.length_drop] at ih
    omega

theorem length_replace_le {matchAt : Matcher α} (sound : Sound matchAt) {mark : List α}
    (shrinks : Shrinks matchAt mark) (t : List α) :
    (replace matchAt mark t).length ≤ t.length := length_target_le sound shrinks none t

theorem mem_target {matchAt : Matcher α} {mark : List α} (sound : Sound matchAt)
    {prev : Option α} {t : List α} {x : α}
    (mem : x ∈ (pieces matchAt prev t).flatMap (Piece.target mark)) : x ∈ t ∨ x ∈ mark := by
  induction prev, t using induction_on sound with
  | nil prev => exact absurd mem List.not_mem_nil
  | same prev y xs none_ ih =>
    rw [pieces_none none_, List.flatMap_cons, Piece.target, List.singleton_append] at mem
    rcases List.mem_cons.mp mem with here | later
    · exact .inl (here ▸ List.mem_cons_self)
    · exact (ih later).imp_left (List.mem_cons_of_mem y)
  | cut prev t k n found ih =>
    rw [pieces_some sound found, List.flatMap_cons, Piece.target] at mem
    rcases List.mem_append.mp mem with here | later
    · exact (List.mem_append.mp here).imp_left List.mem_of_mem_take
    · exact (ih later).imp_left List.mem_of_mem_drop

theorem mem_replace {matchAt : Matcher α} {mark : List α} (sound : Sound matchAt) {t : List α}
    {x : α} (mem : x ∈ replace matchAt mark t) : x ∈ t ∨ x ∈ mark := mem_target sound mem

theorem target_of_length {matchAt : Matcher α} (sound : Sound matchAt) {mark : List α}
    (shrinks : ∀ prev t k n, matchAt prev t = some (k, n) → k + mark.length < n)
    {prev : Option α} {t : List α}
    (same : ((pieces matchAt prev t).flatMap (Piece.target mark)).length = t.length) :
    (pieces matchAt prev t).flatMap (Piece.target mark) = t ∧
      ∀ p < t.length, ∃ q, matchAt q (t.drop p) = none := by
  have smaller : Shrinks matchAt mark :=
    fun prev t k n found => Nat.le_of_lt (shrinks prev t k n found)
  induction prev, t using induction_on sound with
  | nil prev => exact ⟨rfl, nofun⟩
  | same prev x xs none_ ih =>
    rw [pieces_none none_, List.flatMap_cons, Piece.target, List.singleton_append] at same ⊢
    obtain ⟨unchanged, missed⟩ := ih (Nat.succ.inj same)
    refine ⟨congrArg (x :: ·) unchanged, fun p below => ?_⟩
    cases p with
    | zero => exact ⟨prev, none_⟩
    | succ p => exact missed p (Nat.lt_of_succ_lt_succ below)
  | cut prev t k n found ih =>
    obtain ⟨kept, whole⟩ := length_cut sound found
    have inside := (sound _ _ _ _ found).2.1
    have shorter := shrinks _ _ _ _ found
    have rest := length_target_le sound smaller (before prev t n) (t.drop n)
    rw [pieces_some sound found, List.flatMap_cons, Piece.target, List.length_append,
      List.length_append, kept] at same
    rw [List.length_drop] at rest
    omega

theorem replace_of_length {matchAt : Matcher α} (sound : Sound matchAt) {mark : List α}
    (shrinks : ∀ prev t k n, matchAt prev t = some (k, n) → k + mark.length < n) {t : List α}
    (same : (replace matchAt mark t).length = t.length) :
    replace matchAt mark t = t ∧ ∀ p < t.length, ∃ q, matchAt q (t.drop p) = none :=
  target_of_length sound shrinks same

end KnowledgeCompanion.Replacement
