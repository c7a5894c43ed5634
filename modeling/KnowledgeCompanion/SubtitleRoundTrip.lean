import KnowledgeCompanion.SrtGenerator
import KnowledgeCompanion.SubtitleParser

/-! Generated subtitles read back by the client. -/

namespace KnowledgeCompanion.SubtitleRoundTrip

open Binary64 SegmentMerger SrtGenerator DartText SubtitleParser

theorem padded_digits {width n : ℕ} {c : Char} (mem : c ∈ padded width n) : c.isDigit = true := by
  rcases List.mem_append.mp mem with zero | digit
  · rw [List.eq_of_mem_replicate zero]
    rfl
  · exact Nat.isDigit_of_mem_toDigits (by decide) (by decide) digit

theorem padded_ne_nil (width n : ℕ) : padded width n ≠ [] :=
  List.append_ne_nil_of_right_ne_nil _ Nat.toDigits_ne_nil

theorem decimalDigits_padded (width n : ℕ) : decimalDigits (padded width n) = some n := by
  have digits : (padded width n).all Char.isDigit = true :=
    List.all_eq_true.mpr fun c mem => padded_digits mem
  have value : Nat.ofDigitChars 10 (padded width n) 0 = n := by
    unfold padded List.leftpad
    rw [Nat.ofDigitChars_append, Nat.ofDigitChars_replicate_zero, Nat.mul_zero]
    exact Nat.ofDigitChars_ten_toDigits
  unfold decimalDigits
  rw [if_pos ⟨padded_ne_nil width n, digits⟩, value]

theorem digit_ne {c d : Char} (digit : c.isDigit = true) (other : d.isDigit = false) : c ≠ d := by
  rintro rfl
  rw [digit] at other
  exact Bool.false_ne_true other.symm

theorem digit_visible {c : Char} (digit : c.isDigit = true) : isWhitespace c = false := by
  obtain ⟨low, high⟩ := Char.isDigit_iff_toNat.mp digit
  have low : 48 ≤ c.toNat := low
  have high : c.toNat ≤ 57 := high
  simp only [isWhitespace, Bool.or_eq_false_iff, Bool.and_eq_false_iff, decide_eq_false_iff_not,
    beq_eq_false_iff_ne]
  omega

theorem signed_digit {c : Char} {rest : Text} (digit : c.isDigit = true) :
    signed (c :: rest) = (1, c :: rest) := by
  unfold signed
  split
  · rename_i same
    exact absurd (List.cons.inj same).1 (digit_ne digit rfl)
  · rename_i same
    exact absurd (List.cons.inj same).1 (digit_ne digit rfl)
  · rfl

theorem hexPrefixed_digits {digits : Text} (all : ∀ c ∈ digits, c.isDigit = true) :
    hexPrefixed digits = none := by
  unfold hexPrefixed
  split
  · exact absurd (all 'x' (List.mem_cons_of_mem _ List.mem_cons_self)) (by decide)
  · exact absurd (all 'X' (List.mem_cons_of_mem _ List.mem_cons_self)) (by decide)
  · rfl

theorem trim_visible {text : Text} (visible : ∀ c ∈ text, isWhitespace c = false) :
    trim text = text :=
  trim_eq_self (fun c mem => visible c (List.mem_of_head? mem))
    fun c mem => visible c (List.mem_of_getLast? mem)

theorem intTryParse_padded (width n : ℕ) : intTryParse (padded width n) = asInt n := by
  have trimmed : trim (padded width n) = padded width n :=
    trim_visible fun c mem => digit_visible (padded_digits mem)
  have sign : signed (padded width n) = (1, padded width n) := by
    cases text : padded width n with
    | nil => exact absurd text (padded_ne_nil width n)
    | cons c rest =>
      have mem : c ∈ padded width n := text ▸ List.mem_cons_self
      exact signed_digit (padded_digits mem)
  unfold intTryParse
  rw [trimmed, sign]
  dsimp only
  rw [hexPrefixed_digits fun c mem => padded_digits mem]
  dsimp only
  rw [decimalDigits_padded, Option.bind_some, one_mul]

theorem decimal_eq_padded (n : ℕ) : PythonText.decimal n = padded 0 n := by
  unfold padded List.leftpad
  rw [Nat.zero_sub]
  rfl

theorem asInt_natCast (n : ℕ) : asInt n = if n < 2 ^ 63 then some (n : ℤ) else none := by
  unfold asInt
  by_cases small : n < 2 ^ 63
  · rw [if_pos small, if_pos (by omega)]
  · rw [if_neg small, if_neg (by omega)]

theorem intParse_padded {width n : ℕ} (small : n < 2 ^ 63) :
    intParse (padded width n) = .ok (n : ℤ) := by
  unfold intParse
  rw [intTryParse_padded, asInt_natCast, if_pos small]

def roundedMicros (seconds : NNRat) (fl : NNRat → NNRat := id) : ℤ :=
  1000 * (millis seconds fl : ℤ)

variable {fl fl' : NNRat → NNRat}

theorem millis_cast (seconds : NNRat) :
    (millis seconds fl : ℤ) = halfEven (fl (seconds * 1000)) :=
  Int.toNat_of_nonneg (halfEven_nonneg (NNRat.cast_nonneg _))

theorem srtTimecode_eq (seconds : NNRat) :
    srtTimecode seconds fl = padded 2 (millis seconds fl / 3600000) ++
      ':' :: (padded 2 (millis seconds fl % 3600000 / 60000) ++
        ':' :: (padded 2 (millis seconds fl % 60000 / 1000) ++
          ',' :: padded 3 (millis seconds fl % 1000))) := by
  have nonneg : ¬ (seconds : ℚ) < 0 := not_lt.mpr seconds.2
  unfold srtTimecode formatTimecode
  dsimp only
  rw [if_neg nonneg, NNRat.toNNRat_coe, List.append_assoc _ [','] _]
  rfl

theorem mem_srtTimecode {seconds : NNRat} {c : Char} (mem : c ∈ srtTimecode seconds fl) :
    c.isDigit = true ∨ c = ':' ∨ c = ',' := by
  rw [srtTimecode_eq] at mem
  simp only [List.mem_append, List.mem_cons] at mem
  rcases mem with hours | colon | minutes | colon | secs | comma | ms
  · exact .inl (padded_digits hours)
  · exact .inr (.inl colon)
  · exact .inl (padded_digits minutes)
  · exact .inr (.inl colon)
  · exact .inl (padded_digits secs)
  · exact .inr (.inr comma)
  · exact .inl (padded_digits ms)

theorem not_mem_srtTimecode {seconds : NNRat} {c : Char} (digit : c.isDigit = false)
    (colon : c ≠ ':') (comma : c ≠ ',') : c ∉ srtTimecode seconds fl := by
  intro mem
  rcases mem_srtTimecode mem with is | is | is
  · exact digit_ne is digit rfl
  · exact colon is
  · exact comma is

theorem visible_srtTimecode {seconds : NNRat} {c : Char} (mem : c ∈ srtTimecode seconds fl) :
    isWhitespace c = false := by
  rcases mem_srtTimecode mem with digit | rfl | rfl
  · exact digit_visible digit
  · rfl
  · rfl

theorem parseSeconds_padded (secs ms : ℕ) (hs : secs < 2 ^ 63) (hm : ms < 2 ^ 63) :
    parseSeconds (padded 2 secs ++ ',' :: padded 3 ms) = .ok ((secs : ℤ), (ms : ℤ)) := by
  have comma {width n : ℕ} : ',' ∉ padded width n := fun mem =>
    digit_ne (padded_digits mem) (rfl : Char.isDigit ',' = false) rfl
  unfold parseSeconds
  rw [List.splitOn_append_cons_self_of_not_mem comma, List.splitOn_eq_singleton comma]
  dsimp only
  rw [intParse_padded hs, intParse_padded hm]
  rfl

theorem parseTimecode_srt (seconds : NNRat) :
    parseTimecode (srtTimecode seconds fl) =
      if millis seconds fl / 3600000 < 2 ^ 63 then
        .ok (Int.bmod (roundedMicros seconds fl) (2 ^ 64))
      else .error "Invalid number" := by
  have trimmed : trim (srtTimecode seconds fl) = srtTimecode seconds fl :=
    trim_visible fun c mem => visible_srtTimecode mem
  have kept : (srtTimecode seconds fl).map (fun c => if c = '.' then ',' else c) =
      srtTimecode seconds fl := by
    have same : ∀ c ∈ srtTimecode seconds fl, (if c = '.' then ',' else c) = id c := by
      rintro c mem
      refine if_neg ?_
      rintro rfl
      exact not_mem_srtTimecode rfl (by decide) (by decide) mem
    exact (List.map_congr_left same).trans (List.map_id _)
  have colon {width n : ℕ} : ':' ∉ padded width n := fun mem =>
    digit_ne (padded_digits mem) (rfl : Char.isDigit ':' = false) rfl
  have last : ':' ∉ padded 2 (millis seconds fl % 60000 / 1000) ++
      ',' :: padded 3 (millis seconds fl % 1000) := by
    intro mem
    rcases List.mem_append.mp mem with secs | rest
    · exact colon secs
    · exact (List.mem_cons.mp rest).elim (by decide) colon
  have parts := Text.splitOn_eq_three.mpr ⟨srtTimecode_eq seconds, colon, colon, last⟩
  unfold parseTimecode
  dsimp only
  rw [trimmed, kept, parts]
  dsimp only
  rw [parseSeconds_padded _ _ (by omega) (by omega)]
  have minutes : intParse (padded 2 (millis seconds fl % 3600000 / 60000)) =
      .ok ((millis seconds fl % 3600000 / 60000 : ℕ) : ℤ) := intParse_padded (by omega)
  rw [minutes]
  unfold intParse
  rw [intTryParse_padded, asInt_natCast]
  by_cases small : millis seconds fl / 3600000 < 2 ^ 63
  · rw [if_pos small, if_pos small]
    have total : ((((millis seconds fl / 3600000 : ℕ) : ℤ) * 60 +
        (millis seconds fl % 3600000 / 60000 : ℕ)) * 60 +
          (millis seconds fl % 60000 / 1000 : ℕ)) * 1000 +
          (millis seconds fl % 1000 : ℕ) = (millis seconds fl : ℤ) := by omega
    have micros : duration (millis seconds fl / 3600000 : ℕ)
        (millis seconds fl % 3600000 / 60000 : ℕ)
        (millis seconds fl % 60000 / 1000 : ℕ) (millis seconds fl % 1000 : ℕ) =
          Int.bmod (roundedMicros seconds fl) (2 ^ 64) := by
      unfold duration
      rw [total, roundedMicros, mul_comm]
    exact congrArg Except.ok micros
  · rw [if_neg small, if_neg small]
    rfl

/-- A time that is a duration of 64 bits for the one arithmetic is less than one turn of 64 bits
for the other. -/
def Near (fl fl' : NNRat → NNRat) : Prop :=
  ∀ seconds, roundedMicros seconds fl' < 2 ^ 63 → roundedMicros seconds fl < 2 ^ 64

theorem near_self (fl : NNRat → NNRat) : Near fl fl := fun _ small => by omega

theorem nearest_near : Near nearest id := by
  intro seconds small
  unfold roundedMicros at small ⊢
  rw [millis_cast] at small ⊢
  generalize seconds * 1000 = x at small ⊢
  have exact := (abs_le.mp (abs_halfEven_sub_le (id x : NNRat))).1
  have float := (abs_le.mp (abs_halfEven_sub_le (nearest x))).2
  have close := nearest_le x
  rw [id] at exact
  have bound : (1000 * halfEven (id x : NNRat) : ℚ) < 2 ^ 63 := by exact_mod_cast small
  have top : max 1 (x : ℚ) ≤ 1 + x := max_le (by simp) (by simp)
  have less : (1000 * halfEven (nearest x) : ℚ) < 2 ^ 64 := by
    rw [id] at bound
    norm_num at bound ⊢
    linarith
  exact_mod_cast less

/-- The time is a duration of 64 bits, and either arithmetic rounds it to the same one. -/
def Timed (fl fl' : NNRat → NNRat) (seconds : NNRat) : Prop :=
  roundedMicros seconds fl < 2 ^ 63 ∧ roundedMicros seconds fl = roundedMicros seconds fl'

theorem parseTimecode_srt_iff (near : Near fl fl') (seconds : NNRat) :
    parseTimecode (srtTimecode seconds fl) = .ok (roundedMicros seconds fl') ↔
      Timed fl fl' seconds := by
  have positive (fl : NNRat → NNRat) : 0 ≤ roundedMicros seconds fl := by
    rw [roundedMicros]
    omega
  have written := positive fl
  rw [parseTimecode_srt, Timed]
  constructor
  · intro read
    split at read
    · have wrapped := Except.ok.inj read
      have below := Int.bmod_lt (x := roundedMicros seconds fl) (m := 2 ^ 64) (by decide)
      have turn := near seconds (by omega)
      have shown := positive fl'
      obtain ⟨turns, apart⟩ : ((2 ^ 64 : ℕ) : ℤ) ∣ roundedMicros seconds fl' -
          roundedMicros seconds fl := wrapped ▸ Int.dvd_bmod_sub_self
      omega
    · cases read
  · rintro ⟨small, same⟩
    have hours : millis seconds fl / 3600000 < 2 ^ 63 := by
      rw [roundedMicros] at small
      omega
    rw [if_pos hours, Int.bmod_eq_of_le (by omega) (by omega), same]

def head (fl : NNRat → NNRat) (index : ℕ) (segment : AsrSegment) : Text :=
  PythonText.decimal index ++ '\n' :: timeLine fl segment

theorem cutFirst_append {a b : Text} (plain : ' ' ∉ a) :
    cutFirst " --> ".toList (a ++ " --> ".toList ++ b) = some (a, b) := by
  induction a with
  | nil => rfl
  | cons c rest ih =>
    have other : ' ' ≠ c := fun same => plain (by rw [same]; exact List.mem_cons_self)
    have here : " --> ".toList.isPrefixOf (c :: (rest ++ " --> ".toList ++ b)) = false := by
      have differs : (' ' == c) = false := beq_eq_false_iff_ne.mpr other
      exact (congrArg (· && _) differs).trans (Bool.false_and _)
    have rest := ih fun mem => plain (List.mem_cons_of_mem c mem)
    rw [List.cons_append, List.cons_append, cutFirst, here, if_neg Bool.false_ne_true, rest]
    rfl

theorem decimal_visible {n : ℕ} {c : Char} (mem : c ∈ PythonText.decimal n) : c.isDigit = true := by
  rw [decimal_eq_padded] at mem
  exact padded_digits mem

theorem newline_not_mem_timeLine (segment : AsrSegment) : '\n' ∉ timeLine fl segment := by
  have time (seconds : NNRat) : '\n' ∉ srtTimecode seconds fl :=
    not_mem_srtTimecode rfl (by decide) (by decide)
  intro mem
  rcases List.mem_append.mp mem with front | stop
  · rcases List.mem_append.mp front with start | arrow
    · exact time _ start
    · exact absurd arrow (by decide)
  · exact time _ stop

theorem newline_not_mem_decimal (n : ℕ) : '\n' ∉ PythonText.decimal n :=
  fun mem => digit_ne (decimal_visible mem) (rfl : Char.isDigit '\n' = false) rfl

theorem srtTimecode_ne_nil (seconds : NNRat) : srtTimecode seconds fl ≠ [] := by
  rw [srtTimecode_eq]
  exact List.append_ne_nil_of_left_ne_nil (padded_ne_nil 2 _) _

theorem head_ends (index : ℕ) (segment : AsrSegment) :
    (∃ c rest, head fl index segment = c :: rest ∧ c.isDigit = true) ∧
      ∃ c, (head fl index segment).getLast? = some c ∧ isWhitespace c = false := by
  constructor
  · unfold head
    cases number : PythonText.decimal index with
    | nil => exact absurd number Nat.toDigits_ne_nil
    | cons c rest => exact ⟨c, _, rfl, decimal_visible (number ▸ List.mem_cons_self)⟩
  · have stop := @srtTimecode_ne_nil fl segment.stop
    refine ⟨(srtTimecode segment.stop fl).getLast stop, ?_, ?_⟩
    · have whole : head fl index segment = (PythonText.decimal index ++ '\n' ::
          (srtTimecode segment.start fl ++ " --> ".toList)) ++ srtTimecode segment.stop fl := by
        unfold head timeLine
        exact (List.append_assoc (PythonText.decimal index)
          ('\n' :: (srtTimecode segment.start fl ++ " --> ".toList)) _).symm
      rw [whole, List.getLast?_append_of_ne_nil _ stop, List.getLast?_eq_some_getLast stop]
    · exact visible_srtTimecode (List.getLast_mem stop)

theorem head_plain (index : ℕ) (segment : AsrSegment) :
    hasBlankLine (head fl index segment) = false ∧
      (head fl index segment).getLast? ≠ some '\n' := by
  constructor
  · have time : hasBlankLine (timeLine fl segment) = false := by
      have append := hasBlankLine_append [] (@newline_not_mem_timeLine fl segment)
      rwa [List.append_nil] at append
    unfold head
    rw [hasBlankLine_append _ (newline_not_mem_decimal index), hasBlankLine_cons, time]
    intro _ first
    exact newline_not_mem_timeLine segment (List.mem_of_head? first)
  · obtain ⟨c, last, visible⟩ := (head_ends index segment).2
    rw [last]
    intro same
    rw [Option.some.inj same] at visible
    exact Bool.false_ne_true visible.symm

def readHead (fl : NNRat → NNRat) (index : ℕ) (segment : AsrSegment) :
    Except String (Option (ℤ × ℤ × ℤ)) :=
  parseHead (PythonText.decimal index) (timeLine fl segment)

theorem readHead_eq (index : ℕ) (segment : AsrSegment) :
    readHead fl index segment =
      if index < 2 ^ 63 then do
        let start ← parseTimecode (srtTimecode segment.start fl)
        let stop ← parseTimecode (srtTimecode segment.stop fl)
        return some ((index : ℤ), start, stop)
      else .error "Invalid subtitle index" := by
  have trimmed : trim (PythonText.decimal index) = PythonText.decimal index :=
    trim_visible fun c mem => digit_visible (decimal_visible mem)
  have cut : cutFirst " --> ".toList (timeLine fl segment) =
      some (srtTimecode segment.start fl, srtTimecode segment.stop fl) :=
    cutFirst_append (not_mem_srtTimecode rfl (by decide) (by decide))
  unfold readHead parseHead
  rw [trimmed, decimal_eq_padded, intTryParse_padded, asInt_natCast, cut]
  by_cases small : index < 2 ^ 63
  · rw [if_pos small, if_pos small]
  · rw [if_neg small, if_neg small]

/-- The index and the two times are numbers that the client can hold. -/
def Fits (fl fl' : NNRat → NNRat) (index : ℕ) (segment : AsrSegment) : Prop :=
  index < 2 ^ 63 ∧ Timed fl fl' segment.start ∧ Timed fl fl' segment.stop

theorem readHead_some {index : ℕ} {segment : AsrSegment} {found : Option (ℤ × ℤ × ℤ)}
    (read : readHead fl index segment = .ok found) : found.isSome = true := by
  rw [readHead_eq] at read
  split at read
  · cases start : parseTimecode (srtTimecode segment.start fl) with
    | error e => rw [start] at read; cases read
    | ok a =>
      cases stop : parseTimecode (srtTimecode segment.stop fl) with
      | error e => rw [start, stop] at read; cases read
      | ok b =>
        rw [start, stop] at read
        rw [← Except.ok.inj read]
        rfl
  · cases read

theorem readHead_iff (near : Near fl fl') (index : ℕ) (segment : AsrSegment) :
    readHead fl index segment =
        .ok (some ((index : ℤ), roundedMicros segment.start fl', roundedMicros segment.stop fl')) ↔
      Fits fl fl' index segment := by
  rw [readHead_eq, Fits]
  by_cases small : index < 2 ^ 63
  · rw [if_pos small, ← parseTimecode_srt_iff near, ← parseTimecode_srt_iff near]
    cases start : parseTimecode (srtTimecode segment.start fl) with
    | error e => exact iff_of_false (fun h => by cases h) fun h => by cases h.2.1
    | ok a =>
      cases stop : parseTimecode (srtTimecode segment.stop fl) with
      | error e => exact iff_of_false (fun h => by cases h) fun h => by cases h.2.2
      | ok b =>
        constructor
        · intro read
          have parts := Prod.mk.inj (Prod.mk.inj (Option.some.inj (Except.ok.inj read))).2
          exact ⟨small, congrArg _ parts.1, congrArg _ parts.2⟩
        · rintro ⟨-, first, second⟩
          rw [Except.ok.inj first, Except.ok.inj second]
          rfl
  · rw [if_neg small]
    exact iff_of_false (fun h => by cases h) fun h => small h.1

theorem trimRight_last {text : Text} {c : Char} (last : (trimRight text).getLast? = some c) :
    isWhitespace c = false := by
  have filled : trimRight text ≠ [] := by
    intro none
    rw [none] at last
    cases last
  rw [List.getLast?_eq_some_getLast filled] at last
  rw [← Option.some.inj last, ← Bool.not_eq_true]
  exact List.rdropWhile_last_not isWhitespace text filled

theorem trimRight_eq_nil {text : Text} : trimRight text = [] ↔ Blank text :=
  List.rdropWhile_eq_nil_iff

/-- A block whose text is not blank has the times of its head and the trimmed text. -/
theorem parseSrtBlock_text (index : ℕ) (segment : AsrSegment) {body : Text}
    (visible : ¬ Blank body) :
    parseSrtBlock (trim (head fl index segment ++ '\n' :: body)) =
      (readHead fl index segment).map fun found =>
        found.map fun times => ⟨times.1, times.2.1, times.2.2, trim body⟩ := by
  obtain ⟨back, blank, whole⟩ := trimRight_append body
  have filled : trimRight body ≠ [] := fun none => visible (trimRight_eq_nil.mp none)
  obtain ⟨c, rest, start, digit⟩ := (head_ends index segment).1
  have trimmed : trim (head fl index segment ++ '\n' :: body) =
      head fl index segment ++ '\n' :: trimRight body := by
    have split : head fl index segment ++ '\n' :: body =
        (head fl index segment ++ '\n' :: trimRight body) ++ back := by
      rw [List.append_assoc, List.cons_append, ← whole]
    rw [split, trim_append_blank blank]
    refine trim_eq_self (fun d mem => ?_) fun d mem => ?_
    · rw [start, List.cons_append, List.head?_cons] at mem
      rw [← Option.some.inj mem]
      exact digit_visible digit
    · rw [List.getLast?_append_of_ne_nil _ (List.cons_ne_nil _ _),
        List.getLast?_cons_of_ne_nil filled] at mem
      exact trimRight_last mem
  have text : trim (trimRight body) = trim body := by
    conv_rhs => rw [whole]
    rw [trim_append_blank blank]
  have lines : (head fl index segment ++ '\n' :: trimRight body).splitOn '\n' =
      PythonText.decimal index :: timeLine fl segment :: (trimRight body).splitOn '\n' := by
    unfold head
    rw [List.append_assoc, List.cons_append,
      List.splitOn_append_cons_self_of_not_mem (newline_not_mem_decimal index),
      List.splitOn_append_cons_self_of_not_mem (newline_not_mem_timeLine segment)]
  have joined : ['\n'].intercalate ((trimRight body).splitOn '\n') = trimRight body :=
    List.intercalate_splitOn '\n'
  have nonempty : head fl index segment ++ '\n' :: trimRight body ≠ [] :=
    List.append_ne_nil_of_right_ne_nil _ (List.cons_ne_nil _ _)
  unfold parseSrtBlock
  rw [trimmed, if_neg nonempty, lines]
  cases pieces : (trimRight body).splitOn '\n' with
  | nil => exact absurd pieces (List.splitOn_ne_nil _ _)
  | cons line more =>
    rw [pieces] at joined
    dsimp only
    rw [joined, text]
    unfold readHead
    cases parseHead (PythonText.decimal index) (timeLine fl segment) with
    | error e => rfl
    | ok found => cases found <;> rfl

theorem parseSrtBlock_blank (index : ℕ) (segment : AsrSegment) {body : Text} (blank : Blank body) :
    parseSrtBlock (trim (head fl index segment ++ body)) = .ok none := by
  obtain ⟨c, rest, start, digit⟩ := (head_ends index segment).1
  have trimmed : trim (head fl index segment ++ body) = head fl index segment := by
    rw [trim_append_blank blank]
    refine trim_eq_self (fun d mem => ?_) fun d mem => ?_
    · rw [start, List.head?_cons] at mem
      rw [← Option.some.inj mem]
      exact digit_visible digit
    · obtain ⟨last, is, visible⟩ := (head_ends index segment).2
      rw [is] at mem
      rw [← Option.some.inj mem]
      exact visible
  have lines : (head fl index segment).splitOn '\n' =
      [PythonText.decimal index, timeLine fl segment] := by
    unfold head
    rw [List.splitOn_append_cons_self_of_not_mem (newline_not_mem_decimal index),
      List.splitOn_eq_singleton (newline_not_mem_timeLine segment)]
  unfold parseSrtBlock
  rw [trimmed, lines]
  exact ite_self _

theorem intTryParse_visible {source : Text} {value : ℤ} (read : intTryParse source = some value) :
    ¬ Blank source := by
  intro blank
  unfold intTryParse at read
  rw [trim_eq_nil.mpr blank] at read
  cases read

theorem ink_cutFirst {pattern text before after : Text}
    (cut : cutFirst pattern text = some (before, after)) : ink pattern ≤ ink text := by
  induction text generalizing before after with
  | nil =>
    unfold cutFirst at cut
    split at cut
    · rename_i start
      rw [List.isPrefixOf_iff_prefix, List.prefix_nil] at start
      rw [start]
    · cases cut
  | cons c rest ih =>
    unfold cutFirst at cut
    split at cut
    · rename_i start
      obtain ⟨back, whole⟩ := List.isPrefixOf_iff_prefix.mp start
      rw [← whole, ink_append]
      exact Nat.le_add_right _ _
    · obtain ⟨parts, found, -⟩ := Option.map_eq_some_iff.mp cut
      have later : ink pattern ≤ ink rest := ih found
      have split : ink (c :: rest) = ink [c] + ink rest := ink_append [c] rest
      omega

theorem parseHead_ink {indexLine timeLine : Text} {found : ℤ × ℤ × ℤ}
    (read : parseHead indexLine timeLine = .ok (some found)) :
    1 ≤ ink indexLine ∧ 3 ≤ ink timeLine := by
  unfold parseHead at read
  split at read
  · cases read
  · rename_i index number
    split at read
    · cases read
    · rename_i before after cut
      have visible : 0 < ink (trim indexLine) := ink_pos (intTryParse_visible number)
      rw [ink_trim] at visible
      exact ⟨visible, ink_cutFirst cut⟩

theorem parseSrtBlock_ink {block : Text} {segment : SubtitleSegment}
    (read : parseSrtBlock block = .ok (some segment)) : ink segment.text + 4 ≤ ink block := by
  unfold parseSrtBlock at read
  split at read
  · cases read
  · split at read
    · rename_i indexLine timeLine line lines pieces
      have joined : ['\n'].intercalate (block.splitOn '\n') = block := List.intercalate_splitOn '\n'
      have whole : ink block = ink indexLine + (ink timeLine + ink (line :: lines).flatten) := by
        rw [pieces] at joined
        rw [← joined, ink_lines, List.flatten_cons, ink_append, List.flatten_cons, ink_append]
      cases found : parseHead indexLine timeLine with
      | error e => rw [found] at read; cases read
      | ok times =>
        rw [found] at read
        cases times with
        | none => cases read
        | some times =>
          have text : segment.text = trim (['\n'].intercalate (line :: lines)) := by
            rw [← Option.some.inj (Except.ok.inj read)]
          obtain ⟨number, arrow⟩ := parseHead_ink found
          rw [text, ink_trim, ink_lines, whole]
          omega
    · cases read

def weight : List SubtitleSegment → ℕ
  | [] => 0
  | segment :: rest => ink segment.text + 1 + weight rest

theorem weight_append (a b : List SubtitleSegment) : weight (a ++ b) = weight a + weight b := by
  induction a with
  | nil => exact (Nat.zero_add _).symm
  | cons segment rest ih =>
    rw [List.cons_append, weight, weight, ih]
    omega

theorem parseBlocks_append (a b : List Text) :
    parseBlocks (a ++ b) = do return (← parseBlocks a) ++ (← parseBlocks b) := by
  induction a with
  | nil =>
    show parseBlocks b = _
    cases parseBlocks b <;> rfl
  | cons block blocks ih =>
    rw [List.cons_append, parseBlocks, parseBlocks, ih]
    cases parseSrtBlock (trim block) with
    | error e => rfl
    | ok segment =>
      cases parseBlocks blocks with
      | error e => rfl
      | ok first =>
        cases parseBlocks b with
        | error e => rfl
        | ok second =>
          exact congrArg Except.ok (List.append_assoc segment.toList first second).symm

theorem parseBlocks_blank {blocks : List Text} (blank : ∀ block ∈ blocks, Blank block) :
    parseBlocks blocks = .ok [] := by
  induction blocks with
  | nil => rfl
  | cons block rest ih =>
    have empty : trim block = [] := trim_eq_nil.mpr (blank block List.mem_cons_self)
    rw [parseBlocks, empty, ih fun b mem => blank b (List.mem_cons_of_mem block mem)]
    rfl

theorem parseBlocks_trimRight {a b : List Text} (same : a.map trimRight = b.map trimRight) :
    parseBlocks a = parseBlocks b := by
  have trimmed (text : Text) : trim text = trim (trimRight text) := by
    obtain ⟨back, blank, whole⟩ := trimRight_append text
    conv_lhs => rw [whole]
    exact trim_append_blank blank
  induction a generalizing b with
  | nil =>
    cases b with
    | nil => rfl
    | cons => cases same
  | cons x xs ih =>
    cases b with
    | nil => cases same
    | cons y ys =>
      rw [List.map_cons, List.map_cons] at same
      obtain ⟨first, rest⟩ := List.cons.inj same
      rw [parseBlocks, parseBlocks, trimmed x, trimmed y, first, ih rest]

theorem parseBlocks_cons_ok {block : Text} {blocks : List Text} {segments : List SubtitleSegment}
    (read : parseBlocks (block :: blocks) = .ok segments) :
    ∃ first rest, parseSrtBlock (trim block) = .ok first ∧ parseBlocks blocks = .ok rest ∧
      segments = first.toList ++ rest := by
  rw [parseBlocks] at read
  cases one : parseSrtBlock (trim block) with
  | error e => rw [one] at read; cases read
  | ok first =>
    cases more : parseBlocks blocks with
    | error e => rw [one, more] at read; cases read
    | ok rest =>
      rw [one, more] at read
      exact ⟨first, rest, rfl, rfl, (Except.ok.inj read).symm⟩

theorem parseBlocks_weight {blocks : List Text} {segments : List SubtitleSegment}
    (read : parseBlocks blocks = .ok segments) :
    weight segments ≤ ink blocks.flatten ∧
      (0 < ink blocks.flatten → weight segments < ink blocks.flatten) := by
  induction blocks generalizing segments with
  | nil =>
    rw [← Except.ok.inj read]
    exact ⟨Nat.le_refl 0, fun some => absurd some (Nat.lt_irrefl 0)⟩
  | cons block blocks ih =>
    obtain ⟨first, rest, one, more, rfl⟩ := parseBlocks_cons_ok read
    obtain ⟨atMost, less⟩ := ih more
    rw [List.flatten_cons, ink_append, weight_append]
    cases first with
    | none =>
      have zero : weight (none : Option SubtitleSegment).toList = 0 := rfl
      omega
    | some segment =>
      have smaller := parseSrtBlock_ink one
      have one : weight (some segment).toList = ink segment.text + 1 := rfl
      rw [ink_trim] at smaller
      omega

/-- The text is not blank, and neither a line end at its front nor an empty line in it comes
before its last visible character. -/
def Shown (text : Text) : Prop :=
  ¬ Blank text ∧ hasBlankLine ('\n' :: trimRight text) = false

def body (text : Text) : Text := ('\n' :: text).rdropWhile (· == '\n')

def segmentEntries (fl : NNRat → NNRat) (index : ℕ) (segment : AsrSegment) :
    Except String (List SubtitleSegment) :=
  parseBlocks (splitBlankLine (head fl index segment ++ body segment.text))

theorem body_append (text : Text) :
    ∃ k, '\n' :: text = body text ++ List.replicate k '\n' := by
  refine ⟨(('\n' :: text).rtakeWhile (· == '\n')).length, ?_⟩
  have back : ('\n' :: text).rtakeWhile (· == '\n') =
      List.replicate (('\n' :: text).rtakeWhile (· == '\n')).length '\n' :=
    List.eq_replicate_iff.mpr ⟨rfl, fun c mem => beq_iff_eq.mp
      (List.mem_rtakeWhile_imp (p := (· == '\n')) mem)⟩
  rw [← back]
  exact List.rdropWhile_append_rtakeWhile.symm

theorem body_unended (text : Text) : (body text).getLast? ≠ some '\n' := by
  intro last
  have filled : body text ≠ [] := by
    intro none
    rw [none] at last
    cases last
  rw [List.getLast?_eq_some_getLast filled] at last
  exact List.rdropWhile_last_not (· == '\n') ('\n' :: text) filled
    (beq_iff_eq.mpr (Option.some.inj last))

theorem blank_newlines (k : ℕ) : Blank (List.replicate k '\n') := by
  intro c mem
  rw [List.eq_of_mem_replicate mem]
  rfl

theorem trimRight_newline {text : Text} (visible : ¬ Blank text) :
    trimRight ('\n' :: text) = '\n' :: trimRight text := by
  obtain ⟨back, blank, whole⟩ := trimRight_append text
  have filled : trimRight text ≠ [] := fun none => visible (trimRight_eq_nil.mp none)
  have kept : trimRight ('\n' :: trimRight text) = '\n' :: trimRight text := by
    refine List.rdropWhile_eq_self_iff.mpr fun long => ?_
    have last : ('\n' :: trimRight text).getLast? = some (('\n' :: trimRight text).getLast long) :=
      List.getLast?_eq_some_getLast long
    rw [List.getLast?_cons_of_ne_nil filled] at last
    rw [trimRight_last last]
    exact Bool.false_ne_true
  calc trimRight ('\n' :: text) = trimRight (('\n' :: trimRight text) ++ back) := by
        rw [List.cons_append, ← whole]
    _ = trimRight ('\n' :: trimRight text) := rdropWhile_append_blank blank
    _ = '\n' :: trimRight text := kept

theorem trimRight_body (text : Text) : trimRight (body text) = trimRight ('\n' :: text) := by
  obtain ⟨k, whole⟩ := body_append text
  rw [whole]
  exact (rdropWhile_append_blank (blank_newlines k)).symm

theorem splitBlankLine_head (index : ℕ) (segment : AsrSegment) (rest : Text) :
    splitBlankLine (head fl index segment ++ rest) =
      (splitBlankLine rest).modifyHead (head fl index segment ++ ·) := by
  obtain ⟨plain, unended⟩ := head_plain index segment
  exact splitBlankLine_front rest unended plain

theorem segmentEntries_blank (index : ℕ) {segment : AsrSegment} (blank : Blank segment.text) :
    segmentEntries fl index segment = .ok [] := by
  have all : Blank (body segment.text) := by
    refine trimRight_eq_nil.mp ?_
    rw [trimRight_body]
    refine trimRight_eq_nil.mpr fun c mem => ?_
    rcases List.mem_cons.mp mem with rfl | inside
    · rfl
    · exact blank c inside
  have pieces := splitBlankLine_blank all
  unfold segmentEntries
  rw [splitBlankLine_head]
  cases split : splitBlankLine (body segment.text) with
  | nil => rfl
  | cons first rest =>
    rw [split] at pieces
    rw [List.modifyHead_cons, parseBlocks,
      parseSrtBlock_blank index segment (pieces first List.mem_cons_self),
      parseBlocks_blank fun b mem => pieces b (List.mem_cons_of_mem first mem)]
    rfl

theorem segmentEntries_shown (index : ℕ) {segment : AsrSegment} (shown : Shown segment.text) :
    segmentEntries fl index segment = (readHead fl index segment).map fun found =>
      (found.map fun times => ⟨times.1, times.2.1, times.2.2, trim segment.text⟩).toList := by
  obtain ⟨visible, plain⟩ := shown
  obtain ⟨back, blank, whole⟩ := trimRight_append (body segment.text)
  rw [trimRight_body, trimRight_newline visible] at whole
  have filled : trimRight segment.text ≠ [] := fun none => visible (trimRight_eq_nil.mp none)
  have unended : ('\n' :: trimRight segment.text).getLast? ≠ some '\n' := by
    rw [List.getLast?_cons_of_ne_nil filled]
    intro last
    exact Bool.false_ne_true (trimRight_last last).symm
  have pieces := splitBlankLine_blank blank
  unfold segmentEntries
  rw [splitBlankLine_head, whole, splitBlankLine_front back unended plain]
  cases split : splitBlankLine back with
  | nil => exact absurd split (splitBlankLine_ne_nil back)
  | cons first rest =>
    rw [split] at pieces
    have text : trim (trimRight segment.text ++ first) = trim segment.text := by
      obtain ⟨spaces, white, same⟩ := trimRight_append segment.text
      rw [trim_append_blank (pieces first List.mem_cons_self)]
      conv_rhs => rw [same]
      rw [trim_append_blank white]
    have seen : ¬ Blank (trimRight segment.text ++ first) := by
      intro all
      rw [← trim_eq_nil, text, trim_eq_nil] at all
      exact visible all
    rw [List.modifyHead_cons, List.modifyHead_cons, parseBlocks, List.cons_append,
      parseSrtBlock_text index segment seen, text,
      parseBlocks_blank fun b mem => pieces b (List.mem_cons_of_mem first mem)]
    cases readHead fl index segment with
    | error e => rfl
    | ok found => exact congrArg Except.ok (List.append_nil _)

theorem ink_newline (text : Text) : ink ('\n' :: text) = ink text :=
  (ink_append ['\n'] text).trans (Nat.zero_add _)

theorem ink_behind {text a b : Text} (visible : ¬ Blank text)
    (same : '\n' :: trimRight text = a ++ '\n' :: '\n' :: b) : 0 < ink b := by
  have filled : trimRight text ≠ [] := fun none => visible (trimRight_eq_nil.mp none)
  refine ink_pos fun all => ?_
  have last : ('\n' :: trimRight text).getLast? = (trimRight text).getLast? :=
    List.getLast?_cons_of_ne_nil filled
  rw [same, List.getLast?_append_of_ne_nil _ (List.cons_ne_nil _ _)] at last
  obtain ⟨c, is⟩ : ∃ c, (trimRight text).getLast? = some c :=
    ⟨_, List.getLast?_eq_some_getLast filled⟩
  rw [is] at last
  have mem : c ∈ '\n' :: '\n' :: b := List.mem_of_getLast? last
  have white : isWhitespace c = true := by
    rcases List.mem_cons.mp mem with rfl | mem
    · rfl
    · rcases List.mem_cons.mp mem with rfl | mem
      · rfl
      · exact all c mem
  rw [trimRight_last is] at white
  exact Bool.false_ne_true white

theorem ink_split {text a b : Text} (same : '\n' :: trimRight text = a ++ '\n' :: '\n' :: b) :
    ink text = ink a + ink b := by
  have front : ink ('\n' :: trimRight text) = ink a + ink b := by
    rw [same, ink_append, ink_newline, ink_newline]
  obtain ⟨spaces, white, parts⟩ := trimRight_append text
  rw [parts, ink_append, ink_blank white, Nat.add_zero, ← front, ink_newline]

theorem parseSrtBlock_weight {index : ℕ} {segment : AsrSegment} {front : Text}
    {entry : Option SubtitleSegment}
    (one : parseSrtBlock (trim (head fl index segment ++ '\n' :: front)) = .ok entry) :
    weight entry.toList ≤ ink front + 1 := by
  have zero : weight (none : Option SubtitleSegment).toList = 0 := rfl
  by_cases seen : Blank front
  · have all : Blank ('\n' :: front) := fun c mem =>
      (List.mem_cons.mp mem).elim (fun is => by rw [is]; rfl) (seen c)
    rw [parseSrtBlock_blank index segment all] at one
    rw [← Except.ok.inj one, zero]
    exact Nat.zero_le _
  · rw [parseSrtBlock_text index segment seen] at one
    cases found : readHead fl index segment with
    | error e => rw [found] at one; cases one
    | ok times =>
      rw [found] at one
      rw [← Except.ok.inj one]
      cases times with
      | none => exact Nat.zero_le _
      | some times => exact (congrArg (· + 1) (ink_trim front)).le

theorem segmentEntries_split {index : ℕ} {segment : AsrSegment} {segments : List SubtitleSegment}
    (visible : ¬ Blank segment.text)
    (broken : hasBlankLine ('\n' :: trimRight segment.text) = true)
    (read : segmentEntries fl index segment = .ok segments) :
    weight segments ≤ ink segment.text := by
  obtain ⟨back, blank, whole⟩ := trimRight_append (body segment.text)
  rw [trimRight_body, trimRight_newline visible] at whole
  obtain ⟨a, b, same, split⟩ := splitBlankLine_first broken
  have total := ink_split same
  have later := ink_behind visible same
  have rest : ink (splitBlankLine (b ++ back)).flatten = ink b := by
    rw [ink_splitBlankLine, ink_append, ink_blank blank, Nat.add_zero]
  unfold segmentEntries at read
  rw [splitBlankLine_head, whole, split, List.modifyHead_cons] at read
  obtain ⟨first, others, one, more, rfl⟩ := parseBlocks_cons_ok read
  obtain ⟨-, less⟩ := parseBlocks_weight more
  rw [rest] at less
  have fewer := less later
  rw [weight_append]
  cases a with
  | nil =>
    rw [parseSrtBlock_blank index segment fun c mem => absurd mem List.not_mem_nil] at one
    rw [← Except.ok.inj one]
    have zero : weight (none : Option SubtitleSegment).toList = 0 := rfl
    omega
  | cons c front =>
    obtain ⟨rfl, -⟩ := List.cons.inj same
    rw [ink_newline] at total
    have here := parseSrtBlock_weight one
    omega

theorem segmentEntries_weight {index : ℕ} {segment : AsrSegment} {segments : List SubtitleSegment}
    (read : segmentEntries fl index segment = .ok segments) :
    weight segments ≤ ink segment.text + 1 ∧
      (weight segments = ink segment.text + 1 → Shown segment.text) := by
  by_cases blank : Blank segment.text
  · rw [segmentEntries_blank index blank] at read
    rw [← Except.ok.inj read]
    exact ⟨Nat.zero_le _, fun same => absurd same.symm (Nat.succ_ne_zero _)⟩
  · cases broken : hasBlankLine ('\n' :: trimRight segment.text) with
    | true =>
      have short := segmentEntries_split blank broken read
      exact ⟨by omega, fun same => by omega⟩
    | false =>
      have shown : Shown segment.text := ⟨blank, broken⟩
      refine ⟨?_, fun _ => shown⟩
      rw [segmentEntries_shown index shown] at read
      cases found : readHead fl index segment with
      | error e => rw [found] at read; cases read
      | ok times =>
        rw [found] at read
        rw [← Except.ok.inj read]
        cases times with
        | none => exact Nat.zero_le _
        | some times =>
          show ink (trim segment.text) + 1 + 0 ≤ ink segment.text + 1
          rw [ink_trim]

def allEntries (fl : NNRat → NNRat) : ℕ → List AsrSegment → Except String (List SubtitleSegment)
  | _, [] => .ok []
  | index, segment :: rest => do
    return (← segmentEntries fl index segment) ++ (← allEntries fl (index + 1) rest)

theorem parseBlocks_newlines (k : ℕ) {rest : Text} (first : rest.head? ≠ some '\n') :
    parseBlocks (splitBlankLine (List.replicate k '\n' ++ rest)) =
      parseBlocks (splitBlankLine rest) := by
  induction k using Nat.twoStepInduction with
  | zero => rfl
  | one =>
    have one : splitBlankLine ('\n' :: rest) = (splitBlankLine rest).modifyHead ('\n' :: ·) :=
      splitBlankLine_cons fun _ => first
    show parseBlocks (splitBlankLine ('\n' :: rest)) = _
    rw [one]
    cases splitBlankLine rest with
    | nil => rfl
    | cons piece more =>
      have trimmed : trim ('\n' :: piece) = trim piece := trim_blank_append (blank_newlines 1)
      rw [List.modifyHead_cons, parseBlocks, parseBlocks, trimmed]
  | more k ih _ =>
    show parseBlocks ([] :: splitBlankLine (List.replicate k '\n' ++ rest)) = _
    rw [parseBlocks, ih]
    have empty : parseSrtBlock (trim []) = .ok none := rfl
    rw [empty]
    cases parseBlocks (splitBlankLine rest) <;> rfl

theorem head_body_unended (index : ℕ) (segment : AsrSegment) :
    (head fl index segment ++ body segment.text).getLast? ≠ some '\n' := by
  cases rest : body segment.text with
  | nil =>
    rw [List.append_nil]
    exact (head_plain index segment).2
  | cons c more =>
    rw [List.getLast?_append_of_ne_nil _ (List.cons_ne_nil c more), ← rest]
    exact body_unended segment.text

theorem srtBlock_eq (index : ℕ) (segment : AsrSegment) :
    ∃ k, srtBlock fl index segment =
      (head fl index segment ++ body segment.text) ++ List.replicate (k + 1) '\n' := by
  obtain ⟨k, whole⟩ := body_append segment.text
  have parts : srtBlock fl index segment =
      head fl index segment ++ ('\n' :: segment.text ++ ['\n']) := by
    unfold srtBlock head
    rw [List.append_assoc, List.cons_append, List.cons_append]
  refine ⟨k, ?_⟩
  rw [parts, whole, List.replicate_succ', List.append_assoc, List.append_assoc]

theorem parseBlocks_block (index : ℕ) (segment : AsrSegment) {rest : Text}
    (first : rest.head? ≠ some '\n') :
    parseBlocks (splitBlankLine (srtBlock fl index segment ++ ['\n'] ++ rest)) = do
      return (← segmentEntries fl index segment) ++ (← parseBlocks (splitBlankLine rest)) := by
  obtain ⟨k, block⟩ := srtBlock_eq index segment
  have lines : List.replicate (k + 1) '\n' ++ ['\n'] ++ rest =
      '\n' :: '\n' :: (List.replicate k '\n' ++ rest) := by
    rw [← List.replicate_succ', List.replicate_succ, List.replicate_succ]
    rfl
  have file : srtBlock fl index segment ++ ['\n'] ++ rest =
      (head fl index segment ++ body segment.text) ++
        '\n' :: '\n' :: (List.replicate k '\n' ++ rest) := by
    rw [block, ← lines]
    simp only [List.append_assoc]
  rw [file, splitBlankLine_append _ (@head_body_unended fl index segment), parseBlocks_append,
    parseBlocks_newlines k first]
  rfl

theorem parseBlocks_lastBlock (index : ℕ) (segment : AsrSegment) :
    parseBlocks (splitBlankLine (srtBlock fl index segment)) = segmentEntries fl index segment := by
  have unended := @head_body_unended fl index segment
  obtain ⟨k, block⟩ := srtBlock_eq index segment
  rw [block]
  cases k with
  | zero => exact parseBlocks_trimRight (splitBlankLine_newline unended)
  | succ j =>
    have lines : List.replicate (j + 1 + 1) '\n' =
        '\n' :: '\n' :: (List.replicate j '\n' ++ []) := by
      rw [List.append_nil]
      rfl
    have nothing : parseBlocks (splitBlankLine (List.replicate j '\n' ++ [])) = .ok [] :=
      parseBlocks_newlines j fun first => by cases first
    rw [lines, splitBlankLine_append _ unended, parseBlocks_append, nothing]
    show (do return (← segmentEntries fl index segment) ++ []) = segmentEntries fl index segment
    cases segmentEntries fl index segment with
    | error e => rfl
    | ok segments => exact congrArg Except.ok (List.append_nil segments)

theorem srtBlocks_first (index : ℕ) (segment : AsrSegment) (rest : List AsrSegment) :
    (['\n'].intercalate (srtBlocks fl index (segment :: rest))).head? ≠ some '\n' := by
  obtain ⟨c, more, start, digit⟩ := (head_ends index segment).1
  have other : c ≠ '\n' := digit_ne digit rfl
  have front : ∃ back, ['\n'].intercalate (srtBlocks fl index (segment :: rest)) =
      head fl index segment ++ back := by
    obtain ⟨k, block⟩ := srtBlock_eq index segment
    rw [List.append_assoc] at block
    cases rest with
    | nil => exact ⟨_, List.intercalate_singleton.trans block⟩
    | cons next rest =>
      rw [srtBlocks, srtBlocks, List.intercalate_cons_cons, block]
      exact ⟨_, by simp only [List.append_assoc]; rfl⟩
  obtain ⟨back, whole⟩ := front
  rw [whole, start]
  exact fun same => other (Option.some.inj same)

theorem parseBlocks_generated (index : ℕ) {segments : List AsrSegment} (some : segments ≠ []) :
    parseBlocks (splitBlankLine (['\n'].intercalate (srtBlocks fl index segments))) =
      allEntries fl index segments := by
  induction segments generalizing index with
  | nil => exact absurd rfl some
  | cons segment rest ih =>
    cases rest with
    | nil =>
      rw [srtBlocks, srtBlocks, List.intercalate_singleton, parseBlocks_lastBlock]
      show segmentEntries fl index segment = do return (← segmentEntries fl index segment) ++ []
      cases segmentEntries fl index segment with
      | error e => rfl
      | ok segments => exact congrArg Except.ok (List.append_nil segments).symm
    | cons next rest =>
      have later := ih (index + 1) (List.cons_ne_nil next rest)
      have first := @srtBlocks_first fl (index + 1) next rest
      rw [allEntries, ← later, ← parseBlocks_block index segment first]
      exact congrArg (fun text => parseBlocks (splitBlankLine text)) List.intercalate_cons_cons

/-- One entry for each segment: its number, its times rounded to milliseconds and its trimmed
text. -/
def expected (fl : NNRat → NNRat) : ℕ → List AsrSegment → List SubtitleSegment
  | _, [] => []
  | index, segment :: rest =>
    ⟨index, roundedMicros segment.start fl, roundedMicros segment.stop fl, trim segment.text⟩ ::
      expected fl (index + 1) rest

/-- The segments are numbered from `index` on and each can be read back. -/
def AllRead (fl fl' : NNRat → NNRat) : ℕ → List AsrSegment → Prop
  | _, [] => True
  | index, segment :: rest =>
    (Fits fl fl' index segment ∧ Shown segment.text) ∧ AllRead fl fl' (index + 1) rest

theorem allEntries_cons_ok {index : ℕ} {segment : AsrSegment} {rest : List AsrSegment}
    {segments : List SubtitleSegment}
    (read : allEntries fl index (segment :: rest) = .ok segments) :
    ∃ first others, segmentEntries fl index segment = .ok first ∧
      allEntries fl (index + 1) rest = .ok others ∧ segments = first ++ others := by
  rw [allEntries] at read
  cases one : segmentEntries fl index segment with
  | error e => rw [one] at read; cases read
  | ok first =>
    cases more : allEntries fl (index + 1) rest with
    | error e => rw [one, more] at read; cases read
    | ok others =>
      rw [one, more] at read
      exact ⟨first, others, rfl, rfl, (Except.ok.inj read).symm⟩

theorem allEntries_weight {index : ℕ} {rest : List AsrSegment} {segments : List SubtitleSegment}
    (read : allEntries fl index rest = .ok segments) :
    weight segments ≤ weight (expected fl' index rest) ∧
      (weight segments = weight (expected fl' index rest) →
        ∀ segment ∈ rest, Shown segment.text) := by
  induction rest generalizing index segments with
  | nil =>
    rw [← Except.ok.inj read]
    exact ⟨Nat.le_refl 0, fun _ segment mem => absurd mem List.not_mem_nil⟩
  | cons segment rest ih =>
    obtain ⟨first, others, one, more, rfl⟩ := allEntries_cons_ok read
    obtain ⟨here, shown⟩ := segmentEntries_weight one
    obtain ⟨later, all⟩ := ih more
    rw [weight_append, expected, weight, ink_trim]
    refine ⟨by omega, fun same other mem => ?_⟩
    rcases List.mem_cons.mp mem with rfl | mem
    · exact shown (by omega)
    · exact all (by omega) other mem

theorem segmentEntries_iff (near : Near fl fl') {index : ℕ} {segment : AsrSegment}
    (shown : Shown segment.text) :
    segmentEntries fl index segment = .ok
        [⟨index, roundedMicros segment.start fl', roundedMicros segment.stop fl',
          trim segment.text⟩] ↔
      Fits fl fl' index segment := by
  rw [segmentEntries_shown index shown, ← readHead_iff near]
  cases found : readHead fl index segment with
  | error e => exact iff_of_false (fun h => by cases h) fun h => by cases h
  | ok times =>
    cases times with
    | none => exact absurd (readHead_some found) Bool.false_ne_true
    | some times =>
      obtain ⟨number, start, stop⟩ := times
      constructor
      · intro same
        have entry := (List.cons.inj (Except.ok.inj same)).1
        rw [SubtitleSegment.mk.injEq] at entry
        exact congrArg (fun times => Except.ok (some times))
          (Prod.ext entry.1 (Prod.ext entry.2.1 entry.2.2.1))
      · intro same
        obtain ⟨rfl, times⟩ := Prod.mk.inj (Option.some.inj (Except.ok.inj same))
        obtain ⟨rfl, rfl⟩ := Prod.mk.inj times
        rfl

theorem segmentEntries_length {index : ℕ} {segment : AsrSegment} {segments : List SubtitleSegment}
    (shown : Shown segment.text) (read : segmentEntries fl index segment = .ok segments) :
    segments.length = 1 := by
  rw [segmentEntries_shown index shown] at read
  cases found : readHead fl index segment with
  | error e => rw [found] at read; cases read
  | ok times =>
    rw [found] at read
    rw [← Except.ok.inj read]
    cases times with
    | none => exact absurd (readHead_some found) Bool.false_ne_true
    | some times => rfl

theorem allEntries_iff (near : Near fl fl') (index : ℕ) (segments : List AsrSegment) :
    allEntries fl index segments = .ok (expected fl' index segments) ↔
      AllRead fl fl' index segments := by
  constructor
  · intro read
    have shown := (allEntries_weight read).2 rfl
    induction segments generalizing index with
    | nil => trivial
    | cons segment rest ih =>
      obtain ⟨first, others, one, more, same⟩ := allEntries_cons_ok read
      have here : Shown segment.text := shown segment List.mem_cons_self
      obtain ⟨entry, rfl⟩ := List.length_eq_one_iff.mp (segmentEntries_length here one)
      obtain ⟨rfl, tail⟩ := List.cons.inj same
      have later : expected fl' (index + 1) rest = others := tail
      rw [← later] at more
      exact ⟨⟨(segmentEntries_iff near here).mp one, here⟩, ih (index + 1) more fun other mem =>
        shown other (List.mem_cons_of_mem segment mem)⟩
  · intro all
    induction segments generalizing index with
    | nil => rfl
    | cons segment rest ih =>
      obtain ⟨⟨fits, shown⟩, later⟩ := all
      rw [allEntries, (segmentEntries_iff near shown).mpr fits, ih (index + 1) later]
      rfl

/-- The number of entries and every time are ones that the client can hold. -/
def Held (fl fl' : NNRat → NNRat) (segments : List AsrSegment) : Prop :=
  segments.length < 2 ^ 63 ∧ ∀ segment ∈ segments,
    Timed fl fl' segment.start ∧ Timed fl fl' segment.stop

theorem allRead_iff (index : ℕ) {segments : List AsrSegment} (some : segments ≠ []) :
    AllRead fl fl' index segments ↔ index + segments.length ≤ 2 ^ 63 ∧ ∀ segment ∈ segments,
      (Timed fl fl' segment.start ∧ Timed fl fl' segment.stop) ∧ Shown segment.text := by
  induction segments generalizing index with
  | nil => exact absurd rfl some
  | cons segment rest ih =>
    rw [AllRead, Fits, List.forall_mem_cons, List.length_cons]
    cases rest with
    | nil =>
      have bound : index + ([] : List AsrSegment).length + 1 ≤ 2 ^ 63 ↔ index < 2 ^ 63 := by
        rw [List.length_nil]
        omega
      rw [← Nat.add_assoc, bound]
      constructor
      · rintro ⟨⟨⟨small, times⟩, shown⟩, -⟩
        exact ⟨small, ⟨times, shown⟩, fun other mem => absurd mem List.not_mem_nil⟩
      · rintro ⟨small, ⟨times, shown⟩, -⟩
        exact ⟨⟨⟨small, times⟩, shown⟩, trivial⟩
    | cons next more =>
      rw [ih (index + 1) (List.cons_ne_nil next more)]
      constructor
      · rintro ⟨⟨⟨-, times⟩, shown⟩, bound, later⟩
        exact ⟨by omega, ⟨times, shown⟩, later⟩
      · rintro ⟨bound, ⟨times, shown⟩, later⟩
        exact ⟨⟨⟨by omega, times⟩, shown⟩, by omega, later⟩

theorem parseSrt_generateSrt (near : Near fl fl') {segments : List AsrSegment}
    (some : segments ≠ []) :
    parseSrt (generateSrt fl segments) = .ok (expected fl' 1 segments) ↔
      Held fl fl' segments ∧ ∀ segment ∈ segments, Shown segment.text := by
  have filled : expected fl' 1 segments ≠ [] := by
    cases segments with
    | nil => exact absurd rfl some
    | cons segment rest => exact List.cons_ne_nil _ _
  have read : parseSrt (generateSrt fl segments) = .ok (expected fl' 1 segments) ↔
      allEntries fl 1 segments = .ok (expected fl' 1 segments) := by
    unfold parseSrt generateSrt
    rw [parseBlocks_generated 1 some]
    cases allEntries fl 1 segments with
    | error e => exact iff_of_false (fun h => by cases h) fun h => by cases h
    | ok found =>
      show (if _ ∧ found = [] then _ else Except.ok found) = _ ↔ _
      constructor
      · intro same
        split at same
        · cases same
        · exact same
      · intro same
        rw [if_neg fun none => filled ((Except.ok.inj same).symm.trans none.2)]
        exact same
  rw [read, allEntries_iff near, allRead_iff 1 some, Held]
  constructor
  · rintro ⟨bound, all⟩
    exact ⟨⟨by omega, fun segment mem => (all segment mem).1⟩, fun segment mem =>
      (all segment mem).2⟩
  · rintro ⟨⟨bound, times⟩, shown⟩
    exact ⟨by omega, fun segment mem => ⟨times segment mem, shown segment mem⟩⟩

/-- The subtitles of a transcription come back as one entry for each merged segment exactly when
every merged text is shown and the client can hold the number of entries and their times. For the
times rounded exactly, the product of a time and 1000 must also round as its float does. -/
theorem generated_parsed_iff (cfg : MergerConfig) (language : Option Text) (first : AsrSegment)
    (rest : List AsrSegment) :
    let merged := merge cfg language (first :: rest) nearest
    let read := generate nearest cfg .srt (first :: rest) language >>= parseSrt
    (read = .ok (expected nearest 1 merged) ↔
        Held nearest nearest merged ∧ ∀ segment ∈ merged, Shown segment.text) ∧
      (read = .ok (expected id 1 merged) ↔
        Held nearest id merged ∧ ∀ segment ∈ merged, Shown segment.text) := by
  have some := merge_ne_nil nearest cfg language (List.cons_ne_nil first rest)
  dsimp only
  rw [generate_srt nearest cfg language (List.cons_ne_nil first rest)]
  exact ⟨parseSrt_generateSrt (near_self nearest) some, parseSrt_generateSrt nearest_near some⟩

-- half a millisecond, as a float a little more, is written as none
example : ¬ Timed nearest id (nearest (1 / 2000)) := by
  unfold Timed
  decide +kernel

def defaultMerger : MergerConfig := ⟨1, 6, 80, by decide⟩

def spoken : AsrSegment := ⟨0, (2 : ℕ), "first".toList, none⟩

def silent : AsrSegment := ⟨10, 12, [], none⟩

/-- The segment without a text has a block, and the client leaves it out. -/
theorem silent_not_read :
    merge defaultMerger none [spoken, silent] nearest = [spoken, silent] ∧
      (generate nearest defaultMerger .srt [spoken, silent] none >>= parseSrt) =
        .ok [⟨1, 0, 2000000, "first".toList⟩] ∧
      (expected nearest 1 [spoken, silent]).length = 2 ∧
      (expected id 1 [spoken, silent]).length = 2 := by
  decide +kernel

end KnowledgeCompanion.SubtitleRoundTrip
