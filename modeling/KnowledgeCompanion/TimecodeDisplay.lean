import KnowledgeCompanion.SrtListView
import KnowledgeCompanion.SubtitleRoundTrip

/-! The times that the client shows (`formatSrtTimecode` in `widgets/srt_list_view.dart`)
against those that the worker writes and the client reads. -/

namespace KnowledgeCompanion.TimecodeDisplay

open Binary64 SrtGenerator SubtitleParser SubtitleRoundTrip

def padLeft (width : ℕ) (n : ℤ) : Text :=
  (if 0 ≤ n then PythonText.decimal n.toNat else '-' :: PythonText.decimal (-n).toNat).leftpad
    width '0'

def inHours (d : ℤ) : ℤ := d.tdiv 3600000000

def inMinutes (d : ℤ) : ℤ := d.tdiv 60000000

def inMilliseconds (d : ℤ) : ℤ := d.tdiv 1000

def formatSrtTimecode (d : ℤ) : Text :=
  let hours := padLeft 2 (inHours d)
  let minutes := padLeft 2 ((inMinutes d).tmod 60)
  let seconds := padLeft 2 ((SrtListView.inSeconds d).tmod 60)
  let millis := padLeft 3 ((inMilliseconds d).tmod 1000)
  hours ++ ':' :: (minutes ++ ':' :: (seconds ++ ',' :: millis))

theorem padLeft_natCast (width n : ℕ) : padLeft width n = padded width n := by
  unfold padLeft padded
  rw [if_pos (Int.natCast_nonneg n), Int.toNat_natCast]

theorem formatSrtTimecode_eq (d : ℕ) :
    formatSrtTimecode d = padded 2 (d / 1000 / 3600000) ++
      ':' :: (padded 2 (d / 1000 % 3600000 / 60000) ++
        ':' :: (padded 2 (d / 1000 % 60000 / 1000) ++ ',' :: padded 3 (d / 1000 % 1000))) := by
  have hours : inHours d = (d / 1000 / 3600000 : ℕ) := by
    unfold inHours
    rw [Int.tdiv_eq_ediv_of_nonneg (Int.natCast_nonneg d)]
    omega
  have minutes : (inMinutes d).tmod 60 = (d / 1000 % 3600000 / 60000 : ℕ) := by
    unfold inMinutes
    rw [Int.tdiv_eq_ediv_of_nonneg (Int.natCast_nonneg d), Int.tmod_eq_emod_of_nonneg (by omega)]
    omega
  have seconds : (SrtListView.inSeconds d).tmod 60 = (d / 1000 % 60000 / 1000 : ℕ) := by
    unfold SrtListView.inSeconds
    rw [Int.tdiv_eq_ediv_of_nonneg (Int.natCast_nonneg d), Int.tmod_eq_emod_of_nonneg (by omega)]
    omega
  have millis : (inMilliseconds d).tmod 1000 = (d / 1000 % 1000 : ℕ) := by
    unfold inMilliseconds
    rw [Int.tdiv_eq_ediv_of_nonneg (Int.natCast_nonneg d), Int.tmod_eq_emod_of_nonneg (by omega)]
    omega
  unfold formatSrtTimecode
  rw [hours, minutes, seconds, millis]
  simp only [padLeft_natCast]

theorem millis_div (n : ℕ) : millis ((n : NNRat) / 1000) = n := by
  have whole : (n : NNRat) / 1000 * 1000 = n := div_mul_cancel₀ _ (by norm_num)
  unfold millis
  rw [whole, id, NNRat.cast_natCast, halfEven_natCast, Int.toNat_natCast]

/-- The client shows a time just as the worker writes it, and reads back what it shows. -/
theorem timecode_round_trip {d : ℕ} (small : d < 2 ^ 63) :
    formatSrtTimecode d = srtTimecode ((d / 1000 : ℕ) / 1000 : NNRat) ∧
      parseTimecode (formatSrtTimecode d) = .ok ((d / 1000 * 1000 : ℕ) : ℤ) ∧
      ∀ (fl : NNRat → NNRat) (seconds : NNRat),
        parseTimecode (srtTimecode seconds fl) = .ok (d : ℤ) →
          roundedMicros seconds fl < 2 ^ 63 →
            formatSrtTimecode d = srtTimecode seconds fl := by
  have shown : formatSrtTimecode d = srtTimecode ((d / 1000 : ℕ) / 1000 : NNRat) := by
    rw [formatSrtTimecode_eq, srtTimecode_eq, millis_div]
  have micros : roundedMicros ((d / 1000 : ℕ) / 1000 : NNRat) = ((d / 1000 * 1000 : ℕ) : ℤ) := by
    rw [roundedMicros, millis_div]
    omega
  refine ⟨shown, ?_, fun fl seconds read bound => ?_⟩
  · have fits : roundedMicros ((d / 1000 : ℕ) / 1000 : NNRat) < 2 ^ 63 := by
      rw [micros]
      omega
    rw [shown, (parseTimecode_srt_iff (near_self id) _).mpr ⟨fits, rfl⟩, micros]
  · have same : (d : ℤ) = roundedMicros seconds fl :=
      Except.ok.inj (read.symm.trans
        ((parseTimecode_srt_iff (near_self fl) seconds).mpr ⟨bound, rfl⟩))
    have parts : d / 1000 = millis seconds fl := by
      rw [roundedMicros] at same
      omega
    rw [formatSrtTimecode_eq, srtTimecode_eq, parts]

theorem timecode_round_trip_hour :
    formatSrtTimecode (3723004567 : ℕ) = srtTimecode ((3723004567 / 1000 : ℕ) / 1000 : NNRat) ∧
      parseTimecode (formatSrtTimecode (3723004567 : ℕ)) =
        .ok ((3723004567 / 1000 * 1000 : ℕ) : ℤ) ∧
      ∀ (fl : NNRat → NNRat) (seconds : NNRat),
        parseTimecode (srtTimecode seconds fl) = .ok ((3723004567 : ℕ) : ℤ) →
          roundedMicros seconds fl < 2 ^ 63 →
            formatSrtTimecode (3723004567 : ℕ) = srtTimecode seconds fl :=
  timecode_round_trip (by decide)

end KnowledgeCompanion.TimecodeDisplay
