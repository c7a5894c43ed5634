import Mathlib.Data.List.Sort
import Mathlib.Data.NNRat.Defs
import Mathlib.Algebra.Order.Field.Rat
import KnowledgeCompanion.Binary64
import KnowledgeCompanion.PythonText

/-! Merging and splitting transcription segments into subtitles
(`services/segment_merger.py`). Times are the rationals that the floats stand for. The last
argument of the operations says how a result is held: `Binary64.nearest` for the arithmetic of
the floats; without it the arithmetic is exact. -/

namespace KnowledgeCompanion.SegmentMerger

open Binary64 PythonText

/-- Times are not negative (`ge=0` in `models/asr.py`). -/
structure AsrSegment where
  start : NNRat
  stop : NNRat
  text : Text
  confidence : Option ℚ
deriving DecidableEq

/-- `range` refuses a step of zero. -/
structure MergerConfig where
  minDuration : ℚ
  maxDuration : ℚ
  maxChars : ℕ
  positive : 0 < maxChars

def spacelessLanguages : List Text :=
  ["zh".toList, "zh-cn".toList, "zh-tw".toList, "ja".toList, "ko".toList]

def joinText (left right : Text) (language : Option Text) : Text :=
  if language ∈ spacelessLanguages.map some then left ++ right
  else strip (left ++ ' ' :: right)

/-- The pieces of `maxChars` characters; the length of the text is enough fuel. -/
def chunks (maxChars : ℕ) : ℕ → Text → List Text
  | 0, _ => []
  | fuel + 1, text =>
    if text = [] then [] else text.take maxChars :: chunks maxChars fuel (text.drop maxChars)

def pieces (segment : AsrSegment) (fl : NNRat → NNRat) (currentStart : NNRat) :
    List Text → List AsrSegment
  | [] => []
  | [chunk] => [⟨currentStart, segment.stop, chunk, segment.confidence⟩]
  | chunk :: rest =>
    let duration := fl (segment.stop - segment.start)
    let ratio : NNRat := fl (chunk.length / segment.text.length)
    let stop := min (fl (currentStart + fl (duration * ratio))) segment.stop
    ⟨currentStart, stop, chunk, segment.confidence⟩ :: pieces segment fl stop rest

def splitLongSegment (segment : AsrSegment) (maxChars : ℕ) (fl : NNRat → NNRat := id) :
    List AsrSegment :=
  if segment.text.length ≤ maxChars then [segment]
  else pieces segment fl segment.start (chunks maxChars segment.text.length segment.text)

def ensureMaxChars (cfg : MergerConfig) (segment : AsrSegment) (fl : NNRat → NNRat := id) :
    List AsrSegment :=
  if segment.text.length ≤ cfg.maxChars then [segment]
  else splitLongSegment segment cfg.maxChars fl

def normalize (segments : List AsrSegment) : List AsrSegment :=
  (segments.insertionSort fun a b => a.start ≤ b.start).map fun segment =>
    let start := max segment.start 0
    { segment with start, stop := if segment.stop < start then start else segment.stop }

def shouldMerge (cfg : MergerConfig) (language : Option Text) (current segment : AsrSegment)
    (fl : NNRat → NNRat := id) : Bool :=
  let candidateDuration := difference fl segment.stop current.start
  let candidateChars := (joinText current.text segment.text language).length
  candidateDuration < cfg.minDuration ||
    (candidateDuration < cfg.maxDuration && candidateChars < cfg.maxChars)

def mergeFrom (cfg : MergerConfig) (language : Option Text) (fl : NNRat → NNRat)
    (current : AsrSegment) : List AsrSegment → List AsrSegment
  | [] => ensureMaxChars cfg current fl
  | segment :: rest =>
    if shouldMerge cfg language current segment fl then
      mergeFrom cfg language fl
        { current with
          stop := segment.stop
          text := joinText current.text segment.text language } rest
    else ensureMaxChars cfg current fl ++ mergeFrom cfg language fl segment rest

def merge (cfg : MergerConfig) (language : Option Text) (segments : List AsrSegment)
    (fl : NNRat → NNRat := id) : List AsrSegment :=
  match normalize segments with
  | [] => []
  | current :: rest => mergeFrom cfg language fl current rest

variable (fl : NNRat → NNRat)

theorem pieces_ne_nil (segment : AsrSegment) (currentStart : NNRat) {chunks : List Text}
    (some : chunks ≠ []) : pieces segment fl currentStart chunks ≠ [] := by
  cases chunks with
  | nil => exact absurd rfl some
  | cons chunk rest => cases rest <;> exact List.cons_ne_nil _ _

theorem ensureMaxChars_ne_nil (cfg : MergerConfig) (segment : AsrSegment) :
    ensureMaxChars cfg segment fl ≠ [] := by
  unfold ensureMaxChars
  split
  · exact List.cons_ne_nil _ _
  · rename_i long
    unfold splitLongSegment
    rw [if_neg long]
    refine pieces_ne_nil fl segment segment.start ?_
    cases text : segment.text with
    | nil => exact absurd (by rw [text]; exact Nat.zero_le _) long
    | cons c rest =>
      rw [List.length_cons, chunks, if_neg (List.cons_ne_nil c rest)]
      exact List.cons_ne_nil _ _

theorem mergeFrom_ne_nil (cfg : MergerConfig) (language : Option Text) (current : AsrSegment)
    (rest : List AsrSegment) : mergeFrom cfg language fl current rest ≠ [] := by
  induction rest generalizing current with
  | nil => exact ensureMaxChars_ne_nil fl cfg current
  | cons segment rest ih =>
    unfold mergeFrom
    split
    · exact ih _
    · exact List.append_ne_nil_of_left_ne_nil (ensureMaxChars_ne_nil fl cfg current) _

theorem merge_ne_nil (cfg : MergerConfig) (language : Option Text) {segments : List AsrSegment}
    (some : segments ≠ []) : merge cfg language segments fl ≠ [] := by
  unfold merge
  cases normal : normalize segments with
  | nil =>
    have length := congrArg List.length normal
    rw [normalize, List.length_map, List.length_insertionSort] at length
    exact absurd (List.eq_nil_of_length_eq_zero length) some
  | cons current rest => exact mergeFrom_ne_nil fl cfg language current rest

end KnowledgeCompanion.SegmentMerger
