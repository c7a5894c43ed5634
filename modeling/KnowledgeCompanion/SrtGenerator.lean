import KnowledgeCompanion.SegmentMerger

/-! Subtitles from transcription segments (`services/srt_generator.py`, `utils/timecode.py`). -/

namespace KnowledgeCompanion.SrtGenerator

open Binary64 PythonText SegmentMerger

def padded (width n : ℕ) : Text := (decimal n).leftpad width '0'

/-- `fl` says how the product is held; Python's `round` is `halfEven`. -/
def millis (seconds : NNRat) (fl : NNRat → NNRat := id) : ℕ :=
  (halfEven (fl (seconds * 1000))).toNat

def formatTimecode (seconds : ℚ) (separator : Text) (fl : NNRat → NNRat := id) : Text :=
  let seconds : NNRat := if seconds < 0 then 0 else seconds.toNNRat
  let ms := millis seconds fl
  padded 2 (ms / 3600000) ++ ':' :: (padded 2 (ms % 3600000 / 60000) ++
    ':' :: (padded 2 (ms % 60000 / 1000) ++ separator ++ padded 3 (ms % 1000)))

def srtTimecode (seconds : ℚ) (fl : NNRat → NNRat := id) : Text :=
  formatTimecode seconds [','] fl

variable (fl : NNRat → NNRat)

def timeLine (segment : AsrSegment) : Text :=
  srtTimecode segment.start fl ++ " --> ".toList ++ srtTimecode segment.stop fl

def srtBlock (index : ℕ) (segment : AsrSegment) : Text :=
  decimal index ++ '\n' :: (timeLine fl segment ++ '\n' :: (segment.text ++ ['\n']))

def srtBlocks : ℕ → List AsrSegment → List Text
  | _, [] => []
  | index, segment :: rest => srtBlock fl index segment :: srtBlocks (index + 1) rest

def generateSrt (segments : List AsrSegment) : Text :=
  ['\n'].intercalate (srtBlocks fl 1 segments)

def generateVtt (segments : List AsrSegment) : Text :=
  let lines := segments.flatMap fun segment =>
    [formatTimecode segment.start ['.'] fl ++ " --> ".toList ++
      formatTimecode segment.stop ['.'] fl, segment.text, []]
  ['\n'].intercalate ("WEBVTT".toList :: [] :: lines)

inductive OutputFormat
  | srt
  | vtt
deriving DecidableEq

def generate (cfg : MergerConfig) (format : OutputFormat) (segments : List AsrSegment)
    (language : Option Text) : Except String Text :=
  if segments = [] then .error "EMPTY_SEGMENTS"
  else
    let merged := merge cfg language segments fl
    if merged = [] then .error "EMPTY_SEGMENTS"
    else
      match format with
      | .vtt => .ok (generateVtt fl merged)
      | .srt => .ok (generateSrt fl merged)

theorem generate_srt (cfg : MergerConfig) (language : Option Text) {segments : List AsrSegment}
    (some : segments ≠ []) :
    generate fl cfg .srt segments language =
      .ok (generateSrt fl (merge cfg language segments fl)) := by
  unfold generate
  rw [if_neg some]
  exact if_neg (merge_ne_nil fl cfg language some)

end KnowledgeCompanion.SrtGenerator
