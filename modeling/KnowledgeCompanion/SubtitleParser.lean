import KnowledgeCompanion.DartText

/-! Reading subtitles in the client (`data/repositories/content_repository_impl.dart`). -/

namespace KnowledgeCompanion.SubtitleParser

open DartText

structure SubtitleSegment where
  index : ℤ
  start : ℤ
  stop : ℤ
  text : Text
deriving DecidableEq

def intParse (source : Text) : Except String ℤ :=
  match intTryParse source with
  | none => .error "Invalid number"
  | some value => .ok value

def duration (hours minutes seconds milliseconds : ℤ) : ℤ :=
  Int.bmod ((((hours * 60 + minutes) * 60 + seconds) * 1000 + milliseconds) * 1000) (2 ^ 64)

def parseSeconds (secondsAndMillis : Text) : Except String (ℤ × ℤ) :=
  match secondsAndMillis.splitOn ',' with
  | seconds :: millis :: _ => do return (← intParse seconds, ← intParse millis)
  | seconds :: [] => do return (← intParse seconds, 0)
  | [] => .error "Invalid timecode"

def parseTimecode (timecode : Text) : Except String ℤ :=
  let normalized := (trim timecode).map fun c => if c = '.' then ',' else c
  match normalized.splitOn ':' with
  | [hours, minutes, secondsAndMillis] => do
    let hours ← intParse hours
    let minutes ← intParse minutes
    let (seconds, millis) ← parseSeconds secondsAndMillis
    return duration hours minutes seconds millis
  | _ => .error "Invalid timecode"

def parseHead (indexLine timeLine : Text) : Except String (Option (ℤ × ℤ × ℤ)) :=
  match intTryParse (trim indexLine) with
  | none => .error "Invalid subtitle index"
  | some index =>
    match cutFirst " --> ".toList timeLine with
    | none => .ok none
    | some (before, after) => do
      let start ← parseTimecode before
      let stop ← parseTimecode after
      return some (index, start, stop)

def parseSrtBlock (block : Text) : Except String (Option SubtitleSegment) :=
  if block = [] then .ok none
  else
    match block.splitOn '\n' with
    | indexLine :: timeLine :: line :: lines => do
      match ← parseHead indexLine timeLine with
      | none => return none
      | some (index, start, stop) =>
        return some ⟨index, start, stop, trim (['\n'].intercalate (line :: lines))⟩
    | _ => .ok none

def parseBlocks : List Text → Except String (List SubtitleSegment)
  | [] => .ok []
  | block :: blocks => do
    let segment ← parseSrtBlock (trim block)
    let segments ← parseBlocks blocks
    return segment.toList ++ segments

def parseSrt (srt : Text) : Except String (List SubtitleSegment) := do
  let segments ← parseBlocks (splitBlankLine srt)
  if trim srt ≠ [] ∧ segments = [] then .error "No valid SRT segments found"
  else return segments

end KnowledgeCompanion.SubtitleParser
