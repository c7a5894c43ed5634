import Mathlib.Algebra.Ring.Int.Defs
import Mathlib.Data.List.Basic
import Mathlib.Tactic.Common
import KnowledgeCompanion.Text

/-! JSON texts as `encoding/json` decodes them into an `any`. A number keeps its
text; an object keeps one member for each key, the last one written. -/

namespace KnowledgeCompanion.JsonText

inductive Json
  | null
  | bool (b : Bool)
  | number (text : Text)
  | string (s : Text)
  | array (items : List Json)
  | object (members : List (Text × Json))

def skipSpace (text : Text) : Text :=
  text.dropWhile fun c => c == ' ' || c == '\t' || c == '\n' || c == '\r'

def hexValue (c : Char) : Option ℕ :=
  if '0' ≤ c ∧ c ≤ '9' then some (c.toNat - '0'.toNat)
  else if 'a' ≤ c ∧ c ≤ 'f' then some (c.toNat - 'a'.toNat + 10)
  else if 'A' ≤ c ∧ c ≤ 'F' then some (c.toNat - 'A'.toNat + 10)
  else none

def hexUnit (a b c d : Char) : Option ℕ := do
  let a ← hexValue a
  let b ← hexValue b
  let c ← hexValue c
  let d ← hexValue d
  return ((a * 16 + b) * 16 + c) * 16 + d

def escapeChar (c : Char) : Option Char :=
  match c with
  | '"' => some '"'
  | '\\' => some '\\'
  | '/' => some '/'
  | 'b' => some '\x08'
  | 'f' => some '\x0c'
  | 'n' => some '\n'
  | 'r' => some '\r'
  | 't' => some '\t'
  | _ => none

/-- A character of a string as it is written, or a code unit written as `\uXXXX`. -/
inductive StringUnit
  | char (c : Char)
  | code (n : ℕ)

def scanString : Text → Option (List StringUnit × Text)
  | [] => none
  | '"' :: rest => some ([], rest)
  | ['\\'] => none
  | '\\' :: 'u' :: a :: b :: c :: d :: rest => do
    let n ← hexUnit a b c d
    let (units, rest) ← scanString rest
    return (.code n :: units, rest)
  | '\\' :: c :: rest => do
    let c ← escapeChar c
    let (units, rest) ← scanString rest
    return (.char c :: units, rest)
  | c :: rest =>
    if c < ' ' then none
    else do
      let (units, rest) ← scanString rest
      return (.char c :: units, rest)

def replacementChar : Char := '\uFFFD'

def isHighSurrogate (n : ℕ) : Bool := 0xD800 ≤ n && n < 0xDC00

def isLowSurrogate (n : ℕ) : Bool := 0xDC00 ≤ n && n < 0xE000

def codeChar (n : ℕ) : Char :=
  if isHighSurrogate n || isLowSurrogate n then replacementChar else Char.ofNat n

def decodeUnits : List StringUnit → Text
  | [] => []
  | .char c :: rest => c :: decodeUnits rest
  | .code high :: .code low :: rest =>
    if isHighSurrogate high && isLowSurrogate low then
      Char.ofNat (0x10000 + (high - 0xD800) * 0x400 + (low - 0xDC00)) :: decodeUnits rest
    else codeChar high :: decodeUnits (.code low :: rest)
  | .code n :: rest => codeChar n :: decodeUnits rest

def parseString (text : Text) : Option (Text × Text) :=
  (scanString text).map fun (units, rest) => (decodeUnits units, rest)

structure NumberParts where
  whole : Text
  fraction : Text
  exponent : ℤ

def digitsValue (digits : Text) : ℕ :=
  digits.foldl (fun n c => n * 10 + (c.toNat - '0'.toNat)) 0

def exponentPart : Text → Option ℤ
  | [] => some 0
  | c :: rest =>
    if c == 'e' || c == 'E' then
      match rest with
      | '-' :: digits =>
        if digits.isEmpty || !digits.all Char.isDigit then none
        else some (-(digitsValue digits : ℤ))
      | '+' :: digits =>
        if digits.isEmpty || !digits.all Char.isDigit then none else some (digitsValue digits)
      | digits =>
        if digits.isEmpty || !digits.all Char.isDigit then none else some (digitsValue digits)
    else none

def numberParts (text : Text) : Option NumberParts :=
  let whole := text.takeWhile Char.isDigit
  if whole.isEmpty || (whole.head? == some '0' && 1 < whole.length) then none
  else
    match text.dropWhile Char.isDigit with
    | '.' :: rest =>
      let fraction := rest.takeWhile Char.isDigit
      if fraction.isEmpty then none
      else (exponentPart (rest.dropWhile Char.isDigit)).map fun e => ⟨whole, fraction, e⟩
    | rest => (exponentPart rest).map fun e => ⟨whole, [], e⟩

def floatLimit : ℕ := 2 ^ 1024 - 2 ^ 970

def NumberParts.overflows (n : NumberParts) : Bool :=
  let digits := n.whole ++ n.fraction
  let mantissa := digitsValue digits
  let exponent := n.exponent - n.fraction.length
  if mantissa == 0 || exponent + digits.length ≤ 308 then false
  else if 0 ≤ exponent then 400 < exponent || floatLimit ≤ mantissa * 10 ^ exponent.toNat
  else floatLimit * 10 ^ (-exponent).toNat ≤ mantissa

def isNumberChar (c : Char) : Bool := c.isDigit || "+-.eE".toList.contains c

def parseNumber (text : Text) : Option (Json × Text) :=
  let literal := text.takeWhile isNumberChar
  let unsigned := if literal.head? == some '-' then literal.tail else literal
  match numberParts unsigned with
  | none => none
  | some parts =>
    if parts.overflows then none else some (.number literal, text.dropWhile isNumberChar)

def parseWord (word : Text) (value : Json) (text : Text) : Option (Json × Text) :=
  if word.isPrefixOf text then some (value, text.drop word.length) else none

def parseAtom (text : Text) : Option (Json × Text) :=
  match text with
  | 'n' :: _ => parseWord "null".toList .null text
  | 't' :: _ => parseWord "true".toList (.bool true) text
  | 'f' :: _ => parseWord "false".toList (.bool false) text
  | _ => parseNumber text

def setMember (members : List (Text × Json)) (key : Text) (value : Json) : List (Text × Json) :=
  members.filter (fun m => m.1 != key) ++ [(key, value)]

mutual

def parseValue : ℕ → Text → Option (Json × Text)
  | 0, _ => none
  | fuel + 1, text =>
    match skipSpace text with
    | '"' :: rest => (parseString rest).map fun (s, rest) => (.string s, rest)
    | '[' :: rest =>
      match skipSpace rest with
      | ']' :: rest => some (.array [], rest)
      | _ => (parseItems fuel [] rest).map fun (items, rest) => (.array items, rest)
    | '{' :: rest =>
      match skipSpace rest with
      | '}' :: rest => some (.object [], rest)
      | _ => (parseMembers fuel [] rest).map fun (members, rest) => (.object members, rest)
    | rest => parseAtom rest

def parseItems : ℕ → List Json → Text → Option (List Json × Text)
  | 0, _, _ => none
  | fuel + 1, items, text =>
    match parseValue fuel text with
    | none => none
    | some (item, rest) =>
      match skipSpace rest with
      | ',' :: rest => parseItems fuel (items ++ [item]) rest
      | ']' :: rest => some (items ++ [item], rest)
      | _ => none

def parseMembers : ℕ → List (Text × Json) → Text → Option (List (Text × Json) × Text)
  | 0, _, _ => none
  | fuel + 1, members, text =>
    match skipSpace text with
    | '"' :: rest =>
      match parseString rest with
      | none => none
      | some (key, rest) =>
        match skipSpace rest with
        | ':' :: rest =>
          match parseValue fuel rest with
          | none => none
          | some (value, rest) =>
            match skipSpace rest with
            | ',' :: rest => parseMembers fuel (setMember members key value) rest
            | '}' :: rest => some (setMember members key value, rest)
            | _ => none
        | _ => none
    | _ => none

end

/-- `json.Unmarshal` into an `any`; every nested call of the parser has read a character
or is one of the two for the next value. -/
def unmarshal (text : Text) : Option Json :=
  match parseValue (2 * text.length + 2) text with
  | none => none
  | some (value, rest) => if skipSpace rest = [] then some value else none

/-- `json.Unmarshal` into a `map[string]any`, which takes `null` for the empty map. -/
def unmarshalMap (text : Text) : Option (List (Text × Json)) :=
  match unmarshal text with
  | some (.object members) => some members
  | some .null => some []
  | _ => none

def member (members : List (Text × Json)) (key : Text) : Option Json :=
  (members.find? fun m => m.1 == key).map Prod.snd

end KnowledgeCompanion.JsonText
