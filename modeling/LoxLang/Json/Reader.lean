import LoxLang.Json.Value
import LoxLang.Number.Decimal

/-!
# Reading JSON text

A reader for one JSON document with blanks around it. Beyond JSON proper it knows the constants
`NaN`, `Infinity` and `-Infinity`. A number with a fraction or an exponent is rounded to a double; a
whole number is kept exactly, up to a number of digits that bounds the work of reading it.
-/

namespace LoxLang.Json

/-- Why a text is no document. -/
inductive ReadError where
  | malformed
  /-- A whole number with more digits than are read. -/
  | tooManyDigits (count : Nat)
deriving DecidableEq, Repr

/-- The number of digits that a whole number may have. -/
def digitLimit : Nat := 4300

/-- A blank between the parts of a document. -/
def isGap (character : Char) : Bool :=
  character = ' ' || character = '\t' || character = '\n' || character = '\r'

/-- The text after the blanks in front of it. -/
def skipGap (text : List Char) : List Char := text.dropWhile isGap

/-- The value of a hexadecimal digit. -/
def hexValue? (character : Char) : Option Nat :=
  if Number.isDigit character then some (Number.digitValue character)
  else if 'a' ≤ character ∧ character ≤ 'f' then some (character.toNat - 'a'.toNat + 10)
  else if 'A' ≤ character ∧ character ≤ 'F' then some (character.toNat - 'A'.toNat + 10)
  else none

/-- The number that four hexadecimal digits spell. -/
def hexNumber? (first second third fourth : Char) : Option Nat := do
  let first ← hexValue? first
  let second ← hexValue? second
  let third ← hexValue? third
  let fourth ← hexValue? fourth
  return ((first * 16 + second) * 16 + third) * 16 + fourth

/-- The character of a code point. Half of a surrogate pair is no character and is replaced. -/
def characterOf (point : Nat) : Char :=
  if 0xD800 ≤ point ∧ point ≤ 0xDFFF then '\ufffd' else .ofNat point

/-- The code point of a surrogate pair. -/
def pairPoint (high low : Nat) : Nat := 0x10000 + (high - 0xD800) * 0x400 + (low - 0xDC00)

/-- The character that a backslash with this letter stands for. -/
def shortEscape? : Char → Option Char
  | '"' => some '"'
  | '\\' => some '\\'
  | '/' => some '/'
  | 'b' => some '\x08'
  | 'f' => some '\x0c'
  | 'n' => some '\n'
  | 'r' => some '\r'
  | 't' => some '\t'
  | _ => none

/-- The low half of a surrogate pair that goes on a high half, with the text after it. -/
def lowHalf? (high : Nat) : List Char → Option (Nat × List Char)
  | '\\' :: 'u' :: first :: second :: third :: fourth :: rest =>
    match hexNumber? first second third fourth with
    | some low =>
      if 0xD800 ≤ high ∧ high ≤ 0xDBFF ∧ 0xDC00 ≤ low ∧ low ≤ 0xDFFF then some (low, rest)
      else none
    | none => none
  | _ => none

/-- The rest of a string up to its closing quote, after the characters already read, with the text
after the string. No more escapes and characters are read than `budget` has characters. -/
def stringOnto (read : List Char) :
    (budget text : List Char) → Except ReadError (String × List Char)
  | _ :: budget, '\\' :: 'u' :: first :: second :: third :: fourth :: rest =>
    match hexNumber? first second third fourth with
    | none => .error .malformed
    | some point =>
      match lowHalf? point rest with
      | some (low, rest) => stringOnto (.ofNat (pairPoint point low) :: read) budget rest
      | none => stringOnto (characterOf point :: read) budget rest
  | _ :: budget, '\\' :: letter :: rest =>
    match shortEscape? letter with
    | some character => stringOnto (character :: read) budget rest
    | none => .error .malformed
  | _ :: budget, character :: rest =>
    if character = '"' then .ok (.ofList read.reverse, rest)
    else if character.toNat < 0x20 ∨ character = '\\' then .error .malformed
    else stringOnto (character :: read) budget rest
  | _, _ => .error .malformed

/-- A string, after its opening quote. Its escapes and characters are no more than the text has. -/
def stringAfterQuote (text : List Char) : Except ReadError (String × List Char) :=
  stringOnto [] text text

/-- The whole part of a number: a zero, or digits that do not begin with one. -/
def wholePart? : List Char → Option (List Char × List Char)
  | '0' :: rest => some (['0'], rest)
  | text =>
    let whole := text.takeWhile Number.isDigit
    if whole.isEmpty then none else some (whole, text.dropWhile Number.isDigit)

/-- The fraction digits of a number, if a point with a digit follows. -/
def fractionPart : List Char → List Char × List Char
  | '.' :: rest =>
    let fraction := rest.takeWhile Number.isDigit
    if fraction.isEmpty then ([], '.' :: rest) else (fraction, rest.dropWhile Number.isDigit)
  | text => ([], text)

/-- The exponent of a number, if a mark with at least one digit follows. -/
def exponentPart? : List Char → Option (Int × List Char)
  | mark :: rest =>
    if mark = 'e' ∨ mark = 'E' then
      let (negative, tail) := Number.splitSign rest
      let digits := tail.takeWhile Number.isDigit
      if digits.isEmpty then none
      else
        let magnitude : Int := Number.ofDigits digits
        some (if negative then -magnitude else magnitude, tail.dropWhile Number.isDigit)
    else none
  | [] => none

/-- The sign of a number, if it has one. -/
def minusSign : List Char → Bool × List Char
  | '-' :: rest => (true, rest)
  | text => (false, text)

/-- A number. -/
def numberOf (text : List Char) : Except ReadError (Json × List Char) :=
  let (negative, unsigned) := minusSign text
  match wholePart? unsigned with
  | none => .error .malformed
  | some (whole, afterWhole) =>
    let (fraction, afterFraction) := fractionPart afterWhole
    match fraction, exponentPart? afterFraction with
    | [], none =>
      if digitLimit < whole.length then .error (.tooManyDigits whole.length)
      else
        let magnitude : Int := Number.ofDigits whole
        .ok (.integer (if negative then -magnitude else magnitude), afterFraction)
    | _, none =>
      .ok (.number ((Number.Decimal.ofParts whole fraction 0).toFloat negative), afterFraction)
    | _, some (exponent, rest) =>
      .ok (.number ((Number.Decimal.ofParts whole fraction exponent).toFloat negative), rest)

/-- The text after a word that stands in front of it. -/
def after? (word text : List Char) : Option (List Char) :=
  if word.isPrefixOf text then some (text.drop word.length) else none

/-- The constants with their names. -/
def constants : List (List Char × Json) := [
  ("null".toList, .null), ("true".toList, .bool true), ("false".toList, .bool false),
  ("NaN".toList, .number Number.notANumber),
  ("Infinity".toList, .number (Number.infinity false)),
  ("-Infinity".toList, .number (Number.infinity true))]

/-- A constant or a number. -/
def atom (text : List Char) : Except ReadError (Json × List Char) :=
  match constants.findSome? fun (name, value) => (after? name text).map (value, ·) with
  | some found => .ok found
  | none => numberOf text

mutual

/-- A document without blanks in front. -/
def value : Nat → List Char → Except ReadError (Json × List Char)
  | 0, _ => .error .malformed
  | fuel + 1, text =>
    match text with
    | '"' :: rest =>
      match stringAfterQuote rest with
      | .error error => .error error
      | .ok (content, rest) => .ok (.string content, rest)
    | '[' :: rest =>
      match skipGap rest with
      | ']' :: rest => .ok (.array [], rest)
      | rest => itemsOnto fuel [] rest
    | '\x7b' :: rest =>
      match skipGap rest with
      | '\x7d' :: rest => .ok (.object [], rest)
      | rest => fieldsOnto fuel [] rest
    | text => atom text

/-- The items of a list from the next one on, after those already read. -/
def itemsOnto : Nat → List Json → List Char → Except ReadError (Json × List Char)
  | 0, _, _ => .error .malformed
  | fuel + 1, read, text =>
    match value fuel text with
    | .error error => .error error
    | .ok (item, rest) =>
      match skipGap rest with
      | ',' :: rest => itemsOnto fuel (item :: read) (skipGap rest)
      | ']' :: rest => .ok (.array (item :: read).reverse, rest)
      | _ => .error .malformed

/-- The fields of an object from the next one on, after those already read. -/
def fieldsOnto : Nat → List (String × Json) → List Char → Except ReadError (Json × List Char)
  | 0, _, _ => .error .malformed
  | fuel + 1, read, text =>
    match text with
    | '"' :: rest =>
      match stringAfterQuote rest with
      | .error error => .error error
      | .ok (name, rest) =>
        match skipGap rest with
        | ':' :: rest =>
          match value fuel (skipGap rest) with
          | .error error => .error error
          | .ok (item, rest) =>
            match skipGap rest with
            | ',' :: rest => fieldsOnto fuel ((name, item) :: read) (skipGap rest)
            | '\x7d' :: rest => .ok (.ofFields ((name, item) :: read).reverse, rest)
            | _ => .error .malformed
        | _ => .error .malformed
    | _ => .error .malformed

end

/-- Reads a text that holds one document and nothing else but blanks. -/
def ofText (text : String) : Except ReadError Json :=
  let characters := text.toList
  match value (characters.length + 1) (skipGap characters) with
  | .error error => .error error
  | .ok (document, rest) =>
    if (skipGap rest).isEmpty then .ok document else .error .malformed

end LoxLang.Json
