import MazeDuel.Json.Basic
/-!
Reading JSON text. Blanks are the four of the format; a number with neither fraction nor exponent
is whole; `NaN`, `Infinity` and `-Infinity` are numbers too.
-/

namespace MazeDuel.Json

inductive ReadFault where
  | malformed
  /-- A whole number has more digits than are ever read. -/
  | numberTooLong
  deriving DecidableEq, Repr

/-- Whole numbers of more digits are refused. -/
def maxDigits : Nat := 4300

def skipBlanks (chars : List Char) : List Char :=
  chars.dropWhile fun c => c = ' ' ∨ c = '\t' ∨ c = '\n' ∨ c = '\r'

def hexValue? (c : Char) : Option Nat :=
  if '0' ≤ c ∧ c ≤ '9' then some (c.toNat - 48)
  else if 'a' ≤ c ∧ c ≤ 'f' then some (c.toNat - 87)
  else if 'A' ≤ c ∧ c ≤ 'F' then some (c.toNat - 55)
  else none

def readUnit : List Char → Option (Nat × List Char)
  | a :: b :: c :: d :: rest => do
    let a ← hexValue? a
    let b ← hexValue? b
    let c ← hexValue? c
    let d ← hexValue? d
    return (((a * 16 + b) * 16 + c) * 16 + d, rest)
  | _ => none

/-- A leading unit of a pair joined with its trailing unit, where one follows. -/
def readTrailing (unit : Nat) (rest : List Char) : Char × List Char :=
  match rest with
  | '\\' :: 'u' :: tail =>
    match readUnit tail with
    | some (low, tail) =>
      if 0xDC00 ≤ low ∧ low < 0xE000 then
        (Char.ofNat (0x10000 + (unit - 0xD800) * 0x400 + (low - 0xDC00)), tail)
      else (Char.ofNat 0xFFFD, rest)
    | none => (Char.ofNat 0xFFFD, rest)
  | _ => (Char.ofNat 0xFFFD, rest)

/-- What an escape stands for; a unit of a pair that has lost its partner becomes the replacement
character. -/
def readEscape : List Char → Option (Char × List Char)
  | '\x22' :: rest => some ('\x22', rest)
  | '\\' :: rest => some ('\\', rest)
  | '/' :: rest => some ('/', rest)
  | 'b' :: rest => some (Char.ofNat 8, rest)
  | 'f' :: rest => some (Char.ofNat 12, rest)
  | 'n' :: rest => some ('\n', rest)
  | 'r' :: rest => some ('\r', rest)
  | 't' :: rest => some ('\t', rest)
  | 'u' :: rest => do
    let (unit, rest) ← readUnit rest
    if 0xD800 ≤ unit ∧ unit < 0xDC00 then return readTrailing unit rest
    else if 0xDC00 ≤ unit ∧ unit < 0xE000 then return (Char.ofNat 0xFFFD, rest)
    else return (Char.ofNat unit, rest)
  | _ => none

/-- The rest of a string after its opening quote; control characters must be escaped. -/
def readString : Nat → List Char → List Char → Except ReadFault (String × List Char)
  | 0, _, _ => .error .malformed
  | _ + 1, _, [] => .error .malformed
  | fuel + 1, done, c :: rest =>
    if c = '\x22' then .ok (String.ofList done.reverse, rest)
    else if c = '\\' then
      match readEscape rest with
      | some (c, rest) => readString fuel (c :: done) rest
      | none => .error .malformed
    else if c.toNat < 32 then .error .malformed
    else readString fuel (c :: done) rest

def digitsOf (chars : List Char) : List Char × List Char :=
  (chars.takeWhile Char.isDigit, chars.dropWhile Char.isDigit)

def natOf (digits : List Char) : Nat :=
  digits.foldl (fun value c => value * 10 + (c.toNat - 48)) 0

/-- The float nearest to `mantissa * 10 ^ exponent`; far beyond the range it is settled by the
number of digits, so no huge power is ever formed. -/
def realOf (mantissa : Nat) (exponent : Int) : Float :=
  let size := ((toString mantissa).length : Int) + exponent
  if mantissa = 0 ∨ size < -400 then 0
  else if 400 < size then 1 / 0
  else if 0 ≤ exponent then Float.ofScientific mantissa false exponent.toNat
  else Float.ofScientific mantissa true (-exponent).toNat

def readFraction : List Char → List Char × List Char
  | '.' :: rest =>
    let (digits, tail) := digitsOf rest
    if digits.isEmpty then ([], '.' :: rest) else (digits, tail)
  | chars => ([], chars)

/-- The exponent after an `e`, if its digits are there. -/
def readExponent (chars : List Char) : Option Int × List Char :=
  match chars with
  | mark :: rest =>
    if mark = 'e' ∨ mark = 'E' then
      let (negative, rest) := match rest with
        | '-' :: tail => (true, tail)
        | '+' :: tail => (false, tail)
        | tail => (false, tail)
      let (digits, tail) := digitsOf rest
      if digits.isEmpty then (none, chars)
      else (some (if negative then -Int.ofNat (natOf digits) else Int.ofNat (natOf digits)), tail)
    else (none, chars)
  | [] => (none, [])

def readNumber (negative : Bool) (chars : List Char) : Except ReadFault (Json × List Char) :=
  let (digits, rest) := match chars with
    | '0' :: rest => (['0'], rest)
    | _ => digitsOf chars
  if digits.isEmpty then .error .malformed
  else
    let (places, rest) := readFraction rest
    let (exponent, rest) := readExponent rest
    if places.isEmpty ∧ exponent.isNone then
      if maxDigits < digits.length then .error .numberTooLong
      else
        let size := Int.ofNat (natOf digits)
        .ok (.whole (if negative then -size else size), rest)
    else
      let value := realOf (natOf (digits ++ places)) (exponent.getD 0 - places.length)
      .ok (.real (if negative then -value else value), rest)

/-- The words that stand for a value. -/
def words : List (List Char × Json) :=
  [("null".toList, .null), ("true".toList, .bool true), ("false".toList, .bool false),
    ("NaN".toList, .real (0 / 0)), ("Infinity".toList, .real (1 / 0)),
    ("-Infinity".toList, .real (-1 / 0))]

mutual

/-- One value at the start of a text with no leading blanks. The fuel bounds the nesting and the
number of items; twice the length of the text is always enough. -/
def readValue : Nat → List Char → Except ReadFault (Json × List Char)
  | 0, _ => .error .malformed
  | fuel + 1, chars =>
    match words.find? fun word => word.1.isPrefixOf chars with
    | some (word, value) => .ok (value, chars.drop word.length)
    | none =>
      match chars with
      | '\x22' :: rest => (readString (fuel + 1) [] rest).map fun (s, rest) => (.text s, rest)
      | '[' :: rest =>
        match skipBlanks rest with
        | ']' :: rest => .ok (.list [], rest)
        | rest => (readItems fuel rest).map fun (items, rest) => (.list items, rest)
      | '\x7b' :: rest =>
        match skipBlanks rest with
        | '\x7d' :: rest => .ok (.object [], rest)
        | rest => (readMembers fuel rest).map fun (members, rest) => (ofMembers members, rest)
      | '-' :: rest => readNumber true rest
      | chars => readNumber false chars

/-- Items up to the closing bracket; there is at least one. -/
def readItems : Nat → List Char → Except ReadFault (List Json × List Char)
  | 0, _ => .error .malformed
  | fuel + 1, chars => do
    let (item, rest) ← readValue fuel chars
    match skipBlanks rest with
    | ',' :: rest =>
      let (items, rest) ← readItems fuel (skipBlanks rest)
      return (item :: items, rest)
    | ']' :: rest => return ([item], rest)
    | _ => .error .malformed

/-- Members up to the closing brace; there is at least one. -/
def readMembers : Nat → List Char → Except ReadFault (List (String × Json) × List Char)
  | 0, _ => .error .malformed
  | fuel + 1, chars =>
    match chars with
    | '\x22' :: rest => do
      let (key, rest) ← readString (fuel + 1) [] rest
      match skipBlanks rest with
      | ':' :: rest => do
        let (value, rest) ← readValue fuel (skipBlanks rest)
        match skipBlanks rest with
        | ',' :: rest => do
          let (members, rest) ← readMembers fuel (skipBlanks rest)
          return ((key, value) :: members, rest)
        | '\x7d' :: rest => return ([(key, value)], rest)
        | _ => .error .malformed
      | _ => .error .malformed
    | _ => .error .malformed

end

/-- The value that a whole text stands for. -/
def parse (source : String) : Except ReadFault Json := do
  let chars := source.toList
  let (value, rest) ← readValue (2 * chars.length + 2) (skipBlanks chars)
  if (skipBlanks rest).isEmpty then return value else .error .malformed

end MazeDuel.Json
