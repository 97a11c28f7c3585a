import MazeDuel.Text.Blank
import MazeDuel.Text.Numeral
/-!
Whole numbers as people write them: a sign, decimal digits of any script, single underscores between
digits, and white space around it all.
-/

namespace MazeDuel.Number

/-- Numbers with more digits than this are not read. -/
def maxDigits : Nat := 4300

/-- The digits of a run in which underscores stand only between two digits. -/
def groupedDigits (afterDigit : Bool) : List Char → Option (List Char)
  | [] => if afterDigit then some [] else none
  | c :: rest =>
    if c = '_' then if afterDigit then groupedDigits false rest else none
    else if (Text.digitValue? c).isSome then (groupedDigits true rest).map (c :: ·)
    else none

def readDigits (text : List Char) : Option Nat :=
  match groupedDigits false text with
  | some digits => if digits.length ≤ maxDigits then some (Text.digitsValue digits) else none
  | none => none

/-- White space: the blanks without the four information separators. -/
def isSpace (c : Char) : Bool := Text.isBlank c && !(28 ≤ c.toNat && c.toNat ≤ 31)

def readInteger? (text : String) : Option Int :=
  match Text.trimOf isSpace text.toList with
  | '-' :: digits => (readDigits digits).map fun n => -(n : Int)
  | '+' :: digits => (readDigits digits).map Int.ofNat
  | digits => (readDigits digits).map Int.ofNat

end MazeDuel.Number
