import MazeDuel.Json.Display
/-!
Quantities: numbers that are kept as they were given. A whole number stays whole and a real stays
real; a truth value counts as one or zero. Arithmetic on whole quantities is exact, and its result
is whole; as soon as a real takes part the result is a real.
-/

namespace MazeDuel

inductive Quantity where
  | whole (value : Int)
  | real (value : Float)
  | flag (value : Bool)
  deriving DecidableEq, Repr, Inhabited

namespace Quantity

instance : Coe Int Quantity := ⟨whole⟩

def toJson : Quantity → Json
  | whole n => .whole n
  | real x => .real x
  | flag b => .bool b

def ofJson? : Json → Option Quantity
  | .whole n => some (whole n)
  | .real x => some (real x)
  | .bool b => some (flag b)
  | _ => none

@[simp] theorem ofJson?_toJson (q : Quantity) : ofJson? q.toJson = some q := by cases q <;> rfl

def display (q : Quantity) : String := q.toJson.display

def hasText (q : Quantity) : Bool := q.toJson.hasText

def toInt? : Quantity → Option Int
  | whole n => some n
  | real _ => none
  | flag b => some (if b then 1 else 0)

def toFloat : Quantity → Float
  | whole n => Float.ofInt n
  | real x => x
  | flag b => if b then 1 else 0

/-- Whether the quantity can stand beside a real: a whole number may be too large for that. -/
def fitsReal (q : Quantity) : Bool := q.toInt?.isNone || q.toFloat.isFinite

/-- How two quantities compare, without any rounding; nothing compares with what is no number. -/
def compare? (a b : Quantity) : Option Ordering :=
  match a.toInt?, b.toInt? with
  | some m, some n => some (compare m n)
  | some m, none => Number.compareWhole m b.toFloat
  | none, some n => (Number.compareWhole n a.toFloat).map Ordering.swap
  | none, none =>
    if a.toFloat < b.toFloat then some .lt
    else if a.toFloat == b.toFloat then some .eq
    else if b.toFloat < a.toFloat then some .gt
    else none

def lt (a b : Quantity) : Bool := a.compare? b == some .lt

def le (a b : Quantity) : Bool := a.lt b || a.compare? b == some .eq

def same (a b : Quantity) : Bool := a.compare? b == some .eq

@[simp] theorem lt_whole (m n : Int) : (whole m).lt (whole n) = decide (m < n) := by
  simp only [lt, compare?, toInt?]
  by_cases h : m < n
  · simp [h, Int.compare_eq_lt.mpr h]
  · have : compare m n ≠ .lt := fun e => h (Int.compare_eq_lt.mp e)
    simp [h, this]

@[simp] theorem same_whole (m n : Int) : (whole m).same (whole n) = decide (m = n) := by
  simp only [same, compare?, toInt?]
  by_cases h : m = n
  · simp [h]
  · have : compare m n ≠ .eq := fun e => h (Int.compare_eq_eq.mp e)
    simp [h, this]

@[simp] theorem le_whole (m n : Int) : (whole m).le (whole n) = decide (m ≤ n) := by
  have h := same_whole m n
  simp only [same] at h
  simp only [le, h, lt_whole]
  by_cases hl : m < n <;> by_cases he : m = n <;> simp [hl, he] <;> omega

/-- The larger of two quantities; of equal ones the first, as it was given. -/
def max (a b : Quantity) : Quantity := if a.lt b then b else a

/-- The smaller of two quantities; of equal ones the first, as it was given. -/
def min (a b : Quantity) : Quantity := if b.lt a then b else a

/-- Applies an operation to whole numbers if both are, and to reals otherwise. -/
def combine (onWhole : Int → Int → Int) (onReal : Float → Float → Float) (a b : Quantity) :
    Quantity :=
  match a.toInt?, b.toInt? with
  | some m, some n => whole (onWhole m n)
  | _, _ => real (onReal a.toFloat b.toFloat)

def add : Quantity → Quantity → Quantity := combine (· + ·) (· + ·)

def sub : Quantity → Quantity → Quantity := combine (· - ·) (· - ·)

def mul : Quantity → Quantity → Quantity := combine (· * ·) (· * ·)

@[simp] theorem add_whole (m n : Int) : (whole m).add (whole n) = whole (m + n) := rfl

@[simp] theorem sub_whole (m n : Int) : (whole m).sub (whole n) = whole (m - n) := rfl

@[simp] theorem mul_whole (m n : Int) : (whole m).mul (whole n) = whole (m * n) := rfl

/-- Whether an operation on two quantities has a result: not if one is a real and the other a whole
number that is too large to stand beside it. -/
def combines (a b : Quantity) : Bool :=
  (a.toInt?.isSome && b.toInt?.isSome) || (a.fitsReal && b.fitsReal)

/-- The ratio of two positive quantities; none if it is too large for a real, or one of them is. -/
def ratio? (a b : Quantity) : Option Float :=
  match a.toInt?, b.toInt? with
  | some m, some n =>
    let ratio := Number.quotient m.toNat n.toNat
    if ratio.isFinite then some ratio else none
  | _, _ => if a.combines b then some (a.toFloat / b.toFloat) else none

/-- The whole number that the quantity is equal to, if there is one. -/
def integral? (q : Quantity) : Option Int :=
  match q with
  | real x => (Number.ceiling x).filter fun n => Number.compareWhole n x == some .eq
  | q => q.toInt?

def below (bound : Int) (q : Quantity) : Bool := q.lt (whole bound)

def atMost (bound : Int) (q : Quantity) : Bool := q.le (whole bound)

end Quantity

namespace Json

mutual

/-- Whether two values are equal, where numbers count by their size and not by their form. -/
def same : Json → Json → Bool
  | .null, .null => true
  | .text s, .text t => s == t
  | .list items, .list others => sameAll items others
  | .object members, .object others => members.length == others.length && sameMembers members others
  | a, b =>
    match Quantity.ofJson? a, Quantity.ofJson? b with
    | some m, some n => m.same n
    | _, _ => false

def sameAll : List Json → List Json → Bool
  | [], [] => true
  | a :: items, b :: others => a.same b && sameAll items others
  | _, _ => false

/-- Whether each member is found, with an equal value, among some others. -/
def sameMembers : List (String × Json) → List (String × Json) → Bool
  | [], _ => true
  | (key, value) :: members, others =>
    (match others.find? (·.1 == key) with
      | some other => value.same other.2
      | none => false) && sameMembers members others

end

end Json

end MazeDuel
