/-!
The 32-bit Mersenne twister: a state of 624 words, seeded from a whole number, and its output words.
-/

namespace MazeDuel.Random

/-- The words of the state and the place of the next one to be given out. -/
structure Twister where
  words : Array UInt32
  next : Nat

namespace Twister

def size : Nat := 624

def wordAt (words : Array UInt32) (i : Nat) : UInt32 := words.getD i 0

/-- A word folded on its two high bits, as both seeding rules use it. -/
def fold (word : UInt32) : UInt32 := word ^^^ (word >>> 30)

def ofWord (seed : UInt32) : Array UInt32 :=
  (List.range (size - 1)).foldl
    (fun words i => words.push (1812433253 * fold (wordAt words i) + UInt32.ofNat (i + 1))) #[seed]

/-- Goes on to the next place; at the end the last word is carried to the front. -/
def advance (words : Array UInt32) (i : Nat) : Array UInt32 × Nat :=
  if i + 1 < size then (words, i + 1) else (words.setIfInBounds 0 (wordAt words (size - 1)), 1)

/-- Stirs the words of a key into the state. -/
def stirKey (key : Array UInt32) (words : Array UInt32) : Array UInt32 × Nat :=
  (List.range (max size key.size)).foldl
    (fun (state : Array UInt32 × Nat) step =>
      let (words, i) := state
      let j := step % key.size
      let word := (wordAt words i ^^^ (fold (wordAt words (i - 1)) * 1664525)) + wordAt key j +
        UInt32.ofNat j
      advance (words.setIfInBounds i word) i)
    (words, 1)

/-- Stirs the state once more, by place only. -/
def stirPlaces (state : Array UInt32 × Nat) : Array UInt32 :=
  ((List.range (size - 1)).foldl
    (fun (state : Array UInt32 × Nat) _ =>
      let (words, i) := state
      let word := (wordAt words i ^^^ (fold (wordAt words (i - 1)) * 1566083941)) - UInt32.ofNat i
      advance (words.setIfInBounds i word) i)
    state).1

def wordRange : Nat := 0x100000000

/-- The 32-bit digits of a number, lowest first; zero has one. -/
def digits (n : Nat) : List UInt32 :=
  if n < wordRange then [UInt32.ofNat n]
  else UInt32.ofNat (n % wordRange) :: digits (n / wordRange)
termination_by n
decreasing_by exact Nat.div_lt_self (by simp only [wordRange] at *; omega) (by decide)

/-- The generator for a seed; the sign of the seed does not count. -/
def ofSeed (seed : Int) : Twister :=
  let words := stirPlaces (stirKey (digits seed.natAbs).toArray (ofWord 19650218))
  ⟨words.setIfInBounds 0 0x80000000, size⟩

def regenerate (words : Array UInt32) : Array UInt32 :=
  (List.range size).foldl
    (fun words i =>
      let y := (wordAt words i &&& 0x80000000) ||| (wordAt words ((i + 1) % size) &&& 0x7fffffff)
      let odd : UInt32 := if y &&& 1 = 0 then 0 else 0x9908b0df
      words.setIfInBounds i (wordAt words ((i + 397) % size) ^^^ (y >>> 1) ^^^ odd))
    words

def temper (y : UInt32) : UInt32 :=
  let y := y ^^^ (y >>> 11)
  let y := y ^^^ ((y <<< 7) &&& 0x9d2c5680)
  let y := y ^^^ ((y <<< 15) &&& 0xefc60000)
  y ^^^ (y >>> 18)

def draw (t : Twister) : UInt32 × Twister :=
  let t := if t.next < size then t else ⟨regenerate t.words, 0⟩
  (temper (wordAt t.words t.next), ⟨t.words, t.next + 1⟩)

/-- A number of `count` random bits: low words first, the last one shortened from below. -/
def bits (count : Nat) (t : Twister) : Nat × Twister :=
  let (word, t) := t.draw
  if count ≤ 32 then (word.toNat >>> (32 - count), t)
  else
    let (high, t) := bits (count - 32) t
    (word.toNat + wordRange * high, t)
termination_by count
decreasing_by omega

end Twister

end MazeDuel.Random
