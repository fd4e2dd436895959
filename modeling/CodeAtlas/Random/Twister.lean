/-!
Sources of random numbers, and the Mersenne twister with 624 words of 32 bits, seeded by a whole
number. A draw from it takes two words and keeps the upper 27 and 26 bits of them.
-/
namespace CodeAtlas

/-- A state from which the next draw and the next state are computed. -/
class Generator (γ : Type) where
  draw : γ → Nat × γ

structure Twister where
  words : Array UInt32
  position : Nat

namespace Twister

def size : Nat := 624

def word (words : Array UInt32) (i : Nat) : UInt32 := words.getD i 0

def mixed (words : Array UInt32) (i : Nat) (factor : UInt32) : UInt32 :=
  let before := word words (i - 1)
  (before ^^^ (before >>> 30)) * factor

def plainWords : Array UInt32 :=
  (List.range (size - 1)).foldl
    (fun words i => words.push (mixed words (i + 1) 1812433253 + UInt32.ofNat (i + 1)))
    #[19650218]

def advance (words : Array UInt32) (i : Nat) : Array UInt32 × Nat :=
  if size ≤ i + 1 then (words.setIfInBounds 0 (word words (size - 1)), 1) else (words, i + 1)

def seedWords (n : Nat) : List UInt32 :=
  if h : n < 0x100000000 then [UInt32.ofNat n]
  else UInt32.ofNat n :: seedWords (n / 0x100000000)
termination_by n
decreasing_by exact Nat.div_lt_self (by omega) (by decide)

def stirSeed (key : Array UInt32) : Nat → Array UInt32 × Nat → Nat → Array UInt32 × Nat
  | 0, state, _ => state
  | count + 1, (words, i), j =>
    let value := (word words i ^^^ mixed words i 1664525) + key.getD j 0 + UInt32.ofNat j
    stirSeed key count (advance (words.setIfInBounds i value) i)
      (if key.size ≤ j + 1 then 0 else j + 1)

/-- Stirs the words once more, without the seed. -/
def stirAgain : Nat → Array UInt32 × Nat → Array UInt32
  | 0, (words, _) => words
  | count + 1, (words, i) =>
    let value := (word words i ^^^ mixed words i 1566083941) - UInt32.ofNat i
    stirAgain count (advance (words.setIfInBounds i value) i)

/-- The generator of a seed; the sign of the seed does not count. -/
def ofSeed (seed : Int) : Twister :=
  let key := (seedWords seed.natAbs).toArray
  let stirred := stirSeed key (max size key.size) (plainWords, 1) 0
  let words := stirAgain (size - 1) stirred
  ⟨words.setIfInBounds 0 0x80000000, size⟩

/-- Replaces the word at `i` by one made from its successor and the word 397 places on. -/
def renewWord (words : Array UInt32) (i : Nat) : Array UInt32 :=
  let joined := (word words i &&& 0x80000000) ||| (word words ((i + 1) % size) &&& 0x7fffffff)
  let twist : UInt32 := if joined &&& 1 = 1 then 0x9908b0df else 0
  words.setIfInBounds i (word words ((i + 397) % size) ^^^ (joined >>> 1) ^^^ twist)

def renew (words : Array UInt32) : Array UInt32 := (List.range size).foldl renewWord words

def temper (y : UInt32) : UInt32 :=
  let y := y ^^^ (y >>> 11)
  let y := y ^^^ ((y <<< 7) &&& 0x9d2c5680)
  let y := y ^^^ ((y <<< 15) &&& 0xefc60000)
  y ^^^ (y >>> 18)

def nextWord (t : Twister) : UInt32 × Twister :=
  let t := if size ≤ t.position then ⟨renew t.words, 0⟩ else t
  (temper (word t.words t.position), ⟨t.words, t.position + 1⟩)

def draw (t : Twister) : Nat × Twister :=
  let (a, t) := t.nextWord
  let (b, t) := t.nextWord
  ((a >>> 5).toNat * 0x4000000 + (b >>> 6).toNat, t)

instance : Generator Twister := ⟨draw⟩

end Twister

end CodeAtlas
