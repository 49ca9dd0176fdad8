/-!
# Streams of random words

A stream gives a 64-bit word for every position and remembers how many words are used.  Two
families of streams have names: a list of words that starts again at its end, and the
xoshiro256++ generator with a seed spread over its state by SplitMix64.  Everything drawn from a
stream is a function of the words alone.
-/

namespace FeedTraffic.Random

structure Words where
  word : Nat → UInt64
  /-- Words used so far. -/
  drawn : Nat := 0

abbrev Draw := StateM Words

namespace Words

/-- Words that come again from the first when all are used; no words give zeros. -/
def cyclic (words : List UInt64) : Words :=
  let table := words.toArray
  { word := fun n => table.getD (n % table.size) 0 }

/-- The next SplitMix64 state and its output. -/
def splitMix (state : UInt64) : UInt64 × UInt64 :=
  let s := state + 0x9e3779b97f4a7c15
  let z := (s ^^^ (s >>> 30)) * 0xbf58476d1ce4e5b9
  let z := (z ^^^ (z >>> 27)) * 0x94d049bb133111eb
  (s, z ^^^ (z >>> 31))

/-- The state of a xoshiro256 generator. -/
structure Xoshiro where
  s0 : UInt64
  s1 : UInt64
  s2 : UInt64
  s3 : UInt64

def rotateLeft (x k : UInt64) : UInt64 := (x <<< k) ||| (x >>> (64 - k))

namespace Xoshiro

/-- The state whose words are four outputs of SplitMix64. -/
def ofSeed (seed : UInt64) : Xoshiro :=
  let (s, s0) := splitMix seed
  let (s, s1) := splitMix s
  let (s, s2) := splitMix s
  let (_, s3) := splitMix s
  ⟨s0, s1, s2, s3⟩

def output (x : Xoshiro) : UInt64 := rotateLeft (x.s0 + x.s3) 23 + x.s0

def step (x : Xoshiro) : Xoshiro :=
  let s2 := x.s2 ^^^ x.s0
  let s3 := x.s3 ^^^ x.s1
  let s1 := x.s1 ^^^ s2
  let s0 := x.s0 ^^^ s3
  ⟨s0, s1, s2 ^^^ (x.s1 <<< 17), rotateLeft s3 45⟩

end Xoshiro

/-- The outputs of the generator with a seed. -/
def seeded (seed : UInt64) : Words :=
  { word := fun n => (Nat.repeat Xoshiro.step n (Xoshiro.ofSeed seed)).output }

end Words

def next : Draw UInt64 := fun w => (w.word w.drawn, { w with drawn := w.drawn + 1 })

/-- The upper half of the next word. -/
def nextHalf : Draw Nat := do
  let x ← next
  pure (x >>> 32).toNat

def nextNat : Draw Nat := do
  let x ← next
  pure x.toNat

end FeedTraffic.Random
