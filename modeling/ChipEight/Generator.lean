/-!
# The random source

Random bytes come from the Mersenne Twister with 624 words of state. A seed is
any integer: the 32-bit words of its absolute value, the lowest first, key the
state. A byte is the top eight bits of one output word.

The machine only uses `ofSeed` and `next`; the rest of the library treats the
bytes as a given stream, `stream`.
-/

namespace ChipEight

/-- Words of state of a generator. -/
abbrev generatorSize : Nat := 624

/-- A generator: its words of state and how many of them have been given out. -/
structure Generator where
  /-- The words of state. -/
  state : Vector UInt32 generatorSize
  /-- The next word to give out; all are used up at the end. -/
  position : Nat
  deriving DecidableEq, Repr

namespace Generator

/-- Words of state. -/
abbrev State := Vector UInt32 generatorSize

/-! ## Seeding -/

/-- The 32-bit words of a number, the lowest first; zero has one word. -/
def wordsOf (n : Nat) : List UInt32 :=
  if n < UInt32.size then [UInt32.ofNat n] else UInt32.ofNat n :: wordsOf (n / UInt32.size)
termination_by n
decreasing_by simp only [UInt32.size] at *; omega

/-- The word before `i`, mixed with its own top bits. -/
def mixed (s : State) (i : Fin generatorSize) : UInt32 :=
  let w := s[i - 1]
  w ^^^ (w >>> 30)

/-- The state that a single word fills. -/
def fill (seed : UInt32) : State :=
  (List.finRange generatorSize).foldl
    (fun (s : State) (i : Fin generatorSize) => if i = 0 then s.set 0 seed else
      s.set i.val (1812433253 * mixed s i + UInt32.ofNat i.val) i.isLt)
    (Vector.replicate generatorSize 0)

/-- The places `1, 2, …` in order, over and over; the last word is copied to the
front whenever the end is passed. -/
def wrap (s : State) (i : Fin generatorSize) : State × Fin generatorSize :=
  if i + 1 = 0 then (s.set 0 s[i], 1) else (s, i + 1)

/-- Mixes the words of a key into the state, `rounds` times. -/
def keyIn (key : Array UInt32) : Nat → Nat → State → Fin generatorSize → State × Fin generatorSize
  | 0, _, s, i => (s, i)
  | rounds + 1, j, s, i =>
    let w := (s[i] ^^^ (mixed s i * 1664525)) + key.getD j 0 + UInt32.ofNat j
    let (s, i) := wrap (s.set i.val w i.isLt) i
    keyIn key rounds (if j + 1 < key.size then j + 1 else 0) s i

/-- Mixes the state with itself, `rounds` times. -/
def blend : Nat → State → Fin generatorSize → State
  | 0, s, _ => s
  | rounds + 1, s, i =>
    let w := (s[i] ^^^ (mixed s i * 1566083941)) - UInt32.ofNat i.val
    let (s, i) := wrap (s.set i.val w i.isLt) i
    blend rounds s i

/-- The generator keyed by a list of words. -/
def ofKey (key : List UInt32) : Generator :=
  let (s, i) := keyIn key.toArray (max generatorSize key.length) 0 (fill 19650218) 1
  { state := (blend (generatorSize - 1) s i).set 0 0x80000000, position := generatorSize }

/-- The generator of a seed; a seed and its negative give the same one. -/
def ofSeed (seed : Int) : Generator := ofKey (wordsOf seed.natAbs)

/-! ## Output -/

/-- One word of the recurrence: the top bit of one word and the low bits of the
next choose it. -/
def twistWord (upper lower far : UInt32) : UInt32 :=
  let y := (upper &&& 0x80000000) ||| (lower &&& 0x7FFFFFFF)
  far ^^^ (y >>> 1) ^^^ (if y &&& 1 = 0 then 0 else 0x9908B0DF)

/-- Replaces every word of the state, in order. -/
def twist (s : State) : State :=
  (List.finRange generatorSize).foldl
    (fun (s : State) (i : Fin generatorSize) =>
      s.set i.val (twistWord s[i] s[i + 1] s[i + 397]) i.isLt)
    s

/-- Scrambles a word of state into a word of output. -/
def temper (w : UInt32) : UInt32 :=
  let w := w ^^^ (w >>> 11)
  let w := w ^^^ ((w <<< 7) &&& 0x9D2C5680)
  let w := w ^^^ ((w <<< 15) &&& 0xEFC60000)
  w ^^^ (w >>> 18)

/-- The next word of output. -/
def nextWord (g : Generator) : UInt32 × Generator :=
  if h : g.position < generatorSize then
    (temper g.state[g.position], { g with position := g.position + 1 })
  else
    let s := twist g.state
    (temper s[0], { state := s, position := 1 })

/-- The next random byte, and the generator behind it. -/
def next (g : Generator) : UInt8 × Generator :=
  let (w, g) := g.nextWord
  ((w >>> 24).toUInt8, g)

/-- The generator after `n` bytes. -/
def skip (g : Generator) : Nat → Generator
  | 0 => g
  | n + 1 => skip g.next.2 n

/-- The byte that comes after `n` others. -/
def stream (g : Generator) (n : Nat) : UInt8 := (g.skip n).next.1

end Generator

end ChipEight
