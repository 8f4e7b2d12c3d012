import DecisionTrace.Random.Draw

/-!
# The generator

The word stream of this library is the 32-bit Mersenne twister with a state of 624 words. All words
of a state are handed out, tempered, before the state is twisted into the next; indices wrap
around, and a twist reads the words that it has already renewed.

A seed is any integer. Its sign does not count; its digits to base `2 ^ 32`, least significant
first, are the key that fills the state.
-/

namespace DecisionTrace

namespace Twister

/-- The number of words of a state. -/
abbrev size : Nat := 624

/-- The words of a state. -/
abbrev Words := Vector UInt32 size

/-- The word at an index, counted around the state. -/
def wordAt (ws : Words) (i : Nat) : UInt32 :=
  ws.get ⟨i % size, Nat.mod_lt _ (by decide)⟩

/-- The state with the word at an index replaced, counted around the state. -/
def setWord (ws : Words) (i : Nat) (w : UInt32) : Words :=
  ws.set (i % size) w (Nat.mod_lt _ (by decide))

/-- A word mixed with its upper bits, the step from one word of a fresh state to the next. -/
def mix (w : UInt32) : UInt32 :=
  w ^^^ (w >>> 30)

/-- The state that a single word fills. -/
def fill (seed : UInt32) : Words :=
  Nat.fold (size - 1)
    (fun i _ ws => setWord ws (i + 1) (1812433253 * mix (wordAt ws i) + UInt32.ofNat (i + 1)))
    (Vector.replicate size seed)

/-- The index after `i` while a key is worked in. After the last index the first word takes over
the last one and the index goes on at one. -/
def advance (ws : Words) (i : Nat) : Words × Nat :=
  if i + 1 < size then (ws, i + 1) else (setWord ws 0 (wordAt ws (size - 1)), 1)

/-- The digits of a number to base `2 ^ 32`, least significant first; zero has one digit. -/
def keyOf (n : Nat) : List UInt32 :=
  if n < 0x100000000 then [UInt32.ofNat n] else UInt32.ofNat n :: keyOf (n / 0x100000000)

/-- The pass that works the words of a key in, each with its place in the key. -/
def absorb : List (UInt32 × Nat) → Words → Nat → Words × Nat
  | [], ws, i => (ws, i)
  | (k, j) :: rest, ws, i =>
    let w := (wordAt ws i ^^^ (mix (wordAt ws (i - 1)) * 1664525)) + k + UInt32.ofNat j
    let (ws, i) := advance (setWord ws i w) i
    absorb rest ws i

/-- The pass that spreads the key over the state, for a number of steps. -/
def spread : (steps : Nat) → Words → Nat → Words
  | 0, ws, _ => ws
  | steps + 1, ws, i =>
    let w := (wordAt ws i ^^^ (mix (wordAt ws (i - 1)) * 1566083941)) - UInt32.ofNat i
    let (ws, i) := advance (setWord ws i w) i
    spread steps ws i

/-- A key repeated often enough to reach every word of a state, with the places in the key. -/
def keyCycle (key : List UInt32) : List (UInt32 × Nat) :=
  let cycles := (size + key.length - 1) / max key.length 1
  ((List.replicate cycles key.zipIdx).flatten).take (max size key.length)

/-- The state that a key fills. -/
def fillByKey (key : List UInt32) : Words :=
  let (ws, i) := absorb (keyCycle key) (fill 19650218) 1
  setWord (spread (size - 1) ws i) 0 0x80000000

/-- The word that replaces the one at an index in a twist. -/
def twistedWord (ws : Words) (i : Nat) : UInt32 :=
  let y := (wordAt ws i &&& 0x80000000) ||| (wordAt ws (i + 1) &&& 0x7fffffff)
  wordAt ws (i + 397) ^^^ (y >>> 1) ^^^ (if y &&& 1 = 0 then 0 else 0x9908b0df)

/-- The state after all its words have been renewed. -/
def twist (ws : Words) : Words :=
  Nat.fold size (fun i _ ws => setWord ws i (twistedWord ws i)) ws

/-- The word handed out for a word of the state. -/
def temper (w : UInt32) : UInt32 :=
  let w := w ^^^ (w >>> 11)
  let w := w ^^^ ((w <<< 7) &&& 0x9d2c5680)
  let w := w ^^^ ((w <<< 15) &&& 0xefc60000)
  w ^^^ (w >>> 18)

end Twister

/-- A state of the generator and the number of its words that have been handed out. -/
structure Twister where
  words : Twister.Words
  used : Nat

namespace Twister

/-- The generator that a seed gives. -/
def ofSeed (seed : Int) : Twister where
  words := fillByKey (keyOf seed.natAbs)
  used := size

/-- The next word; a state whose words are used up is twisted first. -/
def next (t : Twister) : UInt32 × Twister :=
  if t.used < size then (temper (wordAt t.words t.used), { t with used := t.used + 1 })
  else
    let words := twist t.words
    (temper (wordAt words 0), { words, used := 1 })

instance : WordStream Twister := ⟨next⟩

end Twister

end DecisionTrace
