/-!
# The Mersenne Twister

Every random decision of a build — the choice among rules of one name, the colour
drawn from a pool — comes from one `Twister`: the 32-bit Mersenne Twister MT19937.
Its 624-word state is expanded from one 32-bit seed by the reference recurrence
(`Twister.expand`), the state is regenerated as a whole before the first output and
after every 624 outputs (`Twister.regenerate`), and each output word is tempered.

`Twister.nextWord` gives one tempered word; `Twister.next` combines the top 27 and
26 bits of two words into a double in `[0, 1)` with 53 random bits.
-/

namespace ShapeGrammar

/-- The Mersenne Twister: its seed, its state words, and the position of the next
word to hand out (624 means the state must be regenerated first). -/
structure Twister where
  seed : UInt32
  words : Vector UInt32 624
  index : Nat

namespace Twister

/-- The multiplier of the seed recurrence. -/
def seedMultiplier : UInt32 := 1812433253

/-- The 624-word state for a seed: the seed itself, then
`w i = 1812433253 * (w (i-1) ^^^ (w (i-1) >>> 30)) + i`, all modulo `2 ^ 32`. -/
def expandList (seed : UInt32) : List UInt32 :=
  (List.range 623).foldl
    (fun (acc : UInt32 × List UInt32) i =>
      let prev := acc.1
      let w := seedMultiplier * (prev ^^^ (prev >>> 30)) + (i + 1).toUInt32
      (w, w :: acc.2))
    (seed, [seed]) |>.2.reverse

theorem length_expandList (seed : UInt32) : (expandList seed).length = 624 := by
  simp only [expandList, List.length_reverse]
  suffices h : ∀ (l : List Nat) (acc : UInt32 × List UInt32),
      (l.foldl (fun (acc : UInt32 × List UInt32) i =>
        let prev := acc.1
        let w := seedMultiplier * (prev ^^^ (prev >>> 30)) + (i + 1).toUInt32
        (w, w :: acc.2)) acc).2.length = acc.2.length + l.length by
    rw [h]; simp
  intro l
  induction l with
  | nil => intro acc; simp
  | cons x xs ih => intro acc; simp only [List.foldl_cons, ih, List.length_cons]; omega

/-- The initial state of the seed. -/
def expand (seed : UInt32) : Vector UInt32 624 :=
  ⟨(expandList seed).toArray, by simp [length_expandList]⟩

/-- A fresh generator for a seed, due to regenerate its state before the first word. -/
def ofSeed (seed : UInt32) : Twister := ⟨seed, expand seed, 624⟩

/-- The seed of an integer: its residue modulo `2 ^ 32`, so `-1` gives `4294967295`. -/
def seedOfInt (n : Int) : UInt32 := (n % 4294967296).toNat.toUInt32

/-- The word at position `i` modulo 624. -/
def wordAt (v : Vector UInt32 624) (i : Nat) : UInt32 :=
  v.get ⟨i % 624, Nat.mod_lt _ (by decide)⟩

/-- One step of the regeneration: position `k` takes the top bit of word `k` and the
low 31 bits of word `k + 1`, shifted and mixed into word `k + 397`. Later positions
read the words already regenerated. -/
def twistAt (v : Vector UInt32 624) (k : Nat) : Vector UInt32 624 :=
  let y := (wordAt v k &&& 0x80000000) ||| (wordAt v (k + 1) &&& 0x7fffffff)
  let mag : UInt32 := if y &&& 1 == 1 then 0x9908b0df else 0
  v.set (k % 624) (wordAt v (k + 397) ^^^ (y >>> 1) ^^^ mag) (Nat.mod_lt _ (by decide))

/-- The whole state regenerated, position 0 to 623 in order. -/
def regenerate (v : Vector UInt32 624) : Vector UInt32 624 :=
  (List.range 624).foldl twistAt v

/-- The tempering of an output word. -/
def temper (y : UInt32) : UInt32 :=
  let y := y ^^^ (y >>> 11)
  let y := y ^^^ ((y <<< 7) &&& 0x9d2c5680)
  let y := y ^^^ ((y <<< 15) &&& 0xefc60000)
  y ^^^ (y >>> 18)

/-- The next tempered word, regenerating the state first when it is used up. -/
def nextWord (g : Twister) : UInt32 × Twister :=
  let g := if g.index < 624 then g else { g with words := regenerate g.words, index := 0 }
  (temper (wordAt g.words g.index), { g with index := g.index + 1 })

/-- The next double in `[0, 1)`: `(a * 2 ^ 26 + b) / 2 ^ 53` for the top 27 bits `a` of
one word and the top 26 bits `b` of the next. -/
def next (g : Twister) : Float × Twister :=
  let (w1, g) := g.nextWord
  let (w2, g) := g.nextWord
  let a := (w1 >>> 5).toNat
  let b := (w2 >>> 6).toNat
  (Float.scaleB (Float.ofNat (a * 67108864 + b)) (-53), g)

/-- The generator after `n` doubles are drawn and dropped. -/
def skip : Nat → Twister → Twister
  | 0, g => g
  | n + 1, g => skip n g.next.2

end Twister

end ShapeGrammar
