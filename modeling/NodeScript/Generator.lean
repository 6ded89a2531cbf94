import NodeScript.Decimal.Binary64
import NodeScript.Sha512
import NodeScript.Text.Utf8
import NodeScript.Value.Basic

/-!
The generator behind the random nodes: the Mersenne Twister on 32-bit words with 624 words of
state, seeded by the words of an integer. Floats and texts seed it through an integer as well.
-/

namespace NodeScript

/-- The keys that the surroundings hand out, one after the other, to generators without a seed. -/
abbrev Entropy := Nat → List UInt32

structure Generator where
  words : Array UInt32
  /-- The next word to be drawn; a full round is due when it reaches the number of words. -/
  position : Nat
  entropy : Entropy := fun _ => []
  deriving Inhabited

namespace Generator

def wordCount : Nat := 624

def middle : Nat := 397

def initial (seed : UInt32) : Array UInt32 :=
  (List.range (wordCount - 1)).foldl
    (fun ws i =>
      let prev : UInt32 := ws.getD i 0
      ws.push ((prev ^^^ (prev >>> 30)) * 1812433253 + UInt32.ofNat (i + 1)))
    #[seed]

/-- The words of `n` in base `2 ^ 32`, the least significant first; at least one. -/
def seedWords (n : Nat) : List UInt32 :=
  (List.range (max 1 ((n.log2 + 32) / 32))).map fun i => UInt32.ofNat (n >>> (32 * i))

structure Mixing where
  words : Array UInt32
  index : Nat

/-- Replace the word at the index by a mix of itself, its predecessor and `term`. -/
def Mixing.step (m : Mixing) (factor : UInt32) (term : UInt32 → UInt32) : Mixing :=
  let prev := m.words.getD (m.index - 1) 0
  let mixed := term (m.words.getD m.index 0 ^^^ ((prev ^^^ (prev >>> 30)) * factor))
  let ws := m.words.setIfInBounds m.index mixed
  if m.index + 1 ≥ wordCount then ⟨ws.setIfInBounds 0 (ws.getD (wordCount - 1) 0), 1⟩
  else ⟨ws, m.index + 1⟩

def ofKey (key : List UInt32) : Generator :=
  let keyed := (List.range (max wordCount key.length)).foldl
    (fun (m : Mixing) i =>
      let j := i % key.length
      m.step 1664525 fun w => w + key.getD j 0 + UInt32.ofNat j)
    ⟨initial 19650218, 1⟩
  let mixed := (List.range (wordCount - 1)).foldl
    (fun (m : Mixing) _ => m.step 1566083941 fun w => w - UInt32.ofNat m.index)
    keyed
  { words := mixed.words.setIfInBounds 0 0x80000000, position := wordCount }

/-- The generator of a seed; the sign of the seed does not matter. -/
def ofSeed (seed : Int) (entropy : Entropy := fun _ => []) : Generator :=
  { ofKey (seedWords seed.natAbs) with entropy }

def renew (ws : Array UInt32) : Array UInt32 :=
  (List.range wordCount).foldl
    (fun ws i =>
      let y := (ws.getD i 0 &&& 0x80000000) ||| (ws.getD ((i + 1) % wordCount) 0 &&& 0x7FFFFFFF)
      let far := ws.getD ((i + middle) % wordCount) 0
      let twist := if y &&& 1 = 1 then (0x9908B0DF : UInt32) else 0
      ws.setIfInBounds i (far ^^^ (y >>> 1) ^^^ twist))
    ws

def temper (y : UInt32) : UInt32 :=
  let y := y ^^^ (y >>> 11)
  let y := y ^^^ ((y <<< 7) &&& 0x9D2C5680)
  let y := y ^^^ ((y <<< 15) &&& 0xEFC60000)
  y ^^^ (y >>> 18)

def next (g : Generator) : UInt32 × Generator :=
  let g := if g.position ≥ wordCount then { g with words := renew g.words, position := 0 } else g
  (temper (g.words.getD g.position 0), { g with position := g.position + 1 })

/-- Draw `k` random bits as a number. Whole words come first, the least significant first; of the
last word the upper bits are used. -/
def bits (k : Nat) (g : Generator) : Nat × Generator :=
  go k 0 0 ((k + 31) / 32) g
where
  go (left shift acc : Nat) : Nat → Generator → Nat × Generator
    | 0, g => (acc, g)
    | n + 1, g =>
      let (w, g) := g.next
      let w := if left < 32 then w.toNat >>> (32 - left) else w.toNat
      go (left - 32) (shift + 32) (acc + w <<< shift) n g

/-- How often an unsuitable draw is repeated: once for every state of the generator. The draws
after that would be the same ones again, so no suitable one is missed. -/
def maxAttempts : Nat := Nat.pow 2 19937

def below (n : Nat) (g : Generator) : Nat × Generator :=
  let k := n.log2 + 1
  go k maxAttempts g
where
  go (k : Nat) : Nat → Generator → Nat × Generator
    | 0, g => (0, g)
    | fuel + 1, g =>
      let (r, g) := g.bits k
      if r < n then (r, g) else go k fuel g

def between (lo hi : Int) (g : Generator) : Int × Generator :=
  let (r, g) := g.below (hi - lo + 1).toNat
  (lo + r, g)

/-- Draw a float from zero to one, one excluded, with 53 random bits. -/
def unit (g : Generator) : Float × Generator :=
  let (a, g) := g.next
  let (b, g) := g.next
  let n := ((a >>> 5).toNat <<< 26) + (b >>> 6).toNat
  (Float.ofScientific n false 0 * (1 / 9007199254740992), g)

def residuePrime : Nat := Nat.pow 2 61 - 1

/-- The residue of a finite float. The powers of two repeat after 61 of them, so that dividing by
two is a multiplication. The residue -1 is not used; infinities have a residue of their own. -/
def residue (x : Float) : Int :=
  if x.isNaN then 0
  else if x.isInf then if x < 0 then -314159 else 314159
  else
    let p := Binary64.parts x
    let n := p.significand * Nat.pow 2 (p.exponent % 61).toNat % residuePrime
    let n := Decimal.applySign p.negative n
    if n = -1 then -2 else n

/-- The number that a seed stands for. A float stands for its residue, as a word of 64 bits, and a
text for the number that its octets and their digest spell. -/
def seedOf : Value → Except Fault (Option Int)
  | .null => .ok none
  | .bool b => .ok (some (if b then 1 else 0))
  | .int n => .ok (some n)
  | .float x => .ok (some (residue x % (Nat.pow 2 64 : Nat)))
  | .text t => (ofText t).map some
  | .symbol s => (ofText s.value).map some
  | .list _ | .record _ => .error .badSeed
where
  ofText (t : Text) : Except Fault Int := do
    let octets ← Text.encodeUtf8 t
    return Sha512.ofBigEndian (octets ++ Sha512.digest octets)

/-- A generator without a seed. It takes the first key. -/
def unseeded (entropy : Entropy) : Generator :=
  { ofKey (entropy 0) with entropy := fun n => entropy (n + 1) }

def ofValue (entropy : Entropy) (v : Value) : Except Fault Generator :=
  (seedOf v).map fun
    | none => unseeded entropy
    | some seed => ofSeed seed entropy

end Generator

end NodeScript
