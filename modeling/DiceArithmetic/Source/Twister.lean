namespace DiceArithmetic

/-- The generator MT19937: 624 words, and the place of the one that is renewed next. -/
structure Twister where
  words : Vector UInt32 624
  place : Fin 624
deriving DecidableEq

namespace Twister

def scramble (word : UInt32) : UInt32 :=
  word ^^^ (word >>> 30)

/-- Every word follows from the one before it, the first being given. -/
def ofWord (first : UInt32) : Twister :=
  let follow (words : Vector UInt32 624) (i : Fin 624) :=
    if i = 0 then words
    else words.set i (1812433253 * scramble words[i - 1] + UInt32.ofNat i)
  ⟨(List.finRange 624).foldl follow (Vector.replicate 624 first), 1⟩

/-- Mixes the word at the current place with the one before it and goes on to the next place. Behind
the last place comes the second one, since the first only repeats the last. -/
def stir (twister : Twister) (factor addend : UInt32) : Twister :=
  let ⟨words, i⟩ := twister
  let word := (words[i] ^^^ (scramble words[i - 1] * factor)) + addend
  if i = 623 then ⟨(words.set i word).set 0 word, 1⟩ else ⟨words.set i word, i + 1⟩

/-- A generator from a key of any length. The key is mixed in, over and over if it is short, and
then the places themselves are. -/
def ofKey (key : List UInt32) : Twister :=
  let addends := (key.mapIdx fun j word => word + UInt32.ofNat j).toArray
  let keyed := (List.range (max 624 addends.size)).foldl
    (fun twister n => twister.stir 1664525 (addends.getD (n % addends.size) 0)) (ofWord 19650218)
  let placed := (List.range 623).foldl
    (fun twister _ => twister.stir 1566083941 (-UInt32.ofNat twister.place)) keyed
  ⟨placed.words.set 0 0x80000000, 0⟩

def keyWords (n : Nat) : List UInt32 :=
  if n < UInt32.size then [UInt32.ofNat n]
  else UInt32.ofNat (n % UInt32.size) :: keyWords (n / UInt32.size)
termination_by n
decreasing_by
  rename_i h
  exact Nat.div_lt_self (Nat.lt_of_lt_of_le (by decide) (Nat.le_of_not_lt h)) (by decide)

def ofSeed (n : Nat) : Twister :=
  ofKey (keyWords n)

def temper (word : UInt32) : UInt32 :=
  let a := word ^^^ (word >>> 11)
  let b := a ^^^ ((a <<< 7) &&& 0x9d2c5680)
  let c := b ^^^ ((b <<< 15) &&& 0xefc60000)
  c ^^^ (c >>> 18)

/-- Renews one word from its successor and the word 397 places on, and gives it out. -/
def next (twister : Twister) : UInt32 × Twister :=
  let ⟨words, i⟩ := twister
  let joined := (words[i] &&& 0x80000000) ||| (words[i + 1] &&& 0x7fffffff)
  let twist : UInt32 := if joined &&& 1 = 0 then 0 else 0x9908b0df
  let word := words[i + 397] ^^^ (joined >>> 1) ^^^ twist
  (temper word, ⟨words.set i word, i + 1⟩)

/-- A number of `k` random bits. The words come least significant first, and only the leading bits
of the last one are used. -/
def bits (k : Nat) (twister : Twister) : Nat × Twister :=
  let (word, after) := twister.next
  if k ≤ 32 then (word.toNat >>> (32 - k), after)
  else
    let (high, rest) := bits (k - 32) after
    (word.toNat + UInt32.size * high, rest)
termination_by k

def below (bound k : Nat) : Nat → Twister → Option (Nat × Twister)
  | 0, _ => none
  | draws + 1, twister =>
    let (n, rest) := twister.bits k
    if n < bound then some (n, rest) else below bound k draws rest

/-- A generator has so many states. When so many draws in a row have failed, it is back in a state
in which it was before, and all draws that follow fail as well. -/
@[irreducible]
def maxDraws : Nat := Nat.pow UInt32.size 624 * 624

/-- Draws until a number is below the bound, as at least half of those of the bound's length are.
Zero stands for the result of draws that would never end. -/
def uniform (bound : Nat) (twister : Twister) : Nat × Twister :=
  (below bound (bound.log2 + 1) maxDraws twister).getD (0, twister)

end Twister

end DiceArithmetic
