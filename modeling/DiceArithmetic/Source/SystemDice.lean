import DiceArithmetic.Source
import DiceArithmetic.Source.Twister

namespace DiceArithmetic

/-- Fair dice. Those with a seed can be thrown again in the same way. -/
structure SystemDice where
  seed : Option Int
  twister : Twister
deriving DecidableEq

namespace SystemDice

/-- A seed and its negative give the same dice. -/
def seeded (seed : Int) : SystemDice :=
  ⟨some seed, .ofSeed seed.natAbs⟩

/-- Dice without a seed start from whatever the caller can find at random. -/
def unseeded (entropy : Nat) : SystemDice :=
  ⟨none, .ofSeed entropy⟩

def name (dice : SystemDice) : String :=
  if dice.seed.isSome then "random.Random" else "secrets.SystemRandom"

/-- Nothing is drawn for a die without sides. -/
def roll (dice : SystemDice) (sides : Int) : Except Failure Face × SystemDice :=
  if sides < 1 then (.error (Failure.naming [sides] (.tooFewSides sides)), dice)
  else
    let (n, twister) := dice.twister.uniform sides.toNat
    (.ok (.whole (n + 1)), { dice with twister })

instance : RandomSource SystemDice where
  name := name
  roll := roll

end SystemDice

end DiceArithmetic
