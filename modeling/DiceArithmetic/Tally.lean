import DiceArithmetic.Failure

namespace DiceArithmetic

structure Throw where
  count : Int
  sides : Int
  rolls : List Int
  total : Int
deriving DecidableEq, Repr

def Throw.line (t : Throw) : String :=
  let faces := "+".intercalate (t.rolls.map Decimal.write)
  s!"{Decimal.write t.count}d{Decimal.write t.sides} => {faces} => {Decimal.write t.total}"

structure Tally where
  value : Rat
  throws : List Throw := []
deriving DecidableEq, Repr

def fraction (numerator denominator : Int) : Except Failure Rat :=
  if denominator = 0 then .error (Failure.naming [numerator] (.zeroDenominator numerator))
  else .ok (numerator / denominator)

namespace Tally

/-- A whole number is shown as such and any other value as a fraction in lowest terms. -/
def display (tally : Tally) : String :=
  let numerator := Decimal.write tally.value.num
  if tally.value.den = 1 then numerator else s!"{numerator}/{Decimal.write tally.value.den}"

def lines (tally : Tally) : List String :=
  tally.throws.map Throw.line

def mapValue (tally : Tally) (f : Rat → Except Failure Rat) : Except Failure Tally :=
  (f tally.value).map fun value => { tally with value }

def merge (left right : Tally) (f : Rat → Rat → Except Failure Rat) : Except Failure Tally :=
  (f left.value right.value).map fun value => ⟨value, left.throws ++ right.throws⟩

end Tally

end DiceArithmetic
