import DiceArithmetic.Source

namespace DiceArithmetic

/-- A source together with a record of all that it was asked and how it answered. -/
structure Recorded (σ : Type) where
  source : σ
  record : List (Int × Except Failure Face) := []

namespace Recorded

variable {σ : Type} [RandomSource σ]

def roll (recorded : Recorded σ) (sides : Int) : Except Failure Face × Recorded σ :=
  let (answer, after) := RandomSource.roll recorded.source sides
  (answer, ⟨after, recorded.record ++ [(sides, answer)]⟩)

instance : RandomSource (Recorded σ) where
  name recorded := RandomSource.name recorded.source
  roll := roll

end Recorded

end DiceArithmetic
