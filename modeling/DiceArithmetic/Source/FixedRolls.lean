import DiceArithmetic.Source

namespace DiceArithmetic

structure FixedRolls where
  given : Nat
  remaining : List Int
deriving DecidableEq, Repr

namespace FixedRolls

def ofList (values : List Int) : FixedRolls :=
  ⟨values.length, values⟩

/-- A value that is no face of the die is used up all the same. -/
def roll (rolls : FixedRolls) (sides : Int) : Except Failure Face × FixedRolls :=
  match rolls.remaining with
  | [] => (.error (.exhausted rolls.given), rolls)
  | face :: rest =>
    let answer :=
      if 1 ≤ face ∧ face ≤ sides then .ok (.whole face)
      else .error (Failure.naming [face, sides] (.outsideDie face sides))
    (answer, { rolls with remaining := rest })

instance : RandomSource FixedRolls where
  name _ := "sequence"
  roll := roll

end FixedRolls

end DiceArithmetic
