import DiceArithmetic.Expr.Measure
import DiceArithmetic.Tally
import DiceArithmetic.Trial

namespace DiceArithmetic

variable {σ : Type}

def divide (a b : Rat) : Except Failure Rat :=
  if b = 0 then .error .divisionByZero else .ok (a / b)

def Operator.meaning? : Operator → Option (Rat → Rat → Except Failure Rat)
  | .add => some fun a b => .ok (a + b)
  | .sub => some fun a b => .ok (a - b)
  | .mul => some fun a b => .ok (a * b)
  | .div => some divide
  | .unknown _ => none

/-- Rolls a die so many times more, up to the first roll that fails. The faces rolled before are
given with the latest one first. -/
def drawFaces [RandomSource σ] (sides : Int) : Nat → List Face → Trial σ (List Face)
  | 0, faces => pure faces.reverse
  | count + 1, faces => do
    let face ← Trial.draw sides
    drawFaces sides count (face :: faces)

namespace DiceTerm

/-- A die without sides fails before anything is drawn, and a negative number of dice draws nothing.
The throw is reported once all its faces have come up. -/
def throwDice [RandomSource σ] (term : DiceTerm) : Trial σ Tally := do
  let count ← Trial.ofExcept term.count.value
  let sides ← Trial.ofExcept term.sides.value
  if sides ≤ 0 then
    Trial.fail (.sidelessDie term)
  else
    let faces ← drawFaces sides count.toNat []
    let total ← Trial.ofExcept (Face.total faces)
    Trial.emit (.rolled term)
    match total with
    | .whole n => return ⟨n, [⟨count, sides, faces.filterMap Face.whole?, n⟩]⟩
    | .inexact => Trial.fail (.inexactValue "float")

end DiceTerm

namespace Expr

/-- The value of an expression, as far as it has no more than the given number of levels. The left
operand is evaluated in full before the right one, and an operator without meaning is reported
before either of them. A part that lies too deep fails only when its turn comes. -/
def reduce [RandomSource σ] : Nat → Expr → Trial σ Tally
  | 0, _ => Trial.fail .nestedTooDeeply
  | _ + 1, .literal digits => do
    let n ← Trial.ofExcept digits.value
    return ⟨n, []⟩
  | _ + 1, .dice term => term.throwDice
  | levels + 1, .negated inner => do
    let tally ← inner.reduce levels
    Trial.ofExcept (tally.mapValue fun value => .ok (-value))
  | levels + 1, .binary op left right =>
    match op.meaning? with
    | none => Trial.fail (.unknownOperator op.symbol)
    | some apply => do
      let l ← left.reduce levels
      let r ← right.reduce levels
      Trial.ofExcept (l.merge r apply)
  | _ + 1, .foreign kind => Trial.fail (.unknownNode kind)

def evaluate [RandomSource σ] (e : Expr) : Trial σ Tally :=
  e.reduce maxDepth

end Expr

end DiceArithmetic
