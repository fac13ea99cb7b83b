import DiceArithmetic.Failure

namespace DiceArithmetic

def Digits.value (digits : Digits) : Except Failure Int :=
  (Decimal.read digits).mapError .malformedDigits

namespace Expr

def measure (e : Expr) : Except Failure Nat :=
  if e.depth ≤ maxDepth then .ok e.depth else .error .nestedTooDeeply

def same (a b : Expr) : Except Failure Bool := do
  let _ ← a.measure
  let _ ← b.measure
  return decide (a = b)

/-- The dice terms in the uppermost levels, from left to right. A failure stands in the place of
every part that lies deeper. -/
def walk : Nat → Expr → List (Except Failure DiceTerm)
  | 0, _ => [.error .nestedTooDeeply]
  | _ + 1, .dice term => [.ok term]
  | levels + 1, .negated inner => inner.walk levels
  | levels + 1, .binary _ left right => left.walk levels ++ right.walk levels
  | _ + 1, _ => []

end Expr

end DiceArithmetic
