import DiceArithmetic.Failure

namespace DiceArithmetic

/-- What a source answers. One of the caller's own may answer with a number that is not exact. -/
inductive Face
  | whole (n : Int)
  | inexact
deriving DecidableEq, Repr

/-- A source of rolls with states in `σ`. It is asked for one roll of a die with the given number of
sides, and moves to its next state whether or not it has an answer. -/
class RandomSource (σ : Type) where
  name : σ → String
  roll : σ → Int → Except Failure Face × σ

namespace Face

def whole? : Face → Option Int
  | .whole n => some n
  | .inexact => none

/-- From here on a whole number has no inexact counterpart. -/
def inexactBound : Nat := Nat.pow 2 1024 - Nat.pow 2 970

def add : Face → Face → Except Failure Face
  | .whole m, .whole n => .ok (.whole (m + n))
  | .inexact, .inexact => .ok .inexact
  | .whole n, .inexact | .inexact, .whole n =>
    if n.natAbs < inexactBound then .ok .inexact else .error .inexactOverflow

/-- The sum from the left. It is inexact as soon as one of the faces is. -/
def total (faces : List Face) : Except Failure Face :=
  faces.foldlM add (.whole 0)

end Face

end DiceArithmetic
