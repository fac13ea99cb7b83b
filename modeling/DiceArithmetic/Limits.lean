import DiceArithmetic.Expr.Measure

namespace DiceArithmetic

/-- Bounds on an expression: on the dice of all its terms together, on the sides of every die and on
its depth. -/
structure Limits where
  maxDice : Option Int := none
  maxSides : Option Int := none
  maxDepth : Option Int := none
deriving DecidableEq, Repr

namespace Limits

/-- An expression is measured only if its depth is limited. -/
def checkDepth (limits : Limits) (e : Expr) : Except Failure Unit :=
  match limits.maxDepth with
  | none => .ok ()
  | some max => do
    let depth ← e.measure
    if max < depth then .error (Failure.naming [max] (.tooDeep depth max))

def checkSides (limits : Limits) (term : DiceTerm) : Except Failure Unit :=
  match limits.maxSides with
  | none => .ok ()
  | some max => do
    let sides ← term.sides.value
    if max < sides then .error (Failure.naming [max] (.tooManySides term.sides max))

def checkCount (limits : Limits) (count : Int) (term : DiceTerm) : Except Failure Int := do
  let more ← term.count.value
  match limits.maxDice with
  | some max =>
    if max < count + more then .error (Failure.naming [max] (.tooManyDice (count + more) max))
    else .ok (count + more)
  | none => .ok (count + more)

/-- Goes through the terms behind so many dice, up to the first that breaks a limit or lies too
deep. The sides of a term are looked at before its dice are counted. -/
def checkTerms (limits : Limits) (count : Int) :
    List (Except Failure DiceTerm) → Except Failure Unit
  | [] => .ok ()
  | next :: rest => do
    let term ← next
    limits.checkSides term
    let count ← limits.checkCount count term
    limits.checkTerms count rest

def check (limits : Limits) (e : Expr) : Except Failure Unit := do
  limits.checkDepth e
  limits.checkTerms 0 (e.walk Expr.maxDepth)

end Limits

end DiceArithmetic
