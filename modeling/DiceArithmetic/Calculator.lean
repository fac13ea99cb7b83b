import DiceArithmetic.Expr.Evaluation
import DiceArithmetic.Expr.Parser
import DiceArithmetic.Limits

namespace DiceArithmetic

structure Report where
  input : String
  source : String
  throws : List Throw
  value : String
  numerator : Int
  denominator : Nat
  isInteger : Bool
  text : String
deriving DecidableEq, Repr

namespace Calculator

variable {σ : Type}

def readingEvents (text : String) : Except Failure Expr → List Event
  | .ok _ => [.parsed text]
  | .error (.unparsable _ none) => [.nestedTooDeeply text.length]
  | .error _ => []

def read (text : String) : Trial σ Expr := fun s =>
  let result := Expr.parse text
  ⟨result, s, readingEvents text result⟩

/-- Reads a text, checks it against the limits and only then evaluates it in the given way. -/
def computeBy (evaluate : Expr → Trial σ Tally) (text : String) (limits : Option Limits) :
    Trial σ Tally := do
  let e ← read text
  Trial.mapFailure Failure.ofComputation do
    Trial.ofExcept (limits.elim (.ok ()) (·.check e))
    evaluate e

def compute [RandomSource σ] : String → Option Limits → Trial σ Tally :=
  computeBy Expr.evaluate

def render (text : String) (tally : Tally) : String :=
  "\n".intercalate (tally.lines ++ [s!"{text} => {tally.display}"])

def notParsed (text : String) : String :=
  s!"`{text}` => could not be parsed"

def notComputed (text : String) : String :=
  s!"`{text}` => parsed but could not be computed"

/-- Words an answer for a failure and reports it. Only failures that are not about values are let
through. -/
def excuse (text : String) (failure : Failure) : Trial σ String :=
  if failure.kind.isA .unparsable then do
    Trial.emit (.notParsed text)
    return notParsed text
  else if failure.kind ∈ [.divisionByZero, .invalidDie, .limitExceeded] then do
    Trial.emit (.notComputed text failure)
    return notComputed text
  else if failure.kind.isA .uncomputable then do
    Trial.emit (.notEvaluated text failure)
    return notComputed text
  else if failure.kind.isA .value then do
    Trial.emit (.notRendered text failure)
    return notComputed text
  else
    Trial.fail failure

def answer (text : String) (computation : Trial σ Tally) : Trial σ String :=
  (render text <$> computation).recover (excuse text)

def calculate [RandomSource σ] (text : String) (limits : Option Limits) : Trial σ String :=
  answer text (compute text limits)

def report (text source : String) (tally : Tally) : Report where
  input := text
  source := source
  throws := tally.throws
  value := tally.display
  numerator := tally.value.num
  denominator := tally.value.den
  isInteger := tally.value.den == 1
  text := render text tally

def audit [RandomSource σ] (text : String) (limits : Option Limits) : Trial σ Report := fun s =>
  (report text (RandomSource.name s) <$> compute text limits) s

end Calculator

end DiceArithmetic
