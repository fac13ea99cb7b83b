import DiceArithmetic.Calculator

namespace DiceArithmetic

inductive Request
  | parse (text : String)
  | compute (text : String) (limits : Option Limits)
  | calculate (text : String) (limits : Option Limits)
  | audit (text : String) (limits : Option Limits)
deriving DecidableEq, Repr

inductive Response
  | expression (e : Expr)
  | tally (tally : Tally)
  | text (text : String)
  | report (report : Report)
deriving DecidableEq, Repr

namespace Session

variable {σ : Type} [RandomSource σ]

def serve : Request → Trial σ Response
  | .parse text => .expression <$> Calculator.read text
  | .compute text limits => .tally <$> Calculator.compute text limits
  | .calculate text limits => .text <$> Calculator.calculate text limits
  | .audit text limits => .report <$> Calculator.audit text limits

/-- Serves requests one after the other from one source. Each outcome holds the source as the next
request finds it. -/
def run (s : σ) : List Request → List (Outcome σ Response)
  | [] => []
  | request :: requests =>
    let outcome := serve request s
    outcome :: run outcome.source requests

end Session

end DiceArithmetic
