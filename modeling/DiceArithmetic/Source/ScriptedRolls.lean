import DiceArithmetic.Source

namespace DiceArithmetic

/-- A source of the caller's own: it answers with the given faces, whatever the die, and then with
the given failure for ever. -/
structure ScriptedRolls where
  name : String
  remaining : List Face
  failure : Failure
deriving DecidableEq, Repr

namespace ScriptedRolls

def roll (rolls : ScriptedRolls) : Except Failure Face × ScriptedRolls :=
  match rolls.remaining with
  | [] => (.error rolls.failure, rolls)
  | face :: rest => (.ok face, { rolls with remaining := rest })

instance : RandomSource ScriptedRolls where
  name := name
  roll rolls _ := rolls.roll

end ScriptedRolls

end DiceArithmetic
