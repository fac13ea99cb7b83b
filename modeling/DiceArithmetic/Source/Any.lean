import DiceArithmetic.Source.FixedRolls
import DiceArithmetic.Source.ScriptedRolls
import DiceArithmetic.Source.SystemDice

namespace DiceArithmetic

inductive AnySource
  | fixed (rolls : FixedRolls)
  | scripted (rolls : ScriptedRolls)
  | system (dice : SystemDice)

namespace AnySource

def roll : AnySource → Int → Except Failure Face × AnySource
  | .fixed rolls, sides => (rolls.roll sides).map id .fixed
  | .scripted rolls, _ => rolls.roll.map id .scripted
  | .system dice, sides => (dice.roll sides).map id .system

instance : RandomSource AnySource where
  name
    | .fixed rolls => RandomSource.name rolls
    | .scripted rolls => RandomSource.name rolls
    | .system dice => RandomSource.name dice
  roll := roll

def remaining? : AnySource → Option Nat
  | .fixed rolls => some rolls.remaining.length
  | .scripted rolls => some rolls.remaining.length
  | .system _ => none

end AnySource

end DiceArithmetic
