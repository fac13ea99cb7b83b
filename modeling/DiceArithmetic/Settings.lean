import DiceArithmetic.Limits
import DiceArithmetic.Settings.Number

namespace DiceArithmetic

/-- Variables in the order in which they were first set. -/
abbrev Environment := List (String × String)

namespace Environment

/-- A variable that is set again keeps its place. -/
def set (env : Environment) (name value : String) : Environment :=
  if env.any (·.1 == name) then
    env.map fun entry => if entry.1 == name then (name, value) else entry
  else env ++ [(name, value)]

def unset (env : Environment) (name : String) : Environment :=
  env.filter (·.1 != name)

/-- Finds a variable by its name in lower case. Of the names that differ in case only, the last one
counts. -/
def find? (env : Environment) (name : String) : Option String :=
  (env.reverse.find? (·.1.toLower == name)).map (·.2)

end Environment

structure Settings where
  logLevel : String := "INFO"
  randomSeed : Option Int := none
  maxDice : Int := 100000
  maxSides : Int := 1000000
  maxDepth : Int := 200
deriving DecidableEq, Repr

namespace Settings

def limits (settings : Settings) : Limits :=
  ⟨settings.maxDice, settings.maxSides, settings.maxDepth⟩

def integer? (env : Environment) (name : String) : Except Fault (Option Int) :=
  match env.find? s!"dice_calc_{name}" with
  | none => .ok none
  | some text => ((Number.read text).mapError (⟨name, text, ·⟩)).map some

def fault? {α : Type} : Except Fault α → Option Fault
  | .ok _ => none
  | .error fault => some fault

/-- Reads all settings from the variables that carry their names behind `DICE_CALC_`. All the wrong
ones are reported together. -/
def ofEnvironment (env : Environment) : Except Failure Settings :=
  let seed := integer? env "random_seed"
  let dice := integer? env "max_dice"
  let sides := integer? env "max_sides"
  let depth := integer? env "max_depth"
  let defaults : Settings := {}
  match seed, dice, sides, depth with
  | .ok seed, .ok dice, .ok sides, .ok depth =>
    .ok {
      logLevel := (env.find? "dice_calc_log_level").getD defaults.logLevel
      randomSeed := seed
      maxDice := dice.getD defaults.maxDice
      maxSides := sides.getD defaults.maxSides
      maxDepth := depth.getD defaults.maxDepth }
  | _, _, _, _ => .error (.invalidSettings ([seed, dice, sides, depth].filterMap fault?))

end Settings

end DiceArithmetic
