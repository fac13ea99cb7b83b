import DiceArithmetic.Failure

namespace DiceArithmetic

inductive Level
  | debug
  | info
  | warning
deriving DecidableEq, Repr

def Level.weight : Level → Nat
  | .debug => 10
  | .info => 20
  | .warning => 30

def Level.name : Level → String
  | .debug => "DEBUG"
  | .info => "INFO"
  | .warning => "WARNING"

inductive Event
  | parsed (text : String)
  | nestedTooDeeply (length : Nat)
  | rolled (term : DiceTerm)
  | notParsed (text : String)
  | notComputed (text : String) (failure : Failure)
  | notEvaluated (text : String) (failure : Failure)
  | notRendered (text : String) (failure : Failure)
  | seeded (seed : Int)
  | logging (threshold : Nat)
deriving DecidableEq, Repr

namespace Event

def level : Event → Level
  | .parsed _ | .rolled _ | .logging _ => .debug
  | .notParsed _ | .notComputed .. | .seeded _ => .info
  | .nestedTooDeeply _ | .notEvaluated .. | .notRendered .. => .warning

def logger : Event → String
  | .parsed _ | .nestedTooDeeply _ => "mcp_dice_calculator.parser"
  | .rolled _ => "mcp_dice_calculator.evaluator"
  | .notParsed _ | .notComputed .. | .notEvaluated .. | .notRendered .. =>
    "mcp_dice_calculator.calculator"
  | .seeded _ => "mcp_dice_calculator.random_source"
  | .logging _ => "root"

def message : Event → String
  | .parsed text => s!"Parsed {Text.quote text}"
  | .nestedTooDeeply length => s!"Expression nested too deeply to parse ({length} chars)"
  | .rolled term => s!"Rolled {term.written}"
  | .notParsed text => s!"Could not parse {Text.quote text}"
  | .notComputed text failure => s!"Could not compute {Text.quote text}: {failure.message}"
  | .notEvaluated text failure =>
    s!"Unexpected evaluation failure for {Text.quote text}: {failure.message}"
  | .notRendered text failure =>
    s!"Could not render result for {Text.quote text}: {failure.message}"
  | .seeded seed => s!"Using seeded random source (seed={Decimal.write seed})"
  | .logging threshold =>
    let level := if threshold = 0 then "NOTSET" else Level.debug.name
    s!"Logging configured at {level}"

def line (event : Event) : String :=
  s!"{event.level.name} {event.logger} {event.message}"

/-- The event as a handler of the log writes it. -/
def record (event : Event) : String :=
  s!"{event.logger} - {event.level.name} - {event.message}"

end Event

end DiceArithmetic
