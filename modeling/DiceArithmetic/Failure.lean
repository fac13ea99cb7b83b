import DiceArithmetic.Decimal
import DiceArithmetic.Expr
import DiceArithmetic.Settings.Fault
import DiceArithmetic.Text.Quoted

namespace DiceArithmetic

/-- What a caller can tell about a failure without reading its message. The first seven are kinds of
failed calculations. -/
inductive Failure.Kind
  | calculation
  | unparsable
  | uncomputable
  | divisionByZero
  | invalidDie
  | limitExceeded
  | sourceExhausted
  | value
  | type
  | runtime
  | nesting
  | settings
  | zeroDenominator
  | overflow
deriving DecidableEq, Repr

/-- Why an expression has no value, a source no answer or a service no settings. -/
inductive Failure
  /-- No position is given for a text that is nested too deeply to be read. -/
  | unparsable (text : String) (position : Option Nat)
  | unknownNode (kind : String)
  | unknownOperator (symbol : String)
  | malformedDigits (piece : Digits)
  | nestedTooDeeply
  | divisionByZero
  | sidelessDie (term : DiceTerm)
  | inexactValue (kind : String)
  | inexactOverflow
  | zeroDenominator (numerator : Int)
  | tooDeep (depth : Nat) (max : Int)
  | tooManySides (sides : Digits) (max : Int)
  | tooManyDice (count max : Int)
  | exhausted (given : Nat)
  | outsideDie (face sides : Int)
  | tooFewSides (sides : Int)
  | numberTooLong
  | invalidSettings (faults : List Settings.Fault)
  /-- A logging template was named where a level is expected: one text, or a table of texts. -/
  | unknownLevel (template : String)
  | notALevel (table : String)
  /-- A source of the caller's own reports in its own words. -/
  | reported (kind : Failure.Kind) (words : String)
  /-- A failure of another family, met while an expression was computed. -/
  | uncomputable (cause : Failure)
deriving DecidableEq, Repr

namespace Failure

/-- The kind itself and then each wider one, up to the widest that this library knows. -/
def Kind.lineage : Kind → List Kind
  | .calculation => [.calculation, .value]
  | .unparsable => [.unparsable, .calculation, .value]
  | .uncomputable => [.uncomputable, .calculation, .value]
  | .divisionByZero => [.divisionByZero, .uncomputable, .calculation, .value]
  | .invalidDie => [.invalidDie, .uncomputable, .calculation, .value]
  | .limitExceeded => [.limitExceeded, .uncomputable, .calculation, .value]
  | .sourceExhausted => [.sourceExhausted, .uncomputable, .calculation, .value]
  | .settings => [.settings, .value]
  | .nesting => [.nesting, .runtime]
  | kind => [kind]

def Kind.isA (kind family : Kind) : Bool :=
  kind.lineage.contains family

def Kind.code? : Kind → Option String
  | .calculation => some "CALC_ERROR"
  | .unparsable => some "UNPARSEABLE_INPUT"
  | .uncomputable => some "UNCOMPUTABLE"
  | .divisionByZero => some "DIVISION_BY_ZERO"
  | .invalidDie => some "INVALID_DIE"
  | .limitExceeded => some "LIMIT_EXCEEDED"
  | .sourceExhausted => some "RANDOM_SOURCE_EXHAUSTED"
  | _ => none

def kind : Failure → Kind
  | .unparsable .. => .unparsable
  | .unknownNode _ | .unknownOperator _ | .outsideDie .. | .uncomputable _ => .uncomputable
  | .malformedDigits _ | .tooFewSides _ | .numberTooLong | .unknownLevel _ => .value
  | .nestedTooDeeply => .nesting
  | .divisionByZero => .divisionByZero
  | .sidelessDie _ => .invalidDie
  | .inexactValue _ | .notALevel _ => .type
  | .inexactOverflow => .overflow
  | .zeroDenominator _ => .zeroDenominator
  | .tooDeep .. | .tooManySides .. | .tooManyDice .. => .limitExceeded
  | .exhausted _ => .sourceExhausted
  | .invalidSettings _ => .settings
  | .reported kind _ => kind

def citationLength : Nat := 200

def citation (cs : List Char) : String :=
  String.ofList ((Text.Quoted.encode cs).take citationLength)

def withCode (kind : Kind) (words : String) : String :=
  match kind.code? with
  | some code => s!"[{code}] {words}"
  | none => words

def words : Failure → String
  | .unparsable text position =>
    let place := (position.map fun p => s!" at position {p}").getD ""
    s!"Could not parse {Text.quote text}{place}. Example: '10d10-5+2/(2d2+6)'."
  | .unknownNode kind => s!"Unknown expression node {kind}."
  | .unknownOperator symbol => s!"Unknown operator {Text.quote symbol}."
  | .malformedDigits piece => s!"invalid literal for int() with base 10: {citation piece}"
  | .nestedTooDeeply => "Expression nested too deeply."
  | .divisionByZero => "Cannot divide by zero."
  | .sidelessDie term => s!"A die needs at least one side, got '{term.written}'."
  | .inexactValue kind => s!"Accumulator value must be int or Fraction, got {kind}"
  | .inexactOverflow => "int too large to convert to float"
  | .zeroDenominator numerator => s!"Fraction({Decimal.write numerator}, 0)"
  | .tooDeep depth max => s!"Expression nests {depth} deep (max {Decimal.write max})."
  | .tooManySides sides max =>
    s!"Too many sides: {String.ofList sides} (max {Decimal.write max})."
  | .tooManyDice count max =>
    s!"Too many dice: {Decimal.write count} (max {Decimal.write max})."
  | .exhausted given => s!"Fixed roll sequence exhausted after {given} value(s)."
  | .outsideDie face sides =>
    s!"Fixed roll {Decimal.write face} is outside [1, {Decimal.write sides}]."
  | .tooFewSides sides => s!"sides must be >= 1, got {Decimal.write sides}"
  | .numberTooLong =>
    s!"Exceeds the limit ({Decimal.messageDigits} digits) for integer string conversion; " ++
      "use sys.set_int_max_str_digits() to increase the limit"
  | .invalidSettings faults =>
    let errors := if faults.length = 1 then "error" else "errors"
    "\n".intercalate
      (s!"{faults.length} validation {errors} for Settings" :: faults.map Settings.Fault.describe)
  | .unknownLevel template => s!"Unknown level: {Text.quote template}"
  | .notALevel table => s!"Level not an integer or a valid string: {table}"
  | .reported _ words => words
  | .uncomputable cause =>
    if cause.kind = .nesting then "Expression nested too deeply to evaluate."
    else withCode cause.kind cause.words

def message (failure : Failure) : String :=
  withCode failure.kind failure.words

/-- A failure whose message names these numbers. If one of them is too long for a message, that is
the failure instead. -/
def naming (numbers : List Int) (failure : Failure) : Failure :=
  if numbers.all Decimal.fitsMessage then failure else .numberTooLong

/-- How a computation passes a failure on: one of a calculation and one of an unrelated kind as it
is, and one about a value or about nesting as uncomputable. -/
def ofComputation (failure : Failure) : Failure :=
  if failure.kind.isA .calculation then failure
  else if failure.kind.isA .value ∨ failure.kind = .nesting then .uncomputable failure
  else failure

end Failure

end DiceArithmetic
