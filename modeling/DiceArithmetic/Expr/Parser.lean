import DiceArithmetic.Failure

namespace DiceArithmetic.Expr.Parser

/-- The left operands, each with its operator, that wait for the product and the sum being read. -/
structure Pending where
  sum : Option (Expr × Operator) := none
  product : Option (Expr × Operator) := none
deriving DecidableEq, Repr

/-- What is open until its sum ends. A minus sign in front of an operand negates the whole sum
behind it, so it stays open up to the next unmatched closing parenthesis or the end of the text. -/
inductive Opening
  | parenthesis
  | minus
deriving DecidableEq, Repr

/-- What was read last and decides what may follow. Unfinished digits have the latest one first. -/
inductive Phase
  | operand
  | literal (digits : Digits)
  | marker (count : Digits)
  | sides (count digits : Digits)
  | closed (e : Expr)
deriving DecidableEq, Repr

/-- What the beginning of a text leaves to be done: the openings, the innermost first and each with
what waited when it was met, and what waits within the innermost one. -/
structure State where
  openings : List (Opening × Pending) := []
  pending : Pending := {}
  phase : Phase := .operand
deriving DecidableEq, Repr

inductive Stop
  | unexpected
  | tooManyOpen
deriving DecidableEq, Repr

/-- More openings than this at a time are not read. -/
def maxOpen : Nat := 150

def attach : Option (Expr × Operator) → Expr → Expr
  | none, e => e
  | some (left, op), e => .binary op left e

def Pending.endProduct (pending : Pending) (last : Expr) : Expr :=
  attach pending.product last

def Pending.endSum (pending : Pending) (last : Expr) : Expr :=
  attach pending.sum (pending.endProduct last)

def Phase.operand? : Phase → Option Expr
  | .literal digits => some (.literal digits.reverse)
  | .sides count digits => some (.dice ⟨count, digits.reverse⟩)
  | .closed e => some e
  | .operand | .marker _ => none

/-- Ends the negations down to the innermost parenthesis, or all of them if there is none. -/
def endNegations : List (Opening × Pending) → Expr → List (Opening × Pending) × Expr
  | (.minus, outer) :: openings, e => endNegations openings (outer.endSum (.negated e))
  | openings, e => (openings, e)

namespace State

def enter (limit : Nat) (state : State) (opening : Opening) : Except Stop State :=
  if state.openings.length < limit then
    .ok ⟨(opening, state.pending) :: state.openings, {}, .operand⟩
  else .error .tooManyOpen

def awaitTerm (state : State) (last : Expr) (op : Operator) : State :=
  ⟨state.openings, ⟨some (state.pending.endSum last, op), none⟩, .operand⟩

def awaitFactor (state : State) (last : Expr) (op : Operator) : State :=
  ⟨state.openings, ⟨state.pending.sum, some (state.pending.endProduct last, op)⟩, .operand⟩

def close (state : State) (last : Expr) : Except Stop State :=
  match endNegations state.openings (state.pending.endSum last) with
  | ((.parenthesis, outer) :: openings, e) => .ok ⟨openings, outer, .closed e⟩
  | _ => .error .unexpected

/-- What may stand directly behind the operand `last`, further digits and the die marker apart. -/
def follow (state : State) (last : Expr) : Char → Except Stop State
  | '+' => .ok (state.awaitTerm last .add)
  | '-' => .ok (state.awaitTerm last .sub)
  | '*' => .ok (state.awaitFactor last .mul)
  | '/' => .ok (state.awaitFactor last .div)
  | ')' => state.close last
  | _ => .error .unexpected

def step (limit : Nat) (state : State) (c : Char) : Except Stop State :=
  match state.phase with
  | .operand =>
    if c.isDigit then .ok { state with phase := .literal [c] }
    else if c = '(' then state.enter limit .parenthesis
    else if c = '-' then state.enter limit .minus
    else .error .unexpected
  | .literal digits =>
    if c.isDigit then .ok { state with phase := .literal (c :: digits) }
    else if c = 'd' ∨ c = 'D' then .ok { state with phase := .marker digits.reverse }
    else state.follow (.literal digits.reverse) c
  | .marker count =>
    if c.isDigit then .ok { state with phase := .sides count [c] } else .error .unexpected
  | .sides count digits =>
    if c.isDigit then .ok { state with phase := .sides count (c :: digits) }
    else state.follow (.dice ⟨count, digits.reverse⟩) c
  | .closed e => state.follow e c

def finish? (state : State) : Option Expr :=
  match state.phase.operand? with
  | none => none
  | some last =>
    match endNegations state.openings (state.pending.endSum last) with
    | ([], e) => some e
    | _ => none

end State

/-- Reads the rest of a text whose beginning has the given length and has led to the given state. A
text fails at its first character that no expression has in this place, or at its end. A text that
opens too much fails without a position. -/
def run (limit : Nat) (state : State) (position : Nat) : List Char → Except (Option Nat) Expr
  | [] =>
    match state.finish? with
    | some e => .ok e
    | none => .error (some position)
  | c :: cs =>
    match state.step limit c with
    | .ok next => run limit next (position + 1) cs
    | .error .unexpected => .error (some position)
    | .error .tooManyOpen => .error none

end DiceArithmetic.Expr.Parser

namespace DiceArithmetic.Expr

/-- Reads an expression such as `10d10-5+2/(2d2+6)`. No blanks are accepted, and a minus sign in
front of an operand reaches as far as the sum that it begins. -/
def parse (text : String) : Except Failure Expr :=
  (Parser.run Parser.maxOpen {} 0 text.toList).mapError (.unparsable text)

end DiceArithmetic.Expr
