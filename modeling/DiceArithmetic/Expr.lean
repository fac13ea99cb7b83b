namespace DiceArithmetic

/-- A digit group as it was written. -/
abbrev Digits := List Char

structure DiceTerm where
  count : Digits
  sides : Digits
deriving DecidableEq, Repr

/-- An operator between two operands. One in an expression built by hand may have a symbol without
meaning. -/
inductive Operator
  | add
  | sub
  | mul
  | div
  | unknown (symbol : String)
deriving DecidableEq, Repr

/-- An expression keeps its digit groups as written and needs no node for parentheses. One that was
built by hand may hold a value of another kind in place of a node. -/
inductive Expr
  | literal (digits : Digits)
  | dice (term : DiceTerm)
  | negated (inner : Expr)
  | binary (op : Operator) (left right : Expr)
  | foreign (kind : String)
deriving DecidableEq, Repr

def Operator.ofSymbol : String → Operator
  | "+" => .add
  | "-" => .sub
  | "*" => .mul
  | "/" => .div
  | symbol => .unknown symbol

def Operator.symbol : Operator → String
  | .add => "+"
  | .sub => "-"
  | .mul => "*"
  | .div => "/"
  | .unknown symbol => symbol

def DiceTerm.written (term : DiceTerm) : String :=
  String.ofList (term.count ++ 'd' :: term.sides)

namespace Expr

/-- An expression of any depth can be read. Parts of it that lie deeper than this are neither
measured nor evaluated. -/
def maxDepth : Nat := 1000

def depth : Expr → Nat
  | .negated inner => inner.depth + 1
  | .binary _ left right => max left.depth right.depth + 1
  | _ => 1

/-- The dice terms from left to right, which is the order in which they are rolled. -/
def diceTerms : Expr → List DiceTerm
  | .dice term => [term]
  | .negated inner => inner.diceTerms
  | .binary _ left right => left.diceTerms ++ right.diceTerms
  | _ => []

end Expr

end DiceArithmetic
