import DiceArithmetic.Proofs.Nesting

namespace DiceArithmetic.Proofs.Printing

open DiceArithmetic.Proofs.Grammar DiceArithmetic.Proofs.Openings DiceArithmetic.Proofs.Nesting
open DiceArithmetic.Proofs.ParseExactness

def isAdditive : Operator → Bool
  | .add | .sub => true
  | _ => false

def enclose (needed : Bool) (text : List Char) : List Char :=
  if needed then '(' :: text ++ [')'] else text

/-- Whether a left operand needs parentheses: a negation reaches too far without them, and of a sum
a multiplicative operator would only get the last product. -/
def enclosedLeft (parent : Operator) : Expr → Bool
  | .negated _ => true
  | .binary child _ _ => !isAdditive parent && isAdditive child
  | _ => false

/-- A right operand with an operator needs parentheses unless that one binds more tightly. -/
def enclosedRight (parent : Operator) : Expr → Bool
  | .negated _ => true
  | .binary child _ _ => !(isAdditive parent && !isAdditive child)
  | _ => false

def print : Expr → List Char
  | .literal digits => digits
  | .dice term => term.count ++ 'd' :: term.sides
  | .negated inner => '-' :: print inner
  | .binary op left right =>
    enclose (enclosedLeft op left) (print left) ++
      (op.symbol.toList ++ enclose (enclosedRight op right) (print right))
  | .foreign _ => []

def rank : Expr → Rank
  | .binary op _ _ => if isAdditive op then .sum else .product
  | _ => .operand

/-- The text is a phrase for the expression in front of all that may follow. A negation may only be
followed by what ends it. -/
def Printed (e : Expr) : Prop :=
  ∀ next, Greedy next ∨ (∀ inner, e ≠ .negated inner) → Derives Greedy (rank e) (print e) next e

section Operands

variable {e : Expr} {text : List Char} {next : Option Char}

theorem derives_of_operand (rank : Rank) (h : Derives Greedy .operand text next e) :
    Derives Greedy rank text next e := by
  cases rank with
  | operand => exact h
  | product => exact .operand h
  | sum => exact .product (.operand h)

theorem Printed.sum (h : Printed e) (hn : Greedy next) : Derives Greedy .sum (print e) next e := by
  have hprint := h next (.inl hn)
  cases hrank : rank e with
  | sum => rwa [hrank] at hprint
  | product =>
    rw [hrank] at hprint
    exact .product hprint
  | operand =>
    rw [hrank] at hprint
    exact derives_of_operand .sum hprint

theorem Printed.enclosed (h : Printed e) (rank : Rank) (next : Option Char) :
    Derives Greedy rank (enclose true (print e)) next e :=
  derives_of_operand rank (derives_group (h.sum (.inl rfl)) next)

theorem Printed.left (h : Printed e) (op : Operator) (next : Option Char) :
    Derives Greedy (if isAdditive op then .sum else .product)
      (enclose (enclosedLeft op e) (print e)) next e := by
  cases e with
  | literal | dice | foreign => exact derives_of_operand _ (h next (.inr nofun))
  | negated inner => exact h.enclosed _ next
  | binary child l r =>
    have hprint := h next (.inr nofun)
    rw [rank] at hprint
    rw [enclosedLeft]
    cases isAdditive op with
    | true =>
      cases hchild : isAdditive child with
      | true => simpa [hchild, enclose] using hprint
      | false =>
        rw [hchild] at hprint
        exact .product hprint
    | false =>
      cases hchild : isAdditive child with
      | true => exact h.enclosed _ next
      | false => simpa [hchild, enclose] using hprint

theorem Printed.right (h : Printed e) (op : Operator) (next : Option Char) :
    Derives Greedy (if isAdditive op then .product else .operand)
      (enclose (enclosedRight op e) (print e)) next e := by
  cases e with
  | literal | dice | foreign => exact derives_of_operand _ (h next (.inr nofun))
  | negated inner => exact h.enclosed _ next
  | binary child l r =>
    have hprint := h next (.inr nofun)
    rw [rank] at hprint
    rw [enclosedRight]
    cases isAdditive op with
    | false => exact h.enclosed _ next
    | true =>
      cases hchild : isAdditive child with
      | true => exact h.enclosed _ next
      | false => simpa [hchild, enclose] using hprint

end Operands

theorem printed_of_isWritten {e : Expr} (h : IsWritten e) : Printed e := by
  induction e with
  | literal digits => exact fun _ _ => .literal h
  | dice term => exact fun _ _ => .dice h.1 (.inl rfl) h.2
  | negated inner ih =>
    intro next hn
    have hgreedy := hn.resolve_right fun hne => hne inner rfl
    exact .negated ((ih h).sum hgreedy) hgreedy
  | binary op left right ihl ihr =>
    obtain ⟨hop, hl, hr⟩ := h
    intro next _
    have hleft := fun c => (ihl hl).left op (some c)
    have hright := (ihr hr).right op next
    cases op with
    | add => exact .additive (hleft '+') rfl hright
    | sub => exact .additive (hleft '-') rfl hright
    | mul => exact .multiplicative (hleft '*') rfl hright
    | div => exact .multiplicative (hleft '/') rfl hright
    | unknown symbol => exact absurd rfl (hop symbol)
  | foreign => exact h.elim

/-- An expression is read back from its text, digits as written, if that does not open too much. -/
theorem parse_print (e : Expr) (h : IsWritten e) (hw : StaysWithin 150 {} (print e)) :
    Expr.parse (String.ofList (print e)) = .ok e := by
  have hderives : Derives Greedy .sum (print e) none e := (printed_of_isWritten h).sum (.inl rfl)
  exact parse_ofList hw.within hderives

theorem parse_print_nested :
    let e := Expr.binary .mul
      (.binary .sub (.literal ['1']) (.binary .add (.dice ⟨['0', '2'], ['6']⟩) (.literal ['0'])))
      (.negated (.binary .add (.binary .div (.binary .mul (.literal ['4']) (.literal ['5']))
        (.negated (.literal ['3']))) (.literal ['7'])))
    IsWritten e ∧ StaysWithin 150 {} (print e) ∧
      print e = "(1-(02d6+0))*(-4*5/(-3)+7)".toList ∧
      Expr.parse "(1-(02d6+0))*(-4*5/(-3)+7)" = .ok e := by
  intro e
  have hdigit (c : Char) (hc : c.isDigit = true) : IsDigits [c] := .singleton hc
  have hcount : IsDigits ['0', '2'] := (hdigit '0' rfl).concat rfl
  have hwritten : IsWritten e := by simp [e, IsWritten, hdigit, hcount]
  have hprint : print e = "(1-(02d6+0))*(-4*5/(-3)+7)".toList := by rfl
  have hwithin : StaysWithin 150 {} (print e) := by
    intro beginning hb
    have hlength := hb.length_le
    have hopen := length_openAfter beginning
    rw [hprint] at hlength
    exact Nat.le_trans hopen (Nat.le_trans hlength (by decide))
  have hparse := parse_print e hwritten hwithin
  rw [hprint, String.ofList_toList] at hparse
  exact ⟨hwritten, hwithin, hprint, hparse⟩

end DiceArithmetic.Proofs.Printing
