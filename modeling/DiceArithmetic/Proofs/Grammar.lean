import DiceArithmetic.Expr.Parser

namespace DiceArithmetic.Proofs.Grammar

inductive Rank
  | sum
  | product
  | operand

def additive? : Char → Option Operator
  | '+' => some .add
  | '-' => some .sub
  | _ => none

def multiplicative? : Char → Option Operator
  | '*' => some .mul
  | '/' => some .div
  | _ => none

def IsMarker (c : Char) : Prop := c = 'd' ∨ c = 'D'

def Separates (c : Char) : Prop := c.isDigit = false ∧ ¬ IsMarker c

def IsDigits (cs : List Char) : Prop :=
  cs ≠ [] ∧ ∀ c ∈ cs, c.isDigit = true

/-- `Derives ends rank text next e`: the text is a phrase of this rank with the tree `e` where the
character `next` follows it, or nothing does. A negation may only stand where `ends next` holds.
Operators of one rank are folded to the left, and parentheses have no node. -/
inductive Derives (ends : Option Char → Prop) : Rank → List Char → Option Char → Expr → Prop
  | product {text next e} : Derives ends .product text next e → Derives ends .sum text next e
  | additive {left right next l r c op} : Derives ends .sum left (some c) l →
      additive? c = some op → Derives ends .product right next r →
      Derives ends .sum (left ++ c :: right) next (.binary op l r)
  | operand {text next e} : Derives ends .operand text next e → Derives ends .product text next e
  | multiplicative {left right next l r c op} : Derives ends .product left (some c) l →
      multiplicative? c = some op → Derives ends .operand right next r →
      Derives ends .product (left ++ c :: right) next (.binary op l r)
  | literal {digits next} : IsDigits digits → Derives ends .operand digits next (.literal digits)
  | dice {count sides marker next} : IsDigits count → IsMarker marker → IsDigits sides →
      Derives ends .operand (count ++ marker :: sides) next (.dice ⟨count, sides⟩)
  | group {inner next e} : Derives ends .sum inner (some ')') e →
      Derives ends .operand ('(' :: inner ++ [')']) next e
  | negated {body next e} : Derives ends .sum body next e → ends next →
      Derives ends .operand ('-' :: body) next (.negated e)

/-- The plain grammar lets a negation end anywhere. -/
def Anywhere (_ : Option Char) : Prop := True

/-- A greedy negation reaches up to a closing parenthesis or the end of the text. -/
def Greedy (next : Option Char) : Prop := next = none ∨ next = some ')'

def Sentence (text : List Char) : Prop := ∃ e, Derives Anywhere .sum text none e

theorem Derives.relax {ends ends' : Option Char → Prop} (hends : ∀ next, ends next → ends' next)
    {rank : Rank} {text : List Char} {next : Option Char} {e : Expr}
    (h : Derives ends rank text next e) : Derives ends' rank text next e := by
  induction h with
  | product _ ih => exact .product ih
  | additive _ hc _ ihl ihr => exact .additive ihl hc ihr
  | operand _ ih => exact .operand ih
  | multiplicative _ hc _ ihl ihr => exact .multiplicative ihl hc ihr
  | literal hd => exact .literal hd
  | dice hc hm hs => exact .dice hc hm hs
  | group _ ih => exact .group ih
  | negated _ hn ih => exact .negated ih (hends _ hn)

theorem Derives.sentence {text : List Char} {e : Expr} (h : Derives Greedy .sum text none e) :
    Sentence text :=
  ⟨e, h.relax fun _ _ => trivial⟩

theorem IsDigits.singleton {c : Char} (h : c.isDigit = true) : IsDigits [c] :=
  ⟨by simp, by simpa using h⟩

theorem IsDigits.concat {digits : List Char} {c : Char} (hd : IsDigits digits)
    (h : c.isDigit = true) : IsDigits (digits ++ [c]) := by
  refine ⟨by simp, fun x hx => ?_⟩
  obtain hx | hx := List.mem_append.mp hx
  · exact hd.2 x hx
  · rwa [List.mem_singleton.mp hx]

/-- What the grammar writes: groups of digits, and operators with a meaning. -/
def IsWritten : Expr → Prop
  | .literal digits => IsDigits digits
  | .dice term => IsDigits term.count ∧ IsDigits term.sides
  | .negated inner => IsWritten inner
  | .binary op left right => (∀ symbol, op ≠ .unknown symbol) ∧ IsWritten left ∧ IsWritten right
  | .foreign _ => False

theorem IsWritten.diceTerms {e : Expr} (h : IsWritten e) :
    ∀ term ∈ e.diceTerms, IsDigits term.count ∧ IsDigits term.sides := by
  induction e with
  | literal | foreign => simp [Expr.diceTerms]
  | dice term =>
    intro term' hterm
    cases List.mem_singleton.mp hterm
    exact h
  | negated inner ih => exact ih h
  | binary op left right ihl ihr =>
    intro term hterm
    obtain hl | hr := List.mem_append.mp hterm
    · exact ihl h.2.1 term hl
    · exact ihr h.2.2 term hr

theorem additive?_cases {c : Char} {op : Operator} (h : additive? c = some op) :
    c = '+' ∧ op = .add ∨ c = '-' ∧ op = .sub := by
  unfold additive? at h
  split at h <;> cases h
  · exact .inl ⟨rfl, rfl⟩
  · exact .inr ⟨rfl, rfl⟩

theorem multiplicative?_cases {c : Char} {op : Operator} (h : multiplicative? c = some op) :
    c = '*' ∧ op = .mul ∨ c = '/' ∧ op = .div := by
  unfold multiplicative? at h
  split at h <;> cases h
  · exact .inl ⟨rfl, rfl⟩
  · exact .inr ⟨rfl, rfl⟩

theorem additive?_known {c : Char} {op : Operator} (h : additive? c = some op) (symbol : String) :
    op ≠ .unknown symbol := by
  obtain ⟨-, rfl⟩ | ⟨-, rfl⟩ := additive?_cases h <;> simp

theorem multiplicative?_known {c : Char} {op : Operator} (h : multiplicative? c = some op)
    (symbol : String) : op ≠ .unknown symbol := by
  obtain ⟨-, rfl⟩ | ⟨-, rfl⟩ := multiplicative?_cases h <;> simp

theorem separates_of_mem {c : Char} (h : c ∈ ['+', '-', '*', '/', '(', ')']) : Separates c := by
  simp only [List.mem_cons, List.not_mem_nil, or_false] at h
  obtain rfl | rfl | rfl | rfl | rfl | rfl := h <;> exact ⟨rfl, by simp [IsMarker]⟩

theorem additive?_separates {c : Char} {op : Operator} (h : additive? c = some op) :
    Separates c := by
  obtain ⟨rfl, -⟩ | ⟨rfl, -⟩ := additive?_cases h <;> exact separates_of_mem (by decide)

theorem multiplicative?_separates {c : Char} {op : Operator} (h : multiplicative? c = some op) :
    Separates c := by
  obtain ⟨rfl, -⟩ | ⟨rfl, -⟩ := multiplicative?_cases h <;> exact separates_of_mem (by decide)

theorem additive?_not_greedy {c : Char} {op : Operator} (h : additive? c = some op) :
    ¬ Greedy (some c) := by
  obtain ⟨rfl, -⟩ | ⟨rfl, -⟩ := additive?_cases h <;> simp [Greedy]

theorem multiplicative?_not_greedy {c : Char} {op : Operator} (h : multiplicative? c = some op) :
    ¬ Greedy (some c) := by
  obtain ⟨rfl, -⟩ | ⟨rfl, -⟩ := multiplicative?_cases h <;> simp [Greedy]

theorem Derives.isWritten {ends : Option Char → Prop} {rank : Rank} {text : List Char}
    {next : Option Char} {e : Expr} (h : Derives ends rank text next e) : IsWritten e := by
  induction h with
  | product _ ih | operand _ ih | group _ ih | negated _ _ ih => exact ih
  | additive _ hc _ ihl ihr => exact ⟨additive?_known hc, ihl, ihr⟩
  | multiplicative _ hc _ ihl ihr => exact ⟨multiplicative?_known hc, ihl, ihr⟩
  | literal hd => exact hd
  | dice hc _ hs => exact ⟨hc, hs⟩

def Symbol (c : Char) : Prop :=
  c.isDigit = true ∨ c ∈ ['d', 'D', '+', '-', '*', '/', '(', ')']

theorem symbols_join {left right : List Char} {c : Char} (hl : ∀ x ∈ left, Symbol x)
    (hc : Symbol c) (hr : ∀ x ∈ right, Symbol x) : ∀ x ∈ left ++ c :: right, Symbol x :=
  List.forall_mem_append.mpr ⟨hl, List.forall_mem_cons.mpr ⟨hc, hr⟩⟩

theorem Derives.symbols {ends : Option Char → Prop} {rank : Rank} {text : List Char}
    {next : Option Char} {e : Expr} (h : Derives ends rank text next e) :
    ∀ c ∈ text, Symbol c := by
  induction h with
  | product _ ih | operand _ ih => exact ih
  | additive _ hc _ ihl ihr =>
    obtain ⟨rfl, -⟩ | ⟨rfl, -⟩ := additive?_cases hc
    · exact symbols_join ihl (.inr (by simp)) ihr
    · exact symbols_join ihl (.inr (by simp)) ihr
  | multiplicative _ hc _ ihl ihr =>
    obtain ⟨rfl, -⟩ | ⟨rfl, -⟩ := multiplicative?_cases hc
    · exact symbols_join ihl (.inr (by simp)) ihr
    · exact symbols_join ihl (.inr (by simp)) ihr
  | literal hd => exact fun c hc => .inl (hd.2 c hc)
  | dice hc hm hs =>
    refine symbols_join (fun c h => .inl (hc.2 c h)) ?_ fun c h => .inl (hs.2 c h)
    obtain rfl | rfl := hm
    · exact .inr (by simp)
    · exact .inr (by simp)
  | group _ ih =>
    rw [List.cons_append, List.forall_mem_cons]
    exact ⟨.inr (by simp), symbols_join ih (.inr (by simp)) (by simp)⟩
  | negated _ _ ih => exact List.forall_mem_cons.mpr ⟨.inr (by simp), ih⟩

end DiceArithmetic.Proofs.Grammar
