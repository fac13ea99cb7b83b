import Mathlib.Data.Rat.Lemmas
import DiceArithmetic.Proofs.Computing
import DiceArithmetic.Proofs.Nesting
import DiceArithmetic.Proofs.Reducing
import DiceArithmetic.Proofs.Wording

namespace DiceArithmetic.Proofs.SelfReading

open DiceArithmetic.Calculator DiceArithmetic.Expr.Parser
open DiceArithmetic.Proofs.Grammar DiceArithmetic.Proofs.Openings DiceArithmetic.Proofs.Nesting
open DiceArithmetic.Proofs.Decimals DiceArithmetic.Proofs.ParseExactness
open DiceArithmetic.Proofs.Reducing DiceArithmetic.Proofs.Computing DiceArithmetic.Proofs.Wording

variable {v : Rat}

section Reading

def magnitude (v : Rat) : List Char :=
  if v.den = 1 then Nat.toDigits 10 v.num.natAbs
  else Nat.toDigits 10 v.num.natAbs ++ '/' :: Nat.toDigits 10 v.den

def magnitudeTree (v : Rat) : Expr :=
  if v.den = 1 then .literal (Nat.toDigits 10 v.num.natAbs)
  else .binary .div (.literal (Nat.toDigits 10 v.num.natAbs)) (.literal (Nat.toDigits 10 v.den))

/-- The expression as which a value is read. The sign of a fraction negates the whole of it. -/
def tree (v : Rat) : Expr :=
  if v.num < 0 then .negated (magnitudeTree v) else magnitudeTree v

theorem display_eq (tally : Tally) : tally.display.toList =
    if tally.value.num < 0 then '-' :: magnitude tally.value else magnitude tally.value := by
  have hden : Decimal.digits tally.value.den = Nat.toDigits 10 tally.value.den :=
    digits_natCast tally.value.den
  rw [toList_display, displayWords, magnitude, hden]
  by_cases hneg : tally.value.num < 0
  · rw [if_pos hneg, digits_of_neg hneg]
    split <;> simp [List.intercalate_cons_cons]
  · rw [if_neg hneg, digits_of_nonneg (Int.not_lt.mp hneg)]
    split <;> simp [List.intercalate_cons_cons]

theorem derives_magnitude (v : Rat) (next : Option Char) :
    Derives Greedy .product (magnitude v) next (magnitudeTree v) := by
  have hnum := isDigits_toDigits v.num.natAbs
  unfold magnitude magnitudeTree
  split
  · exact .operand (.literal hnum)
  · exact .multiplicative (.operand (.literal hnum)) rfl (.literal (isDigits_toDigits v.den))

theorem plain_magnitude (v : Rat) : ∀ c ∈ magnitude v, c ≠ '(' ∧ c ≠ '-' := by
  have hnum := plain_of_isDigits (isDigits_toDigits v.num.natAbs)
  have hden := plain_of_isDigits (isDigits_toDigits v.den)
  unfold magnitude
  split
  · exact hnum
  · exact List.forall_mem_append.mpr ⟨hnum, List.forall_mem_cons.mpr ⟨by decide, hden⟩⟩

theorem parse_display (tally : Tally) :
    Expr.parse tally.display = .ok (tree tally.value) := by
  have hderives := derives_magnitude tally.value none
  have hplain := plain_magnitude tally.value
  have hlist := display_eq tally
  unfold tree
  by_cases hneg : tally.value.num < 0
  · rw [if_pos hneg] at hlist ⊢
    apply parse_of_derives
    · rw [hlist]
      have hminus : StaysWithin maxOpen (Front.read {} '-') (magnitude tally.value) :=
        staysWithin_of_plain (by decide) hplain
      exact (staysWithin_cons.mpr ⟨Nat.zero_le _, hminus⟩).within
    · rw [hlist]
      exact .product (.operand (.negated (.product hderives) (.inl rfl)))
  · rw [if_neg hneg] at hlist ⊢
    apply parse_of_derives
    · rw [hlist]
      exact within_of_plain hplain
    · rw [hlist]
      exact .product hderives

end Reading

section Evaluating

variable {σ : Type} [RandomSource σ]

def absValue (v : Rat) : Rat := (v.num.natAbs : Int) / (v.den : Int)

theorem neg_absValue (h : v.num < 0) : -absValue v = v := by
  rw [absValue, Int.ofNat_natAbs_of_nonpos (Int.le_of_lt h), Int.cast_neg, neg_div, neg_neg]
  exact Rat.num_div_den v

theorem absValue_of_nonneg (h : 0 ≤ v.num) : absValue v = v := by
  rw [absValue, Int.natAbs_of_nonneg h]
  exact Rat.num_div_den v

theorem reduce_number (n levels : Nat) (s : σ) :
    (Expr.literal (Nat.toDigits 10 n)).reduce (levels + 1) s = ⟨.ok ⟨(n : Int), []⟩, s, []⟩ := by
  apply reduce_literal
  rw [value_of_isDigits (isDigits_toDigits n), number_toDigits]

theorem reduce_magnitudeTree (v : Rat) (levels : Nat) (s : σ) :
    (magnitudeTree v).reduce (levels + 2) s = ⟨.ok ⟨absValue v, []⟩, s, []⟩ := by
  unfold magnitudeTree
  by_cases hden : v.den = 1
  · rw [if_pos hden, reduce_number]
    simp [absValue, hden]
  · have hne : ((v.den : Int) : Rat) ≠ 0 := by
      exact_mod_cast v.den_nz
    have hquotient : divide (v.num.natAbs : Int) (v.den : Int) = .ok (absValue v) := by
      rw [divide, if_neg hne]
      rfl
    rw [if_neg hden]
    exact reduce_binary rfl (reduce_number _ levels s) (reduce_number _ levels s) hquotient

theorem reduce_tree (v : Rat) (levels : Nat) (s : σ) :
    (tree v).reduce (levels + 3) s = ⟨.ok ⟨v, []⟩, s, []⟩ := by
  unfold tree
  by_cases hneg : v.num < 0
  · have hnegated := reduce_negated (reduce_magnitudeTree v levels s)
    rw [neg_absValue hneg] at hnegated
    rw [if_pos hneg]
    exact hnegated
  · have hmagnitude := reduce_magnitudeTree v (levels + 1) s
    rw [absValue_of_nonneg (Int.not_lt.mp hneg)] at hmagnitude
    rw [if_neg hneg]
    exact hmagnitude

theorem compute_display (tally : Tally) (s : σ) :
    compute tally.display none s = ⟨.ok ⟨tally.value, []⟩, s, [.parsed tally.display]⟩ := by
  have hevaluate : (tree tally.value).evaluate s = ⟨.ok ⟨tally.value, []⟩, s, []⟩ :=
    reduce_tree tally.value 997 s
  rw [compute, computeBy_none (parse_display tally), hevaluate]
  rfl

end Evaluating

theorem render_value (text : String) (value : Rat) :
    render text ⟨value, []⟩ = s!"{text} => {Tally.display ⟨value, []⟩}" := by
  rw [render, Tally.lines, List.map_nil, List.nil_append, String.intercalate_singleton]

/-- What is shown of a value is an expression for just that value. It is read and computed without a
throw, whatever the source, and then shown as it was. So no two values are shown alike. -/
theorem display_reads_back (tally : Tally) :
    (∃ e, Expr.parse tally.display = .ok e) ∧
    (∀ {σ : Type} [RandomSource σ] (s : σ), ∃ again : Tally,
      compute tally.display none s = ⟨.ok again, s, [.parsed tally.display]⟩ ∧
      again.value = tally.value ∧ again.throws = [] ∧ again.display = tally.display ∧
      calculate tally.display none s =
        ⟨.ok s!"{tally.display} => {tally.display}", s, [.parsed tally.display]⟩) ∧
    ∀ other : Tally, other.value ≠ tally.value → other.display ≠ tally.display := by
  refine ⟨⟨_, parse_display tally⟩, fun s => ?_, fun other hvalue hdisplay => ?_⟩
  · have hcompute := compute_display tally s
    have hshown : Tally.display ⟨tally.value, []⟩ = tally.display := rfl
    refine ⟨⟨tally.value, []⟩, hcompute, rfl, rfl, hshown, ?_⟩
    rw [calculate, answer_of_ok hcompute, render_value, hshown]
  · exact hvalue (value_of_display hdisplay)

end DiceArithmetic.Proofs.SelfReading
