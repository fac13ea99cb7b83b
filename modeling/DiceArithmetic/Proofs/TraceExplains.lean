import Mathlib.Algebra.Order.BigOperators.Group.List
import DiceArithmetic.Proofs.Computing
import DiceArithmetic.Proofs.RollLog
import DiceArithmetic.Proofs.TotalsReading

namespace DiceArithmetic.Proofs.TraceExplains

open DiceArithmetic.Calculator
open DiceArithmetic.Proofs.Grammar DiceArithmetic.Proofs.Decimals DiceArithmetic.Proofs.Trials
open DiceArithmetic.Proofs.Reducing DiceArithmetic.Proofs.Honesty
open DiceArithmetic.Proofs.RollLog DiceArithmetic.Proofs.Computing
open DiceArithmetic.Proofs.DiceParts DiceArithmetic.Proofs.TotalsReading
open DiceArithmetic.Proofs.ParseExactness

section Reducing

variable {σ τ : Type} [RandomSource σ] [RandomSource τ] {levels : Nat}

def totals (tally : Tally) : List Digits :=
  tally.throws.map fun throw => Decimal.digits throw.total

theorem value_of_total {total : Int} (h : 0 ≤ total) :
    IsDigits (Decimal.digits total) ∧ Digits.value (Decimal.digits total) = .ok total := by
  obtain ⟨n, rfl⟩ := Int.eq_ofNat_of_zero_le h
  have hdigits := isDigits_toDigits n
  rw [digits_natCast]
  refine ⟨hdigits, ?_⟩
  rw [value_of_isDigits hdigits, number_toDigits]

/-- An evaluation can be repeated with the totals of its throws in place of the dice terms. It then
takes nothing from its source. -/
theorem reduce_fill {e : Expr} {s after : σ} {tally : Tally} {events : List Event}
    (h : e.reduce levels s = ⟨.ok tally, after, events⟩)
    (hpos : ∀ throw ∈ tally.throws, 0 ≤ throw.total) (t : τ) :
    (fill e (totals tally)).reduce levels t = ⟨.ok ⟨tally.value, []⟩, t, []⟩ := by
  induction levels generalizing e s after tally events with
  | zero => exact absurd h fail_ne_ok
  | succ levels ih =>
    cases e with
    | literal digits =>
      obtain ⟨n, hn, rfl, _, _⟩ := reduce_literal_eq_ok h
      exact reduce_literal hn t
    | dice term =>
      obtain ⟨throw, _, rfl, _, _⟩ := Draws.throwDice_draws h
      exact reduce_literal (value_of_total (hpos throw (by simp))).2 t
    | negated inner =>
      obtain ⟨tally', hi, rfl⟩ := reduce_negated_eq_ok h
      exact reduce_negated (ih hi hpos)
    | binary op left right =>
      obtain ⟨apply, l, r, mid, _, _, hop, hl, hr, hvalue, hthrows, _⟩ := reduce_binary_eq_ok h
      rw [hthrows] at hpos
      have hlength : left.diceTerms.length = (totals l).length := by
        rw [(reduce_records hl).1.length_eq, totals, List.length_map]
      have htotals : totals tally = totals l ++ totals r := by
        rw [totals, hthrows, List.map_append]
        rfl
      have hleft := ih hl fun throw ht => hpos throw (List.mem_append_left _ ht)
      have hright := ih hr fun throw ht => hpos throw (List.mem_append_right _ ht)
      -- The left operand takes as many totals as it made throws, the right one those behind them.
      rw [htotals, fill, hlength, List.take_left, List.drop_left]
      exact reduce_binary hop hleft hright hvalue
    | foreign kind => exact absurd h fail_ne_ok

end Reducing

theorem nonneg_of_accounts {terms : List DiceTerm} {throws : List Throw}
    (h : List.Forall₂ Accounts terms throws) : ∀ throw ∈ throws, 0 ≤ throw.total := by
  induction h with
  | nil => simp
  | @cons term throw terms throws haccounts _ ih =>
    intro other ho
    obtain rfl | ho := List.mem_cons.mp ho
    · rw [haccounts.total]
      exact List.sum_nonneg fun n hn => Int.le_of_lt (haccounts.range n hn).1
    · exact ih other ho

def explained (text : String) (tally : Tally) : String :=
  String.ofList (replace (totals tally) (parts text.toList))

/-- A computation can be checked by hand: each dice term of its text has one throw, and the text
with the totals of these throws in place of its dice terms is computed from any source, which is
left as it was, without a throw and to the same value. -/
theorem compute_explained {σ : Type} [RandomSource σ] (text : String) (s after : σ) (tally : Tally)
    (events : List Event) (hs : Honest s) (h : compute text none s = ⟨.ok tally, after, events⟩) :
    (occurrences text.toList).length = tally.throws.length ∧
    (∃ e, Expr.parse (explained text tally) = .ok e) ∧
    ∀ (τ : Type) [RandomSource τ] (t : τ), compute (explained text tally) none t =
      ⟨.ok ⟨tally.value, []⟩, t, [.parsed (explained text tally)]⟩ := by
  obtain ⟨e, rest, hparse, heval, _⟩ := evaluate_of_computeBy h
  have hderives := derives_of_parse hparse
  obtain ⟨hrecords, hdraws, _⟩ := reduce_records heval
  have haccounts := accounts_of_records hderives.isWritten hs hrecords hdraws
  have hpos := nonneg_of_accounts haccounts
  have hlength : (totals tally).length = e.diceTerms.length := by
    rw [totals, List.length_map, hrecords.length_eq]
  have hdigits : ∀ total ∈ totals tally, IsDigits total := by
    intro total htotal
    obtain ⟨throw, hthrow, rfl⟩ := List.mem_map.mp htotal
    exact (value_of_total (hpos throw hthrow)).1
  have hread : Expr.parse (explained text tally) = .ok (fill e (totals tally)) :=
    parse_replace hparse hlength hdigits
  refine ⟨?_, ⟨_, hread⟩, fun τ _ t => ?_⟩
  · rw [← hrecords.length_eq, ← (fillable_of_derives hderives).length]
    rfl
  · have hfill : (fill e (totals tally)).evaluate t = ⟨.ok ⟨tally.value, []⟩, t, []⟩ :=
      reduce_fill heval hpos t
    apply (computeBy_none hread).trans
    rw [hfill]
    rfl

theorem compute_explained_inside_negation :
    ∃ (tally : Tally) (after : FixedRolls) (events : List Event),
      Honest (FixedRolls.ofList [3, 5, 2]) ∧
      compute "2d6/-(1D8-0d4)" none (FixedRolls.ofList [3, 5, 2]) = ⟨.ok tally, after, events⟩ ∧
      (occurrences "2d6/-(1D8-0d4)".toList).length = tally.throws.length ∧
      explained "2d6/-(1D8-0d4)" tally = "8/-(2-0)" ∧
      ∀ dice : SystemDice,
        compute "8/-(2-0)" none dice = ⟨.ok ⟨-4, []⟩, dice, [.parsed "8/-(2-0)"]⟩ := by
  have hcompute : compute "2d6/-(1D8-0d4)" none (FixedRolls.ofList [3, 5, 2]) =
      ⟨.ok ⟨-4, [⟨2, 6, [3, 5], 8⟩, ⟨1, 8, [2], 2⟩, ⟨0, 4, [], 0⟩]⟩, ⟨3, []⟩,
        [.parsed "2d6/-(1D8-0d4)", .rolled ⟨['2'], ['6']⟩, .rolled ⟨['1'], ['8']⟩,
          .rolled ⟨['0'], ['4']⟩]⟩ := by decide +kernel
  have hhonest := honest_fixedRolls (FixedRolls.ofList [3, 5, 2])
  obtain ⟨hcount, _, hagain⟩ := compute_explained _ _ _ _ _ hhonest hcompute
  have height : Decimal.digits 8 = ['8'] := digits_natCast 8
  have htwo : Decimal.digits 2 = ['2'] := digits_natCast 2
  have hzero : Decimal.digits 0 = ['0'] := digits_natCast 0
  have htext : explained "2d6/-(1D8-0d4)"
      ⟨-4, [⟨2, 6, [3, 5], 8⟩, ⟨1, 8, [2], 2⟩, ⟨0, 4, [], 0⟩]⟩ = "8/-(2-0)" := by
    simp only [explained, totals, List.map_cons, List.map_nil, height, htwo, hzero]
    decide +kernel
  rw [htext] at hagain
  exact ⟨_, _, _, hhonest, hcompute, hcount, htext, hagain SystemDice⟩

end DiceArithmetic.Proofs.TraceExplains
