import DiceArithmetic.Proofs.LimitCheck
import DiceArithmetic.Proofs.Trials
import DiceArithmetic.Source.Recorded

namespace DiceArithmetic.Proofs.Requests

open DiceArithmetic.Proofs.Decimals DiceArithmetic.Proofs.Trials DiceArithmetic.Proofs.LimitCheck

section Asking

variable {σ α β : Type}

/-- The trial asks its source for a beginning of these rolls, and for all of them if it succeeds. -/
def Asks (rolls : List Int) (trial : Trial (Recorded σ) α) : Prop :=
  ∀ s, ∃ asked, asked <+: rolls ∧
    (trial s).source.record.map Prod.fst = s.record.map Prod.fst ++ asked ∧
    ∀ a, (trial s).result = .ok a → asked = rolls

theorem Asks.bind {trial : Trial (Recorded σ) α} {next : α → Trial (Recorded σ) β}
    {first second : List Int} (h : Asks first trial) (hn : ∀ a, Asks second (next a)) :
    Asks (first ++ second) (trial >>= next) := by
  intro s
  obtain ⟨asked, hbegin, hrecord, hall⟩ := h s
  obtain ⟨failure, mid, events, ht, hb⟩ | ⟨a, mid, events, ht, hb⟩ := bind_cases trial next s
  · rw [ht] at hrecord
    rw [hb]
    exact ⟨asked, hbegin.trans (List.prefix_append first second), hrecord, nofun⟩
  · rw [ht] at hrecord hall
    obtain rfl := hall a rfl
    obtain ⟨more, hbegin', hrecord', hall'⟩ := hn a mid
    rw [hb]
    refine ⟨asked ++ more, (List.prefix_append_right_inj asked).mpr hbegin', ?_, fun b hb => ?_⟩
    · rw [← List.append_assoc, ← hrecord]
      exact hrecord'
    · rw [hall' b hb]

theorem asks_nothing {trial : Trial (Recorded σ) α} (h : ∀ s, (trial s).source = s) :
    Asks [] trial :=
  fun s => ⟨[], List.prefix_rfl, by rw [h, List.append_nil], fun _ _ => rfl⟩

theorem asks_fail (rolls : List Int) (failure : Failure) :
    Asks rolls (Trial.fail failure : Trial (Recorded σ) α) :=
  fun _ => ⟨[], List.nil_prefix, (List.append_nil _).symm, nofun⟩

theorem asks_ofExcept (result : Except Failure α) :
    Asks [] (Trial.ofExcept result : Trial (Recorded σ) α) :=
  asks_nothing fun _ => rfl

variable [RandomSource σ]

theorem asks_draw (sides : Int) : Asks [sides] (Trial.draw sides : Trial (Recorded σ) Face) :=
  fun _ => ⟨[sides], List.prefix_rfl, List.map_append, fun _ _ => rfl⟩

theorem asks_drawFaces (sides : Int) (count : Nat) (faces : List Face) :
    Asks (List.replicate count sides)
      (drawFaces sides count faces : Trial (Recorded σ) (List Face)) := by
  induction count generalizing faces with
  | zero => exact asks_nothing fun _ => rfl
  | succ count ih => exact (asks_draw sides).bind fun face => ih (face :: faces)

end Asking

def rollsOf (term : DiceTerm) : List Int :=
  match term.count.value, term.sides.value with
  | .ok count, .ok sides => if sides ≤ 0 then [] else List.replicate count.toNat sides
  | _, _ => []

section Evaluating

variable {σ : Type} [RandomSource σ]

theorem asks_throwDice (term : DiceTerm) :
    Asks (rollsOf term) (term.throwDice : Trial (Recorded σ) Tally) := by
  unfold DiceTerm.throwDice rollsOf
  cases term.count.value with
  | error failure => exact asks_fail _ failure
  | ok count =>
    cases term.sides.value with
    | error failure => exact asks_fail _ failure
    | ok sides =>
      simp only [ofExcept_ok_bind]
      by_cases hs : sides ≤ 0
      · rw [if_pos hs, if_pos hs]
        exact asks_fail _ _
      · rw [if_neg hs, if_neg hs, ← List.append_nil (List.replicate _ _)]
        refine (asks_drawFaces sides count.toNat []).bind fun faces => ?_
        refine (asks_ofExcept _).bind fun total => (asks_nothing fun _ => rfl).bind fun _ => ?_
        cases total with
        | whole n => exact asks_nothing fun _ => rfl
        | inexact => exact asks_fail _ _

theorem asks_reduce (levels : Nat) (e : Expr) :
    Asks (e.diceTerms.flatMap rollsOf) (e.reduce levels : Trial (Recorded σ) Tally) := by
  induction levels generalizing e with
  | zero => exact asks_fail _ _
  | succ levels ih =>
    cases e with
    | literal digits => exact (asks_ofExcept _).bind fun n => asks_nothing fun _ => rfl
    | dice term =>
      have h : [term].flatMap rollsOf = rollsOf term := by simp
      rw [Expr.diceTerms, h]
      exact asks_throwDice term
    | negated inner =>
      rw [Expr.diceTerms, ← List.append_nil (inner.diceTerms.flatMap rollsOf)]
      exact (ih inner).bind fun tally => asks_ofExcept _
    | binary op left right =>
      unfold Expr.reduce
      cases op.meaning? with
      | none => exact asks_fail _ _
      | some apply =>
        rw [Expr.diceTerms, List.flatMap_append,
          ← List.append_nil (right.diceTerms.flatMap rollsOf)]
        exact (ih left).bind fun l => (ih right).bind fun r => asks_ofExcept _
    | foreign kind => exact asks_fail _ _

end Evaluating

section Limits

variable {limits : Limits} {terms : List DiceTerm}

theorem rollsOf_of_isRead {term : DiceTerm} (h : IsRead term) :
    rollsOf term =
      if sidesOf term ≤ 0 then [] else List.replicate (number term.count) (sidesOf term) := by
  rw [rollsOf, value_of_isDigits h.1, value_of_isDigits h.2]
  rfl

theorem length_rollsOf {term : DiceTerm} (h : IsRead term) :
    ((rollsOf term).length : Int) ≤ diceOf term := by
  rw [rollsOf_of_isRead h]
  by_cases hs : sidesOf term ≤ 0
  · rw [if_pos hs, diceOf]
    exact Int.natCast_nonneg _
  · rw [if_neg hs, List.length_replicate]
    exact Int.le_refl _

theorem length_rolls (h : ∀ term ∈ terms, IsRead term) :
    ((terms.flatMap rollsOf).length : Int) ≤ diceCount terms := by
  induction terms with
  | nil => exact Int.le_refl _
  | cons term terms ih =>
    have hfirst := length_rollsOf (h term (by simp))
    have hrest := ih fun t ht => h t (List.mem_cons_of_mem term ht)
    rw [List.flatMap_cons, List.length_append, diceCount, List.map_cons, List.sum_cons]
    rw [diceCount] at hrest
    omega

theorem sides_of_mem_rolls (h : ∀ term ∈ terms, IsRead term) {sides : Int}
    (hs : sides ∈ terms.flatMap rollsOf) : 1 ≤ sides ∧ ∃ term ∈ terms, sides = sidesOf term := by
  obtain ⟨term, hterm, hmem⟩ := List.mem_flatMap.mp hs
  rw [rollsOf_of_isRead (h term hterm)] at hmem
  by_cases hpos : sidesOf term ≤ 0
  · simp [hpos] at hmem
  · rw [if_neg hpos] at hmem
    have hsides := List.eq_of_mem_replicate hmem
    exact ⟨by omega, term, hterm, hsides⟩

end Limits

end DiceArithmetic.Proofs.Requests
