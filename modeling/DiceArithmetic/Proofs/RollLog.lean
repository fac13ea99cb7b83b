import DiceArithmetic.Proofs.Honesty
import DiceArithmetic.Proofs.Decimals
import DiceArithmetic.Proofs.ParseExactness
import DiceArithmetic.Proofs.Reducing

namespace DiceArithmetic.Proofs.RollLog

open DiceArithmetic.Proofs.Grammar DiceArithmetic.Proofs.Decimals
open DiceArithmetic.Proofs.ParseExactness DiceArithmetic.Proofs.Trials
open DiceArithmetic.Proofs.Reducing DiceArithmetic.Proofs.Draws DiceArithmetic.Proofs.Honesty

variable {σ : Type} [RandomSource σ]

/-- An evaluation records and reports one throw for each dice term, in their order, and its draws
are those of its throws. -/
theorem reduce_records {levels : Nat} {e : Expr} {s after : σ} {tally : Tally}
    {events : List Event} (h : e.reduce levels s = ⟨.ok tally, after, events⟩) :
    List.Forall₂ Records e.diceTerms tally.throws ∧
      Answers s (tally.throws.flatMap drawsOf) after ∧ events = e.diceTerms.map .rolled := by
  induction levels generalizing e s after tally events with
  | zero => exact absurd h fail_ne_ok
  | succ levels ih =>
    cases e with
    | literal digits =>
      obtain ⟨n, _, rfl, rfl, rfl⟩ := reduce_literal_eq_ok h
      exact ⟨.nil, .nil _, rfl⟩
    | dice term =>
      obtain ⟨throw, hrecords, rfl, hdraws, rfl⟩ := throwDice_draws h
      exact ⟨.cons hrecords .nil, by simpa using hdraws, rfl⟩
    | negated inner =>
      obtain ⟨tally', hi, rfl⟩ := reduce_negated_eq_ok h
      have hinner := ih hi
      exact hinner
    | binary op left right =>
      obtain ⟨_, l, r, mid, _, _, _, hl, hr, _, hthrows, rfl⟩ := reduce_binary_eq_ok h
      obtain ⟨hrecordsl, hdrawsl, rfl⟩ := ih hl
      obtain ⟨hrecordsr, hdrawsr, rfl⟩ := ih hr
      rw [hthrows, List.flatMap_append]
      exact ⟨List.rel_append hrecordsl hrecordsr, hdrawsl.append hdrawsr, List.map_append.symm⟩
    | foreign kind => exact absurd h fail_ne_ok

theorem alike_recorded : Alike fun (s : σ) (r : Recorded σ) => r.source = s := by
  rintro s r sides rfl
  exact ⟨rfl, rfl⟩

theorem evaluate_recorded {e : Expr} {s after : σ} {tally : Tally} {events : List Event}
    (h : e.evaluate s = ⟨.ok tally, after, events⟩) :
    e.evaluate (Recorded.mk s []) = ⟨.ok tally, ⟨after, (tally.throws.flatMap drawsOf).map
      fun draw => (draw.1, .ok draw.2)⟩, events⟩ := by
  obtain ⟨hresult, hevents, hsource⟩ :=
    alike_recorded.reduce Expr.maxDepth e s (Recorded.mk s []) rfl
  change e.reduce Expr.maxDepth s = _ at h
  rw [h] at hresult hevents hsource
  rcases hr : e.reduce Expr.maxDepth (Recorded.mk s []) with ⟨result, ⟨source, record⟩, events'⟩
  rw [hr] at hresult hevents hsource
  dsimp only at hresult hevents hsource
  subst hresult hevents hsource
  -- The record is read off the second run: its draws are again those of the same throws.
  have hrecord := (reduce_records hr).2.1.record
  dsimp only at hrecord
  change e.reduce Expr.maxDepth (Recorded.mk s []) = _
  rw [hr, hrecord, List.nil_append]

structure Accounts (term : DiceTerm) (throw : Throw) : Prop where
  count : term.count.value = .ok throw.count
  sides : term.sides.value = .ok throw.sides
  sides_pos : 1 ≤ throw.sides
  length : (throw.rolls.length : Int) = throw.count
  range : ∀ n ∈ throw.rolls, 1 ≤ n ∧ n ≤ throw.sides
  total : throw.total = throw.rolls.sum

theorem count_of_records {term : DiceTerm} {throw : Throw} (h : Records term throw)
    (hcount : IsDigits term.count) : (throw.rolls.length : Int) = throw.count := by
  have hvalue := h.count
  rw [value_of_isDigits hcount] at hvalue
  have hlength := h.length
  have hnat := Except.ok.inj hvalue
  omega

theorem accounts_of_records {e : Expr} (he : IsWritten e) {s after : σ} (hs : Honest s)
    {throws : List Throw} (hrecords : List.Forall₂ Records e.diceTerms throws)
    (hdraws : Answers s (throws.flatMap drawsOf) after) :
    List.Forall₂ Accounts e.diceTerms throws := by
  rw [List.forall₂_iff_get] at hrecords ⊢
  obtain ⟨hlength, hget⟩ := hrecords
  refine ⟨hlength, fun i hi hi' => ?_⟩
  have hterm := he.diceTerms _ (List.get_mem e.diceTerms ⟨i, hi⟩)
  have hrecord := hget i hi hi'
  refine ⟨hrecord.count, hrecord.sides, hrecord.sides_pos, count_of_records hrecord hterm.1, ?_,
    hrecord.total⟩
  intro n hn
  have hmem : drawsOf (throws.get ⟨i, hi'⟩) ⊆ throws.flatMap drawsOf := fun draw hdraw =>
    List.mem_flatMap.mpr ⟨_, List.get_mem throws ⟨i, hi'⟩, hdraw⟩
  obtain ⟨m, hm, hrange⟩ := range_of_answers hdraws hs _ (hmem (List.mem_map_of_mem hn))
  cases hm
  exact hrange

theorem sum_counts {terms : List DiceTerm} {throws : List Throw}
    (h : List.Forall₂ Accounts terms throws) :
    (throws.map Throw.count).sum = ((throws.flatMap Throw.rolls).length : Int) := by
  induction h with
  | nil => rfl
  | @cons term throw terms throws haccounts _ ih =>
    rw [List.map_cons, List.sum_cons, List.flatMap_cons, List.length_append, ih]
    have hlength := haccounts.length
    omega

theorem snd_drawsOf (throws : List Throw) :
    (throws.flatMap drawsOf).map Prod.snd = (throws.flatMap Throw.rolls).map Face.whole := by
  rw [List.map_flatMap, List.map_flatMap]
  congr 1
  funext throw
  simp [drawsOf]

theorem taken_of_answers {terms : List DiceTerm} {s after : FixedRolls} {throws : List Throw}
    (haccounts : List.Forall₂ Accounts terms throws)
    (hdraws : Answers s (throws.flatMap drawsOf) after) :
    ∃ n : Nat, (throws.map Throw.count).sum = n ∧ n ≤ s.remaining.length ∧
      throws.flatMap Throw.rolls = s.remaining.take n ∧ after = ⟨s.given, s.remaining.drop n⟩ := by
  obtain ⟨taken, htaken, hremaining, hgiven⟩ := hdraws.fixed
  rw [snd_drawsOf] at htaken
  have hrolls : throws.flatMap Throw.rolls = taken :=
    List.map_injective_iff.mpr (fun _ _ h => Face.whole.inj h) htaken
  refine ⟨taken.length, by rw [sum_counts haccounts, hrolls], ?_, ?_, ?_⟩
  · rw [hremaining, List.length_append]
    exact Nat.le_add_right _ _
  · rw [hremaining, List.take_left, hrolls]
  · rw [hremaining, List.drop_left, ← hgiven]

/-- The record of a successful evaluation has one throw for each dice term, in the order in which
they stand in the expression, and its rolls are all that was drawn, in the order of drawing. -/
theorem evaluate_accounts (text : String) (e : Expr) (h : Expr.parse text = .ok e) :
    (∀ (σ : Type) [RandomSource σ] (s after : σ) (tally : Tally) (events : List Event),
      Honest s → e.evaluate s = ⟨.ok tally, after, events⟩ →
      List.Forall₂ Accounts e.diceTerms tally.throws ∧
      e.evaluate (Recorded.mk s []) = ⟨.ok tally, ⟨after, (tally.throws.flatMap drawsOf).map
        fun draw => (draw.1, .ok draw.2)⟩, events⟩) ∧
    ∀ (s after : FixedRolls) (tally : Tally) (events : List Event),
      e.evaluate s = ⟨.ok tally, after, events⟩ →
      List.Forall₂ Accounts e.diceTerms tally.throws ∧
      ∃ n : Nat, (tally.throws.map Throw.count).sum = n ∧ n ≤ s.remaining.length ∧
        tally.throws.flatMap Throw.rolls = s.remaining.take n ∧
        after = ⟨s.given, s.remaining.drop n⟩ := by
  have hwritten := (derives_of_parse h).isWritten
  constructor
  · intro σ _ s after tally events hs heval
    obtain ⟨hrecords, hdraws, _⟩ := reduce_records heval
    exact ⟨accounts_of_records hwritten hs hrecords hdraws, evaluate_recorded heval⟩
  · intro s after tally events heval
    obtain ⟨hrecords, hdraws, _⟩ := reduce_records heval
    have haccounts := accounts_of_records hwritten (honest_fixedRolls s) hrecords hdraws
    exact ⟨haccounts, taken_of_answers haccounts hdraws⟩

theorem evaluate_accounts_with_empty_throw :
    ∃ (e : Expr) (tally : Tally) (after : FixedRolls) (events : List Event),
      Expr.parse "2d6-0d4*(1d8)" = .ok e ∧ Honest (FixedRolls.ofList [3, 5, 8, 1]) ∧
      e.evaluate (FixedRolls.ofList [3, 5, 8, 1]) = ⟨.ok tally, after, events⟩ ∧
      List.Forall₂ Accounts e.diceTerms tally.throws ∧
      e.evaluate (Recorded.mk (FixedRolls.ofList [3, 5, 8, 1]) []) = ⟨.ok tally, ⟨after,
        [(6, .ok (.whole 3)), (6, .ok (.whole 5)), (8, .ok (.whole 8))]⟩, events⟩ ∧
      tally.throws.flatMap Throw.rolls = [3, 5, 8] ∧ after.remaining = [1] := by
  have hparse : Expr.parse "2d6-0d4*(1d8)" = .ok (.binary .sub (.dice ⟨['2'], ['6']⟩)
      (.binary .mul (.dice ⟨['0'], ['4']⟩) (.dice ⟨['1'], ['8']⟩))) := by rfl
  have heval : (Expr.binary .sub (.dice ⟨['2'], ['6']⟩)
      (.binary .mul (.dice ⟨['0'], ['4']⟩) (.dice ⟨['1'], ['8']⟩))).evaluate
        (FixedRolls.ofList [3, 5, 8, 1]) =
      ⟨.ok ⟨8, [⟨2, 6, [3, 5], 8⟩, ⟨0, 4, [], 0⟩, ⟨1, 8, [8], 8⟩]⟩, ⟨4, [1]⟩,
        [.rolled ⟨['2'], ['6']⟩, .rolled ⟨['0'], ['4']⟩, .rolled ⟨['1'], ['8']⟩]⟩ := by
    decide +kernel
  have hhonest := honest_fixedRolls (FixedRolls.ofList [3, 5, 8, 1])
  have haudit := (evaluate_accounts _ _ hparse).1 _ _ _ _ _ hhonest heval
  exact ⟨_, _, _, _, hparse, hhonest, heval, haudit.1, haudit.2, rfl, rfl⟩

end DiceArithmetic.Proofs.RollLog
