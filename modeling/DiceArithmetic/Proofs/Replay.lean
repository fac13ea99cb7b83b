import DiceArithmetic.Proofs.Computing
import DiceArithmetic.Proofs.RollLog

namespace DiceArithmetic.Proofs.Replay

open DiceArithmetic.Calculator
open DiceArithmetic.Proofs.Trials DiceArithmetic.Proofs.Reducing DiceArithmetic.Proofs.Draws
open DiceArithmetic.Proofs.Honesty DiceArithmetic.Proofs.RollLog DiceArithmetic.Proofs.Computing

section Evaluating

variable {σ τ : Type} [RandomSource σ] [RandomSource τ] {levels : Nat}

theorem drawFaces_of_answers {sides : Int} {rolls : List Int} {t after : τ}
    (h : Answers t (rolls.map fun n => (sides, .whole n)) after) (drawn : List Face) :
    drawFaces sides rolls.length drawn t =
      ⟨.ok (drawn.reverse ++ rolls.map .whole), after, []⟩ := by
  induction rolls generalizing t drawn with
  | nil =>
    cases h
    rw [List.map_nil, List.append_nil]
    rfl
  | cons n rolls ih =>
    cases h with
    | @cons _ mid _ _ _ _ hroll hrest =>
      have hdraw : Trial.draw sides t = ⟨.ok (.whole n), mid, []⟩ := by
        rw [Trial.draw, hroll]
      rw [List.length_cons, drawFaces, Trial.bind_of_ok hdraw, ih hrest, List.reverse_cons,
        List.append_assoc]
      rfl

theorem throwDice_of_answers {term : DiceTerm} {throw : Throw} (h : Records term throw)
    {t after : τ} (ht : Answers t (drawsOf throw) after) :
    term.throwDice t = ⟨.ok ⟨throw.total, [throw]⟩, after, [.rolled term]⟩ := by
  have hpos : ¬ throw.sides ≤ 0 := Int.not_le.mpr h.sides_pos
  have hdraw := drawFaces_of_answers ht []
  rw [h.length] at hdraw
  have htotal := total_whole throw.rolls
  rw [← h.total] at htotal
  rw [DiceTerm.throwDice, h.count, h.sides, ofExcept_ok_bind, ofExcept_ok_bind, if_neg hpos,
    Trial.bind_of_ok hdraw, List.reverse_nil, List.nil_append, htotal, ofExcept_ok_bind,
    filterMap_whole?]
  rfl

/-- An evaluation goes the same way on any source that gives it the same rolls. -/
theorem reduce_of_answers {e : Expr} {s after : σ} {tally : Tally} {events : List Event}
    (h : e.reduce levels s = ⟨.ok tally, after, events⟩) {t after' : τ}
    (ht : Answers t (tally.throws.flatMap drawsOf) after') :
    e.reduce levels t = ⟨.ok tally, after', events⟩ := by
  induction levels generalizing e s after tally events t after' with
  | zero => exact absurd h fail_ne_ok
  | succ levels ih =>
    cases e with
    | literal digits =>
      obtain ⟨n, hn, rfl, -, rfl⟩ := reduce_literal_eq_ok h
      cases ht
      exact reduce_literal hn t
    | dice term =>
      obtain ⟨throw, hrecords, rfl, -, rfl⟩ := throwDice_draws h
      rw [List.flatMap_singleton] at ht
      exact throwDice_of_answers hrecords ht
    | negated inner =>
      obtain ⟨tally', hi, rfl⟩ := reduce_negated_eq_ok h
      exact reduce_negated (ih hi ht)
    | binary op left right =>
      obtain ⟨apply, l, r, mid, _, _, hop, hl, hr, hvalue, hthrows, rfl⟩ := reduce_binary_eq_ok h
      rw [hthrows, List.flatMap_append] at ht
      obtain ⟨mid', htl, htr⟩ := Answers.split ht
      have hagain := reduce_binary hop (ih hl htl) (ih hr htr) hvalue
      rwa [← hthrows] at hagain
    | foreign kind => exact absurd h fail_ne_ok

end Evaluating

section Recording

def recordedRolls (tally : Tally) : FixedRolls :=
  .ofList (tally.throws.flatMap Throw.rolls)

theorem answers_fixed {draws : List (Int × Face)}
    (h : ∀ draw ∈ draws, ∃ n, draw.2 = .whole n ∧ 1 ≤ n ∧ n ≤ draw.1) (given : Nat) :
    Answers (⟨given, (draws.map Prod.snd).filterMap Face.whole?⟩ : FixedRolls) draws
      ⟨given, []⟩ := by
  induction draws with
  | nil => exact .nil _
  | cons draw draws ih =>
    obtain ⟨sides, face⟩ := draw
    obtain ⟨n, hface, hrange⟩ := h (sides, face) List.mem_cons_self
    dsimp only at hface hrange
    subst hface
    refine .cons ?_ (ih fun other ho => h other (List.mem_cons_of_mem _ ho))
    change FixedRolls.roll _ sides = _
    simp [FixedRolls.roll, Face.whole?, hrange]

theorem answers_recordedRolls {σ : Type} [RandomSource σ] {s after : σ} (hs : Honest s)
    {tally : Tally} (h : Answers s (tally.throws.flatMap drawsOf) after) :
    Answers (recordedRolls tally) (tally.throws.flatMap drawsOf)
      ⟨(recordedRolls tally).given, []⟩ := by
  have hagain := answers_fixed (range_of_answers h hs) (recordedRolls tally).given
  rwa [snd_drawsOf, filterMap_whole?] at hagain

end Recording

section Calculating

variable {σ τ : Type} [RandomSource σ] [RandomSource τ]

/-- The record of a successful evaluation can be replayed: the rolls in it are just enough to
evaluate the expression to the same record again, and its text is answered in the same words. -/
structure Replayed (text : String) (e : Expr) (s : σ) (tally : Tally) : Prop where
  evaluate : e.evaluate (recordedRolls tally) =
    ⟨.ok tally, ⟨(recordedRolls tally).given, []⟩, (e.evaluate s).events⟩
  calculate : ∀ limits,
    (calculate text limits (recordedRolls tally)).result = (calculate text limits s).result

theorem result_compute_of_evaluate {text : String} {e : Expr} {s : σ} {t : τ}
    (hp : Expr.parse text = .ok e) (h : (e.evaluate s).result = (e.evaluate t).result)
    (limits : Option Limits) : (compute text limits s).result = (compute text limits t).result := by
  cases hc : limits.elim (.ok ()) (·.check e) with
  | ok =>
    rw [compute, compute, computeBy_of_check hp hc, computeBy_of_check hp hc, h]
  | error failure =>
    cases limits with
    | none => cases hc
    | some given =>
      rw [Option.elim_some] at hc
      rw [compute, compute, computeBy_of_check_error hp hc, computeBy_of_check_error hp hc]

theorem replayed {text : String} {e : Expr} {s after : σ} {tally : Tally} {events : List Event}
    (hp : Expr.parse text = .ok e) (hs : Honest s)
    (h : e.evaluate s = ⟨.ok tally, after, events⟩) : Replayed text e s tally := by
  have hagain : e.evaluate (recordedRolls tally) = _ :=
    reduce_of_answers h (answers_recordedRolls hs (reduce_records h).2.1)
  refine ⟨by rw [hagain, h], fun limits => ?_⟩
  apply result_answer
  apply result_compute_of_evaluate hp
  rw [h, hagain]

end Calculating

/-- Whatever dice an expression was evaluated with, as long as they are honest, the rolls in its
record replay it. The library's own dice always are. -/
theorem evaluation_replayed (text : String) (e : Expr) (hp : Expr.parse text = .ok e) :
    (∀ (σ : Type) [RandomSource σ] (s after : σ) (tally : Tally) (events : List Event),
      Honest s → e.evaluate s = ⟨.ok tally, after, events⟩ → Replayed text e s tally) ∧
    ∀ (dice after : SystemDice) (tally : Tally) (events : List Event),
      e.evaluate dice = ⟨.ok tally, after, events⟩ → Replayed text e dice tally :=
  ⟨fun _ _ _ _ _ _ hs h => replayed hp hs h,
    fun dice _ _ _ h => replayed hp (honest_systemDice dice) h⟩

theorem evaluation_replayed_with_rolls_left :
    let rolls := FixedRolls.ofList [1, 2, 6, 5]
    ∃ (e : Expr) (tally : Tally) (after : FixedRolls) (events : List Event),
      Expr.parse "6/-(2d4-1D6)" = .ok e ∧ Honest rolls ∧
      e.evaluate rolls = ⟨.ok tally, after, events⟩ ∧ after.remaining = [5] ∧
      recordedRolls tally = .ofList [1, 2, 6] ∧ Replayed "6/-(2d4-1D6)" e rolls tally := by
  intro rolls
  have hparse : Expr.parse "6/-(2d4-1D6)" = .ok (.binary .div (.literal ['6'])
      (.negated (.binary .sub (.dice ⟨['2'], ['4']⟩) (.dice ⟨['1'], ['6']⟩)))) := by rfl
  have heval : (Expr.binary .div (.literal ['6'])
      (.negated (.binary .sub (.dice ⟨['2'], ['4']⟩) (.dice ⟨['1'], ['6']⟩)))).evaluate rolls =
      ⟨.ok ⟨2, [⟨2, 4, [1, 2], 3⟩, ⟨1, 6, [6], 6⟩]⟩, ⟨4, [5]⟩,
        [.rolled ⟨['2'], ['4']⟩, .rolled ⟨['1'], ['6']⟩]⟩ := by decide +kernel
  have hhonest := honest_fixedRolls rolls
  have hreplayed := (evaluation_replayed _ _ hparse).1 _ _ _ _ _ hhonest heval
  exact ⟨_, _, _, _, hparse, hhonest, heval, rfl, rfl, hreplayed⟩

end DiceArithmetic.Proofs.Replay
