import DiceArithmetic.Proofs.PhraseReading

namespace DiceArithmetic.Proofs.PlainReading

open DiceArithmetic.Expr.Parser
open DiceArithmetic.Proofs.Grammar DiceArithmetic.Proofs.Reading DiceArithmetic.Proofs.PhraseReading

variable {limit : Nat} {openings : List (Opening × Pending)} {pending : Pending}

/-- A state with a complete operand, in which only negations have been opened since. -/
structure AfterOperand (openings : List (Opening × Pending)) (state : State) : Prop where
  operand : ∃ last, state.phase.operand? = some last
  openings : ∃ negations : List (Opening × Pending),
    (∀ negation ∈ negations, negation.1 = .minus) ∧ state.openings = negations ++ openings

theorem AfterOperand.trans {outer : List (Opening × Pending)} {mid state : State}
    (hm : AfterOperand outer mid) (hs : AfterOperand mid.openings state) :
    AfterOperand outer state := by
  obtain ⟨-, first, hfirst, hmid⟩ := hm
  obtain ⟨hop, second, hsecond, hstate⟩ := hs
  refine ⟨hop, second ++ first, ?_, by rw [hstate, hmid, List.append_assoc]⟩
  intro negation hn
  obtain h | h := List.mem_append.mp hn
  · exact hsecond negation h
  · exact hfirst negation h

theorem AfterOperand.negated {state : State}
    (h : AfterOperand ((.minus, pending) :: openings) state) : AfterOperand openings state := by
  obtain ⟨hop, negations, hneg, hopen⟩ := h
  refine ⟨hop, negations ++ [(.minus, pending)], ?_, by simp [hopen]⟩
  exact List.forall_mem_append.mpr ⟨hneg, List.forall_mem_singleton.mpr rfl⟩

theorem endNegations_append {negations : List (Opening × Pending)}
    (h : ∀ negation ∈ negations, negation.1 = .minus) (openings : List (Opening × Pending))
    (e : Expr) : ∃ e', endNegations (negations ++ openings) e = endNegations openings e' := by
  induction negations generalizing e with
  | nil => exact ⟨e, rfl⟩
  | cons negation negations ih =>
    obtain ⟨mark, outer⟩ := negation
    obtain rfl : mark = .minus := h (mark, outer) (by simp)
    exact ih (fun x hx => h x (List.mem_cons_of_mem _ hx)) _

theorem AfterOperand.close (limit : Nat) {state : State}
    (h : AfterOperand ((.parenthesis, pending) :: openings) state) :
    ∃ e, state.step limit ')' = .ok ⟨openings, pending, .closed e⟩ := by
  obtain ⟨⟨last, hlast⟩, negations, hneg, hopen⟩ := h
  obtain ⟨e, he⟩ := endNegations_append hneg ((.parenthesis, pending) :: openings)
    (state.pending.endSum last)
  refine ⟨e, ?_⟩
  have hstep : state.step limit ')' = state.close last :=
    step_of_operand? hlast (separates_of_mem (by decide))
  rw [hstep, State.close, hopen, he]
  rfl

theorem AfterOperand.finish {state : State} (h : AfterOperand [] state) :
    ∃ e, state.finish? = some e := by
  obtain ⟨⟨last, hlast⟩, negations, hneg, hopen⟩ := h
  obtain ⟨e, he⟩ := endNegations_append hneg [] (state.pending.endSum last)
  refine ⟨e, ?_⟩
  rw [State.finish?, hlast]
  simp only [hopen, he, endNegations]

theorem AfterOperand.goOn (limit : Nat) {outer : List (Opening × Pending)} {mid : State} {c : Char}
    (h : AfterOperand outer mid) (hc : Follows .operand (some c)) (hg : ¬ Greedy (some c)) :
    ∃ waiting, mid.step limit c = .ok ⟨mid.openings, waiting, .operand⟩ := by
  obtain ⟨⟨last, hlast⟩, -⟩ := h
  have hstep : mid.step limit c = mid.follow last c := step_of_operand? hlast hc.separates
  cases hc with
  | ending hn => exact absurd hn hg
  | additive hop => exact ⟨_, hstep.trans (follow_additive hop _ _)⟩
  | multiplicative _ hop => exact ⟨_, hstep.trans (follow_multiplicative hop _ _)⟩

def Readable (limit : Nat) (text : List Char) : Prop :=
  ∀ openings pending, openings.length + text.length ≤ limit →
    ∃ state, readAll limit ⟨openings, pending, .operand⟩ text = .ok state ∧
      AfterOperand openings state ∧ state.openings.length ≤ openings.length + text.length

theorem Readable.join {left right : List Char} {c : Char} (hl : Readable limit left)
    (hc : Follows .operand (some c)) (hg : ¬ Greedy (some c)) (hr : Readable limit right) :
    Readable limit (left ++ c :: right) := by
  intro openings pending hlen
  simp only [List.length_append, List.length_cons] at hlen
  obtain ⟨mid, hmid, hcm, hlm⟩ := hl openings pending (by omega)
  obtain ⟨waiting, hstep⟩ := hcm.goOn limit hc hg
  obtain ⟨state, hstate, hcs, hls⟩ := hr mid.openings waiting (by omega)
  refine ⟨state, ?_, hcm.trans hcs, ?_⟩
  · rw [readAll_append hmid, readAll_cons hstep]
    exact hstate
  · simp only [List.length_append, List.length_cons]
    omega

theorem Readable.group {inner : List Char} (h : Readable limit inner) :
    Readable limit ('(' :: inner ++ [')']) := by
  intro openings pending hlen
  simp only [List.length_append, List.length_cons, List.length_nil] at hlen
  obtain ⟨mid, hmid, hcm, -⟩ := h ((.parenthesis, pending) :: openings) {}
    (by simp only [List.length_cons]; omega)
  obtain ⟨e, hclose⟩ := hcm.close limit
  refine ⟨⟨openings, pending, .closed e⟩, ?_, ⟨⟨e, rfl⟩, [], by simp, rfl⟩, Nat.le_add_right _ _⟩
  rw [List.cons_append, readAll_cons (step_enter .parenthesis (by omega)), readAll_append hmid,
    readAll_cons hclose]
  rfl

theorem Readable.negated {body : List Char} (h : Readable limit body) :
    Readable limit ('-' :: body) := by
  intro openings pending hlen
  simp only [List.length_cons] at hlen
  obtain ⟨state, hstate, hafter, hls⟩ :=
    h ((.minus, pending) :: openings) {} (by simp only [List.length_cons]; omega)
  refine ⟨state, ?_, hafter.negated, ?_⟩
  · rw [readAll_cons (step_enter .minus (by omega))]
    exact hstate
  · simp only [List.length_cons] at hls ⊢
    omega

/-- A phrase of the plain grammar never stops the parser, whatever tree it gets. -/
theorem readable_of_derives {rank : Rank} {text : List Char} {next : Option Char} {e : Expr}
    (h : Derives Anywhere rank text next e) : Readable limit text := by
  induction h with
  | product _ ih | operand _ ih => exact ih
  | additive _ hc _ ihl ihr => exact ihl.join (.additive hc) (additive?_not_greedy hc) ihr
  | multiplicative _ hc _ ihl ihr =>
    exact ihl.join (.multiplicative (by simp) hc) (multiplicative?_not_greedy hc) ihr
  | literal hd =>
    intro openings pending _
    exact ⟨_, readAll_literal hd, ⟨⟨_, rfl⟩, [], by simp, rfl⟩, Nat.le_add_right _ _⟩
  | dice hc hm hs =>
    intro openings pending _
    exact ⟨_, readAll_dice hc hm hs, ⟨⟨_, rfl⟩, [], by simp, rfl⟩, Nat.le_add_right _ _⟩
  | group _ ih => exact ih.group
  | negated _ _ ih => exact ih.negated

theorem run_of_sentence {text : List Char} (h : Sentence text) (hl : text.length ≤ limit) :
    ∃ e, run limit {} 0 text = .ok e := by
  obtain ⟨e, he⟩ := h
  obtain ⟨state, hstate, hc, -⟩ := readable_of_derives he [] {} (by simpa using hl)
  obtain ⟨e', hfinish⟩ := hc.finish
  refine ⟨e', ?_⟩
  have hrun := run_of_readAll (n := 0) hstate []
  rw [List.append_nil, run, hfinish] at hrun
  exact hrun

end DiceArithmetic.Proofs.PlainReading
