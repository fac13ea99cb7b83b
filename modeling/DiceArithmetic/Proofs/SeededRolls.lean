import DiceArithmetic.Proofs.Honesty

namespace DiceArithmetic.Proofs.SeededRolls

open DiceArithmetic.Proofs.Honesty DiceArithmetic.Proofs.UniformDraws

section Calls

variable {σ : Type} [RandomSource σ]

/-- A source was asked for one roll: how it answered, and where it stood before and after. -/
structure Call (σ : Type) where
  before : σ
  sides : Int
  answer : Except Failure Face
  after : σ

def calls (s : σ) : List Int → List (Call σ)
  | [] => []
  | sides :: rest =>
    let (answer, after) := RandomSource.roll s sides
    ⟨s, sides, answer, after⟩ :: calls after rest

theorem calls_cons (s : σ) (sides : Int) (rest : List Int) :
    calls s (sides :: rest) =
      ⟨s, sides, (RandomSource.roll s sides).1, (RandomSource.roll s sides).2⟩ ::
        calls (RandomSource.roll s sides).2 rest := rfl

theorem sides_calls (s : σ) (requests : List Int) :
    (calls s requests).map Call.sides = requests := by
  induction requests generalizing s with
  | nil => rfl
  | cons sides rest ih => exact congrArg (sides :: ·) (ih _)

theorem roll_of_mem_calls {s : σ} {requests : List Int} {call : Call σ}
    (h : call ∈ calls s requests) :
    RandomSource.roll call.before call.sides = (call.answer, call.after) := by
  induction requests generalizing s with
  | nil => cases h
  | cons sides rest ih =>
    obtain rfl | h := List.mem_cons.mp h
    · rfl
    · exact ih h

theorem calls_filter {kept : Int → Bool}
    (h : ∀ (s : σ) sides, kept sides = false → (RandomSource.roll s sides).2 = s) (s : σ)
    (requests : List Int) :
    calls s (requests.filter kept) = (calls s requests).filter fun call => kept call.sides := by
  induction requests generalizing s with
  | nil => rfl
  | cons sides rest ih =>
    by_cases hkept : kept sides = true
    · rw [List.filter_cons_of_pos hkept, calls_cons, calls_cons, ih, List.filter_cons]
      exact (if_pos hkept).symm
    · have hsame := h s sides (by simpa using hkept)
      rw [List.filter_cons_of_neg hkept, calls_cons, hsame, ih, List.filter_cons]
      exact (if_neg hkept).symm

end Calls

/-- One call of the dice goes by the rules. A die without sides is refused as a bad value, and the
dice stay as they were. Any other die shows one of its faces: the first number below its sides,
among those of their length that the generator gives in turn, counted from 1. The generator is left
right behind that number. Only if no number ever fits does the throw not end. -/
structure Lawful (call : Call SystemDice) : Prop where
  refused : call.sides < 1 →
    (∃ failure, call.answer = .error failure ∧ failure.kind = .value) ∧ call.after = call.before
  inRange : 1 ≤ call.sides →
    ∃ face, call.answer = .ok (.whole face) ∧ 1 ≤ face ∧ face ≤ call.sides
  thrown : 1 ≤ call.sides →
    (∃ n rest,
      FirstBelow call.sides.toNat (call.sides.toNat.log2 + 1) call.before.twister n rest ∧
      call.answer = .ok (.whole (n + 1)) ∧ call.after = { call.before with twister := rest }) ∨
    NeverBelow call.sides.toNat (call.sides.toNat.log2 + 1) call.before.twister

theorem lawful_of_roll {call : Call SystemDice}
    (h : call.before.roll call.sides = (call.answer, call.after)) : Lawful call where
  refused hsides := by
    obtain ⟨failure, hroll, hkind⟩ := roll_refused call.before hsides
    have hcall := h.symm.trans hroll
    exact ⟨⟨failure, congrArg Prod.fst hcall, hkind⟩, congrArg Prod.snd hcall⟩
  inRange hsides := by
    obtain ⟨n, rest, hlt, -, hroll⟩ := roll_thrown call.before hsides
    exact ⟨n + 1, congrArg Prod.fst (h.symm.trans hroll), by omega, by omega⟩
  thrown hsides := by
    obtain ⟨n, rest, -, huniform, hroll⟩ := roll_thrown call.before hsides
    have hcall := h.symm.trans hroll
    obtain hfirst | ⟨hnever, -⟩ := uniform_cases call.sides.toNat call.before.twister
    · rw [huniform] at hfirst
      exact .inl ⟨n, rest, hfirst, congrArg Prod.fst hcall, congrArg Prod.snd hcall⟩
    · exact .inr hnever

/-- Seeded dice are asked for any rolls. Every call goes by the rules, and if the dice without sides
are left out, every other call finds the generator in the same state and gets the same answer. -/
theorem seeded_calls_lawful (seed : Int) (requests : List Int) :
    (calls (SystemDice.seeded seed) requests).map Call.sides = requests ∧
    (∀ call ∈ calls (SystemDice.seeded seed) requests, Lawful call) ∧
    calls (SystemDice.seeded seed) (requests.filter (1 ≤ ·)) =
      (calls (SystemDice.seeded seed) requests).filter (1 ≤ ·.sides) := by
  refine ⟨sides_calls _ requests, fun call hcall => lawful_of_roll (roll_of_mem_calls hcall), ?_⟩
  refine calls_filter (fun dice sides hsides => ?_) _ requests
  have hrefused : sides < 1 := by simpa using hsides
  obtain ⟨failure, hroll, -⟩ := roll_refused dice hrefused
  exact congrArg Prod.snd hroll

end DiceArithmetic.Proofs.SeededRolls
