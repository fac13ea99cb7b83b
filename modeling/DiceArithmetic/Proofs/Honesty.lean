import DiceArithmetic.Proofs.Draws
import DiceArithmetic.Proofs.UniformDraws
import DiceArithmetic.Source.SystemDice

namespace DiceArithmetic.Proofs.Honesty

open DiceArithmetic.Proofs.Draws DiceArithmetic.Proofs.UniformDraws

section Sources

variable {σ : Type} [RandomSource σ]

def asked (s : σ) : List Int → σ
  | [] => s
  | sides :: rest => asked (RandomSource.roll s sides).2 rest

/-- Whatever it is asked for, the source answers with a face of the die if it answers at all. -/
def Honest (s : σ) : Prop :=
  ∀ requests sides face, (RandomSource.roll (asked s requests) sides).1 = .ok face →
    ∃ n, face = .whole n ∧ 1 ≤ n ∧ n ≤ sides

theorem Honest.roll {s : σ} (h : Honest s) (sides : Int) : Honest (RandomSource.roll s sides).2 :=
  fun requests => h (sides :: requests)

theorem honest_of_faces (h : ∀ (s : σ) sides face, (RandomSource.roll s sides).1 = .ok face →
    ∃ n, face = .whole n ∧ 1 ≤ n ∧ n ≤ sides) (s : σ) : Honest s :=
  fun requests => h (asked s requests)

theorem range_of_answers {s after : σ} {draws : List (Int × Face)} (h : Answers s draws after)
    (hs : Honest s) : ∀ draw ∈ draws, ∃ n, draw.2 = .whole n ∧ 1 ≤ n ∧ n ≤ draw.1 := by
  induction h with
  | nil => simp
  | @cons s mid after sides face draws hr _ ih =>
    have hface := hs [] sides face (congrArg Prod.fst hr)
    have hmid : Honest mid := by
      have hroll := hs.roll sides
      rwa [hr] at hroll
    intro draw hd
    obtain rfl | hd := List.mem_cons.mp hd
    · exact hface
    · exact ih hmid draw hd

end Sources

theorem honest_fixedRolls (rolls : FixedRolls) : Honest rolls := by
  refine honest_of_faces (fun rolls sides face h => ?_) rolls
  obtain ⟨n, _, _, _, rfl, hrange⟩ := fixedRolls_roll_ok h
  exact ⟨n, rfl, hrange⟩

section SystemDice

variable (dice : SystemDice) {sides : Int}

theorem roll_refused (h : sides < 1) :
    ∃ failure, dice.roll sides = (.error failure, dice) ∧ failure.kind = .value := by
  refine ⟨Failure.naming [sides] (.tooFewSides sides), if_pos h, ?_⟩
  rw [Failure.naming]
  split <;> rfl

theorem roll_thrown (h : 1 ≤ sides) :
    ∃ n rest, n < sides.toNat ∧ dice.twister.uniform sides.toNat = (n, rest) ∧
      dice.roll sides = (.ok (.whole (n + 1)), { dice with twister := rest }) := by
  have hlt : (dice.twister.uniform sides.toNat).1 < sides.toNat := uniform_lt (by omega) _
  rcases huniform : dice.twister.uniform sides.toNat with ⟨n, rest⟩
  rw [huniform] at hlt
  refine ⟨n, rest, hlt, rfl, ?_⟩
  rw [SystemDice.roll, if_neg (by omega), huniform]

theorem honest_systemDice : Honest dice := by
  refine honest_of_faces (fun dice sides face h => ?_) dice
  change (SystemDice.roll dice sides).1 = .ok face at h
  obtain hsides | hsides := Int.lt_or_le sides 1
  · obtain ⟨failure, hroll, -⟩ := roll_refused dice hsides
    rw [hroll] at h
    cases h
  · obtain ⟨n, rest, hlt, -, hroll⟩ := roll_thrown dice hsides
    rw [hroll] at h
    cases h
    exact ⟨n + 1, rfl, by omega, by omega⟩

end SystemDice

end DiceArithmetic.Proofs.Honesty
