import Mathlib.Data.Fintype.BigOperators
import Mathlib.Data.Fintype.Pigeonhole
import DiceArithmetic.Source.Twister

namespace DiceArithmetic.Proofs.UniformDraws

section States

theorem exists_same {α : Type} [Fintype α] (course : Nat → α) :
    ∃ i j, i < j ∧ j ≤ Fintype.card α ∧ course i = course j := by
  have hcard : Fintype.card α < Fintype.card (Fin (Fintype.card α + 1)) := by
    rw [Fintype.card_fin]
    exact Nat.lt_succ_self _
  obtain ⟨i, j, hij, hsame⟩ := Fintype.exists_ne_map_eq_of_card_lt
    (fun i : Fin (Fintype.card α + 1) => course i) hcard
  obtain hlt | hgt := Nat.lt_or_gt_of_ne (Fin.val_ne_of_ne hij)
  · exact ⟨i, j, hlt, Nat.le_of_lt_succ j.isLt, hsame⟩
  · exact ⟨j, i, hgt, Nat.le_of_lt_succ i.isLt, hsame.symm⟩

def state (twister : Twister) : (Fin 624 → Fin UInt32.size) × Fin 624 :=
  (fun i => (twister.words.get i).toFin, twister.place)

theorem state_injective : Function.Injective state := by
  rintro ⟨words, place⟩ ⟨words', place'⟩ h
  obtain ⟨hwords, hplace⟩ := Prod.ext_iff.mp h
  have hsame : words = words' := Vector.ext fun i hi => by
    have hword := congrFun hwords ⟨i, hi⟩
    exact UInt32.toFin_inj.mp hword
  exact congrArg₂ Twister.mk hsame hplace

theorem card_states : Fintype.card ((Fin 624 → Fin UInt32.size) × Fin 624) = Twister.maxDraws := by
  unfold Twister.maxDraws
  -- As a numeral the power would be computed.
  generalize UInt32.size = size
  generalize 624 = count
  rw [Fintype.card_prod, Fintype.card_fun, Fintype.card_fin, Fintype.card_fin, Nat.pow_eq]

theorem exists_same_state (course : Nat → Twister) :
    ∃ i j, i < j ∧ j ≤ Twister.maxDraws ∧ course i = course j := by
  obtain ⟨i, j, hij, hj, hsame⟩ := exists_same fun i => state (course i)
  rw [card_states] at hj
  exact ⟨i, j, hij, hj, state_injective hsame⟩

end States

section Draws

variable {bound k draws n : Nat} {twister rest : Twister}

def advance (k : Nat) : Nat → Twister → Twister
  | 0, twister => twister
  | count + 1, twister => advance k count (twister.bits k).2

/-- Of the numbers of `k` bits that the generator gives from here on, this is the first one below
the bound, and this is how it leaves the generator. -/
structure FirstBelow (bound k : Nat) (twister : Twister) (n : Nat) (rest : Twister) : Prop where
  lt : n < bound
  first : ∃ count, (advance k count twister).bits k = (n, rest) ∧
    ∀ earlier < count, bound ≤ ((advance k earlier twister).bits k).1

def NeverBelow (bound k : Nat) (twister : Twister) : Prop :=
  ∀ count, bound ≤ ((advance k count twister).bits k).1

theorem advance_add (count more : Nat) (twister : Twister) :
    advance k (count + more) twister = advance k more (advance k count twister) := by
  induction count generalizing twister with
  | zero => rw [Nat.zero_add, advance]
  | succ count ih =>
    rw [Nat.succ_add, advance, advance]
    exact ih _

/-- Whatever a generator gives in the end, it gives before it has gone through all its states. -/
theorem neverBelow_of_maxDraws
    (h : ∀ count < Twister.maxDraws, bound ≤ ((advance k count twister).bits k).1) :
    NeverBelow bound k twister := by
  obtain ⟨i, j, hij, hj, hsame⟩ := exists_same_state fun count => advance k count twister
  intro count
  induction count using Nat.strong_induction_on with
  | h count ih =>
    obtain hearly | hlate := Nat.lt_or_ge count Twister.maxDraws
    · exact h count hearly
    · -- The draw repeats the one that came as long behind the state's first visit.
      obtain ⟨more, rfl⟩ := Nat.exists_eq_add_of_le (hj.trans hlate)
      rw [advance_add, ← hsame, ← advance_add]
      exact ih (i + more) (Nat.add_lt_add_right hij more)

theorem FirstBelow.later (h : FirstBelow bound k (twister.bits k).2 n rest)
    (hn : bound ≤ (twister.bits k).1) : FirstBelow bound k twister n rest := by
  obtain ⟨hlt, count, hcount, hearlier⟩ := h
  refine ⟨hlt, count + 1, hcount, fun earlier he => ?_⟩
  cases earlier with
  | zero => exact hn
  | succ earlier => exact hearlier earlier (Nat.lt_of_succ_lt_succ he)

theorem below_of_lt (h : (twister.bits k).1 < bound) :
    twister.below bound k (draws + 1) = some (twister.bits k) :=
  if_pos h

theorem below_of_le (h : bound ≤ (twister.bits k).1) :
    twister.below bound k (draws + 1) = (twister.bits k).2.below bound k draws :=
  if_neg (Nat.not_lt.mpr h)

theorem firstBelow_of_below (h : twister.below bound k draws = some (n, rest)) :
    FirstBelow bound k twister n rest := by
  induction draws generalizing twister with
  | zero => cases h
  | succ draws ih =>
    obtain hlt | hle := Nat.lt_or_ge (twister.bits k).1 bound
    · rw [below_of_lt hlt] at h
      have hbits := Option.some.inj h
      rw [hbits] at hlt
      exact ⟨hlt, 0, hbits, by simp⟩
    · rw [below_of_le hle] at h
      exact (ih h).later hle

theorem le_of_below_eq_none (h : twister.below bound k draws = none) :
    ∀ count < draws, bound ≤ ((advance k count twister).bits k).1 := by
  induction draws generalizing twister with
  | zero => simp
  | succ draws ih =>
    obtain hlt | hle := Nat.lt_or_ge (twister.bits k).1 bound
    · rw [below_of_lt hlt] at h
      cases h
    · rw [below_of_le hle] at h
      intro count hcount
      cases count with
      | zero => exact hle
      | succ count => exact ih h count (Nat.lt_of_succ_lt_succ hcount)

/-- The number that is drawn below a bound is the first one that is, with no limit to the draws. -/
theorem uniform_cases (bound : Nat) (twister : Twister) :
    FirstBelow bound (bound.log2 + 1) twister (twister.uniform bound).1 (twister.uniform bound).2 ∨
      NeverBelow bound (bound.log2 + 1) twister ∧ twister.uniform bound = (0, twister) := by
  rw [Twister.uniform]
  cases hbelow : twister.below bound (bound.log2 + 1) Twister.maxDraws with
  | none => exact .inr ⟨neverBelow_of_maxDraws (le_of_below_eq_none hbelow), rfl⟩
  | some drawn => exact .inl (firstBelow_of_below hbelow)

theorem uniform_lt (hb : 0 < bound) (twister : Twister) : (twister.uniform bound).1 < bound := by
  obtain hfirst | ⟨-, hzero⟩ := uniform_cases bound twister
  · exact hfirst.lt
  · rwa [hzero]

end Draws

end DiceArithmetic.Proofs.UniformDraws
