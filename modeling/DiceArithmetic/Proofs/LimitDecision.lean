import Mathlib.Algebra.Order.BigOperators.Group.List
import DiceArithmetic.Proofs.OverLimit

namespace DiceArithmetic.Proofs.LimitDecision

open DiceArithmetic.Proofs.Grammar DiceArithmetic.Proofs.ParseExactness
open DiceArithmetic.Proofs.LimitCheck DiceArithmetic.Proofs.OverLimit

section Counting

variable {limits : Limits} {count : Int} {terms terms' : List DiceTerm}

theorem diceCount_nonneg (terms : List DiceTerm) : 0 ≤ diceCount terms := by
  apply List.sum_nonneg
  intro n hn
  obtain ⟨term, -, rfl⟩ := List.mem_map.mp hn
  exact Int.natCast_nonneg _

theorem diceCount_perm (h : terms'.Perm terms) : diceCount terms' = diceCount terms :=
  (h.map diceOf).sum_eq

theorem CountKept.of_le {less : Int} (h : CountKept limits count) (hle : less ≤ count) :
    CountKept limits less := fun max hmax => Int.le_trans hle (h max hmax)

theorem kept_of_allDice (hsides : ∀ term ∈ terms, SidesKept limits term)
    (hcount : terms ≠ [] → CountKept limits (count + diceCount terms)) :
    Kept limits count terms := by
  induction terms generalizing count with
  | nil => trivial
  | cons first terms ih =>
    obtain ⟨hfirst, hrest⟩ := List.forall_mem_cons.mp hsides
    have hall := hcount (by simp)
    rw [diceCount_cons, ← Int.add_assoc] at hall
    -- The terms behind this one cannot take any dice back.
    have hhere := CountKept.of_le hall (Int.le_add_of_nonneg_right (diceCount_nonneg terms))
    exact ⟨hfirst, hhere, ih hrest fun _ => hall⟩

/-- The limits are kept at every term just if they are kept in the end. -/
theorem kept_iff : Kept limits count terms ↔ (∀ term ∈ terms, SidesKept limits term) ∧
    (terms ≠ [] → CountKept limits (count + diceCount terms)) :=
  ⟨fun h => ⟨h.sides, h.allDice⟩, fun ⟨hsides, hcount⟩ => kept_of_allDice hsides hcount⟩

end Counting

section Deciding

variable {limits looser : Limits} {e e' : Expr}

/-- The expression is no larger than the limits allow, whatever the order of its dice terms. -/
structure WithinLimits (limits : Limits) (e : Expr) : Prop where
  depth : ∀ max, limits.maxDepth = some max → e.depth ≤ max
  sides : ∀ term ∈ e.diceTerms, ∀ max, limits.maxSides = some max → sidesOf term ≤ max
  dice : e.diceTerms ≠ [] → ∀ max, limits.maxDice = some max → diceCount e.diceTerms ≤ max

theorem check_of_within (he : IsWritten e) (hlevels : e.depth ≤ Expr.maxDepth)
    (h : WithinLimits limits e) : limits.check e = .ok () := by
  have hdepth : DepthKept limits e := fun max hmax => ⟨hlevels, h.depth max hmax⟩
  have hkept : Kept limits 0 e.diceTerms := by
    rw [kept_iff, Int.zero_add]
    exact ⟨h.sides, h.dice⟩
  rw [check_of_depthKept hdepth, walk_of_depth_le hlevels, ← List.append_nil (List.map _ _),
    checkTerms_append he.diceTerms hkept]
  rfl

theorem not_exceeds_iff : ¬ Exceeds limits e ↔ WithinLimits limits e := by
  constructor
  · intro h
    refine ⟨fun max hmax => ?_, fun term hterm max hmax => ?_, fun hne max hmax => ?_⟩
    · exact Int.not_lt.mp fun hlt => h (.depth hmax hlt)
    · exact Int.not_lt.mp fun hlt => h (.sides hmax hterm hlt)
    · exact Int.not_lt.mp fun hlt => h (.dice hmax hne hlt)
  · intro h hexceeds
    cases hexceeds with
    | depth hmax hlt => exact Int.not_lt.mpr (h.depth _ hmax) hlt
    | sides hmax hterm hlt => exact Int.not_lt.mpr (h.sides _ hterm _ hmax) hlt
    | dice hmax hne hlt => exact Int.not_lt.mpr (h.dice hne _ hmax) hlt

theorem within_of_check (he : IsWritten e) (h : limits.check e = .ok ()) :
    WithinLimits limits e := by
  refine not_exceeds_iff.mp fun hexceeds => ?_
  obtain ⟨failure, herror, -⟩ := check_of_exceeds he hexceeds
  rw [h] at herror
  cases herror

theorem check_iff (he : IsWritten e) (hlevels : e.depth ≤ Expr.maxDepth) :
    limits.check e = .ok () ↔ WithinLimits limits e :=
  ⟨within_of_check he, check_of_within he hlevels⟩

theorem WithinLimits.perm (h : WithinLimits limits e)
    (hdepth : limits.maxDepth ≠ none → e'.depth = e.depth)
    (hperm : e'.diceTerms.Perm e.diceTerms) : WithinLimits limits e' := by
  refine ⟨fun max hmax => ?_, fun term hterm => h.sides term (hperm.mem_iff.mp hterm),
    fun hne => ?_⟩
  · rw [hdepth (by simp [hmax])]
    exact h.depth max hmax
  · rw [diceCount_perm hperm]
    exact h.dice fun hnil => hne (List.perm_nil.mp (hnil ▸ hperm))

inductive Raised : Option Int → Option Int → Prop
  | dropped {limit} : Raised limit none
  | raised {max more : Int} : max ≤ more → Raised (some max) (some more)

structure Loosens (limits looser : Limits) : Prop where
  dice : Raised limits.maxDice looser.maxDice
  sides : Raised limits.maxSides looser.maxSides
  depth : Raised limits.maxDepth looser.maxDepth

theorem Raised.keeps {limit limit' : Option Int} {n : Int} (h : Raised limit limit')
    (hkept : ∀ max, limit = some max → n ≤ max) : ∀ max, limit' = some max → n ≤ max := by
  cases h with
  | dropped => exact nofun
  | @raised max more hle =>
    rintro _ ⟨⟩
    exact Int.le_trans (hkept max rfl) hle

theorem WithinLimits.loosen (h : WithinLimits limits e) (hloosens : Loosens limits looser) :
    WithinLimits looser e :=
  ⟨hloosens.depth.keeps h.depth, fun term hterm => hloosens.sides.keeps (h.sides term hterm),
    fun hne => hloosens.dice.keeps (h.dice hne)⟩

end Deciding

/-- The check, which stops at the first term that breaks a limit, lets through just what keeps all
the limits as a whole. So the order of the dice terms does not matter, and what is let through is
let through as well when limits are raised or dropped. -/
theorem check_decides (text : String) (e : Expr) (h : Expr.parse text = .ok e)
    (hdepth : e.depth ≤ 1000) (limits : Limits) :
    (limits.check e = .ok () ↔ WithinLimits limits e) ∧
    (∀ text' e', Expr.parse text' = .ok e' → e'.depth ≤ 1000 →
      (limits.maxDepth ≠ none → e'.depth = e.depth) → e'.diceTerms.Perm e.diceTerms →
      (limits.check e' = .ok () ↔ limits.check e = .ok ())) ∧
    ∀ looser, Loosens limits looser → limits.check e = .ok () → looser.check e = .ok () := by
  have hcheck : ∀ limits : Limits, limits.check e = .ok () ↔ WithinLimits limits e := fun _ =>
    check_iff (derives_of_parse h).isWritten hdepth
  refine ⟨hcheck limits, fun text' e' h' hdepth' hsame hperm => ?_, fun looser hloosens hok => ?_⟩
  · rw [hcheck limits, check_iff (derives_of_parse h').isWritten hdepth']
    exact ⟨fun hw => hw.perm (fun hne => (hsame hne).symm) hperm.symm,
      fun hw => hw.perm hsame hperm⟩
  · exact (hcheck looser).mpr (((hcheck limits).mp hok).loosen hloosens)

theorem check_decides_no_dice :
    ∃ e e', Expr.parse "0d9-2d6" = .ok e ∧ Expr.parse "2d6-0d9" = .ok e' ∧
      e.depth ≤ 1000 ∧ e'.depth = e.depth ∧ e'.diceTerms.Perm e.diceTerms ∧
      Limits.check ⟨some 2, some 9, some 2⟩ e = .ok () ∧
      Limits.check ⟨some 2, some 9, some 2⟩ e' = .ok () ∧
      Limits.check ⟨some 2, none, some 3⟩ e = .ok () ∧
      Limits.check ⟨some 2, some 8, some 2⟩ e ≠ .ok () := by
  have hparse : Expr.parse "0d9-2d6" =
      .ok (.binary .sub (.dice ⟨['0'], ['9']⟩) (.dice ⟨['2'], ['6']⟩)) := by rfl
  have hparse' : Expr.parse "2d6-0d9" =
      .ok (.binary .sub (.dice ⟨['2'], ['6']⟩) (.dice ⟨['0'], ['9']⟩)) := by rfl
  have hdepth : Expr.depth (.binary .sub (.dice ⟨['0'], ['9']⟩) (.dice ⟨['2'], ['6']⟩)) ≤ 1000 := by
    decide
  have hdepth' :
      Expr.depth (.binary .sub (.dice ⟨['2'], ['6']⟩) (.dice ⟨['0'], ['9']⟩)) ≤ 1000 := by
    decide
  have hperm : [(⟨['2'], ['6']⟩ : DiceTerm), ⟨['0'], ['9']⟩].Perm
      [⟨['0'], ['9']⟩, ⟨['2'], ['6']⟩] := .swap _ _ _
  have hwithin : WithinLimits ⟨some 2, some 9, some 2⟩
      (.binary .sub (.dice ⟨['0'], ['9']⟩) (.dice ⟨['2'], ['6']⟩)) := by
    refine ⟨?_, ?_, ?_⟩
    · rintro max ⟨⟩
      decide
    · rintro term hterm max ⟨⟩
      revert term
      decide
    · rintro - max ⟨⟩
      decide
  have hloosens : Loosens ⟨some 2, some 9, some 2⟩ ⟨some 2, none, some 3⟩ :=
    ⟨.raised (by decide), .dropped, .raised (by decide)⟩
  obtain ⟨hiff, horder, hmono⟩ := check_decides _ _ hparse hdepth ⟨some 2, some 9, some 2⟩
  have hok := hiff.mpr hwithin
  refine ⟨_, _, hparse, hparse', hdepth, rfl, hperm, hok,
    (horder _ _ hparse' hdepth' (fun _ => rfl) hperm).mpr hok, hmono _ hloosens hok,
    fun hsides => ?_⟩
  -- The die without a throw has a side too many.
  have hkept := (check_decides _ _ hparse hdepth ⟨some 2, some 8, some 2⟩).1.mp hsides
  exact absurd (hkept.sides ⟨['0'], ['9']⟩ (by decide) 8 rfl) (by decide)

end DiceArithmetic.Proofs.LimitDecision
