import Mathlib.Algebra.Ring.Int.Defs
import DiceArithmetic.Limits
import DiceArithmetic.Proofs.Decimals

namespace DiceArithmetic.Proofs.LimitCheck

open DiceArithmetic.Proofs.Grammar DiceArithmetic.Proofs.Decimals

section Walking

variable {levels : Nat} {e : Expr}

theorem walk_of_depth_le (h : e.depth ≤ levels) : e.walk levels = e.diceTerms.map .ok := by
  induction levels generalizing e with
  | zero => cases e <;> simp [Expr.depth] at h
  | succ levels ih =>
    cases e with
    | literal | foreign => rfl
    | dice term => rfl
    | negated inner =>
      have hinner : inner.depth ≤ levels := Nat.le_of_succ_le_succ h
      rw [Expr.walk, Expr.diceTerms, ih hinner]
    | binary op left right =>
      have hboth : max left.depth right.depth ≤ levels := Nat.le_of_succ_le_succ h
      obtain ⟨hl, hr⟩ := Nat.max_le.mp hboth
      rw [Expr.walk, Expr.diceTerms, ih hl, ih hr, List.map_append]

theorem mem_walk {entry : Except Failure DiceTerm} (h : entry ∈ e.walk levels) :
    entry = .error .nestedTooDeeply ∨ ∃ term ∈ e.diceTerms, entry = .ok term := by
  induction levels generalizing e with
  | zero => exact .inl (List.mem_singleton.mp h)
  | succ levels ih =>
    cases e with
    | literal | foreign => simp [Expr.walk] at h
    | dice term => exact .inr ⟨term, by simp [Expr.diceTerms], List.mem_singleton.mp h⟩
    | negated inner =>
      have hinner : entry ∈ inner.walk levels := h
      exact @ih inner hinner
    | binary op left right =>
      obtain hl | hr := List.mem_append.mp h
      · apply (ih hl).imp_right
        rintro ⟨term, hterm, rfl⟩
        exact ⟨term, List.mem_append_left _ hterm, rfl⟩
      · apply (ih hr).imp_right
        rintro ⟨term, hterm, rfl⟩
        exact ⟨term, List.mem_append_right _ hterm, rfl⟩

theorem diceTerms_of_walk {terms : List DiceTerm} (h : e.walk levels = terms.map .ok) :
    e.diceTerms = terms := by
  induction levels generalizing e terms with
  | zero => cases terms <;> simp [Expr.walk] at h
  | succ levels ih =>
    cases e with
    | literal | foreign =>
      cases terms with
      | nil => rfl
      | cons => simp [Expr.walk] at h
    | dice term =>
      cases terms with
      | nil => simp [Expr.walk] at h
      | cons first rest => simpa [Expr.walk, Expr.diceTerms] using h
    | negated inner =>
      have hinner : inner.walk levels = terms.map .ok := h
      exact @ih inner terms hinner
    | binary op left right =>
      rw [Expr.walk, List.append_eq_map_iff] at h
      obtain ⟨l, r, rfl, hl, hr⟩ := h
      rw [Expr.diceTerms, ih hl.symm, ih hr.symm]

end Walking

section Terms

variable {limits : Limits} {count : Int} {term : DiceTerm} {rest : List (Except Failure DiceTerm)}

def diceOf (term : DiceTerm) : Int := number term.count

def sidesOf (term : DiceTerm) : Int := number term.sides

def diceCount (terms : List DiceTerm) : Int := (terms.map diceOf).sum

theorem diceCount_cons (term : DiceTerm) (terms : List DiceTerm) :
    diceCount (term :: terms) = diceOf term + diceCount terms := by
  rw [diceCount, List.map_cons, List.sum_cons, ← diceCount]

def SidesKept (limits : Limits) (term : DiceTerm) : Prop :=
  ∀ max, limits.maxSides = some max → sidesOf term ≤ max

def CountKept (limits : Limits) (count : Int) : Prop :=
  ∀ max, limits.maxDice = some max → count ≤ max

/-- Counted one after the other behind so many dice, none of these terms breaks a limit. -/
def Kept (limits : Limits) : Int → List DiceTerm → Prop
  | _, [] => True
  | count, term :: terms => SidesKept limits term ∧ CountKept limits (count + diceOf term) ∧
      Kept limits (count + diceOf term) terms

theorem Kept.sides {terms : List DiceTerm} (h : Kept limits count terms) :
    ∀ term ∈ terms, SidesKept limits term := by
  induction terms generalizing count with
  | nil => simp
  | cons first terms ih =>
    intro term hterm
    obtain rfl | hterm := List.mem_cons.mp hterm
    · exact h.1
    · exact ih h.2.2 term hterm

theorem Kept.allDice {terms : List DiceTerm} (h : Kept limits count terms) (hne : terms ≠ []) :
    CountKept limits (count + diceCount terms) := by
  induction terms generalizing count with
  | nil => exact absurd rfl hne
  | cons first terms ih =>
    rw [diceCount_cons, ← Int.add_assoc]
    cases terms with
    | nil => simpa [diceCount] using h.2.1
    | cons second terms => exact ih h.2.2 (by simp)

def IsRead (term : DiceTerm) : Prop := IsDigits term.count ∧ IsDigits term.sides

theorem checkSides_kept (ht : IsRead term) (h : SidesKept limits term) :
    limits.checkSides term = .ok () := by
  unfold Limits.checkSides
  cases hmax : limits.maxSides with
  | none => rfl
  | some max =>
    have hle : ¬ max < (number term.sides : Int) := Int.not_lt.mpr (h max hmax)
    simp [value_of_isDigits ht.2, bind, Except.bind, hle]
    rfl

theorem checkSides_broken (ht : IsRead term) {max : Int} (hmax : limits.maxSides = some max)
    (h : max < sidesOf term) :
    limits.checkSides term = .error (Failure.naming [max] (.tooManySides term.sides max)) := by
  have hlt : max < (number term.sides : Int) := h
  unfold Limits.checkSides
  simp [hmax, value_of_isDigits ht.2, bind, Except.bind, hlt]

theorem checkCount_kept (ht : IsRead term) (h : CountKept limits (count + diceOf term)) :
    limits.checkCount count term = .ok (count + diceOf term) := by
  unfold Limits.checkCount
  cases hmax : limits.maxDice with
  | none => simp [value_of_isDigits ht.1, bind, Except.bind, diceOf]
  | some max =>
    have hle : ¬ max < count + (number term.count : Int) := Int.not_lt.mpr (h max hmax)
    simp [value_of_isDigits ht.1, bind, Except.bind, hle, diceOf]

theorem checkCount_broken (ht : IsRead term) {max : Int} (hmax : limits.maxDice = some max)
    (h : max < count + diceOf term) : limits.checkCount count term =
      .error (Failure.naming [max] (.tooManyDice (count + diceOf term) max)) := by
  have hlt : max < count + (number term.count : Int) := h
  unfold Limits.checkCount
  simp [hmax, value_of_isDigits ht.1, bind, Except.bind, hlt, diceOf]

theorem checkTerms_kept (ht : IsRead term) (hs : SidesKept limits term)
    (hc : CountKept limits (count + diceOf term)) :
    limits.checkTerms count (.ok term :: rest) = limits.checkTerms (count + diceOf term) rest := by
  simp [Limits.checkTerms, bind, Except.bind, checkSides_kept ht hs, checkCount_kept ht hc]

theorem checkTerms_sides (ht : IsRead term) {max : Int} (hmax : limits.maxSides = some max)
    (h : max < sidesOf term) : limits.checkTerms count (.ok term :: rest) =
      .error (Failure.naming [max] (.tooManySides term.sides max)) := by
  simp [Limits.checkTerms, bind, Except.bind, checkSides_broken ht hmax h]

theorem checkTerms_dice (ht : IsRead term) (hs : SidesKept limits term) {max : Int}
    (hmax : limits.maxDice = some max) (h : max < count + diceOf term) :
    limits.checkTerms count (.ok term :: rest) =
      .error (Failure.naming [max] (.tooManyDice (count + diceOf term) max)) := by
  simp [Limits.checkTerms, bind, Except.bind, checkSides_kept ht hs, checkCount_broken ht hmax h]

theorem checkTerms_append {before : List DiceTerm} (hread : ∀ term ∈ before, IsRead term)
    (h : Kept limits count before) : limits.checkTerms count (before.map .ok ++ rest) =
      limits.checkTerms (count + diceCount before) rest := by
  induction before generalizing count with
  | nil => simp [diceCount]
  | cons term before ih =>
    obtain ⟨hs, hc, hkept⟩ := h
    rw [List.map_cons, List.cons_append, checkTerms_kept (hread term (by simp)) hs hc,
      ih (fun t ht => hread t (List.mem_cons_of_mem _ ht)) hkept, diceCount_cons, Int.add_assoc]

end Terms

inductive Verdict (limits : Limits) (count : Int) (found : List (Except Failure DiceTerm)) :
    Except Failure Unit → Prop
  | passed (terms) : found = terms.map .ok → Kept limits count terms →
      Verdict limits count found (.ok ())
  | deep (before) {rest} : found = before.map .ok ++ .error .nestedTooDeeply :: rest →
      Kept limits count before → Verdict limits count found (.error .nestedTooDeeply)
  | sides (before) {term rest max} : found = before.map .ok ++ .ok term :: rest →
      Kept limits count before → limits.maxSides = some max → max < sidesOf term →
      Verdict limits count found (.error (Failure.naming [max] (.tooManySides term.sides max)))
  | dice (before) {term rest max} : found = before.map .ok ++ .ok term :: rest →
      Kept limits count before → SidesKept limits term → limits.maxDice = some max →
      max < count + diceCount before + diceOf term →
      Verdict limits count found (.error
        (Failure.naming [max] (.tooManyDice (count + diceCount before + diceOf term) max)))

theorem Verdict.cons {limits : Limits} {count : Int} {found : List (Except Failure DiceTerm)}
    {result : Except Failure Unit} {term : DiceTerm} (hs : SidesKept limits term)
    (hc : CountKept limits (count + diceOf term))
    (h : Verdict limits (count + diceOf term) found result) :
    Verdict limits count (.ok term :: found) result := by
  have htotal : ∀ before,
      count + diceOf term + diceCount before = count + diceCount (term :: before) := by
    intro before
    rw [diceCount_cons, Int.add_assoc]
  cases h with
  | passed terms hfound hkept =>
    subst hfound
    exact .passed (term :: terms) rfl ⟨hs, hc, hkept⟩
  | deep before hfound hkept =>
    subst hfound
    exact .deep (term :: before) rfl ⟨hs, hc, hkept⟩
  | sides before hfound hkept hmax hlt =>
    subst hfound
    exact .sides (term :: before) rfl ⟨hs, hc, hkept⟩ hmax hlt
  | dice before hfound hkept hs' hmax hlt =>
    subst hfound
    rw [htotal] at hlt ⊢
    exact .dice (term :: before) rfl ⟨hs, hc, hkept⟩ hs' hmax hlt

theorem checkTerms_verdict {limits : Limits} {found : List (Except Failure DiceTerm)}
    (hfound : ∀ entry ∈ found, entry = .error .nestedTooDeeply ∨
      ∃ term, IsRead term ∧ entry = .ok term)
    (count : Int) : Verdict limits count found (limits.checkTerms count found) := by
  induction found generalizing count with
  | nil => exact .passed [] rfl trivial
  | cons entry found ih =>
    have hrest := fun other ho => hfound other (List.mem_cons_of_mem entry ho)
    obtain rfl | ⟨term, ht, rfl⟩ := hfound entry (by simp)
    · exact .deep [] rfl trivial
    by_cases hs : SidesKept limits term
    · by_cases hc : CountKept limits (count + diceOf term)
      · rw [checkTerms_kept ht hs hc]
        exact .cons hs hc (ih hrest _)
      · obtain ⟨max, hmax, hlt⟩ : ∃ max, limits.maxDice = some max ∧ max < count + diceOf term := by
          simpa [CountKept] using hc
        rw [checkTerms_dice ht hs hmax hlt]
        have hzero : count + diceCount [] + diceOf term = count + diceOf term := by simp [diceCount]
        rw [← hzero] at hlt ⊢
        exact .dice [] rfl trivial hs hmax hlt
    · obtain ⟨max, hmax, hlt⟩ : ∃ max, limits.maxSides = some max ∧ max < sidesOf term := by
        simpa [SidesKept] using hs
      rw [checkTerms_sides ht hmax hlt]
      exact .sides [] rfl trivial hmax hlt

theorem found_of_isWritten {e : Expr} (he : IsWritten e) (levels : Nat) :
    ∀ entry ∈ e.walk levels, entry = .error .nestedTooDeeply ∨
      ∃ term, IsRead term ∧ entry = .ok term := by
  intro entry hentry
  apply (mem_walk hentry).imp_right
  rintro ⟨term, hterm, rfl⟩
  exact ⟨term, he.diceTerms term hterm, rfl⟩

theorem kept_of_check {limits : Limits} {e : Expr} (he : IsWritten e)
    (h : limits.check e = .ok ()) : Kept limits 0 e.diceTerms := by
  have hterms : limits.checkTerms 0 (e.walk Expr.maxDepth) = .ok () := by
    rw [Limits.check] at h
    cases hdepth : limits.checkDepth e with
    | error failure =>
      rw [hdepth] at h
      cases h
    | ok =>
      rw [hdepth] at h
      exact h
  have hverdict := @checkTerms_verdict limits _ (found_of_isWritten he Expr.maxDepth) 0
  rw [hterms] at hverdict
  cases hverdict with
  | passed terms hwalk hkept =>
    rw [diceTerms_of_walk hwalk]
    exact hkept

end DiceArithmetic.Proofs.LimitCheck
