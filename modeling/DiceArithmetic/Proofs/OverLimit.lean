import DiceArithmetic.Proofs.Computing
import DiceArithmetic.Proofs.LimitCheck
import DiceArithmetic.Proofs.ParseExactness
import DiceArithmetic.Source.FixedRolls

namespace DiceArithmetic.Proofs.OverLimit

open DiceArithmetic.Calculator
open DiceArithmetic.Proofs.Grammar DiceArithmetic.Proofs.Openings
open DiceArithmetic.Proofs.Decimals DiceArithmetic.Proofs.ParseExactness
open DiceArithmetic.Proofs.Computing DiceArithmetic.Proofs.LimitCheck

variable {limits : Limits} {e : Expr}

inductive Exceeds (limits : Limits) (e : Expr) : Prop
  | depth {max} : limits.maxDepth = some max → max < e.depth → Exceeds limits e
  | sides {max term} : limits.maxSides = some max → term ∈ e.diceTerms → max < sidesOf term →
      Exceeds limits e
  | dice {max} : limits.maxDice = some max → e.diceTerms ≠ [] → max < diceCount e.diceTerms →
      Exceeds limits e

def DepthKept (limits : Limits) (e : Expr) : Prop :=
  ∀ max, limits.maxDepth = some max → e.depth ≤ Expr.maxDepth ∧ e.depth ≤ max

/-- The first limit that an expression breaks can be named: the expression is not too deep to be
measured, no part before the dice term in question lies too deep, and the limit is short enough to
stand in a message. -/
inductive Named (limits : Limits) (e : Expr) : Prop
  | depth {max} : limits.maxDepth = some max → e.depth ≤ Expr.maxDepth → max < e.depth →
      Decimal.fitsMessage max = true → Named limits e
  | sides {before term rest max} : DepthKept limits e →
      e.walk Expr.maxDepth = before.map .ok ++ .ok term :: rest → Kept limits 0 before →
      limits.maxSides = some max → max < sidesOf term → Decimal.fitsMessage max = true →
      Named limits e
  | dice {before term rest max} : DepthKept limits e →
      e.walk Expr.maxDepth = before.map .ok ++ .ok term :: rest → Kept limits 0 before →
      SidesKept limits term → limits.maxDice = some max → max < diceCount before + diceOf term →
      Decimal.fitsMessage max = true → Named limits e

theorem naming_of_fits {max : Int} (h : Decimal.fitsMessage max = true) (failure : Failure) :
    Failure.naming [max] failure = failure := by
  simp [Failure.naming, h]

theorem naming_of_not_fits {max : Int} (h : Decimal.fitsMessage max = false) (failure : Failure) :
    Failure.naming [max] failure = .numberTooLong := by
  simp [Failure.naming, h]

theorem check_of_depthKept (h : DepthKept limits e) :
    limits.check e = limits.checkTerms 0 (e.walk Expr.maxDepth) := by
  have hdepth : limits.checkDepth e = .ok () := by
    unfold Limits.checkDepth
    cases hmax : limits.maxDepth with
    | none => rfl
    | some max =>
      obtain ⟨hlevels, hle⟩ := h max hmax
      have hlt : ¬ max < (e.depth : Int) := Int.not_lt.mpr hle
      simp [Expr.measure, hlevels, bind, Except.bind, hlt]
      rfl
  rw [Limits.check, hdepth]
  rfl

theorem check_of_depth_broken {max : Int} (hmax : limits.maxDepth = some max)
    (hlevels : e.depth ≤ Expr.maxDepth) (h : max < e.depth) :
    limits.check e = .error (Failure.naming [max] (.tooDeep e.depth max)) := by
  simp [Limits.check, Limits.checkDepth, hmax, Expr.measure, hlevels, bind, Except.bind, h]

theorem check_of_unmeasured {max : Int} (hmax : limits.maxDepth = some max)
    (hlevels : Expr.maxDepth < e.depth) : limits.check e = .error .nestedTooDeeply := by
  have hnot : ¬ e.depth ≤ Expr.maxDepth := Nat.not_le_of_lt hlevels
  simp [Limits.check, Limits.checkDepth, hmax, Expr.measure, hnot, bind, Except.bind]

theorem Named.check (he : IsWritten e) (h : Named limits e) :
    ∃ failure, limits.check e = .error failure ∧ failure.kind = .limitExceeded := by
  have hread : ∀ term, .ok term ∈ e.walk Expr.maxDepth → IsRead term := by
    intro term hterm
    obtain hdeep | ⟨term', hterm', heq⟩ := mem_walk hterm
    · cases hdeep
    · cases heq
      exact he.diceTerms term hterm'
  cases h with
  | depth hmax hlevels hlt hfits =>
    exact ⟨_, (check_of_depth_broken hmax hlevels hlt).trans (by rw [naming_of_fits hfits]), rfl⟩
  | @sides before term rest max hdepth hwalk hkept hmax hlt hfits =>
    rw [hwalk] at hread
    refine ⟨.tooManySides term.sides max, ?_, rfl⟩
    rw [check_of_depthKept hdepth, hwalk, checkTerms_append (fun t ht => hread t ?_) hkept,
      checkTerms_sides (hread term (by simp)) hmax hlt, naming_of_fits hfits]
    exact List.mem_append_left _ (List.mem_map_of_mem ht)
  | @dice before term rest max hdepth hwalk hkept hsides hmax hlt hfits =>
    rw [hwalk] at hread
    refine ⟨.tooManyDice (0 + diceCount before + diceOf term) max, ?_, rfl⟩
    rw [← Int.zero_add (diceCount before)] at hlt
    rw [check_of_depthKept hdepth, hwalk, checkTerms_append (fun t ht => hread t ?_) hkept,
      checkTerms_dice (hread term (by simp)) hsides hmax hlt, naming_of_fits hfits]
    exact List.mem_append_left _ (List.mem_map_of_mem ht)

inductive Unnamed (limits : Limits) (e : Expr) : Failure → Prop
  | deep : Expr.maxDepth < e.depth → Unnamed limits e .nestedTooDeeply
  | long {max} : some max ∈ [limits.maxDepth, limits.maxSides, limits.maxDice] →
      Decimal.fitsMessage max = false → Unnamed limits e .numberTooLong

theorem named_or_unnamed {max : Int} {failure : Failure}
    (hmem : some max ∈ [limits.maxDepth, limits.maxSides, limits.maxDice])
    (hkind : failure.kind = .limitExceeded)
    (hnamed : Decimal.fitsMessage max = true → Named limits e) :
    ((Failure.naming [max] failure).kind = .limitExceeded ∧ Named limits e) ∨
      Unnamed limits e (Failure.naming [max] failure) := by
  cases hfits : Decimal.fitsMessage max with
  | true =>
    rw [naming_of_fits hfits]
    exact .inl ⟨hkind, hnamed hfits⟩
  | false =>
    rw [naming_of_not_fits hfits]
    exact .inr (.long hmem hfits)

theorem not_exceeds {terms : List DiceTerm} (hdepth : DepthKept limits e)
    (hwalk : e.walk Expr.maxDepth = terms.map .ok) (hkept : Kept limits 0 terms) :
    ¬ Exceeds limits e := by
  obtain rfl := diceTerms_of_walk hwalk
  intro h
  cases h with
  | depth hmax hlt => exact Int.not_lt.mpr (hdepth _ hmax).2 hlt
  | sides hmax hterm hlt => exact Int.not_lt.mpr (hkept.sides _ hterm _ hmax) hlt
  | dice hmax hne hlt =>
    have hle := hkept.allDice hne _ hmax
    omega

theorem deep_of_walk {before : List DiceTerm} {rest : List (Except Failure DiceTerm)}
    (hwalk : e.walk Expr.maxDepth = before.map .ok ++ .error .nestedTooDeeply :: rest) :
    Expr.maxDepth < e.depth := by
  apply Nat.lt_of_not_le
  intro hle
  have hmem : .error .nestedTooDeeply ∈ e.walk Expr.maxDepth := by
    rw [hwalk]
    exact List.mem_append_right _ List.mem_cons_self
  rw [walk_of_depth_le hle] at hmem
  obtain ⟨term, _, hterm⟩ := List.mem_map.mp hmem
  cases hterm

theorem check_of_exceeds (he : IsWritten e) (h : Exceeds limits e) :
    ∃ failure, limits.check e = .error failure ∧
      ((failure.kind = .limitExceeded ∧ Named limits e) ∨ Unnamed limits e failure) := by
  have hfound := found_of_isWritten he Expr.maxDepth
  by_cases hdepth : DepthKept limits e
  · rw [check_of_depthKept hdepth]
    have hverdict := @checkTerms_verdict limits _ hfound 0
    generalize limits.checkTerms 0 (e.walk Expr.maxDepth) = result at hverdict
    cases hverdict with
    | passed terms hwalk hkept => exact absurd h (not_exceeds hdepth hwalk hkept)
    | deep before hwalk hkept => exact ⟨_, rfl, .inr (.deep (deep_of_walk hwalk))⟩
    | sides before hwalk hkept hmax hlt =>
      refine ⟨_, rfl, named_or_unnamed (by simp [hmax]) rfl fun hfits => ?_⟩
      exact .sides hdepth hwalk hkept hmax hlt hfits
    | dice before hwalk hkept hsides hmax hlt =>
      refine ⟨_, rfl, named_or_unnamed (by simp [hmax]) rfl fun hfits => ?_⟩
      exact .dice hdepth hwalk hkept hsides hmax (by simpa using hlt) hfits
  · obtain ⟨max, hmax, hbroken⟩ : ∃ max, limits.maxDepth = some max ∧
        (e.depth ≤ Expr.maxDepth → max < e.depth) := by
      simpa [DepthKept] using hdepth
    by_cases hlevels : e.depth ≤ Expr.maxDepth
    · refine ⟨_, check_of_depth_broken hmax hlevels (hbroken hlevels),
        named_or_unnamed (by simp [hmax]) rfl fun hfits => ?_⟩
      exact .depth hmax hlevels (hbroken hlevels) hfits
    · have hdeep := Nat.lt_of_not_le hlevels
      exact ⟨_, check_of_unmeasured hmax hdeep, .inr (.deep hdeep)⟩

/-- A text whose expression exceeds the limits is not computed, and its source is left as it was.
The failure is the one for exceeded limits just if the first limit that is broken can be named. If
it cannot, the expression is too deep or one of the limits too long for a message. -/
theorem compute_of_exceeds {σ : Type} [RandomSource σ] (text : String) (e : Expr)
    (h : Expr.parse text = .ok e) (limits : Limits) (hexceeds : Exceeds limits e) (s : σ) :
    ∃ failure, compute text (some limits) s = ⟨.error failure, s, [.parsed text]⟩ ∧
      (failure.kind = .limitExceeded ↔ Named limits e) ∧
      (¬ Named limits e → ∃ cause, failure = .uncomputable cause ∧ Unnamed limits e cause) := by
  have he := (derives_of_parse h).isWritten
  obtain ⟨failure, hcheck, hfailure⟩ := check_of_exceeds he hexceeds
  refine ⟨_, computeBy_of_check_error h hcheck, ?_⟩
  -- The check has one outcome, so a limit that can be named excludes the other failures.
  have hnamed : Named limits e → failure.kind = .limitExceeded := by
    intro hn
    obtain ⟨other, hother, hkind⟩ := hn.check he
    cases hcheck.symm.trans hother
    exact hkind
  obtain ⟨hkind, hn⟩ | hunnamed := hfailure
  · have hsame : failure.ofComputation = failure := if_pos (by rw [hkind]; rfl)
    rw [hsame]
    exact ⟨⟨fun _ => hn, fun _ => hkind⟩, fun hnot => absurd hn hnot⟩
  · have hwrapped : failure.ofComputation = .uncomputable failure := by
      cases hunnamed <;> rfl
    have hnot : ¬ Named limits e := by
      intro hn
      have hkind := hnamed hn
      cases hunnamed <;> cases hkind
    rw [hwrapped]
    exact ⟨⟨nofun, fun hn => absurd hn hnot⟩, fun _ => ⟨failure, rfl, hunnamed⟩⟩

theorem compute_of_exceeds_second_throw :
    ∃ e failure, Expr.parse "1d6+1d6" = .ok e ∧ Exceeds ⟨some 1, none, none⟩ e ∧
      Named ⟨some 1, none, none⟩ e ∧
      compute "1d6+1d6" (some ⟨some 1, none, none⟩) (FixedRolls.ofList [1, 1]) =
        ⟨.error failure, FixedRolls.ofList [1, 1], [.parsed "1d6+1d6"]⟩ ∧
      failure.kind = .limitExceeded := by
  have hparse : Expr.parse "1d6+1d6" =
      .ok (.binary .add (.dice ⟨['1'], ['6']⟩) (.dice ⟨['1'], ['6']⟩)) := by rfl
  have hexceeds : Exceeds ⟨some 1, none, none⟩
      (.binary .add (.dice ⟨['1'], ['6']⟩) (.dice ⟨['1'], ['6']⟩)) :=
    .dice rfl (by simp [Expr.diceTerms]) (by decide)
  have hfits : Decimal.fitsMessage 1 = true :=
    decide_eq_true (Decimal.one_lt_powerOfTen (by decide))
  have hsides : ∀ term, SidesKept ⟨some 1, none, none⟩ term := by
    intro term max hmax
    cases hmax
  have hdepth : ∀ e, DepthKept ⟨some 1, none, none⟩ e := by
    intro e max hmax
    cases hmax
  have hkept : Kept ⟨some 1, none, none⟩ 0 [⟨['1'], ['6']⟩] := by
    refine ⟨hsides _, ?_, trivial⟩
    rintro max ⟨⟩
    decide
  have hnamed : Named ⟨some 1, none, none⟩
      (.binary .add (.dice ⟨['1'], ['6']⟩) (.dice ⟨['1'], ['6']⟩)) :=
    .dice (hdepth _) rfl hkept (hsides _) rfl (by decide) hfits
  obtain ⟨failure, hcompute, hiff, _⟩ :=
    compute_of_exceeds _ _ hparse _ hexceeds (FixedRolls.ofList [1, 1])
  exact ⟨_, failure, hparse, hexceeds, hnamed, hcompute, hiff.mpr hnamed⟩

section Unnamed

def chain : Nat → List Char
  | 0 => ['1']
  | n + 1 => chain n ++ '+' :: ['1']

def chainTree : Nat → Expr
  | 0 => .literal ['1']
  | n + 1 => .binary .add (chainTree n) (.literal ['1'])

theorem derives_chain (n : Nat) (next : Option Char) :
    Derives Greedy .sum (chain n) next (chainTree n) := by
  have hone : IsDigits ['1'] := .singleton rfl
  induction n generalizing next with
  | zero => exact .product (.operand (.literal hone))
  | succ n ih => exact .additive (ih (some '+')) rfl (.operand (.literal hone))

theorem chain_plain (n : Nat) : ∀ c ∈ chain n, c ≠ '(' ∧ c ≠ '-' := by
  induction n with
  | zero => simp [chain]
  | succ n ih =>
    intro c hc
    obtain hc | hc := List.mem_append.mp hc
    · exact ih c hc
    · simp only [List.mem_cons, List.not_mem_nil, or_false] at hc
      obtain rfl | rfl := hc <;> decide

theorem depth_chainTree (n : Nat) : (chainTree n).depth = n + 1 := by
  induction n with
  | zero => rfl
  | succ n ih =>
    simp only [chainTree, Expr.depth, ih]
    omega

theorem parse_chain (n : Nat) : Expr.parse (String.ofList (chain n)) = .ok (chainTree n) :=
  parse_ofList (within_of_plain (chain_plain n)) (derives_chain n none)

/-- However small the limit on the depth is, a sum of more than a thousand operators is not reported
as one that exceeds it. -/
theorem compute_chain {σ : Type} [RandomSource σ] {n : Nat} (hn : Expr.maxDepth ≤ n) (max : Int)
    (s : σ) : compute (String.ofList (chain n)) (some ⟨none, none, some max⟩) s =
      ⟨.error (.uncomputable .nestedTooDeeply), s, [.parsed (String.ofList (chain n))]⟩ := by
  have hdeep : Expr.maxDepth < (chainTree n).depth := by
    rw [depth_chainTree]
    omega
  have hcheck : Limits.check ⟨none, none, some max⟩ (chainTree n) = .error .nestedTooDeeply :=
    check_of_unmeasured rfl hdeep
  exact computeBy_of_check_error (parse_chain n) hcheck

def oneTooMany (max : Nat) : DiceTerm := ⟨Nat.toDigits 10 (max + 1), ['6']⟩

theorem parse_oneTooMany (max : Nat) :
    Expr.parse (oneTooMany max).written = .ok (.dice (oneTooMany max)) := by
  have hcount := isDigits_toDigits (max + 1)
  have hsides : IsDigits ['6'] := .singleton rfl
  refine parse_ofList (within_of_plain fun c hc => ?_) (.product (.operand (.dice hcount (.inl rfl)
    hsides)))
  obtain hc | hc := List.mem_append.mp hc
  · exact plain_of_isDigits hcount c hc
  · simp only [oneTooMany, List.mem_cons, List.not_mem_nil, or_false] at hc
    obtain rfl | rfl := hc <;> decide

theorem diceOf_oneTooMany (max : Nat) : diceOf (oneTooMany max) = max + 1 := by
  rw [diceOf, oneTooMany, number_toDigits]
  rfl

theorem exceeds_oneTooMany (max : Nat) :
    Exceeds ⟨some max, none, none⟩ (.dice (oneTooMany max)) := by
  refine .dice rfl (by simp [Expr.diceTerms]) ?_
  rw [Expr.diceTerms, diceCount, List.map_singleton, List.sum_singleton, diceOf_oneTooMany]
  omega

theorem compute_oneTooMany {σ : Type} [RandomSource σ] {max : Nat}
    (hlong : Decimal.fitsMessage max = false) (s : σ) :
    compute (oneTooMany max).written (some ⟨some max, none, none⟩) s =
      ⟨.error (.uncomputable .numberTooLong), s, [.parsed (oneTooMany max).written]⟩ := by
  have hread : IsRead (oneTooMany max) :=
    ⟨isDigits_toDigits (max + 1), .singleton rfl⟩
  have hdice : (max : Int) < 0 + diceOf (oneTooMany max) := by
    rw [diceOf_oneTooMany]
    omega
  have hdepth : DepthKept ⟨some max, none, none⟩ (.dice (oneTooMany max)) := fun _ h => nomatch h
  have hsides : SidesKept ⟨some max, none, none⟩ (oneTooMany max) := fun _ h => nomatch h
  have hcheck : Limits.check ⟨some max, none, none⟩ (.dice (oneTooMany max)) =
      .error .numberTooLong := by
    rw [← naming_of_not_fits hlong, check_of_depthKept hdepth]
    exact checkTerms_dice hread hsides rfl hdice
  exact computeBy_of_check_error (parse_oneTooMany max) hcheck

/-- Two texts that exceed their limits and are not reported so: one of 1601 ones in a sum that may
be nested 200 deep, and one of so many dice that their limit has 4301 digits. -/
theorem exceeded_and_not_reported :
    (Exceeds ⟨none, none, some 200⟩ (chainTree 1600) ∧
      Expr.parse (String.ofList (chain 1600)) = .ok (chainTree 1600) ∧
      compute (String.ofList (chain 1600)) (some ⟨none, none, some 200⟩) (FixedRolls.ofList []) =
        ⟨.error (.uncomputable .nestedTooDeeply), FixedRolls.ofList [],
          [.parsed (String.ofList (chain 1600))]⟩) ∧
    ∃ max term, max = Decimal.powerOfTen Decimal.messageDigits ∧ term = oneTooMany max ∧
      Exceeds ⟨some max, none, none⟩ (.dice term) ∧
      Expr.parse term.written = .ok (.dice term) ∧
      compute term.written (some ⟨some max, none, none⟩) (FixedRolls.ofList []) =
        ⟨.error (.uncomputable .numberTooLong), FixedRolls.ofList [], [.parsed term.written]⟩ := by
  have hlong : Decimal.fitsMessage (Decimal.powerOfTen Decimal.messageDigits) = false :=
    fitsMessage_eq_false (Nat.le_refl _)
  refine ⟨⟨.depth rfl ?_, parse_chain 1600, compute_chain (by decide) 200 _⟩, _, _, rfl, rfl,
    exceeds_oneTooMany _, parse_oneTooMany _, compute_oneTooMany hlong _⟩
  rw [depth_chainTree]
  decide

end Unnamed

end DiceArithmetic.Proofs.OverLimit
