import DiceArithmetic.Proofs.LimitCheck
import DiceArithmetic.Proofs.RollLog

namespace DiceArithmetic.Proofs.FailureCauses

open DiceArithmetic.Proofs.Grammar DiceArithmetic.Proofs.Decimals DiceArithmetic.Proofs.Trials
open DiceArithmetic.Proofs.ParseExactness DiceArithmetic.Proofs.Draws
open DiceArithmetic.Proofs.Reducing DiceArithmetic.Proofs.RollLog DiceArithmetic.Proofs.LimitCheck

structure Taken (rolls after : FixedRolls) (taken : List Int) : Prop where
  remaining : rolls.remaining = taken ++ after.remaining
  given : after.given = rolls.given

theorem Taken.trans {rolls mid after : FixedRolls} {first second : List Int}
    (h : Taken rolls mid first) (h' : Taken mid after second) :
    Taken rolls after (first ++ second) :=
  ⟨by rw [h.remaining, h'.remaining, List.append_assoc], h'.given.trans h.given⟩

theorem exists_taken {rolls after : FixedRolls} {draws : List (Int × Face)}
    (h : Answers rolls draws after) : ∃ taken, Taken rolls after taken := by
  obtain ⟨taken, -, hremaining, hgiven⟩ := h.fixed
  exact ⟨taken, hremaining, hgiven⟩

section Throwing

def IsFace (sides face : Int) : Prop := 1 ≤ face ∧ face ≤ sides

/-- Why so many rolls of a die cannot be taken from given ones, which of these are taken all the
same, and what is left of them. -/
inductive Denied (sides : Int) (count : Nat) (rolls : FixedRolls) :
    List Int → FixedRolls → Failure → Prop
  | exhausted {after} : rolls.remaining.length < count →
      (∀ face ∈ rolls.remaining, IsFace sides face) → Taken rolls after rolls.remaining →
      Denied sides count rolls rolls.remaining after (.exhausted rolls.given)
  | refused {faces face after} : faces.length < count → (∀ face ∈ faces, IsFace sides face) →
      ¬ IsFace sides face → Taken rolls after (faces ++ [face]) →
      Denied sides count rolls (faces ++ [face]) after
        (Failure.naming [face, sides] (.outsideDie face sides))

variable {sides : Int} {count : Nat} {rolls mid after : FixedRolls} {faces : List Int}
  {failure : Failure}

theorem Denied.taken (h : Denied sides count rolls faces after failure) :
    Taken rolls after faces := by
  cases h with
  | exhausted _ _ htaken => exact htaken
  | refused _ _ _ htaken => exact htaken

theorem Denied.cons {face : Int} (h : Denied sides count mid faces after failure)
    (hface : IsFace sides face) (htaken : Taken rolls mid [face]) :
    Denied sides (count + 1) rolls (face :: faces) after failure := by
  cases h with
  | exhausted hfew hfaces hrest =>
    -- The rolls left before are the face and those left behind it, so all of them are taken again.
    have hall := htaken.trans hrest
    have hremaining : rolls.remaining = face :: mid.remaining := htaken.remaining
    rw [List.singleton_append, ← hremaining] at hall
    rw [← hremaining, htaken.given]
    refine .exhausted ?_ ?_ hall
    · rw [hremaining]
      exact Nat.succ_lt_succ hfew
    · rw [hremaining]
      exact List.forall_mem_cons.mpr ⟨hface, hfaces⟩
  | refused hfew hfaces hout hrest =>
    have hall := htaken.trans hrest
    exact .refused (Nat.succ_lt_succ hfew) (List.forall_mem_cons.mpr ⟨hface, hfaces⟩) hout hall

theorem draw_of_roll {result : Except Failure Face}
    (h : FixedRolls.roll rolls sides = (result, after)) :
    (Trial.draw sides : Trial FixedRolls Face) rolls = ⟨result, after, []⟩ := by
  change (⟨(FixedRolls.roll rolls sides).1, (FixedRolls.roll rolls sides).2, []⟩ :
    Outcome FixedRolls Face) = _
  rw [h]

theorem roll_of_none (h : rolls.remaining = []) :
    FixedRolls.roll rolls sides = (.error (.exhausted rolls.given), rolls) := by
  simp only [FixedRolls.roll, h]

variable {face : Int} {rest : List Int}

theorem roll_of_isFace (h : rolls.remaining = face :: rest) (hface : IsFace sides face) :
    FixedRolls.roll rolls sides = (.ok (.whole face), ⟨rolls.given, rest⟩) := by
  have hrange : 1 ≤ face ∧ face ≤ sides := hface
  simp only [FixedRolls.roll, h, if_pos hrange]

theorem roll_of_not_isFace (h : rolls.remaining = face :: rest) (hface : ¬ IsFace sides face) :
    FixedRolls.roll rolls sides =
      (.error (Failure.naming [face, sides] (.outsideDie face sides)), ⟨rolls.given, rest⟩) := by
  have hrange : ¬ (1 ≤ face ∧ face ≤ sides) := hface
  simp only [FixedRolls.roll, h, if_neg hrange]

theorem drawFaces_fixed (sides : Int) (count : Nat) (drawn : List Face) (rolls : FixedRolls) :
    (∃ faces after, faces.length = count ∧ (∀ face ∈ faces, IsFace sides face) ∧
      Taken rolls after faces ∧ drawFaces sides count drawn rolls =
        ⟨.ok (drawn.reverse ++ faces.map .whole), after, []⟩) ∨
    ∃ faces after failure, Denied sides count rolls faces after failure ∧
      drawFaces sides count drawn rolls = ⟨.error failure, after, []⟩ := by
  induction count generalizing drawn rolls with
  | zero =>
    refine .inl ⟨[], rolls, rfl, nofun, ⟨rfl, rfl⟩, ?_⟩
    rw [List.map_nil, List.append_nil]
    rfl
  | succ count ih =>
    rw [drawFaces]
    cases hr : rolls.remaining with
    | nil =>
      refine .inr ⟨[], rolls, _, ?_, Trial.bind_of_error (draw_of_roll (roll_of_none hr)) _⟩
      have hdenied : Denied sides (count + 1) rolls rolls.remaining rolls
          (.exhausted rolls.given) := .exhausted (by simp [hr]) (by simp [hr]) ⟨by simp [hr], rfl⟩
      rwa [hr] at hdenied
    | cons face rest =>
      have htaken : Taken rolls ⟨rolls.given, rest⟩ [face] := ⟨hr, rfl⟩
      by_cases hface : IsFace sides face
      · rw [Trial.bind_of_ok (draw_of_roll (roll_of_isFace hr hface))]
        obtain ⟨faces, after, hlength, hfaces, hrest, hdraw⟩ |
          ⟨faces, after, failure, hdenied, hdraw⟩ := ih (.whole face :: drawn) ⟨rolls.given, rest⟩
        · refine .inl ⟨face :: faces, after, congrArg (· + 1) hlength,
            List.forall_mem_cons.mpr ⟨hface, hfaces⟩, htaken.trans hrest, ?_⟩
          rw [hdraw]
          simp
        · exact .inr ⟨face :: faces, after, failure, hdenied.cons hface htaken, by rw [hdraw]; rfl⟩
      · have hdenied : Denied sides (count + 1) rolls ([] ++ [face]) ⟨rolls.given, rest⟩ _ :=
          .refused (Nat.succ_pos count) nofun hface htaken
        have hroll := roll_of_not_isFace hr hface
        exact .inr ⟨[face], _, _, hdenied, Trial.bind_of_error (draw_of_roll hroll) _⟩

structure Completes (term : DiceTerm) (rolls after : FixedRolls) (faces : List Int) : Prop where
  sides : 1 ≤ sidesOf term
  count : (faces.length : Int) = diceOf term
  range : ∀ face ∈ faces, IsFace (sidesOf term) face
  taken : Taken rolls after faces

inductive Breaks (term : DiceTerm) (rolls : FixedRolls) : List Int → FixedRolls → Failure → Prop
  | sideless : sidesOf term = 0 → Breaks term rolls [] rolls (.sidelessDie term)
  | denied {own left cause} : 1 ≤ sidesOf term →
      Denied (sidesOf term) (number term.count) rolls own left cause →
      Breaks term rolls own left cause

theorem Breaks.taken {term : DiceTerm} (h : Breaks term rolls faces after failure) :
    Taken rolls after faces := by
  cases h with
  | sideless => exact ⟨rfl, rfl⟩
  | denied _ hdenied => exact hdenied.taken

/-- A throw is reported just if it is completed. -/
theorem throwDice_fixed {term : DiceTerm} (hread : IsRead term) (rolls : FixedRolls) :
    (∃ tally after faces, Completes term rolls after faces ∧
      term.throwDice rolls = ⟨.ok tally, after, [.rolled term]⟩) ∨
    ∃ faces after failure, Breaks term rolls faces after failure ∧
      term.throwDice rolls = ⟨.error failure, after, []⟩ := by
  obtain ⟨hcount, hsides⟩ := hread
  rw [DiceTerm.throwDice, value_of_isDigits hcount, ofExcept_ok_bind, value_of_isDigits hsides,
    ofExcept_ok_bind]
  by_cases hnone : (number term.sides : Int) ≤ 0
  · have hzero : sidesOf term = 0 := by
      rw [sidesOf]
      omega
    rw [if_pos hnone]
    exact .inr ⟨[], rolls, _, .sideless hzero, rfl⟩
  · have hpos : 1 ≤ sidesOf term := Int.not_le.mp hnone
    rw [if_neg hnone, Int.toNat_natCast]
    obtain ⟨faces, after, hlength, hfaces, htaken, hdraw⟩ |
      ⟨faces, after, failure, hdenied, hdraw⟩ :=
        drawFaces_fixed (number term.sides) (number term.count) [] rolls
    · rw [Trial.bind_of_ok hdraw, List.reverse_nil, List.nil_append, total_whole,
        ofExcept_ok_bind]
      exact .inl ⟨_, after, faces, ⟨hpos, congrArg Nat.cast hlength, hfaces, htaken⟩, rfl⟩
    · exact .inr ⟨faces, after, failure, .denied hpos hdenied, Trial.bind_of_error hdraw _⟩

end Throwing

/-- Why an evaluation of these dice on given rolls fails, and what it leaves of the rolls. A roll
that is no face of its die is the last one taken, and the failure names it if it can. -/
inductive Cause (terms : List DiceTerm) (rolls after : FixedRolls) : Failure → Prop
  | division : Cause terms rolls after .divisionByZero
  | sideless {term} : term ∈ terms → term.sides.value = .ok 0 →
      Cause terms rolls after (.sidelessDie term)
  | exhausted : Taken rolls after rolls.remaining →
      Cause terms rolls after (.exhausted rolls.given)
  | refused {term sides taken face} : term ∈ terms → term.sides.value = .ok sides →
      Taken rolls after (taken ++ [face]) → ¬ (1 ≤ face ∧ face ≤ sides) →
      Cause terms rolls after (Failure.naming [face, sides] (.outsideDie face sides))

section Cause

variable {terms terms' : List DiceTerm} {rolls mid after : FixedRolls} {failure : Failure}

theorem Cause.mono (h : Cause terms rolls after failure) (hsub : terms ⊆ terms') :
    Cause terms' rolls after failure := by
  cases h with
  | division => exact .division
  | sideless hterm hsides => exact .sideless (hsub hterm) hsides
  | exhausted htaken => exact .exhausted htaken
  | refused hterm hsides htaken hface => exact .refused (hsub hterm) hsides htaken hface

theorem Cause.prepend {first : List Int} (h : Cause terms mid after failure)
    (hfirst : Taken rolls mid first) : Cause terms rolls after failure := by
  cases h with
  | division => exact .division
  | sideless hterm hsides => exact .sideless hterm hsides
  | exhausted htaken =>
    have hall := hfirst.trans htaken
    rw [← hfirst.remaining] at hall
    rw [hfirst.given]
    exact .exhausted hall
  | @refused term sides taken face hterm hsides htaken hface =>
    have hall := hfirst.trans htaken
    rw [← List.append_assoc] at hall
    exact .refused hterm hsides hall hface

variable {term : DiceTerm}

theorem cause_of_breaks {own : List Int} (hread : IsRead term) (hterm : term ∈ terms)
    (h : Breaks term rolls own after failure) : Cause terms rolls after failure := by
  have hsides : term.sides.value = .ok (sidesOf term) := value_of_isDigits hread.2
  cases h with
  | sideless hzero => exact .sideless hterm (hzero ▸ hsides)
  | denied hpos hdenied =>
    cases hdenied with
    | exhausted hfew hfaces htaken => exact .exhausted htaken
    | refused hfew hfaces hout htaken => exact .refused hterm hsides htaken hout

theorem cause_of_throwDice {events : List Event} (hread : IsRead term) (hterm : term ∈ terms)
    (h : term.throwDice rolls = ⟨.error failure, after, events⟩) :
    Cause terms rolls after failure := by
  obtain ⟨tally, mid, faces, -, hthrow⟩ | ⟨own, mid, cause, hbreaks, hthrow⟩ :=
    throwDice_fixed hread rolls
  · rw [hthrow] at h
    cases h
  · rw [hthrow] at h
    cases h
    exact cause_of_breaks hread hterm hbreaks

end Cause

section Evaluating

variable {levels : Nat} {e : Expr} {rolls after : FixedRolls} {failure : Failure}

theorem exists_meaning {op : Operator} (h : ∀ symbol, op ≠ .unknown symbol) :
    ∃ apply, op.meaning? = some apply := by
  cases op with
  | unknown symbol => exact absurd rfl (h symbol)
  | add | sub | mul | div => exact ⟨_, rfl⟩

theorem cause_of_reduce {events : List Event} (he : IsWritten e) (hd : e.depth ≤ levels)
    (h : e.reduce levels rolls = ⟨.error failure, after, events⟩) :
    Cause e.diceTerms rolls after failure := by
  induction levels generalizing e rolls events with
  | zero => exact absurd (Nat.le_zero.mp hd) (depth_ne_zero e)
  | succ levels ih =>
    cases e with
    | literal digits =>
      rw [reduce_literal (value_of_isDigits he)] at h
      cases h
    | dice term => exact cause_of_throwDice he List.mem_cons_self h
    | negated inner =>
      rw [Expr.reduce] at h
      obtain hinner | ⟨tally, mid, first, second, hinner, hneg⟩ := bind_eq_error h
      · have hwritten : IsWritten inner := he
        have hshallow : inner.depth ≤ levels := Nat.le_of_succ_le_succ hd
        have hcause := ih hwritten hshallow hinner
        exact hcause
      · cases hneg
    | binary op left right =>
      obtain ⟨hop, hwl, hwr⟩ := he
      obtain ⟨hdl, hdr⟩ := Nat.max_le.mp (Nat.le_of_succ_le_succ hd)
      obtain ⟨apply, hmeaning⟩ := exists_meaning hop
      simp only [Expr.reduce, hmeaning] at h
      obtain hl | ⟨l, mid, first, more, hl, h⟩ := bind_eq_error h
      · have hcause := ih hwl hdl hl
        exact hcause.mono (List.subset_append_left _ _)
      obtain ⟨taken, htaken⟩ := exists_taken (reduce_records hl).2.1
      obtain hr | ⟨r, last, second, rest, hr, h⟩ := bind_eq_error h
      · have hcause := (ih hwr hdr hr).prepend htaken
        exact hcause.mono (List.subset_append_right _ _)
      · obtain ⟨hmerge, -⟩ := ofExcept_eq_error h
        rw [merge_eq_error hmeaning hmerge]
        exact .division
    | foreign kind => exact he.elim

end Evaluating

section Ending

variable {terms : List DiceTerm} {rolls after : FixedRolls} {failure : Failure}

/-- The last roll taken is no face of its die, and a message cannot name it or the sides. -/
def Unnameable (terms : List DiceTerm) (rolls after : FixedRolls) : Prop :=
  ∃ term ∈ terms, ∃ sides taken face, term.sides.value = .ok sides ∧
    Taken rolls after (taken ++ [face]) ∧ ¬ (1 ≤ face ∧ face ≤ sides) ∧
    [face, sides].all Decimal.fitsMessage = false

theorem Cause.kind (h : Cause terms rolls after failure) :
    failure.kind ∈ [.divisionByZero, .invalidDie, .sourceExhausted, .uncomputable] ∨
      failure = .numberTooLong ∧ Unnameable terms rolls after := by
  cases h with
  | division => exact .inl (by decide)
  | sideless hterm hsides => exact .inl (by simp [Failure.kind])
  | exhausted htaken => exact .inl (by simp [Failure.kind])
  | @refused term sides taken face hterm hsides htaken hface =>
    rw [Failure.naming]
    cases hfits : [face, sides].all Decimal.fitsMessage with
    | true => exact .inl (by simp [Failure.kind])
    | false => exact .inr ⟨rfl, term, hterm, sides, taken, face, hsides, htaken, hface, hfits⟩

/-- An expression that is not too deep has a value on given rolls, or it fails in one of the ways
that are documented, unless a roll is refused that a message cannot name. -/
theorem evaluate_ends (text : String) (e : Expr) (h : Expr.parse text = .ok e)
    (hd : e.depth ≤ 1000) (rolls : FixedRolls) :
    (∃ tally, (e.evaluate rolls).result = .ok tally) ∨
    ∃ failure, (e.evaluate rolls).result = .error failure ∧
      Cause e.diceTerms rolls (e.evaluate rolls).source failure ∧
      (failure.kind ∈ [.divisionByZero, .invalidDie, .sourceExhausted, .uncomputable] ∨
        failure = .numberTooLong ∧ Unnameable e.diceTerms rolls (e.evaluate rolls).source) := by
  rcases heval : e.evaluate rolls with ⟨failure | tally, after, events⟩
  · have hcause := cause_of_reduce (derives_of_parse h).isWritten hd heval
    exact .inr ⟨failure, rfl, hcause, hcause.kind⟩
  · exact .inl ⟨tally, rfl⟩

theorem evaluate_ends_out_of_rolls :
    ∃ e failure, Expr.parse "1d6+2d4" = .ok e ∧ e.depth ≤ 1000 ∧
      (e.evaluate (FixedRolls.ofList [3, 4])).result = .error failure ∧
      Cause e.diceTerms (FixedRolls.ofList [3, 4]) ⟨2, []⟩ failure ∧
      failure.kind = .sourceExhausted := by
  have hparse : Expr.parse "1d6+2d4" =
      .ok (.binary .add (.dice ⟨['1'], ['6']⟩) (.dice ⟨['2'], ['4']⟩)) := by rfl
  have heval : (Expr.binary .add (.dice ⟨['1'], ['6']⟩) (.dice ⟨['2'], ['4']⟩)).evaluate
      (FixedRolls.ofList [3, 4]) =
      ⟨.error (.exhausted 2), ⟨2, []⟩, [.rolled ⟨['1'], ['6']⟩]⟩ := by decide +kernel
  obtain ⟨tally, hok⟩ | ⟨failure, hresult, hcause, -⟩ :=
    evaluate_ends _ _ hparse (by decide) (FixedRolls.ofList [3, 4])
  · rw [heval] at hok
    cases hok
  · rw [heval] at hresult hcause
    cases hresult
    exact ⟨_, _, hparse, by decide, by rw [heval], hcause, rfl⟩

variable {term : DiceTerm} {sides face : Int} {rest : List Int}

theorem evaluate_refused (hcount : term.count.value = .ok 1) (hsides : term.sides.value = .ok sides)
    (hpos : 0 < sides) (hface : ¬ (1 ≤ face ∧ face ≤ sides)) :
    (Expr.dice term).evaluate (FixedRolls.ofList (face :: rest)) =
      ⟨.error (Failure.naming [face, sides] (.outsideDie face sides)), ⟨rest.length + 1, rest⟩,
        []⟩ := by
  have hdraw : (Trial.draw sides : Trial FixedRolls Face) (FixedRolls.ofList (face :: rest)) =
      ⟨.error (Failure.naming [face, sides] (.outsideDie face sides)), ⟨rest.length + 1, rest⟩,
        []⟩ := by
    simp [Trial.draw, RandomSource.roll, FixedRolls.roll, FixedRolls.ofList, hface]
  change term.throwDice _ = _
  rw [DiceTerm.throwDice, hcount, ofExcept_ok_bind, hsides, ofExcept_ok_bind,
    if_neg (Int.not_le.mpr hpos)]
  exact Trial.bind_of_error (Trial.bind_of_error hdraw _) _

/-- A roll of 4301 digits is no face of a die with one side, but that is not what the failure is
about. -/
theorem refused_and_not_named :
    ∃ face : Nat, face = Decimal.powerOfTen Decimal.messageDigits ∧
      Expr.parse "1d1" = .ok (.dice ⟨['1'], ['1']⟩) ∧
      (Expr.dice ⟨['1'], ['1']⟩).depth ≤ 1000 ∧
      ((Expr.dice ⟨['1'], ['1']⟩).evaluate (FixedRolls.ofList [(face : Int)])).result =
        .error .numberTooLong ∧
      Failure.numberTooLong.kind.isA .calculation = false := by
  obtain ⟨face, hface⟩ : ∃ face, face = Decimal.powerOfTen Decimal.messageDigits := ⟨_, rfl⟩
  have hone : 1 < face := hface ▸ Decimal.one_lt_powerOfTen (by decide)
  have hlong : Decimal.fitsMessage face = false := fitsMessage_eq_false hface.ge
  have hvalue : Digits.value ['1'] = .ok 1 := value_of_isDigits (.singleton rfl)
  refine ⟨face, hface, by rfl, by decide, ?_, rfl⟩
  rw [evaluate_refused hvalue hvalue (by decide) (by omega)]
  simp [Failure.naming, hlong]

end Ending

end DiceArithmetic.Proofs.FailureCauses
