import DiceArithmetic.Proofs.Endings
import DiceArithmetic.Proofs.FailureCauses

namespace DiceArithmetic.Proofs.Chronicle

open DiceArithmetic.Calculator
open DiceArithmetic.Proofs.Grammar DiceArithmetic.Proofs.Decimals DiceArithmetic.Proofs.Trials
open DiceArithmetic.Proofs.ParseExactness DiceArithmetic.Proofs.Reducing
open DiceArithmetic.Proofs.LimitCheck DiceArithmetic.Proofs.FailureCauses
open DiceArithmetic.Proofs.Computing DiceArithmetic.Proofs.Failing DiceArithmetic.Proofs.Endings

section Evaluating

/-- The dice terms that an evaluation completes, in the order in which it throws them. -/
def completed : Nat → Expr → FixedRolls → List DiceTerm
  | _ + 1, .dice term, rolls => if (term.throwDice rolls).result.isOk then [term] else []
  | levels + 1, .negated inner, rolls => completed levels inner rolls
  | levels + 1, .binary op left right, rolls =>
    match op.meaning?, left.reduce levels rolls with
    | none, _ => []
    | some _, ⟨.error _, _, _⟩ => completed levels left rolls
    | some _, ⟨.ok _, mid, _⟩ => completed levels left rolls ++ completed levels right mid
  | _, _, _ => []

inductive CompletesAll : List DiceTerm → FixedRolls → FixedRolls → Prop
  | nil (rolls) : CompletesAll [] rolls rolls
  | cons {term terms rolls mid after faces} : Completes term rolls mid faces →
      CompletesAll terms mid after → CompletesAll (term :: terms) rolls after

/-- How an evaluation goes on given rolls that completes some terms and has others left: to its end,
up to a division by zero, or up to the next term. Of the rolls, that term takes its own. -/
inductive Course (rolls : FixedRolls) (done : List DiceTerm) :
    List DiceTerm → Except Failure Tally → FixedRolls → List Int → Prop
  | finished {tally after} : CompletesAll done rolls after →
      Course rolls done [] (.ok tally) after []
  | divided {left after} : CompletesAll done rolls after →
      Course rolls done left (.error .divisionByZero) after []
  | broken {term left mid own after failure} : CompletesAll done rolls mid →
      Breaks term mid own after failure →
      Course rolls done (term :: left) (.error failure) after own

variable {rolls mid after : FixedRolls} {done left terms more : List DiceTerm} {own : List Int}
  {failure : Failure} {result : Except Failure Tally}

theorem CompletesAll.append (h : CompletesAll done rolls mid) (h' : CompletesAll more mid after) :
    CompletesAll (done ++ more) rolls after := by
  induction h with
  | nil => exact h'
  | cons hterm _ ih => exact .cons hterm (ih h')

theorem CompletesAll.taken (h : CompletesAll terms rolls after) :
    ∃ faces, Taken rolls after faces ∧ (faces.length : Int) = diceCount terms := by
  induction h with
  | nil rolls => exact ⟨[], ⟨rfl, rfl⟩, rfl⟩
  | cons hterm _ ih =>
    obtain ⟨faces, htaken, hlength⟩ := ih
    refine ⟨_, hterm.taken.trans htaken, ?_⟩
    rw [List.length_append, Nat.cast_add, hterm.count, hlength, diceCount_cons]

theorem Course.taken (h : Course rolls done left result after own) :
    ∃ faces, Taken rolls after (faces ++ own) ∧ (faces.length : Int) = diceCount done := by
  cases h with
  | finished hdone | divided hdone =>
    obtain ⟨faces, htaken, hlength⟩ := hdone.taken
    exact ⟨faces, by rwa [List.append_nil], hlength⟩
  | broken hdone hbreaks =>
    obtain ⟨faces, htaken, hlength⟩ := hdone.taken
    exact ⟨faces, htaken.trans hbreaks.taken, hlength⟩

theorem Course.consumed (h : Course rolls done left result after own) :
    (rolls.remaining.length : Int) = diceCount done + own.length + after.remaining.length := by
  obtain ⟨faces, htaken, hlength⟩ := h.taken
  rw [htaken.remaining, List.length_append, List.length_append, ← hlength]
  simp

theorem Course.extend (h : Course rolls done left (.error failure) after own)
    (more : List DiceTerm) : Course rolls done (left ++ more) (.error failure) after own := by
  cases h with
  | divided hdone => exact .divided hdone
  | broken hdone hbreaks => exact .broken hdone hbreaks

theorem Course.prepend {first : List DiceTerm} (h : Course mid done left result after own)
    (hfirst : CompletesAll first rolls mid) :
    Course rolls (first ++ done) left result after own := by
  cases h with
  | finished hdone => exact .finished (hfirst.append hdone)
  | divided hdone => exact .divided (hfirst.append hdone)
  | broken hdone hbreaks => exact .broken (hfirst.append hdone) hbreaks

/-- The evaluation of these terms went on until those that are reported were completed. -/
structure Reported (terms done : List DiceTerm) (rolls : FixedRolls)
    (outcome : Outcome FixedRolls Tally) : Prop where
  events : outcome.events = done.map .rolled
  course : ∃ left own, terms = done ++ left ∧
    Course rolls done left outcome.result outcome.source own

namespace Reported

variable {events : List Event} {tally : Tally}

theorem fails (h : Reported terms done rolls ⟨.error failure, after, events⟩)
    (more : List DiceTerm) :
    Reported (terms ++ more) done rolls ⟨.error failure, after, events⟩ := by
  obtain ⟨left, own, hterms, hcourse⟩ := h.course
  refine ⟨h.events, left ++ more, own, ?_, hcourse.extend more⟩
  rw [hterms, List.append_assoc]

theorem completesAll (h : Reported terms done rolls ⟨.ok tally, after, events⟩) :
    done = terms ∧ CompletesAll done rolls after := by
  obtain ⟨left, own, hterms, hcourse⟩ := h.course
  cases hcourse with
  | finished hdone => exact ⟨by rw [hterms, List.append_nil], hdone⟩

theorem join {done' : List DiceTerm} {outcome : Outcome FixedRolls Tally}
    (h : Reported terms done rolls ⟨.ok tally, mid, events⟩)
    (h' : Reported more done' mid outcome) :
    Reported (terms ++ more) (done ++ done') rolls
      { outcome with events := events ++ outcome.events } := by
  obtain ⟨rfl, hdone⟩ := h.completesAll
  obtain ⟨left, own, hterms, hcourse⟩ := h'.course
  refine ⟨?_, left, own, ?_, hcourse.prepend hdone⟩
  · rw [List.map_append, ← h.events, ← h'.events]
  · rw [hterms, List.append_assoc]

theorem value {trial : Trial FixedRolls Tally} {f : Tally → Except Failure Tally}
    (h : Reported terms done rolls (trial rolls))
    (hf : ∀ tally failure, f tally = .error failure → failure = .divisionByZero) :
    Reported terms done rolls ((trial >>= fun tally => Trial.ofExcept (f tally)) rolls) := by
  rcases ht : trial rolls with ⟨failure | tally, after, events⟩
  · rw [ht] at h
    rwa [Trial.bind_of_error ht]
  · rw [ht] at h
    rw [Trial.bind_of_ok ht]
    refine ⟨?_, ?_⟩
    · rw [← h.events]
      exact List.append_nil events
    obtain ⟨rfl, hdone⟩ := h.completesAll
    refine ⟨[], [], (List.append_nil done).symm, ?_⟩
    change Course rolls done [] (f tally) after []
    cases hvalue : f tally with
    | error failure =>
      rw [hf tally failure hvalue]
      exact .divided hdone
    | ok value => exact .finished hdone

end Reported

variable {levels : Nat} {e : Expr}

theorem reported_throwDice {term : DiceTerm} (hread : IsRead term) (rolls : FixedRolls) :
    Reported [term] (completed (levels + 1) (.dice term) rolls) rolls (term.throwDice rolls) := by
  rw [completed]
  obtain ⟨tally, after, faces, hcompletes, h⟩ | ⟨own, after, failure, hbreaks, h⟩ :=
    throwDice_fixed hread rolls
  · rw [h]
    exact ⟨rfl, [], [], rfl, .finished (.cons hcompletes (.nil after))⟩
  · rw [h]
    exact ⟨rfl, [term], own, rfl, .broken (.nil rolls) hbreaks⟩

/-- An evaluation in digits that is not too deep reports the terms that it completes. -/
theorem reported_reduce (he : IsWritten e) (hd : e.depth ≤ levels) (rolls : FixedRolls) :
    Reported e.diceTerms (completed levels e rolls) rolls (e.reduce levels rolls) := by
  induction levels generalizing e rolls with
  | zero => exact absurd (Nat.le_zero.mp hd) (depth_ne_zero e)
  | succ levels ih =>
    cases e with
    | literal digits =>
      rw [reduce_literal (value_of_isDigits he)]
      exact ⟨rfl, [], [], rfl, .finished (.nil rolls)⟩
    | dice term => exact reported_throwDice he rolls
    | negated inner =>
      have hinner := @ih inner he (Nat.le_of_succ_le_succ hd) rolls
      exact hinner.value nofun
    | binary op left right =>
      obtain ⟨hop, hwl, hwr⟩ := he
      obtain ⟨hdl, hdr⟩ := Nat.max_le.mp (Nat.le_of_succ_le_succ hd)
      obtain ⟨apply, hmeaning⟩ := exists_meaning hop
      have hleft := ih hwl hdl rolls
      simp only [Expr.reduce, completed, hmeaning]
      rcases hl : left.reduce levels rolls with ⟨failure | l, mid, events⟩
      · rw [hl] at hleft
        rw [Trial.bind_of_error hl]
        exact hleft.fails right.diceTerms
      · rw [hl] at hleft
        rw [Trial.bind_of_ok hl]
        have hright := ih hwr hdr mid
        exact hleft.join (hright.value fun _ _ => merge_eq_error hmeaning)
    | foreign kind => exact he.elim

end Evaluating

section Calculating

variable {text : String} {limits : Option Limits} {rolls : FixedRolls}

def IsExpected (failure : Failure) : Prop :=
  failure.kind ∈ [.divisionByZero, .invalidDie, .limitExceeded]

instance (failure : Failure) : Decidable (IsExpected failure) :=
  inferInstanceAs (Decidable (failure.kind ∈ [.divisionByZero, .invalidDie, .limitExceeded]))

structure Closes (text : String) (failure : Failure) (record : Event) : Prop where
  content : record =
    if IsExpected failure then .notComputed text failure else .notEvaluated text failure
  level : record.level = if IsExpected failure then .info else .warning
  logger : record.logger = "mcp_dice_calculator.calculator"

/-- What a calculation on given rolls answers, what it leaves of them, and what it reports. -/
inductive Story (text : String) (limits : Option Limits) (rolls : FixedRolls) :
    Outcome FixedRolls String → Prop
  | unread {position} : Expr.parse text = .error (.unparsable text position) →
      Story text limits rolls ⟨.ok (notParsed text), rolls,
        (if position = none then [.nestedTooDeeply text.length] else []) ++ [.notParsed text]⟩
  | exceeding {e given failure record} : Expr.parse text = .ok e → limits = some given →
      given.check e = .error failure → Closes text failure.ofComputation record →
      Story text limits rolls ⟨.ok (notComputed text), rolls, [.parsed text, record]⟩
  | failing {e failure after done left own record} : Expr.parse text = .ok e →
      limits.elim (.ok ()) (·.check e) = .ok () →
      e.evaluate rolls = ⟨.error failure, after, done.map .rolled⟩ →
      done = completed Expr.maxDepth e rolls → e.diceTerms = done ++ left →
      Course rolls done left (.error failure) after own →
      (rolls.remaining.length : Int) = diceCount done + own.length + after.remaining.length →
      Closes text failure.ofComputation record →
      Story text limits rolls
        ⟨.ok (notComputed text), after, .parsed text :: done.map .rolled ++ [record]⟩
  | succeeding {e tally after} : Expr.parse text = .ok e →
      limits.elim (.ok ()) (·.check e) = .ok () →
      e.evaluate rolls = ⟨.ok tally, after, e.diceTerms.map .rolled⟩ →
      completed Expr.maxDepth e rolls = e.diceTerms →
      Course rolls e.diceTerms [] (.ok tally) after [] →
      Story text limits rolls
        ⟨.ok (render text tally), after, .parsed text :: e.diceTerms.map .rolled⟩

theorem closes_excuse {failure : Failure} (h : failure.kind.isA .uncomputable = true)
    (text : String) (rolls : FixedRolls) :
    ∃ record, Closes text failure record ∧
      excuse text failure rolls = ⟨.ok (notComputed text), rolls, [record]⟩ := by
  unfold excuse
  rw [not_isA_unparsable h, if_neg Bool.false_ne_true, if_pos h]
  by_cases hexpected : IsExpected failure
  · have hkind : failure.kind ∈ [.divisionByZero, .invalidDie, .limitExceeded] := hexpected
    rw [if_pos hkind]
    exact ⟨_, ⟨(if_pos hexpected).symm, (if_pos hexpected).symm, rfl⟩, rfl⟩
  · have hkind : ¬ failure.kind ∈ [.divisionByZero, .invalidDie, .limitExceeded] := hexpected
    rw [if_neg hkind]
    exact ⟨_, ⟨(if_neg hexpected).symm, (if_neg hexpected).symm, rfl⟩, rfl⟩

theorem story_of_parse_error {position : Option Nat}
    (hp : Expr.parse text = .error (.unparsable text position)) :
    Story text limits rolls (calculate text limits rolls) := by
  have hc : compute text limits rolls = _ := computeBy_of_parse_error hp limits
  have hstory : Story text limits rolls _ := .unread hp
  rw [calculate, answer_of_error hc, excuse_of_unparsable]
  cases position with
  | none => exact hstory
  | some position => exact hstory

variable {e : Expr}

theorem closes_compute (hp : Expr.parse text = .ok e) {failure : Failure}
    (h : (compute text limits rolls).result = .error failure) (after : FixedRolls) :
    ∃ record, Closes text failure record ∧
      excuse text failure after = ⟨.ok (notComputed text), after, [record]⟩ :=
  closes_excuse ((compute_of_parse dependable_fixedRolls trivial hp limits).1 failure h) text after

theorem story_of_check_error {given : Limits} {failure : Failure} (hp : Expr.parse text = .ok e)
    (hk : given.check e = .error failure) :
    Story text (some given) rolls (calculate text (some given) rolls) := by
  have hc : compute text (some given) rolls = _ := computeBy_of_check_error hp hk
  obtain ⟨record, hcloses, hexcuse⟩ := closes_compute hp (congrArg Outcome.result hc) rolls
  rw [calculate, answer_of_error hc, hexcuse]
  exact .exceeding hp rfl hk hcloses

theorem story_of_check (hp : Expr.parse text = .ok e) (hd : e.depth ≤ Expr.maxDepth)
    (hk : limits.elim (.ok ()) (·.check e) = .ok ()) :
    Story text limits rolls (calculate text limits rolls) := by
  have hc : compute text limits rolls = _ := computeBy_of_check hp hk
  have hreported : Reported e.diceTerms (completed Expr.maxDepth e rolls) rolls
      (e.evaluate rolls) := reported_reduce (derives_of_parse hp).isWritten hd rolls
  rcases he : e.evaluate rolls with ⟨failure | tally, after, events⟩
  · rw [he] at hc hreported
    obtain ⟨record, hcloses, hexcuse⟩ := closes_compute hp (congrArg Outcome.result hc) after
    obtain ⟨hevents, left, own, hterms, hcourse⟩ := hreported
    rw [calculate, answer_of_error hc, hexcuse]
    dsimp only at hevents hcourse ⊢
    rw [hevents] at he ⊢
    exact .failing hp hk he rfl hterms hcourse hcourse.consumed hcloses
  · rw [he] at hc hreported
    obtain ⟨hdone, hall⟩ := hreported.completesAll
    have hevents := hreported.events
    rw [hdone] at hall hevents
    rw [calculate, answer_of_ok hc]
    dsimp only at hevents ⊢
    rw [hevents] at he ⊢
    exact .succeeding hp hk he hdone (.finished hall)

end Calculating

end DiceArithmetic.Proofs.Chronicle
