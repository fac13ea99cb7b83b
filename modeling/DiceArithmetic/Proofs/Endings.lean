import DiceArithmetic.Proofs.Failing
import DiceArithmetic.Proofs.ParseExactness
import DiceArithmetic.Proofs.Wording

namespace DiceArithmetic.Proofs.Endings

open DiceArithmetic.Calculator
open DiceArithmetic.Proofs.Grammar DiceArithmetic.Proofs.ParseExactness
open DiceArithmetic.Proofs.Decimals DiceArithmetic.Proofs.Trials
open DiceArithmetic.Proofs.Computing DiceArithmetic.Proofs.Failing DiceArithmetic.Proofs.Wording

section Endings

inductive Ending
  | notParsed
  | notComputed
  | computed (tally : Tally)
deriving DecidableEq, Repr

def Ending.words (text : String) : Ending → String
  | .notParsed => Calculator.notParsed text
  | .notComputed => Calculator.notComputed text
  | .computed tally => render text tally

def ending {σ : Type} [RandomSource σ] (text : String) (limits : Option Limits) (s : σ) : Ending :=
  match Expr.parse text with
  | .error _ => .notParsed
  | .ok _ =>
    match (compute text limits s).result with
    | .error _ => .notComputed
    | .ok tally => .computed tally

theorem plain_of_parse {text : String} {e : Expr} (h : Expr.parse text = .ok e) : Plain text := by
  intro c hc
  obtain hd | hs := (derives_of_parse h).symbols c hc
  · refine ⟨?_, ?_, ?_⟩ <;> rintro rfl <;> exact absurd hd (by decide)
  · refine ⟨?_, ?_, ?_⟩ <;> rintro rfl <;> exact absurd hs (by decide)

def Ending.Fits (text : String) : Ending → Prop
  | .computed _ => Plain text
  | _ => True

/-- The words for an ending show the text and all of the ending. -/
theorem words_injective {text text' : String} {e e' : Ending} (h : e.Fits text)
    (h' : e'.Fits text') (heq : e.words text = e'.words text') : text = text' ∧ e = e' := by
  cases e with
  | notParsed =>
    cases e' with
    | notParsed => exact ⟨notParsed_injective heq, rfl⟩
    | notComputed => exact absurd heq (notParsed_ne_notComputed _ _)
    | computed tally => exact absurd heq.symm (render_ne_quoted h' tally _ _)
  | notComputed =>
    cases e' with
    | notParsed => exact absurd heq.symm (notParsed_ne_notComputed _ _)
    | notComputed => exact ⟨notComputed_injective heq, rfl⟩
    | computed tally => exact absurd heq.symm (render_ne_quoted h' tally _ _)
  | computed tally =>
    cases e' with
    | notParsed => exact absurd heq (render_ne_quoted h tally _ _)
    | notComputed => exact absurd heq (render_ne_quoted h tally _ _)
    | computed tally' =>
      obtain ⟨htext, htally⟩ := render_injective h h' heq
      exact ⟨htext, by rw [htally]⟩

end Endings

def Unrendered (event : Event) : Prop :=
  ∃ text failure, event = .notRendered text failure

def Unreadable (text : String) : Prop :=
  ∃ position, Expr.parse text = .error (.unparsable text position)

section Handling

variable {σ : Type} {text : String} {s : σ}

theorem excuse_of_unparsable (position : Option Nat) (text : String) (s : σ) :
    excuse text (.unparsable text position) s = ⟨.ok (notParsed text), s, [.notParsed text]⟩ := rfl

theorem excuse_of_isA {failure : Failure} (h : failure.kind.isA .uncomputable = true)
    (text : String) (s : σ) :
    ∃ event, excuse text failure s = ⟨.ok (notComputed text), s, [event]⟩ ∧ ¬ Unrendered event := by
  unfold excuse
  rw [not_isA_unparsable h, if_neg Bool.false_ne_true, if_pos h]
  split
  · exact ⟨_, rfl, nofun⟩
  · exact ⟨_, rfl, nofun⟩

theorem unparsable_of_parse {failure : Failure} (h : Expr.parse text = .error failure) :
    ∃ position, failure = .unparsable text position := by
  have hnone : ¬ ∃ e, Expr.parse text = .ok e := by
    rintro ⟨e, he⟩
    rw [he] at h
    cases h
  obtain ⟨position, hp⟩ := parse_fails hnone
  exact ⟨position, Except.error.inj (h.symm.trans hp)⟩

theorem not_unreadable {e : Expr} (h : Expr.parse text = .ok e) : ¬ Unreadable text := by
  rintro ⟨position, hp⟩
  rw [h] at hp
  cases hp

theorem exists_of_not_unreadable (h : ¬ Unreadable text) : ∃ e, Expr.parse text = .ok e := by
  by_contra hnone
  exact h (parse_fails hnone)

end Handling

section Calculating

variable {σ : Type} [RandomSource σ] {I : σ → Prop} {text : String} {limits : Option Limits} {s : σ}

theorem compute_of_parse {e : Expr} (h : Dependable I) (hs : I s) (hp : Expr.parse text = .ok e)
    (limits : Option Limits) :
    (∀ failure, (compute text limits s).result = .error failure →
      failure.kind.isA .uncomputable = true) ∧
    ∀ event ∈ (compute text limits s).events, ¬ Unrendered event := by
  have hcheck : ∀ failure, limits.elim (.ok ()) (·.check e) = .error failure →
      Uncomputable failure := by
    cases limits with
    | none => nofun
    | some given => exact fun failure => uncomputable_check (derives_of_parse hp).isWritten
  have hends : Ends I (fun _ => True)
      (do Trial.ofExcept (limits.elim (.ok ()) (·.check e)); e.evaluate) :=
    (ends_ofExcept (fun _ _ => trivial) hcheck).bind fun _ _ => h.reduce Expr.maxDepth e
  have hrun := hends s hs
  -- Reading reports itself first, and what fails behind it is passed on as uncomputable.
  rw [compute, computeBy_of_parse hp]
  refine ⟨fun failure hf => ?_, ?_⟩
  · obtain ⟨cause, hcause, rfl⟩ := error_of_mapError hf
    exact (hrun.failure cause hcause).ofComputation
  · rintro event hevent ⟨_, _, rfl⟩
    obtain heq | hmem := List.mem_cons.mp hevent
    · cases heq
    · obtain ⟨term, heq⟩ := hrun.events _ hmem
      cases heq

theorem ending_of_parse_error {failure : Failure} (h : Expr.parse text = .error failure) :
    ending text limits s = .notParsed := by
  rw [ending, h]

theorem ending_of_error {e : Expr} {failure : Failure} (hp : Expr.parse text = .ok e)
    (h : (compute text limits s).result = .error failure) :
    ending text limits s = .notComputed := by
  simp only [ending, hp, h]

theorem ending_of_ok {e : Expr} {tally : Tally} (hp : Expr.parse text = .ok e)
    (h : (compute text limits s).result = .ok tally) :
    ending text limits s = .computed tally := by
  simp only [ending, hp, h]

/-- An answer is always given and shows how the calculation ends. -/
theorem calculate_ending (h : Dependable I) (hs : I s) :
    (calculate text limits s).result = .ok ((ending text limits s).words text) ∧
      ∀ event ∈ (calculate text limits s).events, ¬ Unrendered event := by
  cases hp : Expr.parse text with
  | error failure =>
    obtain ⟨position, rfl⟩ := unparsable_of_parse hp
    have hc : compute text limits s = _ := computeBy_of_parse_error hp limits
    rw [calculate, answer_of_error hc, excuse_of_unparsable, ending_of_parse_error hp]
    refine ⟨rfl, ?_⟩
    rintro _ hevent ⟨_, _, rfl⟩
    cases position <;> simp [readingEvents] at hevent
  | ok e =>
    obtain ⟨hfailure, hevents⟩ := compute_of_parse h hs hp limits
    rcases hc : compute text limits s with ⟨failure | tally, after, events⟩
    · rw [hc] at hfailure hevents
      obtain ⟨event, hexcuse, hevent⟩ := excuse_of_isA (hfailure failure rfl) text after
      rw [calculate, answer_of_error hc, hexcuse, ending_of_error hp (by rw [hc])]
      exact ⟨rfl, List.forall_mem_append.mpr ⟨hevents, List.forall_mem_singleton.mpr hevent⟩⟩
    · rw [hc] at hevents
      rw [calculate, answer_of_ok hc, ending_of_ok hp (by rw [hc])]
      exact ⟨rfl, hevents⟩

theorem ending_cases (text : String) (limits : Option Limits) (s : σ) :
    (ending text limits s = .notParsed ∧ Unreadable text ∧
      ∃ failure, (compute text limits s).result = .error failure) ∨
    (ending text limits s = .notComputed ∧ ¬ Unreadable text ∧
      ∃ failure, (compute text limits s).result = .error failure) ∨
    ∃ tally, ending text limits s = .computed tally ∧ ¬ Unreadable text ∧
      (compute text limits s).result = .ok tally := by
  cases hp : Expr.parse text with
  | error failure =>
    obtain ⟨position, rfl⟩ := unparsable_of_parse hp
    refine .inl ⟨ending_of_parse_error hp, ⟨position, hp⟩, .unparsable text position, ?_⟩
    rw [compute, computeBy_of_parse_error hp]
  | ok e =>
    have hread := not_unreadable hp
    cases hc : (compute text limits s).result with
    | error failure => exact .inr (.inl ⟨ending_of_error hp hc, hread, failure, rfl⟩)
    | ok tally => exact .inr (.inr ⟨tally, ending_of_ok hp hc, hread, rfl⟩)

theorem ending_fits (text : String) (limits : Option Limits) (s : σ) :
    (ending text limits s).Fits text := by
  obtain ⟨h, -⟩ | ⟨h, -⟩ | ⟨tally, h, hread, -⟩ := ending_cases text limits s
  · rw [h]
    trivial
  · rw [h]
    trivial
  · rw [h]
    obtain ⟨e, hp⟩ := exists_of_not_unreadable hread
    exact plain_of_parse hp

theorem ending_eq_notParsed : ending text limits s = .notParsed ↔ Unreadable text := by
  obtain ⟨h, hread, -⟩ | ⟨h, hread, -⟩ | ⟨tally, h, hread, -⟩ := ending_cases text limits s
  all_goals simp [h, hread]

theorem ending_eq_notComputed : ending text limits s = .notComputed ↔
    ¬ Unreadable text ∧ ∃ failure, (compute text limits s).result = .error failure := by
  obtain ⟨h, hread, hc⟩ | ⟨h, hread, hc⟩ | ⟨tally, h, hread, hc⟩ := ending_cases text limits s
  all_goals simp [h, hread, hc]

theorem ending_eq_computed {tally : Tally} :
    ending text limits s = .computed tally ↔ (compute text limits s).result = .ok tally := by
  obtain ⟨h, -, _, hc⟩ | ⟨h, -, _, hc⟩ | ⟨_, h, -, hc⟩ := ending_cases text limits s
  all_goals simp [h, hc]

theorem calculate_eq_words (h : Dependable I) (hs : I s) {e : Ending} (he : e.Fits text) :
    (calculate text limits s).result = .ok (e.words text) ↔ ending text limits s = e := by
  rw [(calculate_ending h hs).1]
  constructor
  · intro heq
    exact (words_injective (ending_fits text limits s) he (Except.ok.inj heq)).2
  · rintro rfl
    rfl

/-- An answer is given, and it says that the text could not be read just if it cannot be read, that
it could not be computed just if it is read and then fails, and else shows the value. -/
structure Classified {σ : Type} [RandomSource σ] (text : String) (limits : Option Limits) (s : σ) :
    Prop where
  total : ∃ answer, (calculate text limits s).result = .ok answer
  notParsed : (calculate text limits s).result = .ok (notParsed text) ↔ Unreadable text
  notComputed : (calculate text limits s).result = .ok (notComputed text) ↔
    ¬ Unreadable text ∧ ∃ failure, (compute text limits s).result = .error failure
  failure : ¬ Unreadable text → ∀ failure, (compute text limits s).result = .error failure →
    failure.kind.isA .uncomputable = true ∧ failure.kind.isA .unparsable = false
  computed : ∀ tally, (compute text limits s).result = .ok tally →
    (calculate text limits s).result = .ok (render text tally)
  rendered : ∀ event ∈ (calculate text limits s).events, ¬ Unrendered event

theorem classified (h : Dependable I) (hs : I s) : Classified text limits s where
  total := ⟨_, (calculate_ending h hs).1⟩
  notParsed := (calculate_eq_words h hs (e := .notParsed) trivial).trans ending_eq_notParsed
  notComputed := (calculate_eq_words h hs (e := .notComputed) trivial).trans ending_eq_notComputed
  failure hread failure hf := by
    obtain ⟨e, hp⟩ := exists_of_not_unreadable hread
    have huncomputable := (compute_of_parse h hs hp limits).1 failure hf
    exact ⟨huncomputable, not_isA_unparsable huncomputable⟩
  computed tally hc := by
    have hend : ending text limits s = .computed tally := ending_eq_computed.mpr hc
    have hfits := hend ▸ ending_fits text limits s
    exact (calculate_eq_words h hs hfits).mpr hend
  rendered := (calculate_ending h hs).2

end Calculating

/-- On the library's own sources a calculation answers for every text and every limit, and its
answer says truly how it ended. -/
theorem calculate_classified (text : String) (limits : Option Limits) :
    (∀ rolls : FixedRolls, Classified text limits rolls) ∧
    ∀ dice : SystemDice, Classified text limits dice :=
  ⟨fun _ => classified dependable_fixedRolls trivial,
    fun _ => classified dependable_systemDice trivial⟩

/-- Two calculations with the same answer are about the same text and end in the same way. Where
that is a value, the lines of the answer are those of the throws and, at the end, of the result. -/
theorem ending_eq_of_calculate_eq {text text' answer : String} {limits limits' : Option Limits}
    {s s' : AnySource} (h : IsOwn s) (h' : IsOwn s')
    (ha : (calculate text limits s).result = .ok answer)
    (ha' : (calculate text' limits' s').result = .ok answer) :
    text = text' ∧ ending text limits s = ending text' limits' s' ∧
      ∀ tally, (compute text limits s).result = .ok tally →
        (compute text' limits' s').result = .ok tally ∧
        answer.toList.splitOn '\n' = answerLines text tally := by
  rw [(calculate_ending dependable_isOwn h).1] at ha
  rw [(calculate_ending dependable_isOwn h').1] at ha'
  have hwords : (ending text limits s).words text = (ending text' limits' s').words text' :=
    (Except.ok.inj ha).trans (Except.ok.inj ha').symm
  obtain ⟨htext, hending⟩ :=
    words_injective (ending_fits text limits s) (ending_fits text' limits' s') hwords
  refine ⟨htext, hending, fun tally hc => ?_⟩
  have hend : ending text limits s = .computed tally := ending_eq_computed.mpr hc
  refine ⟨ending_eq_computed.mp (hending ▸ hend), ?_⟩
  have hplain := ending_fits text limits s
  rw [hend] at hplain
  rw [← Except.ok.inj ha, hend]
  exact splitOn_render hplain tally

theorem ending_eq_without_dice :
    let text := "0d4+1d6"
    let answer := "0d4 =>  => 0\n1d6 => 3 => 3\n0d4+1d6 => 3"
    let s := AnySource.fixed (.ofList [3])
    let s' := AnySource.fixed (.ofList [3, 5])
    let limits' : Limits := ⟨some 1, some 6, none⟩
    let tally : Tally := ⟨3, [⟨0, 4, [], 0⟩, ⟨1, 6, [3], 3⟩]⟩
    (calculate text none s).result = .ok answer ∧
      (calculate text (some limits') s').result = .ok answer ∧
      ending text none s = ending text (some limits') s' ∧
      (compute text (some limits') s').result = .ok tally ∧
      answer.toList.splitOn '\n' = answerLines text tally := by
  intro text answer s s' limits' tally
  have hown : IsOwn s := trivial
  have hown' : IsOwn s' := trivial
  have hcompute : (compute text none s).result = .ok tally := by decide +kernel
  have hcompute' : (compute text (some limits') s').result = .ok tally := by decide +kernel
  have hrender : render text tally = answer := by
    have hone : Decimal.digits 1 = ['1'] := digits_natCast 1
    have hthree : Decimal.digits 3 = ['3'] := digits_natCast 3
    have hfour : Decimal.digits 4 = ['4'] := digits_natCast 4
    have hsix : Decimal.digits 6 = ['6'] := digits_natCast 6
    have hzero : Decimal.digits 0 = ['0'] := digits_natCast 0
    rw [← String.toList_inj, toList_render]
    simp [answerLines, toList_line, lineWords, resultLine, resultWords, toList_display,
      displayWords, tally, hone, hthree, hfour, hsix, hzero]
    decide +kernel
  have ha : (calculate text none s).result = .ok answer := by
    rw [← hrender]
    exact (classified dependable_isOwn hown).computed tally hcompute
  have ha' : (calculate text (some limits') s').result = .ok answer := by
    rw [← hrender]
    exact (classified dependable_isOwn hown').computed tally hcompute'
  obtain ⟨_, hending, hlines⟩ := ending_eq_of_calculate_eq hown hown' ha ha'
  exact ⟨ha, ha', hending, hlines tally hcompute⟩

end DiceArithmetic.Proofs.Endings
