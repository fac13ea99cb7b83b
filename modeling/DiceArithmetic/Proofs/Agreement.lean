import Mathlib.Data.Rat.Lemmas
import DiceArithmetic.Proofs.Endings
import DiceArithmetic.Proofs.SharedDice

namespace DiceArithmetic.Proofs.Agreement

open DiceArithmetic.Calculator
open DiceArithmetic.Proofs.Trials DiceArithmetic.Proofs.Computing DiceArithmetic.Proofs.Failing
open DiceArithmetic.Proofs.Wording DiceArithmetic.Proofs.Endings DiceArithmetic.Proofs.SharedDice

section Records

def behindArrow : List Char → Option (List Char)
  | ' ' :: '=' :: '>' :: ' ' :: rest => some rest
  | _ :: rest => behindArrow rest
  | [] => none

def lastLine (text : String) : Option (List Char) :=
  (text.toList.splitOn '\n').getLast?

/-- A record that gives a tally in full: its throws, its value in lowest terms, whether that is a
whole number, and the way in which it is shown at the end of the text. -/
structure Faithful (record : Report) (tally : Tally) : Prop where
  throws : record.throws = tally.throws
  coprime : record.numerator.natAbs.Coprime record.denominator
  positive : 1 ≤ record.denominator
  quotient : (record.numerator : Rat) / record.denominator = tally.value
  whole : record.isInteger = true ↔ '/' ∉ record.value.toList
  shown : (lastLine record.text).bind behindArrow = some record.value.toList

theorem behindArrow_append {before : List Char} (h : ' ' ∉ before) (after : List Char) :
    behindArrow (before ++ ' ' :: '=' :: '>' :: ' ' :: after) = some after := by
  induction before with
  | nil => rfl
  | cons c before ih =>
    have hc := List.ne_of_not_mem_cons h
    rw [List.cons_append, behindArrow, ih (List.not_mem_of_not_mem_cons h)]
    intro rest hblank
    exact absurd hblank.symm hc

theorem resultLine_eq (text : String) (tally : Tally) : resultLine text tally =
    text.toList ++ ' ' :: '=' :: '>' :: ' ' :: tally.display.toList := by
  simp [resultLine, resultWords, List.intercalate_cons_cons]

theorem lastLine_render {text : String} (h : Plain text) (tally : Tally) :
    lastLine (render text tally) = some (resultLine text tally) := by
  rw [lastLine, splitOn_render h, answerLines, List.getLast?_concat]

theorem slash_mem_display (tally : Tally) :
    '/' ∈ tally.display.toList ↔ tally.value.den ≠ 1 := by
  have hnumber : ∀ n, '/' ∉ Decimal.digits n := fun n => not_mem_digits n rfl (by decide)
  rw [toList_display, displayWords]
  by_cases h : tally.value.den = 1
  · simp [h, hnumber]
  · simp [h, List.intercalate_cons_cons]

theorem faithful_report {text : String} (h : Plain text) (source : String) (tally : Tally) :
    Faithful (report text source tally) tally where
  throws := rfl
  coprime := tally.value.reduced
  positive := tally.value.den_pos
  quotient := Rat.num_div_den tally.value
  whole := by
    change (tally.value.den == 1) = true ↔ '/' ∉ tally.display.toList
    rw [slash_mem_display, beq_iff_eq, not_not]
  shown := by
    have hplain : ' ' ∉ text.toList := fun hc => (h _ hc).1 rfl
    change (lastLine (render text tally)).bind behindArrow = some tally.display.toList
    rw [lastLine_render h, Option.bind_some, resultLine_eq, behindArrow_append hplain]

end Records

section Results

variable {text : String}

/-- How the three ways to ask for a calculation, for its value, for words and for a record, end
together. -/
structure Concur (text : String) (computed : Except Failure Tally)
    (answered : Except Failure String) (audited : Except Failure Report) : Prop where
  value : ∀ tally, computed = .ok tally ↔
    answered = .ok (render text tally) ∧ ∃ record, audited = .ok record
  record : ∀ tally record, computed = .ok tally → audited = .ok record →
    answered = .ok record.text ∧ Faithful record tally
  failure : ∀ failure, computed = .error failure ↔
    audited = .error failure ∧
      (answered = .ok (notParsed text) ∨ answered = .ok (notComputed text))

theorem concur_of_words (source : String) {computed : Except Failure Tally}
    {answered : Except Failure String} {audited : Except Failure Report}
    (haudit : audited = computed.map (report text source))
    (hok : ∀ tally, computed = .ok tally → Plain text ∧ answered = .ok (render text tally))
    (herror : ∀ failure, computed = .error failure →
      answered = .ok (notParsed text) ∨ answered = .ok (notComputed text)) :
    Concur text computed answered audited := by
  subst haudit
  cases computed with
  | error failure =>
    refine ⟨fun tally => ⟨nofun, ?_⟩, nofun, fun failure' => ⟨?_, fun h => ?_⟩⟩
    · rintro ⟨-, record, hrecord⟩
      cases hrecord
    · rintro ⟨⟩
      exact ⟨rfl, herror failure rfl⟩
    · cases h.1
      rfl
  | ok tally =>
    obtain ⟨hplain, hanswer⟩ := hok tally rfl
    refine ⟨fun tally' => ⟨?_, fun h => ?_⟩, ?_, fun failure => ⟨nofun, ?_⟩⟩
    · rintro ⟨⟩
      exact ⟨hanswer, _, rfl⟩
    · have hsame : render text tally = render text tally' :=
        Except.ok.inj (hanswer.symm.trans h.1)
      rw [(render_injective hplain hplain hsame).2]
    · rintro _ _ ⟨⟩ ⟨⟩
      exact ⟨hanswer, faithful_report hplain source tally⟩
    · rintro ⟨h, -⟩
      cases h

section Sources

variable {σ : Type} [RandomSource σ] {I : σ → Prop} {limits : Option Limits} {s : σ}

theorem concur_of_dependable (h : Dependable I) (hs : I s) :
    Concur text (compute text limits s).result (calculate text limits s).result
      (audit text limits s).result := by
  have hanswer : (calculate text limits s).result = .ok ((ending text limits s).words text) :=
    (calculate_ending h hs).1
  apply concur_of_words (RandomSource.name s)
  · rw [audit, map_apply]
  · intro tally hc
    have hend : ending text limits s = .computed tally := ending_eq_computed.mpr hc
    have hfits := ending_fits text limits s
    rw [hend] at hanswer hfits
    exact ⟨hfits, hanswer⟩
  · intro failure hc
    obtain ⟨hend, -⟩ | ⟨hend, -⟩ | ⟨tally, -, -, hok⟩ := ending_cases text limits s
    · rw [hend] at hanswer
      exact .inl hanswer
    · rw [hend] at hanswer
      exact .inr hanswer
    · rw [hc] at hok
      cases hok

theorem exists_code {kind : Failure.Kind} (h : kind.isA .calculation = true) :
    ∃ code, kind.code? = some code := by
  cases kind with
  | calculation | unparsable | uncomputable | divisionByZero | invalidDie | limitExceeded
  | sourceExhausted => exact ⟨_, rfl⟩
  | value | type | runtime | nesting | settings | zeroDenominator | overflow =>
    exact absurd h (by decide)

theorem isA_calculation_of_compute (h : Dependable I) (hs : I s) {failure : Failure}
    (hf : (compute text limits s).result = .error failure) :
    failure.kind.isA .calculation = true := by
  cases hp : Expr.parse text with
  | error cause =>
    obtain ⟨position, rfl⟩ := unparsable_of_parse hp
    rw [compute, computeBy_of_parse_error hp] at hf
    cases hf
    rfl
  | ok e => exact isA_calculation ((compute_of_parse h hs hp limits).1 failure hf)

theorem isA_calculation_of_audit (h : Dependable I) (hs : I s) {failure : Failure}
    (hf : (audit text limits s).result = .error failure) :
    failure.kind.isA .calculation = true := by
  rw [audit, map_apply] at hf
  cases hc : (compute text limits s).result with
  | ok tally =>
    rw [hc] at hf
    cases hf
  | error cause =>
    rw [hc] at hf
    cases hf
    exact isA_calculation_of_compute h hs hc

theorem source_calculate (s : σ) :
    (calculate text limits s).source = (compute text limits s).source :=
  source_answer text (compute text limits) s

theorem source_audit (s : σ) :
    (audit text limits s).source = (compute text limits s).source :=
  source_map _ _ s

end Sources

end Results

section Services

variable {settings : Settings} {service s t : Service} {dice : SystemDice} {text : String}
  {limits : Option Limits}

def SameRolls (s t : Service) : Prop :=
  ∀ requests : List Int, (s.run (requests.map .roll)).map Service.Answer.result =
    (t.run (requests.map .roll)).map Service.Answer.result

theorem roll_inForce (h : InForce settings service dice) (sides : Int) :
    (service.step (.roll sides)).1.result = (RandomSource.roll dice sides).1.map .face ∧
      InForce settings (service.step (.roll sides)).2 (RandomSource.roll dice sides).2 := by
  obtain ⟨hresult, hafter⟩ :=
    (matches_withDice (Trial.draw sides)).map Service.Reply.face service dice h
  rw [map_apply Service.Reply.face (Trial.draw sides) dice] at hresult hafter
  exact ⟨hresult, hafter⟩

theorem sameRolls_of_inForce (hs : InForce settings s dice) (ht : InForce settings t dice) :
    SameRolls s t := by
  intro requests
  induction requests generalizing s t dice with
  | nil => rfl
  | cons sides requests ih =>
    obtain ⟨hleft, hleft'⟩ := roll_inForce hs sides
    obtain ⟨hright, hright'⟩ := roll_inForce ht sides
    exact congrArg₂ List.cons (hleft.trans hright.symm) (ih hleft' hright')

theorem matches_calculate (text : String) (limits : Option Limits) :
    Matches (InForce settings) (Service.calculate text limits) (calculate text limits) :=
  matches_answer text (matches_compute text limits)

theorem concur_of_inForce (h : InForce settings service dice) :
    Concur text (Service.compute text limits service).result
      (Service.calculate text limits service).result
      (Service.audit text limits service).result := by
  rw [(matches_compute text limits service dice h).1,
    (matches_calculate text limits service dice h).1, (matches_audit text limits service dice h).1]
  exact concur_of_dependable dependable_systemDice trivial

/-- Whichever way a service is asked, the dice are left in the same state. -/
theorem inForce_of_requests (h : InForce settings service dice) (text : String)
    (limits : Option Limits) : ∃ dice',
      InForce settings (Service.compute text limits service).source dice' ∧
      InForce settings (Service.calculate text limits service).source dice' ∧
      InForce settings (Service.audit text limits service).source dice' := by
  have hcalculate := (matches_calculate text limits service dice h).2
  have haudit := (matches_audit text limits service dice h).2
  rw [source_calculate] at hcalculate
  rw [source_audit] at haudit
  exact ⟨_, (matches_compute text limits service dice h).2, hcalculate, haudit⟩

/-- The tools of a service follow its requests for words and for a record with these limits. Where
no record is given, the failure is restated as one about a value, with the code of the first. -/
structure ToolsFollow (text : String) (limits : Option Limits) (service : Service) : Prop where
  answer : (Service.calculateTool text service).result =
    (Service.calculate text limits service).result
  record : ∀ record, (Service.auditTool text service).result = .ok record ↔
    (Service.audit text limits service).result = .ok record
  failure : ∀ failure, (Service.audit text limits service).result = .error failure →
    ∃ code restated, failure.kind.code? = some code ∧
      failure.message = s!"[{code}] {failure.words}" ∧
      (Service.auditTool text service).result = .error restated ∧
      restated.kind = .value ∧ restated.message = failure.message
  answerRolls : SameRolls (Service.calculateTool text service).source
    (Service.calculate text limits service).source
  recordRolls : SameRolls (Service.auditTool text service).source
    (Service.audit text limits service).source

theorem toolsFollow_of_inForce (h : InForce settings service dice) :
    ToolsFollow text settings.limits service := by
  obtain ⟨hanswer, hanswered⟩ := matches_calculate text settings.limits service dice h
  obtain ⟨htool, htooled⟩ := matches_calculateTool text service dice h
  obtain ⟨haudit, haudited⟩ := matches_audit text settings.limits service dice h
  obtain ⟨hrecord, hrecorded⟩ := matches_auditTool text service dice h
  have hrestated : (Service.auditTool text service).result =
      (Service.audit text settings.limits service).result.mapError Service.restate := by
    rw [hrecord, haudit]
    rfl
  refine ⟨htool.trans hanswer.symm, fun record => ?_, fun failure hf => ?_,
    sameRolls_of_inForce htooled hanswered, sameRolls_of_inForce hrecorded haudited⟩
  · rw [hrestated]
    cases (Service.audit text settings.limits service).result with
    | ok kept => rfl
    | error failure => exact ⟨nofun, nofun⟩
  · have hkind := isA_calculation_of_audit dependable_systemDice trivial (haudit.symm.trans hf)
    obtain ⟨code, hcode⟩ := exists_code hkind
    refine ⟨code, .reported .value failure.message, hcode, ?_, ?_, rfl, rfl⟩
    · rw [Failure.message, Failure.withCode, hcode]
    · rw [hrestated, hf]
      change Except.error (Service.restate failure) = _
      rw [Service.restate, if_pos hkind]

end Services

/-- For every text it comes to the same whether its value is asked for, or words, or a record: the
three end together, show the same, and leave the same rolls to come. This holds of the library's own
sources, and of a service whose settings can be read and of its tools. -/
theorem requests_agree (text : String) :
    (∀ (limits : Option Limits) (s : AnySource), IsOwn s →
      Concur text (compute text limits s).result (calculate text limits s).result
        (audit text limits s).result ∧
      (calculate text limits s).source = (compute text limits s).source ∧
      (audit text limits s).source = (compute text limits s).source) ∧
    ∀ (service : Service) (settings : Settings),
      (Service.currentSettings service).result = .ok settings →
      (∀ limits : Option Limits,
        Concur text (Service.compute text limits service).result
          (Service.calculate text limits service).result
          (Service.audit text limits service).result ∧
        SameRolls (Service.calculate text limits service).source
          (Service.compute text limits service).source ∧
        SameRolls (Service.audit text limits service).source
          (Service.compute text limits service).source) ∧
      ToolsFollow text settings.limits service := by
  refine ⟨fun limits s hs => ?_, fun service settings hread => ?_⟩
  · exact ⟨concur_of_dependable dependable_isOwn hs, source_calculate s, source_audit s⟩
  · have hforce : InForce settings service (diceInForce settings service) := ⟨hread, rfl⟩
    refine ⟨fun limits => ?_, toolsFollow_of_inForce hforce⟩
    obtain ⟨dice, hcompute, hcalculate, haudit⟩ := inForce_of_requests hforce text limits
    exact ⟨concur_of_inForce hforce, sameRolls_of_inForce hcalculate hcompute,
      sameRolls_of_inForce haudit hcompute⟩

theorem requests_agree_fraction :
    let service : Service := { settings := some { randomSeed := some 7 } }
    let limits : Limits := ⟨some 100000, some 1000000, some 200⟩
    ∃ (tally : Tally) (record : Report),
      (compute "1d6/2" none (AnySource.fixed (.ofList [3]))).result = .ok tally ∧
      (calculate "1d6/2" none (AnySource.fixed (.ofList [3]))).result = .ok record.text ∧
      (audit "1d6/2" none (AnySource.fixed (.ofList [3]))).result = .ok record ∧
      Faithful record tally ∧ record.isInteger = false ∧
      (Service.currentSettings service).result = .ok { randomSeed := some 7 } ∧
      (Service.calculateTool "1d6/2" service).result =
        (Service.calculate "1d6/2" (some limits) service).result := by
  intro service limits
  have hown : IsOwn (AnySource.fixed (.ofList [3])) := trivial
  obtain ⟨hconcur, -⟩ := (requests_agree "1d6/2").1 none _ hown
  have hcompute : (compute "1d6/2" none (AnySource.fixed (.ofList [3]))).result =
      .ok ⟨3 / 2, [⟨1, 6, [3], 3⟩]⟩ := by decide +kernel
  obtain ⟨-, record, haudit⟩ := (hconcur.value _).mp hcompute
  obtain ⟨hanswer, hfaithful⟩ := hconcur.record _ _ hcompute haudit
  have htools := ((requests_agree "1d6/2").2 service _ rfl).2
  refine ⟨_, record, hcompute, hanswer, haudit, hfaithful, ?_, rfl, htools.answer⟩
  rw [audit, map_apply, hcompute] at haudit
  cases haudit
  change ((3 / 2 : Rat).den == 1) = false
  decide +kernel

end DiceArithmetic.Proofs.Agreement
