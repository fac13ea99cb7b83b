import DiceArithmetic.Proofs.Honesty
import DiceArithmetic.Proofs.ParseExactness
import DiceArithmetic.Proofs.Requests
import DiceArithmetic.Proofs.SharedDice

namespace DiceArithmetic.Proofs.Restraint

open DiceArithmetic.Calculator
open DiceArithmetic.Proofs.Trials DiceArithmetic.Proofs.Computing DiceArithmetic.Proofs.Honesty
open DiceArithmetic.Proofs.ParseExactness DiceArithmetic.Proofs.LimitCheck
open DiceArithmetic.Proofs.Requests DiceArithmetic.Proofs.SharedDice

section Sources

variable {σ : Type} [RandomSource σ]

def rollsAsked (text : String) (limits : Option Limits) (s : σ) : List Int :=
  (compute text limits (Recorded.mk s [])).source.record.map Prod.fst

theorem asked_append (s : σ) (first second : List Int) :
    asked s (first ++ second) = asked (asked s first) second := by
  induction first generalizing s with
  | nil => rfl
  | cons sides first ih => exact ih _

theorem alike_asked (start : σ) : Alike fun (s : σ) (r : Recorded σ) =>
    r.source = s ∧ s = asked start (r.record.map Prod.fst) := by
  rintro s ⟨_, record⟩ sides ⟨rfl, h⟩
  refine ⟨rfl, rfl, ?_⟩
  change _ = asked start ((record ++ [(sides, _)]).map Prod.fst)
  rw [List.map_append, asked_append, ← h]
  rfl

/-- Noting down what is asked changes nothing, and the source moves by just these rolls. -/
theorem compute_recorded (text : String) (limits : Option Limits) (s : σ) :
    (compute text limits (Recorded.mk s [])).result = (compute text limits s).result ∧
      (compute text limits s).source = asked s (rollsAsked text limits s) := by
  have h := matches_computeBy (fun e => ((alike_asked s).reduce Expr.maxDepth e).matches) text
    limits s (Recorded.mk s []) ⟨rfl, rfl⟩
  exact ⟨h.1.symm, h.2.2⟩

theorem rollsAsked_of_unread {text : String} {failure : Failure}
    (h : Expr.parse text = .error failure) (limits : Option Limits) (s : σ) :
    rollsAsked text limits s = [] := by
  rw [rollsAsked, compute, computeBy_of_parse_error h]
  rfl

theorem rollsAsked_of_refused {text : String} {e : Expr} {limits : Limits} {failure : Failure}
    (h : Expr.parse text = .ok e) (hc : limits.check e = .error failure) (s : σ) :
    rollsAsked text (some limits) s = [] := by
  rw [rollsAsked, compute, computeBy_of_check_error h hc]
  rfl

theorem rollsAsked_prefix {text : String} {e : Expr} {limits : Option Limits}
    (h : Expr.parse text = .ok e) (hc : limits.elim (.ok ()) (·.check e) = .ok ()) (s : σ) :
    rollsAsked text limits s <+: e.diceTerms.flatMap rollsOf := by
  obtain ⟨asked, hbegin, hrecord, _⟩ := asks_reduce Expr.maxDepth e (Recorded.mk s [])
  rw [rollsAsked, compute, computeBy_of_check h hc]
  change (e.reduce Expr.maxDepth (Recorded.mk s [])).source.record.map Prod.fst <+: _
  rw [hrecord]
  exact hbegin

theorem rollsAsked_cases (text : String) (limits : Limits) (s : σ) :
    rollsAsked text (some limits) s = [] ∨ ∃ terms, (∀ term ∈ terms, IsRead term) ∧
      Kept limits 0 terms ∧ rollsAsked text (some limits) s <+: terms.flatMap rollsOf := by
  cases hp : Expr.parse text with
  | error failure => exact .inl (rollsAsked_of_unread hp _ s)
  | ok e =>
    cases hc : limits.check e with
    | error failure => exact .inl (rollsAsked_of_refused hp hc s)
    | ok =>
      have hwritten := (derives_of_parse hp).isWritten
      have hpass : (some limits).elim (.ok ()) (·.check e) = .ok () := hc
      exact .inr ⟨e.diceTerms, hwritten.diceTerms, kept_of_check hwritten hc,
        rollsAsked_prefix hp hpass s⟩

theorem length_rollsAsked (text : String) {limits : Limits} {most : Int}
    (h : limits.maxDice = some most) (s : σ) :
    (rollsAsked text (some limits) s).length ≤ most.toNat := by
  obtain hnone | ⟨terms, hread, hkept, hbegin⟩ := rollsAsked_cases text limits s
  · rw [hnone]
    exact Nat.zero_le _
  cases terms with
  | nil =>
    rw [List.flatMap_nil, List.prefix_nil] at hbegin
    rw [hbegin]
    exact Nat.zero_le _
  | cons term terms =>
    have hlength := hbegin.length_le
    have hrolls := length_rolls hread
    have htotal := hkept.allDice (by simp) most h
    omega

theorem sides_rollsAsked (text : String) {limits : Limits} {most : Int}
    (h : limits.maxSides = some most) (s : σ) :
    ∀ sides ∈ rollsAsked text (some limits) s, 1 ≤ sides ∧ sides ≤ most := by
  intro sides hs
  obtain hnone | ⟨terms, hread, hkept, hbegin⟩ := rollsAsked_cases text limits s
  · simp [hnone] at hs
  · obtain ⟨hpos, term, hterm, rfl⟩ := sides_of_mem_rolls hread (hbegin.subset hs)
    exact ⟨hpos, hkept.sides term hterm most h⟩

/-- What a computation asks of its source keeps to the limits, however it ends: it asks for no more
rolls than there may be dice and for none of a die with more sides than allowed, and for nothing at
all if its text cannot be read or exceeds the limits. -/
structure Restrained (text : String) (limits : Option Limits) (s : σ) : Prop where
  result : (compute text limits (Recorded.mk s [])).result = (compute text limits s).result
  source : (compute text limits s).source = asked s (rollsAsked text limits s)
  dice : ∀ given ∈ limits, ∀ most ∈ given.maxDice,
    (rollsAsked text limits s).length ≤ most.toNat
  sides : ∀ given ∈ limits, ∀ most ∈ given.maxSides,
    ∀ sides ∈ rollsAsked text limits s, 1 ≤ sides ∧ sides ≤ most
  unread : ∀ failure, Expr.parse text = .error failure → rollsAsked text limits s = []
  refused : ∀ given ∈ limits, ∀ e failure, Expr.parse text = .ok e →
    given.check e = .error failure → rollsAsked text limits s = []

theorem restrained (text : String) (limits : Option Limits) (s : σ) : Restrained text limits s where
  result := (compute_recorded text limits s).1
  source := (compute_recorded text limits s).2
  dice := by
    rintro given ⟨⟩ most hmost
    exact length_rollsAsked text hmost s
  sides := by
    rintro given ⟨⟩ most hmost
    exact sides_rollsAsked text hmost s
  unread failure h := rollsAsked_of_unread h limits s
  refused := by
    rintro given ⟨⟩ e failure h hc
    exact rollsAsked_of_refused h hc s

end Sources

theorem inForce_calculateTool {settings : Settings} {service : Service} {dice : SystemDice}
    (h : InForce settings service dice) (text : String) :
    InForce settings (Service.calculateTool text service).source
      (asked dice (rollsAsked text settings.limits dice)) := by
  have hsource := (matches_calculateTool text service dice h).2
  rw [calculate, source_answer, (compute_recorded text settings.limits dice).2] at hsource
  exact hsource

theorem inForce_auditTool {settings : Settings} {service : Service} {dice : SystemDice}
    (h : InForce settings service dice) (text : String) :
    InForce settings (Service.auditTool text service).source
      (asked dice (rollsAsked text settings.limits dice)) := by
  have hsource := (matches_auditTool text service dice h).2
  have haudit : (Trial.mapFailure Service.restate (audit text settings.limits) dice).source =
      (compute text settings.limits dice).source := source_map _ _ _
  rw [haudit, (compute_recorded text settings.limits dice).2] at hsource
  exact hsource

theorem tools_of_unset {service : Service} {failure : Failure}
    (h : (Service.currentSettings service).result = .error failure) (text : String) :
    (Service.calculateTool text service).source = service ∧
      (Service.auditTool text service).source = service := by
  have hread := currentSettings_eq_error h
  constructor
  · rw [Service.calculateTool, Trial.bind_of_error hread]
  · rw [Service.auditTool, Trial.mapFailure, Trial.bind_of_error hread]

/-- Limits bound what is asked of a source, whatever the source answers and however the computation
ends. A service's tools leave its dice as so few rolls leave them: their limits are always set. -/
theorem compute_restrained :
    (∀ (σ : Type) [RandomSource σ] (text : String) (limits : Option Limits) (s : σ),
      Restrained text limits s) ∧
    ∀ (service : Service) (text : String),
      (∀ settings dice, InForce settings service dice →
        ∃ rolls : List Int, rolls.length ≤ settings.maxDice.toNat ∧
          (∀ sides ∈ rolls, 1 ≤ sides ∧ sides ≤ settings.maxSides) ∧
          rolls = rollsAsked text settings.limits dice ∧
          InForce settings (Service.calculateTool text service).source (asked dice rolls) ∧
          InForce settings (Service.auditTool text service).source (asked dice rolls)) ∧
      ∀ failure, (Service.currentSettings service).result = .error failure →
        (Service.calculateTool text service).source = service ∧
        (Service.auditTool text service).source = service := by
  refine ⟨fun σ _ text limits s => restrained text limits s, fun service text => ⟨?_, ?_⟩⟩
  · intro settings dice h
    have hrestrained := restrained text settings.limits dice
    exact ⟨rollsAsked text settings.limits dice, hrestrained.dice _ rfl _ rfl,
      hrestrained.sides _ rfl _ rfl, rfl, inForce_calculateTool h text, inForce_auditTool h text⟩
  · intro failure h
    exact tools_of_unset h text

theorem compute_restrained_running_out :
    let limits : Limits := ⟨some 5, some 6, none⟩
    let rolls := FixedRolls.ofList [4]
    let settings : Settings := { maxDice := 3, maxSides := 6, randomSeed := some 7 }
    let service : Service := { settings := some settings }
    (compute "2d6*3d4" (some limits) rolls).result = .error (.exhausted 1) ∧
      rollsAsked "2d6*3d4" (some limits) rolls = [6, 6] ∧
      (rollsAsked "2d6*3d4" (some limits) rolls).length ≤ 5 ∧
      (∀ sides ∈ rollsAsked "2d6*3d4" (some limits) rolls, 1 ≤ sides ∧ sides ≤ 6) ∧
      rollsAsked "2d6*" (some limits) rolls = [] ∧
      ∃ asks : List Int, asks.length ≤ 3 ∧ (∀ sides ∈ asks, 1 ≤ sides ∧ sides ≤ 6) ∧
        InForce settings (Service.calculateTool "2d6-1d4" service).source
          (asked (SystemDice.seeded 7) asks) := by
  intro limits rolls settings service
  obtain ⟨hsource, hservice⟩ := compute_restrained
  have hasked := hsource FixedRolls "2d6*3d4" (some limits) rolls
  have hunread := hsource FixedRolls "2d6*" (some limits) rolls
  have hparse : Expr.parse "2d6*" = .error (.unparsable "2d6*" (some 4)) := by rfl
  have hforce : InForce settings service (SystemDice.seeded 7) := ⟨rfl, rfl⟩
  obtain ⟨asks, hlength, hsides, _, hafter, _⟩ := (hservice service "2d6-1d4").1 _ _ hforce
  exact ⟨by decide +kernel, by decide +kernel, hasked.dice limits rfl 5 rfl,
    hasked.sides limits rfl 6 rfl, hunread.unread _ hparse, asks, hlength, hsides, hafter⟩

end DiceArithmetic.Proofs.Restraint
