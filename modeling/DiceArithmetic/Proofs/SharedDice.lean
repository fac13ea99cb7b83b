import DiceArithmetic.Proofs.Computing
import DiceArithmetic.Service

namespace DiceArithmetic.Proofs.SharedDice

open DiceArithmetic.Proofs.Trials DiceArithmetic.Proofs.Computing

variable {settings : Settings} {service : Service} {dice : SystemDice}

/-- The dice that a service with these settings has, or makes when they are first needed. -/
def diceInForce (settings : Settings) (service : Service) : SystemDice :=
  service.dice.getD
    (match settings.randomSeed with
    | some seed => .seeded seed
    | none => .unseeded service.entropy)

/-- The service works with these settings and these dice, whether or not it has made them yet. -/
structure InForce (settings : Settings) (service : Service) (dice : SystemDice) : Prop where
  read : (Service.currentSettings service).result = .ok settings
  dice : diceInForce settings service = dice

theorem currentSettings_eq_ok (h : (Service.currentSettings service).result = .ok settings) :
    Service.currentSettings service =
      ⟨.ok settings, { service with settings := some settings }, []⟩ := by
  unfold Service.currentSettings at h ⊢
  cases hs : service.settings with
  | some kept =>
    simp only [hs, Except.ok.injEq] at h
    subst h
    simp [← hs]
  | none =>
    simp only [hs] at h ⊢
    cases hread : Settings.ofEnvironment service.environment with
    | error failure => simp [hread] at h
    | ok fresh =>
      simp only [hread, Except.ok.injEq] at h
      rw [h]

theorem currentSettings_eq_error {failure : Failure}
    (h : (Service.currentSettings service).result = .error failure) :
    Service.currentSettings service = ⟨.error failure, service, []⟩ := by
  unfold Service.currentSettings at h ⊢
  cases hs : service.settings with
  | some kept => simp [hs] at h
  | none =>
    simp only [hs] at h ⊢
    cases hread : Settings.ofEnvironment service.environment with
    | error cause =>
      simp only [hread, Except.error.injEq] at h
      rw [h]
    | ok fresh => simp [hread] at h

theorem InForce.keepSettings (h : InForce settings service dice) :
    InForce settings { service with settings := some settings } dice :=
  ⟨rfl, h.dice⟩

theorem InForce.replaceDice (h : InForce settings service dice) (dice' : SystemDice) :
    InForce settings { service with dice := some dice' } dice' := by
  refine ⟨?_, rfl⟩
  have hread := h.read
  unfold Service.currentSettings at hread ⊢
  cases hs : service.settings with
  | some kept => simpa only [hs] using hread
  | none =>
    simp only [hs] at hread ⊢
    cases hfresh : Settings.ofEnvironment service.environment with
    | error failure => simp [hfresh] at hread
    | ok fresh => simpa only [hfresh] using hread

theorem sharedDice_inForce (h : InForce settings service dice) :
    ∃ after events, Service.sharedDice service = ⟨.ok dice, after, events⟩ ∧
      InForce settings after dice := by
  have hdice := h.dice
  unfold diceInForce at hdice
  unfold Service.sharedDice
  cases hd : service.dice with
  | some made =>
    rw [hd] at hdice
    obtain rfl : made = dice := hdice
    exact ⟨service, [], rfl, h⟩
  | none =>
    rw [hd, Option.getD_none] at hdice
    simp only [Trial.bind, currentSettings_eq_ok h.read]
    cases hseed : settings.randomSeed with
    | some seed =>
      simp only [hseed] at hdice
      subst hdice
      exact ⟨_, _, rfl, rfl, rfl⟩
    | none =>
      simp only [hseed] at hdice
      subst hdice
      exact ⟨_, _, rfl, rfl, rfl⟩

theorem matches_withDice {α : Type} (trial : Trial SystemDice α) :
    Matches (InForce settings) (Service.withDice trial) trial := by
  intro service dice h
  obtain ⟨after, events, hshared, hafter⟩ := sharedDice_inForce h
  rw [Service.withDice, Trial.bind_of_ok hshared]
  exact ⟨rfl, hafter.replaceDice _⟩

theorem matches_compute (text : String) (limits : Option Limits) :
    Matches (InForce settings) (Service.compute text limits) (Calculator.compute text limits) :=
  matches_computeBy (fun e => matches_withDice e.evaluate) text limits

theorem matches_calculateTool (text : String) :
    Matches (InForce settings) (Service.calculateTool text)
      (Calculator.calculate text settings.limits) := by
  intro service dice h
  rw [Service.calculateTool, Trial.bind_of_ok (currentSettings_eq_ok h.read)]
  exact matches_answer text (matches_compute text settings.limits) _ _ h.keepSettings

theorem matches_audit (text : String) (limits : Option Limits) :
    Matches (InForce settings) (Service.audit text limits) (Calculator.audit text limits) := by
  intro service dice h
  obtain ⟨after, events, hshared, hafter⟩ := sharedDice_inForce h
  rw [Service.audit, Trial.bind_of_ok hshared]
  exact (matches_compute text limits).map (Calculator.report text dice.name) after dice hafter

theorem matches_auditTool (text : String) :
    Matches (InForce settings) (Service.auditTool text)
      (Trial.mapFailure Service.restate (Calculator.audit text settings.limits)) := by
  refine Matches.mapFailure Service.restate fun service dice h => ?_
  rw [Trial.bind_of_ok (currentSettings_eq_ok h.read)]
  exact matches_audit text settings.limits _ _ h.keepSettings

end DiceArithmetic.Proofs.SharedDice
