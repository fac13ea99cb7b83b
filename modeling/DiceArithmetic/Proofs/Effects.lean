import DiceArithmetic.Proofs.Serving

namespace DiceArithmetic.Proofs.Effects

open DiceArithmetic.Proofs.Trials DiceArithmetic.Proofs.Computing
open DiceArithmetic.Proofs.SharedDice DiceArithmetic.Proofs.Serving

section Seeds

def SameSeeded (seed : Option Int) (first second : SystemDice) : Prop :=
  first = second ∧ first.seed = seed

theorem alike_sameSeeded (seed : Option Int) : Alike (SameSeeded seed) := by
  rintro dice _ sides ⟨rfl, hseed⟩
  refine ⟨rfl, rfl, ?_⟩
  change (SystemDice.roll dice sides).2.seed = seed
  rw [SystemDice.roll]
  split
  · exact hseed
  · exact hseed

def KeepsSeed {α : Type} (trial : Trial SystemDice α) : Prop :=
  ∀ dice, (trial dice).source.seed = dice.seed

theorem keepsSeed_draw (sides : Int) : KeepsSeed (Trial.draw sides) := fun dice =>
  ((alike_sameSeeded dice.seed).draw sides dice dice ⟨rfl, rfl⟩).2.2.2

theorem keepsSeed_evaluate (e : Expr) : KeepsSeed e.evaluate := fun dice =>
  ((alike_sameSeeded dice.seed).reduce Expr.maxDepth e dice dice ⟨rfl, rfl⟩).2.2.2

end Seeds

/-- The steps that look up the settings. Those that only need dice do so as long as there are
none. -/
def Consults (service : Service) : Service.Step → Prop
  | .currentSettings | .calculateTool _ | .auditTool _ | .start => True
  | .inspectDice | .roll _ | .audit _ _ => service.dice = none
  | .calculate text limits => service.dice = none ∧ ¬ Rejected text limits
  | _ => False

/-- What becomes of settings and dice. The settings are kept or, if they are looked up, those that
are found then. Dice are the same as before but for their state, or are made with the seed of the
settings. -/
structure Effect (consults : Prop) (s t : Service) : Prop where
  found : consults → t.settings = (Service.currentSettings s).source.settings
  kept : ¬ consults → t.settings = s.settings
  dice : ∀ dice, t.dice = some dice →
    (∃ old, s.dice = some old ∧ dice.seed = old.seed) ∨
    s.dice = none ∧ ∃ settings, (Service.currentSettings s).result = .ok settings ∧
      dice.seed = settings.randomSeed

section Effects

variable {consults : Prop} {s t : Service} {settings : Settings}

theorem Effect.of_kept (hsettings : t.settings = s.settings) (hdice : t.dice = s.dice) :
    Effect False s t where
  found := False.elim
  kept _ := hsettings
  dice dice hd := .inl ⟨dice, hdice ▸ hd, rfl⟩

theorem Effect.congr {consults' : Prop} (h : Effect consults s t) (hc : consults ↔ consults') :
    Effect consults' s t := by
  rwa [← propext hc]

theorem Effect.replace {dice dice' : SystemDice} (h : Effect consults s t)
    (hd : t.dice = some dice) (hseed : dice'.seed = dice.seed) :
    Effect consults s { t with dice := some dice' } where
  found := h.found
  kept := h.kept
  dice := by
    rintro _ ⟨rfl⟩
    rw [hseed]
    exact h.dice dice hd

theorem effect_currentSettings (service : Service) :
    Effect True service (Service.currentSettings service).source where
  found _ := rfl
  kept h := (h trivial).elim
  dice dice hd := by
    refine .inl ⟨dice, ?_, rfl⟩
    obtain ⟨failure, h⟩ | ⟨settings, h⟩ := currentSettings_cases service
    · rwa [h] at hd
    · rwa [h] at hd

theorem Effect.of_found (hread : Service.currentSettings s =
      ⟨.ok settings, { s with settings := some settings }, []⟩)
    (h : Effect consults { s with settings := some settings } t) : Effect True s t where
  found _ := by
    rw [hread]
    by_cases hc : consults
    · rw [h.found hc, currentSettings_of_kept rfl]
    · exact h.kept hc
  kept hc := (hc trivial).elim
  dice dice hd := by
    obtain hold | ⟨hnone, found, hfound, hseed⟩ := h.dice dice hd
    · exact .inl hold
    · rw [currentSettings_of_kept rfl] at hfound
      cases hfound
      exact .inr ⟨hnone, settings, by rw [hread], hseed⟩

theorem effect_bind_currentSettings {α : Type} {next : Settings → Trial Service α}
    (hnext : ∀ settings s, ∃ consults, Effect consults s (next settings s).source)
    (service : Service) :
    Effect True service ((Service.currentSettings >>= next) service).source := by
  obtain ⟨failure, h⟩ | ⟨settings, h⟩ := currentSettings_cases service
  · have hlook := effect_currentSettings service
    rw [h] at hlook
    rwa [Trial.bind_of_error h]
  · obtain ⟨consults, hafter⟩ := hnext settings { service with settings := some settings }
    rw [Trial.bind_of_ok h]
    exact hafter.of_found h

theorem effect_makeDice (h : s.settings = some settings) (hd : s.dice = none) :
    Effect False s (makeDice settings s).source := by
  have hread : (Service.currentSettings s).result = .ok settings := by
    rw [currentSettings_of_kept h]
  obtain ⟨dice, entropy, events, hmake, hseed⟩ := makeDice_eq settings s
  rw [hmake]
  refine ⟨False.elim, fun _ => rfl, ?_⟩
  rintro _ ⟨rfl⟩
  exact .inr ⟨hd, settings, hread, hseed⟩

theorem effect_sharedDice (service : Service) :
    Effect (service.dice = none) service (Service.sharedDice service).source := by
  obtain ⟨dice, hmade, h⟩ | ⟨hunmade, hlook⟩ := sharedDice_cases service
  · rw [h]
    exact (Effect.of_kept rfl rfl).congr (by simp [hmade])
  · refine Effect.congr (?_ : Effect True _ _) (by simp [hunmade])
    obtain ⟨failure, hread, h⟩ | ⟨settings, hread, h⟩ := hlook
    · have heffect := effect_currentSettings service
      rw [hread] at heffect
      rwa [h]
    · -- Making the dice looks nothing up any more, so what was found stays in force.
      rw [h]
      exact (effect_makeDice (s := { service with settings := some settings }) rfl hunmade).of_found
        (currentSettings_eq_ok hread)

theorem dice_of_sharedDice {dice : SystemDice} {events : List Event}
    (h : Service.sharedDice s = ⟨.ok dice, t, events⟩) : t.dice = some dice := by
  obtain ⟨made, hmade, hd⟩ | ⟨-, ⟨failure, -, hd⟩ | ⟨settings, -, hd⟩⟩ := sharedDice_cases s
  · rw [hd] at h
    cases h
    exact hmade
  · rw [hd] at h
    cases h
  · obtain ⟨made, entropy, more, hmake, -⟩ :=
      makeDice_eq settings { s with settings := some settings }
    rw [hd, hmake] at h
    cases h
    rfl

theorem source_withDice_of_made {α : Type} {dice : SystemDice} (h : s.dice = some dice)
    (trial : Trial SystemDice α) :
    (Service.withDice trial s).source = { s with dice := some (trial dice).source } := by
  rw [Service.withDice, Trial.bind_of_ok (sharedDice_of_made h)]
  rfl

theorem effect_bind_sharedDice {α : Type} {next : SystemDice → Trial Service α}
    (hnext : ∀ dice s, s.dice = some dice → ∃ after : SystemDice, after.seed = dice.seed ∧
      (next dice s).source = { s with dice := some after }) (service : Service) :
    Effect (service.dice = none) service ((Service.sharedDice >>= next) service).source := by
  have hshared := effect_sharedDice service
  rcases h : Service.sharedDice service with ⟨failure | dice, t, events⟩
  · rw [h] at hshared
    rwa [Trial.bind_of_error h]
  · rw [h] at hshared
    have hd := dice_of_sharedDice h
    obtain ⟨after, hseed, hafter⟩ := hnext dice t hd
    rw [Trial.bind_of_ok h]
    dsimp only
    rw [hafter]
    exact hshared.replace hd hseed

theorem effect_withDice {α : Type} {trial : Trial SystemDice α} (h : KeepsSeed trial)
    (service : Service) :
    Effect (service.dice = none) service (Service.withDice trial service).source :=
  effect_bind_sharedDice (fun dice _ _ => ⟨(trial dice).source, h dice, rfl⟩) service

theorem effect_calculate (text : String) (limits : Option Limits) (service : Service) :
    Effect (service.dice = none ∧ ¬ Rejected text limits) service
      (Service.calculate text limits service).source := by
  by_cases h : Rejected text limits
  · rw [source_calculate_of_rejected h]
    exact (Effect.of_kept rfl rfl).congr (by simp [h])
  · obtain ⟨e, -, hsource⟩ := source_of_not_rejected h
    rw [Service.calculate, source_answer, Service.compute, hsource]
    exact (effect_withDice (keepsSeed_evaluate e) service).congr (by simp [h])

theorem effect_audit (text : String) (limits : Option Limits) (service : Service) :
    Effect (service.dice = none) service (Service.audit text limits service).source := by
  apply effect_bind_sharedDice
  intro dice s hd
  rw [source_map, Service.compute]
  by_cases h : Rejected text limits
  · rw [source_of_rejected h]
    exact ⟨dice, rfl, by rw [← hd]⟩
  · obtain ⟨e, -, hsource⟩ := source_of_not_rejected h
    rw [hsource, source_withDice_of_made hd]
    exact ⟨_, keepsSeed_evaluate e dice, rfl⟩

theorem effect_configureLogging (level : String) (service : Service) :
    Effect False service (Service.configureLogging level service).source := by
  unfold Service.configureLogging
  cases Logging.thresholdNamed level with
  | error failure => exact .of_kept rfl rfl
  | ok threshold => exact .of_kept rfl rfl

theorem Effect.map {α β : Type} {trial : Trial Service α} (f : α → β)
    (h : Effect consults s (trial s).source) : Effect consults s ((f <$> trial) s).source := by
  rwa [source_map]

/-- What one step does to settings and dice, unless it forgets the settings. -/
theorem effect_step {step : Service.Step} (hstep : step ≠ .forgetSettings) (service : Service) :
    Effect (Consults service step) service (service.step step).2 := by
  cases step with
  | setVariable name value => exact .of_kept rfl rfl
  | unsetVariable name => exact .of_kept rfl rfl
  | forgetSettings => exact (hstep rfl).elim
  | forgetDice => exact ⟨False.elim, fun _ => rfl, nofun⟩
  | readSettings => exact .of_kept rfl rfl
  | currentSettings => exact (effect_currentSettings service).map _
  | inspectDice => exact (effect_sharedDice service).map _
  | roll sides => exact (effect_withDice (keepsSeed_draw sides) service).map _
  | calculateTool text =>
    apply Effect.map
    exact effect_bind_currentSettings (fun settings s => ⟨_, effect_calculate text _ s⟩) service
  | auditTool text =>
    apply Effect.map
    exact effect_bind_currentSettings (fun settings s => ⟨_, effect_audit text _ s⟩) service
  | calculate text limits => exact (effect_calculate text limits service).map _
  | audit text limits => exact (effect_audit text limits service).map _
  | configureLogging level => exact (effect_configureLogging level service).map _
  | start =>
    apply Effect.map
    exact effect_bind_currentSettings (fun settings s => ⟨_, effect_configureLogging _ s⟩) service

theorem read_iff : (Service.currentSettings s).result = .ok settings ↔
    s.settings = some settings ∨
      s.settings = none ∧ Settings.ofEnvironment s.environment = .ok settings := by
  rw [Service.currentSettings]
  cases s.settings with
  | some kept => simp
  | none => cases Settings.ofEnvironment s.environment <;> simp

theorem settings_currentSettings : (Service.currentSettings s).source.settings = some settings ↔
    (Service.currentSettings s).result = .ok settings := by
  rw [read_iff, Service.currentSettings]
  cases hs : s.settings with
  | some kept => simp [hs]
  | none => cases Settings.ofEnvironment s.environment <;> simp [hs]

theorem settings_step {step : Service.Step} (hstep : step ≠ .forgetSettings) (service : Service)
    (settings : Settings) : (service.step step).2.settings = some settings ↔
      service.settings = some settings ∨ service.settings = none ∧ Consults service step ∧
        Settings.ofEnvironment service.environment = .ok settings := by
  have heffect := effect_step hstep service
  by_cases hc : Consults service step
  · rw [heffect.found hc, settings_currentSettings, read_iff]
    simp [hc]
  · rw [heffect.kept hc]
    simp [hc]

end Effects

end DiceArithmetic.Proofs.Effects
