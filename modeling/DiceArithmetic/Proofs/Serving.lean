import Mathlib.Data.List.Forall2
import DiceArithmetic.Proofs.SharedDice

namespace DiceArithmetic.Proofs.Serving

open DiceArithmetic.Proofs.Trials DiceArithmetic.Proofs.Computing
open DiceArithmetic.Proofs.SharedDice

section Looking

variable {settings : Settings} {service : Service}

theorem currentSettings_of_kept (h : service.settings = some settings) :
    Service.currentSettings service = ⟨.ok settings, service, []⟩ := by
  rw [Service.currentSettings, h]

theorem currentSettings_cases (service : Service) :
    (∃ failure, Service.currentSettings service = ⟨.error failure, service, []⟩) ∨
    ∃ settings, Service.currentSettings service =
      ⟨.ok settings, { service with settings := some settings }, []⟩ := by
  cases h : (Service.currentSettings service).result with
  | error failure => exact .inl ⟨failure, currentSettings_eq_error h⟩
  | ok settings => exact .inr ⟨settings, currentSettings_eq_ok h⟩

def makeDice (settings : Settings) : Trial Service SystemDice := fun service =>
  match settings.randomSeed with
  | some seed =>
    ⟨.ok (.seeded seed), { service with dice := some (.seeded seed) }, [.seeded seed]⟩
  | none =>
    ⟨.ok (.unseeded service.entropy),
      { service with
        dice := some (.unseeded service.entropy), entropy := service.entropy + 1 }, []⟩

theorem makeDice_eq (settings : Settings) (service : Service) :
    ∃ (dice : SystemDice) (entropy : Nat) (events : List Event), makeDice settings service =
      ⟨.ok dice, { service with dice := some dice, entropy }, events⟩ ∧
      dice.seed = settings.randomSeed := by
  unfold makeDice
  cases settings.randomSeed with
  | some seed => exact ⟨.seeded seed, service.entropy, [.seeded seed], rfl, rfl⟩
  | none => exact ⟨.unseeded service.entropy, service.entropy + 1, [], rfl, rfl⟩

theorem sharedDice_of_made {dice : SystemDice} (h : service.dice = some dice) :
    Service.sharedDice service = ⟨.ok dice, service, []⟩ := by
  rw [Service.sharedDice, h]

theorem sharedDice_of_unmade (h : service.dice = none) :
    Service.sharedDice service = (Service.currentSettings >>= makeDice) service := by
  rw [Service.sharedDice, h]
  rfl

theorem sharedDice_of_kept (h : service.settings = some settings) (hd : service.dice = none) :
    Service.sharedDice service = makeDice settings service := by
  rw [sharedDice_of_unmade hd, Trial.bind_of_ok (currentSettings_of_kept h)]
  rfl

theorem sharedDice_cases (service : Service) :
    (∃ dice, service.dice = some dice ∧ Service.sharedDice service = ⟨.ok dice, service, []⟩) ∨
    service.dice = none ∧
      ((∃ failure, Service.currentSettings service = ⟨.error failure, service, []⟩ ∧
        Service.sharedDice service = ⟨.error failure, service, []⟩) ∨
      ∃ settings, (Service.currentSettings service).result = .ok settings ∧
        Service.sharedDice service =
          makeDice settings { service with settings := some settings }) := by
  cases hd : service.dice with
  | some dice => exact .inl ⟨dice, rfl, sharedDice_of_made hd⟩
  | none =>
    refine .inr ⟨rfl, ?_⟩
    rw [sharedDice_of_unmade hd]
    obtain ⟨failure, h⟩ | ⟨settings, h⟩ := currentSettings_cases service
    · exact .inl ⟨failure, h, Trial.bind_of_error h makeDice⟩
    · exact .inr ⟨settings, by rw [h], Trial.bind_of_ok h makeDice⟩

theorem logging_currentSettings (service : Service) :
    (Service.currentSettings service).source.logging = service.logging := by
  obtain ⟨failure, h⟩ | ⟨settings, h⟩ := currentSettings_cases service
  all_goals rw [h]

theorem logging_sharedDice (service : Service) :
    (Service.sharedDice service).source.logging = service.logging := by
  obtain ⟨dice, -, h⟩ | ⟨-, ⟨failure, -, h⟩ | ⟨settings, -, h⟩⟩ := sharedDice_cases service
  · rw [h]
  · rw [h]
  · obtain ⟨dice, entropy, events, hmake, -⟩ :=
      makeDice_eq settings { service with settings := some settings }
    rw [h, hmake]

theorem source_calculate_of_rejected {text : String} {limits : Option Limits}
    (h : Rejected text limits) (service : Service) :
    (Service.calculate text limits service).source = service := by
  rw [Service.calculate, source_answer]
  exact source_of_rejected h _ service

end Looking

/-- A step that neither forgets the settings nor reads them anew, and does not set up the log. -/
def IsRoutine : Service.Step → Prop
  | .forgetSettings | .readSettings | .configureLogging _ | .start => False
  | _ => True

section Pairs

variable {shown : Event → Bool} {R : Service → Service → Prop} {α : Type}

/-- Services that are related find settings and dice alike, and they stay related when their dice
are replaced by the same ones and when their environments are changed in the same way. -/
structure Compatible (shown : Event → Bool) (R : Service → Service → Prop) : Prop where
  settings : Agree shown R Service.currentSettings Service.currentSettings
  dice : Agree shown R Service.sharedDice Service.sharedDice
  replace : ∀ {s t} (dice : Option SystemDice), R s t → R { s with dice } { t with dice }
  environment : ∀ {s t} (change : Environment → Environment), R s t →
    R { s with environment := change s.environment } { t with environment := change t.environment }

namespace Compatible

theorem withDice (h : Compatible shown R) (trial : Trial SystemDice α) :
    Agree shown R (Service.withDice trial) (Service.withDice trial) :=
  h.dice.bind fun _ _ _ hst => ⟨rfl, rfl, h.replace _ hst⟩

theorem calculate (h : Compatible shown R) (text : String) (limits : Option Limits) :
    Agree shown R (Service.calculate text limits) (Service.calculate text limits) :=
  agree_answer text (agree_computeBy (fun e => h.withDice e.evaluate) text limits)

theorem audit (h : Compatible shown R) (text : String) (limits : Option Limits) :
    Agree shown R (Service.audit text limits) (Service.audit text limits) :=
  h.dice.bind fun _ => (agree_computeBy (fun e => h.withDice e.evaluate) text limits).map _

/-- A step that is routine is taken alike by services that are related, and they stay related. -/
theorem perform (h : Compatible shown R) {step : Service.Step} (hstep : IsRoutine step) :
    Agree shown R (Service.perform step) (Service.perform step) := by
  cases step with
  | setVariable name value =>
    exact fun _ _ hst => ⟨rfl, rfl, h.environment (·.set name value) hst⟩
  | unsetVariable name => exact fun _ _ hst => ⟨rfl, rfl, h.environment (·.unset name) hst⟩
  | forgetDice => exact fun _ _ hst => ⟨rfl, rfl, h.replace none hst⟩
  | currentSettings => exact h.settings.map _
  | inspectDice => exact h.dice.map _
  | roll sides => exact (h.withDice (Trial.draw sides)).map _
  | calculateTool text => exact (h.settings.bind fun _ => h.calculate text _).map _
  | auditTool text => exact ((h.settings.bind fun _ => h.audit text _).mapFailure _).map _
  | calculate text limits => exact (h.calculate text limits).map _
  | audit text limits => exact (h.audit text limits).map _
  | forgetSettings | readSettings | configureLogging level | start => exact hstep.elim

theorem logged (h : Compatible shown R) (Q : Logging → Logging → Prop) :
    Compatible shown fun s t => R s t ∧ Q s.logging t.logging where
  settings s t hst := by
    obtain ⟨hresult, hevents, hsource⟩ := h.settings s t hst.1
    refine ⟨hresult, hevents, hsource, ?_⟩
    rw [logging_currentSettings, logging_currentSettings]
    exact hst.2
  dice s t hst := by
    obtain ⟨hresult, hevents, hsource⟩ := h.dice s t hst.1
    refine ⟨hresult, hevents, hsource, ?_⟩
    rw [logging_sharedDice, logging_sharedDice]
    exact hst.2
  replace dice hst := ⟨h.replace dice hst.1, hst.2⟩
  environment change hst := ⟨h.environment change hst.1, hst.2⟩

theorem of_eq : Compatible shown Eq where
  settings := by
    rintro s _ rfl
    exact ⟨rfl, rfl, rfl⟩
  dice := by
    rintro s _ rfl
    exact ⟨rfl, rfl, rfl⟩
  replace := by
    rintro s _ dice rfl
    rfl
  environment := by
    rintro s _ change rfl
    rfl

end Compatible

theorem logging_step {step : Service.Step} (hstep : IsRoutine step) (service : Service) :
    (service.step step).2.logging = service.logging := by
  have hpair : Compatible (fun _ => true) fun s t => s = t ∧ s.logging = service.logging :=
    Compatible.of_eq.logged fun logging _ => logging = service.logging
  exact (hpair.perform hstep service service ⟨rfl, rfl⟩).2.2.2

end Pairs

section Runs

def after (service : Service) (steps : List Service.Step) : Service :=
  steps.foldl (fun service step => (service.step step).2) service

theorem run_append (service : Service) (first second : List Service.Step) :
    service.run (first ++ second) = service.run first ++ (after service first).run second := by
  induction first generalizing service with
  | nil => rfl
  | cons step first ih => exact congrArg _ (ih (service.step step).2)

def chosen {α : Type} : List Bool → List α → List α
  | true :: choice, x :: xs => x :: chosen choice xs
  | false :: choice, _ :: xs => chosen choice xs
  | _, _ => []

theorem chosen_map {α : Type} (choose : α → Bool) (xs : List α) :
    chosen (xs.map choose) xs = xs.filter choose := by
  induction xs with
  | nil => rfl
  | cons x xs ih =>
    rw [List.map_cons, List.filter_cons]
    cases choose x with
    | false => exact ih
    | true => exact congrArg _ ih

variable {α : Type} {R : Service → Service → Prop} {seen : Service.Answer → α}

def Parallel (R : Service → Service → Prop) (seen : Service.Answer → α) (step : Service.Step) :
    Prop :=
  ∀ s t, R s t → seen (s.step step).1 = seen (t.step step).1 ∧ R (s.step step).2 (t.step step).2

/-- A service that takes this step stays related by `R` to one that does not. -/
def Silent (R : Service → Service → Prop) (step : Service.Step) : Prop :=
  ∀ s t, R s t → R (s.step step).2 t

/-- Silent steps can be left out of a run. The answers to the others show the same as before. -/
theorem run_chosen {steps : List Service.Step} {choice : List Bool}
    (h : List.Forall₂ (fun step keep => if keep then Parallel R seen step else Silent R step)
      steps choice) {s t : Service} (hst : R s t) :
    (chosen choice (s.run steps)).map seen = (t.run (chosen choice steps)).map seen := by
  induction h generalizing s t with
  | nil => rfl
  | @cons step keep steps choice hstep _ ih =>
    cases keep with
    | false => exact ih (hstep s t hst)
    | true =>
      obtain ⟨hseen, hafter⟩ := hstep s t hst
      have hrest := ih hafter
      exact congrArg₂ List.cons hseen hrest

variable {step : Service.Step}

theorem parallel_of_related (hrelated : Related R (Service.perform step) (Service.perform step))
    (hlogging : ∀ s t, R s t → s.logging = t.logging) : Parallel R id step := by
  intro s t hst
  obtain ⟨hresult, hevents, hsource⟩ := hrelated s t hst
  refine ⟨?_, hsource⟩
  rw [id, id, Service.step, Service.step, hresult, hevents, hlogging _ _ hsource]

end Runs

end DiceArithmetic.Proofs.Serving
