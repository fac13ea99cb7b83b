import DiceArithmetic.Proofs.Serving

namespace DiceArithmetic.Proofs.Reseeding

open DiceArithmetic.Proofs.Trials DiceArithmetic.Proofs.Serving

section Twins

variable {settings : Settings} {s t : Service}

/-- Both services have these settings and dice in the same state. If new dice are made without a
seed, both make them from the same entropy. -/
structure Twins (settings : Settings) (s t : Service) : Prop where
  left : s.settings = some settings
  right : t.settings = some settings
  dice : s.dice = t.dice
  entropy : settings.randomSeed = none → s.entropy = t.entropy

theorem agree_makeDice :
    Agree (fun _ => true) (Twins settings) (makeDice settings) (makeDice settings) := by
  intro s t h
  unfold makeDice
  cases hseed : settings.randomSeed with
  | some seed => exact ⟨rfl, rfl, h.left, h.right, rfl, by simp [hseed]⟩
  | none =>
    have hentropy := h.entropy hseed
    have hdice := congrArg SystemDice.unseeded hentropy
    exact ⟨congrArg Except.ok hdice, rfl, h.left, h.right, congrArg some hdice,
      fun _ => congrArg (· + 1) hentropy⟩

theorem compatible_twins : Compatible (fun _ => true) (Twins settings) where
  settings s t h := by
    rw [currentSettings_of_kept h.left, currentSettings_of_kept h.right]
    exact ⟨rfl, rfl, h⟩
  dice s t h := by
    cases hd : s.dice with
    | some dice =>
      rw [sharedDice_of_made hd, sharedDice_of_made (h.dice ▸ hd)]
      exact ⟨rfl, rfl, h⟩
    | none =>
      rw [sharedDice_of_kept h.left hd, sharedDice_of_kept h.right (h.dice ▸ hd)]
      exact agree_makeDice s t h
  replace _ h := ⟨h.left, h.right, rfl, h.entropy⟩
  environment _ h := ⟨h.left, h.right, h.dice, h.entropy⟩

end Twins

section Outcomes

def outcomes (service : Service) :
    List Service.Step → List (Except Failure Service.Reply × List Event)
  | [] => []
  | step :: steps =>
    let outcome := Service.perform step service
    (outcome.result, outcome.events) :: outcomes outcome.source steps

def answered (logging : Logging) (outcome : Except Failure Service.Reply × List Event) :
    Service.Answer :=
  ⟨outcome.1, logging.lines outcome.2⟩

variable {steps : List Service.Step} {R : Service → Service → Prop} {s t : Service}

theorem logging_after (h : ∀ step ∈ steps, IsRoutine step) (service : Service) :
    (after service steps).logging = service.logging := by
  induction steps generalizing service with
  | nil => rfl
  | cons step steps ih =>
    have hrest := ih (fun other ho => h other (List.mem_cons_of_mem step ho)) (service.step step).2
    exact hrest.trans (logging_step (h step List.mem_cons_self) service)

theorem run_eq_answered (h : ∀ step ∈ steps, IsRoutine step) (service : Service) :
    service.run steps = (outcomes service steps).map (answered service.logging) := by
  induction steps generalizing service with
  | nil => rfl
  | cons step steps ih =>
    have hlogging := logging_step (h step List.mem_cons_self) service
    have hrest := ih (fun other ho => h other (List.mem_cons_of_mem step ho)) (service.step step).2
    rw [hlogging] at hrest
    have hanswer : (service.step step).1 = answered service.logging
        ((Service.perform step service).result, (Service.perform step service).events) := by
      rw [answered, ← hlogging]
      rfl
    exact congrArg₂ List.cons hanswer hrest

theorem outcomes_alike (hR : Compatible (fun _ => true) R) (h : ∀ step ∈ steps, IsRoutine step)
    (hst : R s t) : outcomes s steps = outcomes t steps ∧ R (after s steps) (after t steps) := by
  induction steps generalizing s t with
  | nil => exact ⟨rfl, hst⟩
  | cons step steps ih =>
    have hstep := (hR.perform (h step List.mem_cons_self)).related
    obtain ⟨hresult, hevents, hafter⟩ := hstep s t hst
    obtain ⟨hrest, hend⟩ := ih (fun other ho => h other (List.mem_cons_of_mem step ho)) hafter
    exact ⟨congrArg₂ List.cons (Prod.ext hresult hevents) hrest, hend⟩

end Outcomes

section Reseeding

variable {settings : Settings} {seed : Int} {steps : List Service.Step} {s t : Service}

theorem outcomes_reseeded (hseed : settings.randomSeed = some seed)
    (hsteps : ∀ step ∈ steps, IsRoutine step) (hs : s.settings = some settings)
    (ht : t.settings = some settings) :
    outcomes s (.forgetDice :: steps) = outcomes t (.forgetDice :: steps) ∧
      Twins settings (after s (.forgetDice :: steps)) (after t (.forgetDice :: steps)) := by
  have hfresh : Twins settings { s with dice := none } { t with dice := none } :=
    ⟨hs, ht, rfl, by simp [hseed]⟩
  obtain ⟨hrest, hafter⟩ := outcomes_alike compatible_twins hsteps hfresh
  exact ⟨congrArg _ hrest, hafter⟩

end Reseeding

/-- A service with a seed in its settings replays whatever follows the loss of its dice. The
replies, the events and the dice left in the end are the same in every service with these settings,
and the answers are the same when the steps are taken once more after the dice are lost again. -/
theorem run_reseeded (settings : Settings) (seed : Int) (hseed : settings.randomSeed = some seed)
    (steps : List Service.Step) (hsteps : ∀ step ∈ steps, IsRoutine step) :
    (∃ (replayed : List (Except Failure Service.Reply × List Event)) (dice : Option SystemDice),
      ∀ service : Service, service.settings = some settings →
        service.run (.forgetDice :: steps) = replayed.map (answered service.logging) ∧
        (after service (.forgetDice :: steps)).dice = dice) ∧
    ∀ service : Service, service.settings = some settings →
      service.run (.forgetDice :: steps ++ .forgetDice :: steps) =
        service.run (.forgetDice :: steps) ++ service.run (.forgetDice :: steps) := by
  have hroutine : ∀ step ∈ Service.Step.forgetDice :: steps, IsRoutine step :=
    List.forall_mem_cons.mpr ⟨trivial, hsteps⟩
  constructor
  · -- Any service with these settings can stand for all of them.
    let model : Service := { settings }
    refine ⟨outcomes model (.forgetDice :: steps), (after model (.forgetDice :: steps)).dice, ?_⟩
    intro service hkept
    obtain ⟨houtcomes, htwins⟩ := outcomes_reseeded (t := model) hseed hsteps hkept rfl
    exact ⟨by rw [run_eq_answered hroutine, houtcomes], htwins.dice⟩
  · intro service hkept
    obtain ⟨-, htwins⟩ := outcomes_reseeded hseed hsteps hkept hkept
    obtain ⟨hagain, -⟩ := outcomes_reseeded hseed hsteps htwins.left hkept
    rw [run_append, run_eq_answered hroutine (after service _), hagain, logging_after hroutine,
      ← run_eq_answered hroutine]

theorem run_reseeded_with_failing_throw :
    let settings : Settings := { randomSeed := some 7 }
    let fresh : Service := { settings, logging := ⟨20, 1, 30⟩ }
    let worn : Service := { fresh with dice := some (.seeded 11), entropy := 3 }
    let steps : List Service.Step := [.roll 0, .calculate "2d6/(1d1-1)" none,
      .setVariable "DICE_CALC_RANDOM_SEED" "8", .auditTool "3d6"]
    settings.randomSeed = some 7 ∧ (∀ step ∈ steps, IsRoutine step) ∧
      worn.run (.forgetDice :: steps) = fresh.run (.forgetDice :: steps) ∧
      worn.run (.forgetDice :: steps ++ .forgetDice :: steps) =
        worn.run (.forgetDice :: steps) ++ worn.run (.forgetDice :: steps) := by
  intro settings fresh worn steps
  have hroutine : ∀ step ∈ steps, IsRoutine step := by simp [steps, IsRoutine]
  obtain ⟨⟨replayed, dice, hreplayed⟩, htwice⟩ := run_reseeded settings 7 rfl steps hroutine
  have hsame := (hreplayed worn rfl).1.trans (hreplayed fresh rfl).1.symm
  exact ⟨rfl, hroutine, hsame, htwice worn rfl⟩

end DiceArithmetic.Proofs.Reseeding
