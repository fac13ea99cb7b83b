import DiceArithmetic.Proofs.Serving
import DiceArithmetic.Session
import DiceArithmetic.Source.FixedRolls

namespace DiceArithmetic.Proofs.Undisturbed

open DiceArithmetic.Calculator
open DiceArithmetic.Proofs.Trials DiceArithmetic.Proofs.Computing
open DiceArithmetic.Proofs.SharedDice DiceArithmetic.Proofs.Serving

section Sharing

variable {settings : Settings} {seed : Int} {s t : Service}

def RejectedStep (settings : Settings) : Service.Step → Prop
  | .calculateTool text | .auditTool text => Rejected text settings.limits
  | .calculate text limits | .audit text limits => Rejected text limits
  | _ => False

structure SameDice (settings : Settings) (s t : Service) : Prop where
  left : s.settings = some settings
  right : t.settings = some settings
  dice : diceInForce settings s = diceInForce settings t

theorem sharedDice_of_seeded (h : s.settings = some settings)
    (hseed : settings.randomSeed = some seed) :
    ∃ events, (∀ event ∈ events, event = .seeded seed) ∧ Service.sharedDice s =
      ⟨.ok (diceInForce settings s), { s with dice := some (diceInForce settings s) }, events⟩ := by
  cases hd : s.dice with
  | some dice =>
    refine ⟨[], nofun, ?_⟩
    rw [sharedDice_of_made hd, diceInForce, hd, Option.getD_some, ← hd]
  | none =>
    refine ⟨[.seeded seed], fun _ => List.mem_singleton.mp, ?_⟩
    rw [sharedDice_of_kept h hd, makeDice, diceInForce, hd, hseed]
    rfl

def unannounced (seed : Int) (event : Event) : Bool :=
  event ≠ .seeded seed

theorem compatible_sameDice (hseed : settings.randomSeed = some seed) :
    Compatible (unannounced seed) (SameDice settings) where
  settings s t h := by
    rw [currentSettings_of_kept h.left, currentSettings_of_kept h.right]
    exact ⟨rfl, rfl, h⟩
  dice s t h := by
    obtain ⟨first, hfirst, hs⟩ := sharedDice_of_seeded h.left hseed
    obtain ⟨second, hsecond, ht⟩ := sharedDice_of_seeded h.right hseed
    -- Either service may be the one that makes its dice now, and reports nothing else.
    have hnone : ∀ {events : List Event}, (∀ event ∈ events, event = .seeded seed) →
        events.filter (unannounced seed) = [] := by
      intro events hevents
      refine List.filter_eq_nil_iff.mpr fun event hevent => ?_
      simp [unannounced, hevents event hevent]
    rw [hs, ht]
    refine ⟨congrArg Except.ok h.dice, ?_, h.left, h.right, h.dice⟩
    rw [hnone hfirst, hnone hsecond]
  replace dice h := by
    refine ⟨h.left, h.right, ?_⟩
    simp only [diceInForce, hseed]
  environment _ h := ⟨h.left, h.right, h.dice⟩

theorem source_audit_of_rejected {text : String} {limits : Option Limits}
    (h : Rejected text limits) (hkept : s.settings = some settings)
    (hseed : settings.randomSeed = some seed) : (Service.audit text limits s).source =
      { s with dice := some (diceInForce settings s) } := by
  obtain ⟨events, -, hdice⟩ := sharedDice_of_seeded hkept hseed
  rw [Service.audit, Trial.bind_of_ok hdice]
  exact (source_map _ _ _).trans (source_of_rejected h _ _)

theorem service_of_auditTool {text : String} (h : Rejected text settings.limits)
    (hkept : s.settings = some settings) (hseed : settings.randomSeed = some seed) :
    (s.step (.auditTool text)).2 = { s with dice := some (diceInForce settings s) } := by
  refine (source_map _ _ s).trans ?_
  rw [Service.auditTool, Trial.mapFailure, Trial.bind_of_ok (currentSettings_of_kept hkept)]
  exact source_audit_of_rejected h hkept hseed

theorem service_of_rejectedStep {step : Service.Step} (hstep : RejectedStep settings step)
    (h : s.settings = some settings) (hseed : settings.randomSeed = some seed) :
    (s.step step).2 = s ∨ (s.step step).2 = { s with dice := some (diceInForce settings s) } := by
  cases step with
  | calculateTool text =>
    refine .inl ((source_map _ _ s).trans ?_)
    rw [Service.calculateTool, Trial.bind_of_ok (currentSettings_of_kept h)]
    exact source_calculate_of_rejected hstep s
  | auditTool text => exact .inr (service_of_auditTool hstep h hseed)
  | calculate text limits =>
    exact .inl ((source_map _ _ s).trans (source_calculate_of_rejected hstep s))
  | audit text limits =>
    exact .inr ((source_map _ _ s).trans (source_audit_of_rejected hstep h hseed))
  | _ => exact hstep.elim

theorem silent_of_rejectedStep {step : Service.Step} (hstep : RejectedStep settings step)
    (hseed : settings.randomSeed = some seed) (Q : Logging → Logging → Prop) :
    Silent (fun s t => SameDice settings s t ∧ Q s.logging t.logging) step := by
  intro s t h
  obtain hs | hs := service_of_rejectedStep hstep h.1.left hseed
  · rwa [hs]
  · rw [hs]
    exact ⟨⟨h.1.left, h.1.right, h.1.dice⟩, h.2⟩

end Sharing

section Announcing

variable {settings : Settings} {seed : Int}

/-- The lines of the record that announces dice with this seed. -/
def announcement (seed : Int) : List String :=
  (Event.seeded seed).record.splitOn "\n"

def muted (seed : Int) (answer : Service.Answer) : Service.Answer :=
  ⟨answer.result, answer.lines.filter (· ∉ announcement seed)⟩

theorem lines_cons (logging : Logging) (event : Event) (events : List Event) :
    logging.lines (event :: events) = logging.lines [event] ++ logging.lines events := by
  simp [Logging.lines]

theorem mem_lines_seeded {logging : Logging} {line : String}
    (h : line ∈ logging.lines [.seeded seed]) : line ∈ announcement seed := by
  obtain ⟨record, hrecord, hline⟩ := List.mem_flatMap.mp h
  rw [List.flatMap_singleton, Logging.records] at hrecord
  split at hrecord
  · cases hrecord
  split at hrecord
  · cases hrecord
  · rw [List.eq_of_mem_replicate hrecord] at hline
    exact hline

theorem filter_lines (logging : Logging) (events : List Event) :
    (logging.lines events).filter (· ∉ announcement seed) =
      (logging.lines (events.filter (unannounced seed))).filter (· ∉ announcement seed) := by
  induction events with
  | nil => rfl
  | cons event events ih =>
    rw [lines_cons, List.filter_append, ih]
    by_cases he : event = .seeded seed
    · subst he
      have hhidden : ¬ unannounced seed (.seeded seed) = true := by simp [unannounced]
      have hnone : (logging.lines [.seeded seed]).filter (· ∉ announcement seed) = [] :=
        List.filter_eq_nil_iff.mpr fun line hline => by simp [mem_lines_seeded hline]
      rw [hnone, List.filter_cons_of_neg hhidden, List.nil_append]
    · have hshown : unannounced seed event = true := by simp [unannounced, he]
      rw [List.filter_cons_of_pos hshown, lines_cons logging event (events.filter _),
        List.filter_append]

theorem lines_unannounced {logging : Logging} (h : logging.lines [.seeded seed] = [])
    (events : List Event) :
    logging.lines (events.filter (unannounced seed)) = logging.lines events := by
  induction events with
  | nil => rfl
  | cons event events ih =>
    by_cases he : event = .seeded seed
    · subst he
      have hhidden : ¬ unannounced seed (.seeded seed) = true := by simp [unannounced]
      rw [List.filter_cons_of_neg hhidden, ih, lines_cons, h, List.nil_append]
    · have hshown : unannounced seed event = true := by simp [unannounced, he]
      rw [List.filter_cons_of_pos hshown, lines_cons, ih, ← lines_cons]

variable {step : Service.Step}

theorem parallel_muted (hseed : settings.randomSeed = some seed) (hstep : IsRoutine step) :
    Parallel (fun s t => SameDice settings s t ∧ s.logging = t.logging) (muted seed) step := by
  intro s t h
  have hagree := ((compatible_sameDice hseed).logged (· = ·)).perform hstep
  obtain ⟨hresult, hevents, hsource⟩ := hagree s t h
  refine ⟨?_, hsource⟩
  rw [muted, muted, Service.step, Service.step, hresult, hsource.2, filter_lines, hevents,
    ← filter_lines]

theorem parallel_unannounced {logging : Logging} (hseed : settings.randomSeed = some seed)
    (hlogging : logging.lines [.seeded seed] = []) (hstep : IsRoutine step) :
    Parallel (fun s t => SameDice settings s t ∧ s.logging = logging ∧ t.logging = logging) id
      step := by
  intro s t h
  have hagree := ((compatible_sameDice hseed).logged
    fun first second => first = logging ∧ second = logging).perform hstep
  obtain ⟨hresult, hevents, hsource⟩ := hagree s t h
  refine ⟨?_, hsource⟩
  rw [id, id, Service.step, Service.step, hresult, hsource.2.1, hsource.2.2,
    ← lines_unannounced hlogging, hevents, lines_unannounced hlogging]

end Announcing

section Sessions

variable {σ : Type} [RandomSource σ]

def RejectedRequest : Request → Prop
  | .parse text => Rejected text none
  | .compute text limits | .calculate text limits | .audit text limits => Rejected text limits

theorem source_of_rejectedRequest {request : Request} (h : RejectedRequest request) (s : σ) :
    (Session.serve request s).source = s := by
  cases request with
  | parse text => exact source_map _ _ s
  | compute text limits => exact (source_map _ _ s).trans (source_of_rejected h _ s)
  | calculate text limits =>
    refine (source_map _ _ s).trans ?_
    rw [calculate, source_answer]
    exact source_of_rejected h _ s
  | audit text limits =>
    exact (source_map _ _ s).trans ((source_map _ _ s).trans (source_of_rejected h _ s))

theorem session_chosen {requests : List Request} {choice : List Bool}
    (h : List.Forall₂ (fun request keep => keep = true ∨ RejectedRequest request) requests choice)
    (s : σ) :
    chosen choice (Session.run s requests) = Session.run s (chosen choice requests) := by
  induction h generalizing s with
  | nil => rfl
  | @cons request keep requests choice hrequest _ ih =>
    cases keep with
    | true => exact congrArg _ (ih _)
    | false =>
      change chosen choice (Session.run (Session.serve request s).source requests) = _
      rw [source_of_rejectedRequest (hrequest.resolve_left Bool.false_ne_true) s]
      exact ih s

end Sessions

section Runs

variable {α : Type} {settings : Settings} {seed : Int} {steps : List Service.Step}
  {choice : List Bool} {seen : Service.Answer → α} {Q : Logging → Logging → Prop}

theorem run_chosen_of_rejected (hseed : settings.randomSeed = some seed)
    (hsteps : ∀ step ∈ steps, IsRoutine step)
    (hchoice :
      List.Forall₂ (fun step keep => keep = true ∨ RejectedStep settings step) steps choice)
    (hparallel : ∀ step, IsRoutine step →
      Parallel (fun s t => SameDice settings s t ∧ Q s.logging t.logging) seen step)
    {service : Service} (h : service.settings = some settings)
    (hQ : Q service.logging service.logging) :
    (chosen choice (service.run steps)).map seen =
      (service.run (chosen choice steps)).map seen := by
  have hsame : SameDice settings service service := ⟨h, h, rfl⟩
  have hboth := (List.forall₂_and_left steps choice).mpr ⟨hsteps, hchoice⟩
  refine run_chosen (R := fun s t => SameDice settings s t ∧ Q s.logging t.logging) (hboth.imp ?_)
    ⟨hsame, hQ⟩
  rintro step keep ⟨hroutine, hkeep⟩
  cases keep with
  | true => exact hparallel step hroutine
  | false => exact silent_of_rejectedStep (hkeep.resolve_left Bool.false_ne_true) hseed Q

end Runs

/-- Requests whose texts are rejected can be left out of a run. A service whose settings are kept
and hold a seed replies to all other steps as before, and writes the same lines but for those that
announce its dice, which it may then make at another step. A session gives the same outcomes. -/
theorem run_without_rejected :
    (∀ (service : Service) (settings : Settings) (seed : Int) (steps : List Service.Step)
      (choice : List Bool), service.settings = some settings →
      settings.randomSeed = some seed → (∀ step ∈ steps, IsRoutine step) →
      List.Forall₂ (fun step keep => keep = true ∨ RejectedStep settings step) steps choice →
      (chosen choice (service.run steps)).map (muted seed) =
        (service.run (chosen choice steps)).map (muted seed) ∧
      (service.logging.lines [.seeded seed] = [] →
        chosen choice (service.run steps) = service.run (chosen choice steps))) ∧
    ∀ (σ : Type) [RandomSource σ] (s : σ) (requests : List Request) (choice : List Bool),
      List.Forall₂ (fun request keep => keep = true ∨ RejectedRequest request) requests choice →
      chosen choice (Session.run s requests) = Session.run s (chosen choice requests) := by
  refine ⟨fun service settings seed steps choice hkept hseed hsteps hchoice => ?_,
    fun σ _ s requests choice h => session_chosen h s⟩
  constructor
  · exact run_chosen_of_rejected hseed hsteps hchoice (fun _ => parallel_muted hseed) hkept rfl
  · intro hlogging
    have hrun := run_chosen_of_rejected
      (Q := fun first second => first = service.logging ∧ second = service.logging) hseed hsteps
      hchoice (fun _ => parallel_unannounced hseed hlogging) hkept ⟨rfl, rfl⟩
    rwa [List.map_id, List.map_id] at hrun

theorem run_without_rejected_of_both_kinds :
    let settings : Settings := { randomSeed := some 7 }
    let service : Service := { settings }
    let limits : Option Limits := some { maxDepth := some 1 }
    let steps : List Service.Step :=
      [.auditTool "1d", .inspectDice, .forgetDice, .calculate "1+3d6" limits, .roll 6]
    let rolls := FixedRolls.ofList [4]
    let requests : List Request := [.compute "1+3d6" limits, .parse "1d", .calculate "1d6" none]
    RejectedStep settings (.auditTool "1d") ∧ RejectedStep settings (.calculate "1+3d6" limits) ∧
      service.logging.lines [.seeded 7] = [] ∧
      chosen [false, true, true, false, true] (service.run steps) =
        service.run [.inspectDice, .forgetDice, .roll 6] ∧
      RejectedRequest (.compute "1+3d6" limits) ∧ RejectedRequest (.parse "1d") ∧
      chosen [false, false, true] (Session.run rolls requests) =
        Session.run rolls [.calculate "1d6" none] := by
  intro settings service limits steps rolls requests
  have hunread (given : Option Limits) : Rejected "1d" given :=
    .unread (show Expr.parse "1d" = .error (.unparsable "1d" (some 2)) by rfl)
  have hexceeds : Rejected "1+3d6" limits := by
    have hparse : Expr.parse "1+3d6" =
        .ok (.binary .add (.literal ['1']) (.dice ⟨['3'], ['6']⟩)) := by rfl
    exact .refused hparse rfl rfl
  have hroutine : ∀ step ∈ steps, IsRoutine step := by simp [steps, IsRoutine]
  have hsteps : List.Forall₂ (fun step keep => keep = true ∨ RejectedStep settings step) steps
      [false, true, true, false, true] :=
    .cons (.inr (hunread _)) (.cons (.inl rfl) (.cons (.inl rfl) (.cons (.inr hexceeds)
      (.cons (.inl rfl) .nil))))
  have hrequests : List.Forall₂ (fun request keep => keep = true ∨ RejectedRequest request) requests
      [false, false, true] :=
    .cons (.inr hexceeds) (.cons (.inr (hunread _)) (.cons (.inl rfl) .nil))
  have hrun := run_without_rejected.1 service settings 7 steps _ rfl rfl hroutine hsteps
  have hsession := run_without_rejected.2 FixedRolls rolls requests _ hrequests
  exact ⟨hunread _, hexceeds, rfl, hrun.2 rfl, hexceeds, hunread _, hsession⟩

section Moving

theorem splitOnAux_ne_nil (s sep : String) (b i j : String.Pos.Raw) (found : List String) :
    s.splitOnAux sep b i j found ≠ [] := by
  fun_induction String.splitOnAux with
  | case1 b i _ found => exact mt List.reverse_eq_nil_iff.mp (List.cons_ne_nil _ found)
  | case2 | case3 | case4 => assumption

theorem announcement_ne_nil (seed : Int) : announcement seed ≠ [] :=
  splitOnAux_ne_nil _ _ _ _ _ _

theorem toLower_eq (s : String) : s.toLower = String.ofList (s.toList.map Char.toLower) := by
  change String.map Char.toLower s = _
  rw [← String.toList_inj, String.toList_map, String.toList_ofList]

theorem ofEnvironment_seed :
    Settings.ofEnvironment [("DICE_CALC_RANDOM_SEED", "7")] = .ok { randomSeed := some 7 } := by
  have hname : "DICE_CALC_RANDOM_SEED".toLower = "dice_calc_random_seed" := by
    rw [toLower_eq]
    decide
  have hfind (name : String) (h : "dice_calc_random_seed" ≠ name) :
      Environment.find? [("DICE_CALC_RANDOM_SEED", "7")] name = none := by
    simp [Environment.find?, hname, h]
  have hnone (name : String) (h : "dice_calc_random_seed" ≠ s!"dice_calc_{name}") :
      Settings.integer? [("DICE_CALC_RANDOM_SEED", "7")] name = .ok none := by
    rw [Settings.integer?, hfind _ h]
  have hseed : Settings.integer? [("DICE_CALC_RANDOM_SEED", "7")] "random_seed" = .ok (some 7) := by
    rw [Settings.integer?, Environment.find?]
    simp only [List.reverse_singleton, List.find?_singleton, hname]
    rfl
  rw [Settings.ofEnvironment, hseed, hnone _ (by decide), hnone _ (by decide), hnone _ (by decide),
    hfind _ (by decide)]
  rfl

theorem lines_roll {s after : Service} {dice : SystemDice} {events : List Event}
    (h : Service.sharedDice s = ⟨.ok dice, after, events⟩) (sides : Int) :
    (s.step (.roll sides)).1.lines = after.logging.lines events := by
  rw [Service.step, Service.perform, map_apply, Service.withDice, Trial.bind_of_ok h, Trial.within,
    Trial.draw, List.append_nil]

/-- Where the log shows it, the announcement moves: without the audit that is rejected, the roll
makes the dice. -/
theorem announcement_moves :
    let service := after {} [.setVariable "DICE_CALC_RANDOM_SEED" "7", .currentSettings,
      .configureLogging "INFO"]
    let settings : Settings := { randomSeed := some 7 }
    let steps : List Service.Step := [.auditTool "1d", .roll 6]
    service.settings = settings ∧ RejectedStep settings (.auditTool "1d") ∧
      (chosen [false, true] (service.run steps)).map Service.Answer.lines = [[]] ∧
      (service.run (chosen [false, true] steps)).map Service.Answer.lines = [announcement 7] ∧
      announcement 7 ≠ [] := by
  intro service settings steps
  have hread : (Service.step { environment := [("DICE_CALC_RANDOM_SEED", "7")] }
      .currentSettings).2 = { environment := [("DICE_CALC_RANDOM_SEED", "7")], settings } := by
    refine (source_map _ _ _).trans ?_
    rw [Service.currentSettings, ofEnvironment_seed]
  have hlevel : Logging.thresholdNamed "INFO" = .ok 20 := by rfl
  have hservice : service = {
      environment := [("DICE_CALC_RANDOM_SEED", "7")]
      settings
      logging := ⟨20, 1, 30⟩ } := by
    refine (congrArg (fun s => (Service.step s (.configureLogging "INFO")).2) hread).trans ?_
    refine (source_map _ _ _).trans ?_
    rw [Service.configureLogging, hlevel]
    rfl
  have hsettings : service.settings = settings := by rw [hservice]
  have hlogging : service.logging = ⟨20, 1, 30⟩ := by rw [hservice]
  have hdice : service.dice = none := by rw [hservice]
  have hparse : Expr.parse "1d" = .error (.unparsable "1d" (some 2)) := by rfl
  have hrejected : RejectedStep settings (.auditTool "1d") := .unread hparse
  refine ⟨hsettings, hrejected, ?_, ?_, announcement_ne_nil 7⟩
  · have hafter := service_of_auditTool hrejected hsettings rfl
    change [((service.step (.auditTool "1d")).2.step (.roll 6)).1.lines] = [[]]
    rw [hafter, lines_roll (sharedDice_of_made rfl)]
    rfl
  · have hmade : Service.sharedDice service =
        ⟨.ok (.seeded 7), { service with dice := some (.seeded 7) }, [.seeded 7]⟩ := by
      rw [sharedDice_of_kept hsettings hdice]
      rfl
    change [(service.step (.roll 6)).1.lines] = _
    rw [lines_roll hmade, hlogging, Logging.lines, List.flatMap_singleton]
    exact congrArg (fun lines => [lines]) (List.flatMap_singleton _ _)

end Moving

end DiceArithmetic.Proofs.Undisturbed
