import Mathlib.Data.List.Induction
import DiceArithmetic.Proofs.Effects
import DiceArithmetic.Proofs.Reseeding

namespace DiceArithmetic.Proofs.Provenance

open DiceArithmetic.Proofs.Trials DiceArithmetic.Proofs.Serving DiceArithmetic.Proofs.Effects
open DiceArithmetic.Proofs.Reseeding DiceArithmetic.Proofs.SharedDice

section History

variable {start : Service} {history : List Service.Step} {step : Service.Step}
  {settings : Settings} {dice : SystemDice}

/-- Taken behind these steps, the next one looks up the settings and the environment then gives
these. -/
def Reads (start : Service) (before : List Service.Step) (step : Service.Step)
    (settings : Settings) : Prop :=
  Consults (after start before) step ∧
    Settings.ofEnvironment (after start before).environment = .ok settings

/-- The settings were never read, or were forgotten after every time. -/
def Unread (start : Service) (history : List Service.Step) : Prop :=
  ∀ before step rest settings, history = before ++ step :: rest →
    Reads start before step settings → .forgetSettings ∈ rest

/-- These settings were read at the first step that could, and were not forgotten since. -/
inductive FirstRead (start : Service) (history : List Service.Step) (settings : Settings) : Prop
  | intro (before : List Service.Step) (step : Service.Step) (rest : List Service.Step) :
      history = before ++ step :: rest → Unread start before → Reads start before step settings →
      .forgetSettings ∉ rest → FirstRead start history settings

def SettingsFor (start : Service) (history : List Service.Step) (settings : Settings) : Prop :=
  FirstRead start history settings ∨
    Unread start history ∧ Settings.ofEnvironment (after start history).environment = .ok settings

/-- The dice were made at a step with the seed of the settings in force then, and have not been
forgotten since. -/
inductive MadeFrom (start : Service) (history : List Service.Step) (dice : SystemDice) : Prop
  | intro (before : List Service.Step) (step : Service.Step) (rest : List Service.Step)
      (settings : Settings) : history = before ++ step :: rest → (after start before).dice = none →
      (after start (before ++ [step])).dice ≠ none → .forgetDice ∉ rest →
      SettingsFor start before settings → dice.seed = settings.randomSeed →
      MadeFrom start history dice

theorem unread_nil : Unread start [] := by
  intro before step rest settings hsplit
  simp at hsplit

theorem after_concat : after start (history ++ [step]) = ((after start history).step step).2 :=
  List.foldl_concat _ _ _ _

theorem concat_split {α : Type} {xs before rest : List α} {x y : α}
    (h : xs ++ [x] = before ++ y :: rest) :
    (xs = before ∧ x = y ∧ rest = []) ∨
      ∃ rest', xs = before ++ y :: rest' ∧ rest = rest' ++ [x] := by
  obtain rfl | ⟨rest', z, rfl⟩ := List.eq_nil_or_concat' rest
  · obtain ⟨hxs, hx⟩ := List.append_inj' h rfl
    exact .inl ⟨hxs, List.singleton_inj.mp hx, rfl⟩
  · rw [← List.cons_append, ← List.append_assoc] at h
    obtain ⟨hxs, hx⟩ := List.append_inj' h rfl
    exact .inr ⟨rest', hxs, by rw [List.singleton_inj.mp hx]⟩

theorem Reads.ne_forgetSettings (h : Reads start history step settings) :
    step ≠ .forgetSettings := by
  rintro rfl
  exact h.1

theorem unread_concat (hstep : step ≠ .forgetSettings) : Unread start (history ++ [step]) ↔
    Unread start history ∧ ∀ settings, ¬ Reads start history step settings := by
  constructor
  · intro h
    refine ⟨fun before other rest settings hsplit hreads => ?_, fun settings hreads => ?_⟩
    · have hmem := h before other (rest ++ [step]) settings (by rw [hsplit]; simp) hreads
      simpa [hstep.symm] using hmem
    · exact List.not_mem_nil (h history step [] settings rfl hreads)
  · rintro ⟨hunread, hnone⟩ before other rest settings hsplit hreads
    obtain ⟨rfl, rfl, rfl⟩ | ⟨rest', hhistory, rfl⟩ := concat_split hsplit
    · exact (hnone settings hreads).elim
    · exact List.mem_append_left _ (hunread before other rest' settings hhistory hreads)

theorem firstRead_concat (hstep : step ≠ .forgetSettings) :
    FirstRead start (history ++ [step]) settings ↔
      FirstRead start history settings ∨
        Unread start history ∧ Reads start history step settings := by
  constructor
  · rintro ⟨before, other, rest, hsplit, hunread, hreads, hkept⟩
    obtain ⟨rfl, rfl, rfl⟩ | ⟨rest', hhistory, rfl⟩ := concat_split hsplit
    · exact .inr ⟨hunread, hreads⟩
    · refine .inl ⟨before, other, rest', hhistory, hunread, hreads, fun hmem => hkept ?_⟩
      exact List.mem_append_left _ hmem
  · rintro (⟨before, other, rest, rfl, hunread, hreads, hkept⟩ | ⟨hunread, hreads⟩)
    · refine ⟨before, other, rest ++ [step], by simp, hunread, hreads, ?_⟩
      simpa [hstep.symm] using hkept
    · exact ⟨history, step, [], rfl, hunread, hreads, List.not_mem_nil⟩

theorem unread_forgetSettings : Unread start (history ++ [.forgetSettings]) := by
  intro before other rest settings hsplit hreads
  obtain ⟨rfl, rfl, rfl⟩ | ⟨rest', hhistory, rfl⟩ := concat_split hsplit
  · exact (hreads.ne_forgetSettings rfl).elim
  · simp

theorem not_firstRead_forgetSettings :
    ¬ FirstRead start (history ++ [.forgetSettings]) settings := by
  rintro ⟨before, other, rest, hsplit, hunread, hreads, hkept⟩
  exact hkept (unread_forgetSettings before other rest settings hsplit hreads)

/-- The settings that a service keeps are those that were read first, if any were. -/
theorem settings_after (hstart : start.settings = none) (history : List Service.Step) :
    (∀ settings, (after start history).settings = some settings ↔
      FirstRead start history settings) ∧
    ((after start history).settings = none ↔ Unread start history) := by
  -- Both at once: a reading is the first one only behind a history that is unread.
  induction history using List.reverseRecOn with
  | nil =>
    have hnone (settings) : ¬ FirstRead start [] settings := by
      rintro ⟨before, other, rest, hsplit, -⟩
      simp at hsplit
    have hsettings : (after start []).settings = none := hstart
    simp [hsettings, unread_nil, hnone]
  | append_singleton history step ih =>
    obtain ⟨hkept, hnone⟩ := ih
    rw [after_concat]
    by_cases hstep : step = .forgetSettings
    · subst hstep
      have hsettings : ((after start history).step .forgetSettings).2.settings = none := rfl
      simp [hsettings, unread_forgetSettings, not_firstRead_forgetSettings]
    · have hsettings (settings) : ((after start history).step step).2.settings = some settings ↔
          FirstRead start history settings ∨
            Unread start history ∧ Reads start history step settings := by
        rw [settings_step hstep, hkept, hnone, Reads]
      have hunread : Unread start history ↔ ∀ settings, ¬ FirstRead start history settings := by
        rw [← hnone, Option.eq_none_iff_forall_ne_some]
        exact forall_congr' fun settings => not_congr (hkept settings)
      constructor
      · intro settings
        rw [hsettings, firstRead_concat hstep]
      · rw [Option.eq_none_iff_forall_ne_some, unread_concat hstep]
        simp only [ne_eq, hsettings, not_or, not_and, forall_and, ← hunread]
        exact and_congr_right fun h => forall_congr' fun settings => by simp [h]

theorem read_after (hstart : start.settings = none) :
    (Service.currentSettings (after start history)).result = .ok settings ↔
      SettingsFor start history settings := by
  obtain ⟨hkept, hnone⟩ := settings_after hstart history
  rw [read_iff, hkept, hnone, SettingsFor]

theorem MadeFrom.concat {old : SystemDice} (h : MadeFrom start history old)
    (hstep : step ≠ .forgetDice) (hseed : dice.seed = old.seed) :
    MadeFrom start (history ++ [step]) dice := by
  obtain ⟨before, other, rest, settings, rfl, hnone, hmade, hkept, hsettings, hold⟩ := h
  refine ⟨before, other, rest ++ [step], settings, by simp, hnone, hmade, ?_, hsettings,
    hseed.trans hold⟩
  simpa [hstep.symm] using hkept

/-- Dice have the seed that was in force when they were made. -/
theorem dice_after (hsettings : start.settings = none) (hdice : start.dice = none)
    (history : List Service.Step) (dice : SystemDice)
    (h : (after start history).dice = some dice) : MadeFrom start history dice := by
  induction history using List.reverseRecOn generalizing dice with
  | nil =>
    have hnone : (after start []).dice = none := hdice
    rw [hnone] at h
    cases h
  | append_singleton history step ih =>
    have hmade : (after start (history ++ [step])).dice ≠ none := by
      rw [h]
      exact Option.some_ne_none dice
    rw [after_concat] at h
    by_cases hforget : step = .forgetDice
    · subst hforget
      cases h
    by_cases hstep : step = .forgetSettings
    · subst hstep
      exact (ih dice h).concat hforget rfl
    · obtain ⟨old, hold, hseed⟩ | ⟨hnone, settings, hread, hseed⟩ :=
        (effect_step hstep (after start history)).dice dice h
      · exact (ih old hold).concat hforget hseed
      · -- The dice are new, and their history begins with this step.
        have hfor := (read_after hsettings).mp hread
        exact ⟨history, step, [], settings, rfl, hnone, hmade, List.not_mem_nil, hfor, hseed⟩

end History

section Using

variable {service : Service} {settings : Settings} {failure : Failure}

def keeping (settings : Settings) (service : Service) : Service :=
  { service with settings := some settings }

structure Uses (settings : Settings) (service : Service) : Prop where
  shown : Service.perform .currentSettings service =
    ⟨.ok (.settings settings), keeping settings service, []⟩
  calculates (text : String) : Service.perform (.calculateTool text) service =
    Service.perform (.calculate text settings.limits) (keeping settings service)
  audits (text : String) : Service.perform (.auditTool text) service =
    Trial.mapFailure Service.restate (Service.perform (.audit text settings.limits))
      (keeping settings service)
  starts : Service.perform .start service =
    Service.perform (.configureLogging settings.logLevel) (keeping settings service)
  makes : service.dice = none →
    Service.sharedDice service = makeDice settings (keeping settings service)

structure Refuses (failure : Failure) (service : Service) : Prop where
  shown : Service.perform .currentSettings service = ⟨.error failure, service, []⟩
  calculates (text : String) :
    Service.perform (.calculateTool text) service = ⟨.error failure, service, []⟩
  audits (text : String) :
    Service.perform (.auditTool text) service = ⟨.error (Service.restate failure), service, []⟩
  starts : Service.perform .start service = ⟨.error failure, service, []⟩
  makes : service.dice = none → Service.sharedDice service = ⟨.error failure, service, []⟩
  kept (step : Service.Step) : (service.step step).2.settings = none

theorem uses_of_read (h : (Service.currentSettings service).result = .ok settings) :
    Uses settings service := by
  have hread : Service.currentSettings service = ⟨.ok settings, keeping settings service, []⟩ :=
    currentSettings_eq_ok h
  have hcalculate (text : String) : Service.calculateTool text service =
      Service.calculate text settings.limits (keeping settings service) :=
    Trial.bind_of_ok hread _
  have haudit (text : String) :
      (Service.currentSettings >>= fun settings => Service.audit text settings.limits) service =
        Service.audit text settings.limits (keeping settings service) :=
    Trial.bind_of_ok hread _
  have hstart : Service.start service =
      Service.configureLogging settings.logLevel (keeping settings service) :=
    Trial.bind_of_ok hread _
  refine ⟨?_, fun text => ?_, fun text => ?_, ?_, fun hd => ?_⟩
  · rw [Service.perform, map_apply, hread]
    rfl
  · rw [Service.perform, Service.perform, map_apply, map_apply, hcalculate]
  · rw [Service.perform, Service.perform, map_apply, Service.auditTool, Trial.mapFailure,
      Trial.mapFailure, map_apply, haudit]
    cases (Service.audit text settings.limits (keeping settings service)).result <;> rfl
  · rw [Service.perform, Service.perform, map_apply, map_apply, hstart]
  · rw [sharedDice_of_unmade hd]
    exact Trial.bind_of_ok hread _

theorem refuses_of_unread (hnone : service.settings = none)
    (h : Settings.ofEnvironment service.environment = .error failure) :
    Refuses failure service := by
  have hread : Service.currentSettings service = ⟨.error failure, service, []⟩ := by
    rw [Service.currentSettings, hnone, h]
  have hfail {α : Type} (next : Settings → Trial Service α) :
      (Service.currentSettings >>= next) service = ⟨.error failure, service, []⟩ :=
    Trial.bind_of_error hread next
  refine ⟨?_, fun text => ?_, fun text => ?_, ?_, fun hd => ?_, fun step => ?_⟩
  · rw [Service.perform, map_apply, hread]
    rfl
  · rw [Service.perform, map_apply, Service.calculateTool, hfail]
    rfl
  · rw [Service.perform, map_apply, Service.auditTool, Trial.mapFailure, hfail]
    rfl
  · rw [Service.perform, map_apply, Service.start, hfail]
    rfl
  · rw [sharedDice_of_unmade hd, hfail]
  · by_cases hstep : step = .forgetSettings
    · subst hstep
      rfl
    · rw [Option.eq_none_iff_forall_ne_some]
      intro settings hsettings
      obtain hkept | ⟨-, -, hfound⟩ := (settings_step hstep service settings).mp hsettings
      · rw [hnone] at hkept
        cases hkept
      · rw [h] at hfound
        cases hfound

end Using

section Variables

variable {settings : Settings} {step : Service.Step}

/-- A step that neither changes a variable nor reads the settings anew. -/
def isSteady : Service.Step → Bool
  | .setVariable .. | .unsetVariable _ | .readSettings => false
  | _ => true

def Twinned (settings : Settings) (s t : Service) : Prop :=
  Twins settings s t ∧ s.logging = t.logging

theorem compatible_twinned : Compatible (fun _ => true) (Twinned settings) :=
  compatible_twins.logged (· = ·)

theorem related_configureLogging (level : String) : Related (Twinned settings)
    (Service.configureLogging level) (Service.configureLogging level) := by
  rintro s t ⟨htwins, hlogging⟩
  unfold Service.configureLogging
  cases Logging.thresholdNamed level with
  | error failure => exact ⟨rfl, rfl, htwins, hlogging⟩
  | ok threshold =>
    exact ⟨rfl, rfl, ⟨htwins.left, htwins.right, htwins.dice, htwins.entropy⟩, rfl⟩

theorem related_steady (hsteady : isSteady step = true) (hstep : step ≠ .forgetSettings) :
    Related (Twinned settings) (Service.perform step) (Service.perform step) := by
  have hlook : Compatible (fun _ => true) (Twinned settings) := compatible_twinned
  cases step with
  | forgetSettings => exact (hstep rfl).elim
  | readSettings => cases hsteady
  | configureLogging level =>
    exact (((related_configureLogging level).agree _).map _).related
  | start =>
    exact ((hlook.settings.bind fun found =>
      (related_configureLogging found.logLevel).agree _).map _).related
  | _ =>
    apply Agree.related
    apply hlook.perform
    trivial

theorem silent_of_not_steady (h : isSteady step = false) : Silent (Twinned settings) step := by
  rintro s t ⟨htwins, hlogging⟩
  cases step with
  | setVariable | unsetVariable | readSettings =>
    exact ⟨⟨htwins.left, htwins.right, htwins.dice, htwins.entropy⟩, hlogging⟩
  | _ => cases h

/-- A service with settings is not disturbed by changes of its environment. -/
theorem run_steady {service : Service} {steps : List Service.Step}
    (h : service.settings = some settings) (hsteps : .forgetSettings ∉ steps) :
    chosen (steps.map isSteady) (service.run steps) = service.run (steps.filter isSteady) := by
  have htwinned : Twinned settings service service := ⟨⟨h, h, rfl, fun _ => rfl⟩, rfl⟩
  have hsilent : List.Forall₂ (fun step keep => if keep then Parallel (Twinned settings) id step
      else Silent (Twinned settings) step) steps (steps.map isSteady) := by
    rw [List.forall₂_map_right_iff, List.forall₂_same]
    intro step hmem
    cases hsteady : isSteady step with
    | false => exact silent_of_not_steady hsteady
    | true =>
      have hne : step ≠ .forgetSettings := fun heq => hsteps (heq ▸ hmem)
      exact parallel_of_related (related_steady hsteady hne) fun _ _ => And.right
  have hrun := run_chosen hsilent htwinned
  rwa [List.map_id, List.map_id, chosen_map] at hrun

end Variables

/-- Where the settings and the dice come from that a service has behind a history. -/
structure Traced (start : Service) (history : List Service.Step) : Prop where
  kept (settings : Settings) :
    (after start history).settings = some settings ↔ FirstRead start history settings
  unread : (after start history).settings = none ↔ Unread start history
  uses (settings : Settings) :
    SettingsFor start history settings → Uses settings (after start history)
  refuses (failure : Failure) : Unread start history →
    Settings.ofEnvironment (after start history).environment = .error failure →
    Refuses failure (after start history)
  made (dice : SystemDice) : (after start history).dice = some dice → MadeFrom start history dice

theorem traced_of_fresh {start : Service} (hsettings : start.settings = none)
    (hdice : start.dice = none) (history : List Service.Step) : Traced start history := by
  obtain ⟨hkept, hunread⟩ := settings_after hsettings history
  refine ⟨hkept, hunread, fun settings h => ?_, fun failure h hfailure => ?_, ?_⟩
  · exact uses_of_read ((read_after hsettings).mpr h)
  · exact refuses_of_unread (hunread.mpr h) hfailure
  · exact dice_after hsettings hdice history

/-- Whatever is done to a service, settings and dice are traced back to the steps that they come
from. A service that has settings gives the same answers when variables are set and unset, and
settings are read anew, at other points of a run that does not forget them. -/
theorem settings_traced :
    (∀ (start : Service) (history : List Service.Step), start.settings = none →
      start.dice = none → Traced start history) ∧
    ∀ (service : Service) (settings : Settings) (first second : List Service.Step),
      service.settings = some settings → .forgetSettings ∉ first → .forgetSettings ∉ second →
      first.filter isSteady = second.filter isSteady →
      chosen (first.map isSteady) (service.run first) =
        chosen (second.map isSteady) (service.run second) := by
  constructor
  · exact fun start history hsettings hdice => traced_of_fresh hsettings hdice history
  · intro service settings first second hkept hfirst hsecond hsame
    rw [run_steady hkept hfirst, run_steady hkept hsecond, hsame]

theorem settings_traced_past_changes :
    let start : Service := {}
    let history : List Service.Step := [.currentSettings, .setVariable "DICE_CALC_RANDOM_SEED" "7",
      .inspectDice, .configureLogging "DEBUG"]
    let settings : Settings := {}
    let first : List Service.Step := [.unsetVariable "DICE_CALC_RANDOM_SEED", .inspectDice,
      .setVariable "DICE_CALC_LOG_LEVEL" "ERROR", .start, .auditTool "2d6"]
    let second : List Service.Step := [.inspectDice, .start, .readSettings, .auditTool "2d6"]
    Traced start history ∧ FirstRead start history settings ∧
      Uses settings (after start history) ∧
      chosen [false, true, false, true, true] ((after start history).run first) =
        chosen [true, true, false, true] ((after start history).run second) := by
  intro start history settings first second
  have htraced := settings_traced.1 start history rfl rfl
  have hreads : Reads start [] .currentSettings settings := ⟨trivial, rfl⟩
  have hfirst : FirstRead start history settings :=
    ⟨[], .currentSettings, _, rfl, unread_nil, hreads, by simp⟩
  have hkept := (htraced.kept settings).mpr hfirst
  have hsame := settings_traced.2 _ settings first second hkept (by simp [first])
    (by simp [second]) rfl
  exact ⟨htraced, hfirst, htraced.uses settings (.inl hfirst), hsame⟩

end DiceArithmetic.Proofs.Provenance
