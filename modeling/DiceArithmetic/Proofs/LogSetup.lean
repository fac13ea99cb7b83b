import DiceArithmetic.Proofs.Serving

namespace DiceArithmetic.Proofs.LogSetup

open DiceArithmetic.Logging (capitals)
open DiceArithmetic.Proofs.Trials DiceArithmetic.Proofs.SharedDice DiceArithmetic.Proofs.Serving

section Names

def standardLevels : List (String × Nat) :=
  [("NOTSET", 0), ("DEBUG", 10), ("INFO", 20), ("WARN", 30), ("WARNING", 30), ("ERROR", 40),
    ("CRITICAL", 50), ("FATAL", 50)]

/-- The names of templates for lines, which are no levels and still not unknown. -/
def templates : List String := ["BASIC_FORMAT", "_STYLES"]

/-- The threshold of the standard level of this name, in whatever letters, or else that of INFO. -/
def threshold (name : String) : Nat :=
  (standardLevels.lookup (capitals name)).getD 20

theorem thresholdNamed_cases (name : String) :
    (capitals name ∉ templates ∧ Logging.thresholdNamed name = .ok (threshold name)) ∨
    capitals name ∈ templates ∧ ∃ failure, failure.kind ∈ [.value, .type] ∧
      Logging.thresholdNamed name = .error failure := by
  unfold Logging.thresholdNamed
  split
  case h_8 h => exact .inr ⟨by simp [templates, h], _, by decide, rfl⟩
  case h_9 h => exact .inr ⟨by simp [templates, h], _, by decide, rfl⟩
  case h_10 hnotset hdebug hwarn hwarning herror hcritical hfatal hformat hstyles =>
    have htemplate : capitals name ∉ templates := by
      simpa [templates] using ⟨hformat, hstyles⟩
    -- The name of INFO has no case of its own.
    by_cases hinfo : capitals name = "INFO"
    · rw [threshold, hinfo]
      exact .inl ⟨by decide, rfl⟩
    · have hnone : standardLevels.lookup (capitals name) = none := by
        simpa [standardLevels, List.lookup_eq_none_iff] using
          ⟨hnotset, hdebug, hinfo, hwarn, hwarning, herror, hcritical, hfatal⟩
      rw [threshold, hnone]
      exact .inl ⟨htemplate, rfl⟩
  all_goals
    rename_i h
    rw [threshold, h]
    exact .inl ⟨by decide, rfl⟩

end Names

section Steps

variable {service : Service} {level : String}

def accepted? (level : String) : Option String :=
  if capitals level ∈ templates then none else some level

theorem configureLogging_accepted (h : capitals level ∉ templates) (service : Service) :
    Service.configureLogging level service =
      ⟨.ok ⟨threshold level, 1, 30⟩, { service with logging := ⟨threshold level, 1, 30⟩ },
        [.logging (threshold level)]⟩ := by
  obtain ⟨-, hok⟩ | ⟨htemplate, -⟩ := thresholdNamed_cases level
  · rw [Service.configureLogging, hok]
    rfl
  · exact absurd htemplate h

theorem configureLogging_refused (h : capitals level ∈ templates) (service : Service) :
    ∃ failure, failure.kind ∈ [.value, .type] ∧
      Service.configureLogging level service = ⟨.error failure, service, []⟩ := by
  obtain ⟨hlevel, -⟩ | ⟨-, failure, hkind, herror⟩ := thresholdNamed_cases level
  · exact absurd h hlevel
  · exact ⟨failure, hkind, by rw [Service.configureLogging, herror]⟩

/-- The level at which a step sets up the log, if it takes effect: the one that is given, or that of
the settings in force. -/
def levelSet? (service : Service) : Service.Step → Option String
  | .configureLogging level => accepted? level
  | .start =>
    match (Service.currentSettings service).result with
    | .ok settings => accepted? settings.logLevel
    | .error _ => none
  | _ => none

def lastLevel? (service : Service) : List Service.Step → Option String
  | [] => none
  | step :: steps => lastLevel? (service.step step).2 steps <|> levelSet? service step

def setUp (logging : Logging) : Option String → Logging
  | some level => ⟨threshold level, 1, 30⟩
  | none => logging

theorem logging_configureLogging (level : String) (service : Service) :
    (Service.configureLogging level service).source.logging =
      setUp service.logging (accepted? level) := by
  by_cases h : capitals level ∈ templates
  · obtain ⟨failure, -, hrefused⟩ := configureLogging_refused h service
    rw [hrefused, accepted?, if_pos h]
    rfl
  · rw [configureLogging_accepted h, accepted?, if_neg h]
    rfl

theorem start_of_invalid {failure : Failure}
    (h : (Service.currentSettings service).result = .error failure) :
    Service.start service = ⟨.error failure, service, []⟩ :=
  Trial.bind_of_error (currentSettings_eq_error h) _

theorem start_of_valid {settings : Settings}
    (h : (Service.currentSettings service).result = .ok settings) :
    Service.start service =
      Service.configureLogging settings.logLevel { service with settings := some settings } :=
  Trial.bind_of_ok (currentSettings_eq_ok h) _

theorem logging_start (service : Service) :
    (Service.start service).source.logging =
      setUp service.logging (levelSet? service .start) := by
  cases h : (Service.currentSettings service).result with
  | error failure =>
    rw [start_of_invalid h, levelSet?, h]
    rfl
  | ok settings =>
    rw [start_of_valid h, levelSet?, h]
    exact logging_configureLogging settings.logLevel _

/-- A step that takes effect replaces the whole of the log's setup, and any other one leaves it. -/
theorem logging_step_eq (step : Service.Step) (service : Service) :
    (service.step step).2.logging = setUp service.logging (levelSet? service step) := by
  cases step with
  | configureLogging level =>
    have hsource := source_map Service.Reply.logging (Service.configureLogging level) service
    exact (congrArg Service.logging hsource).trans (logging_configureLogging level service)
  | start =>
    have hsource := source_map Service.Reply.logging Service.start service
    exact (congrArg Service.logging hsource).trans (logging_start service)
  | forgetSettings => rfl
  | readSettings => rfl
  | setVariable | unsetVariable | forgetDice | currentSettings | inspectDice | roll | calculateTool
  | auditTool | calculate | audit =>
    refine logging_step ?_ service
    trivial

theorem logging_after_steps (steps : List Service.Step) (service : Service) :
    (after service steps).logging = setUp service.logging (lastLevel? service steps) := by
  induction steps generalizing service with
  | nil => rfl
  | cons step steps ih =>
    have hrest := ih (service.step step).2
    have hstep := logging_step_eq step service
    change (after (service.step step).2 steps).logging = _
    rw [hrest, hstep, lastLevel?]
    cases lastLevel? (service.step step).2 steps with
    | none => rfl
    | some level => rfl

end Steps

section Prior

def SameButLog (s t : Service) : Prop := ∃ logging, t = { s with logging }

theorem agree_currentSettings :
    Agree (fun _ => true) SameButLog Service.currentSettings Service.currentSettings := by
  rintro ⟨environment, settings, dice, _, entropy⟩ _ ⟨logging, rfl⟩
  unfold Service.currentSettings
  cases settings with
  | some settings => exact ⟨rfl, rfl, logging, rfl⟩
  | none =>
    dsimp only
    cases Settings.ofEnvironment environment with
    | error failure => exact ⟨rfl, rfl, logging, rfl⟩
    | ok settings => exact ⟨rfl, rfl, logging, rfl⟩

theorem agree_makeDice (settings : Settings) :
    Agree (fun _ => true) SameButLog (makeDice settings) (makeDice settings) := by
  rintro s _ ⟨logging, rfl⟩
  unfold makeDice
  cases settings.randomSeed with
  | some seed => exact ⟨rfl, rfl, logging, rfl⟩
  | none => exact ⟨rfl, rfl, logging, rfl⟩

theorem compatible_sameButLog : Compatible (fun _ => true) SameButLog where
  settings := agree_currentSettings
  dice := by
    rintro ⟨environment, settings, dice, own, entropy⟩ _ ⟨logging, rfl⟩
    cases dice with
    | some dice => exact ⟨rfl, rfl, logging, rfl⟩
    | none =>
      rw [sharedDice_of_unmade rfl, sharedDice_of_unmade rfl]
      exact agree_currentSettings.bind agree_makeDice _ _ ⟨logging, rfl⟩
  replace := by
    rintro s _ dice ⟨logging, rfl⟩
    exact ⟨logging, rfl⟩
  environment := by
    rintro s _ change ⟨logging, rfl⟩
    exact ⟨logging, rfl⟩

theorem agree_configureLogging (level : String) : Agree (fun _ => true) SameButLog
    (Service.configureLogging level) (Service.configureLogging level) := by
  rintro s _ ⟨logging, rfl⟩
  unfold Service.configureLogging
  cases Logging.thresholdNamed level with
  | error failure => exact ⟨rfl, rfl, logging, rfl⟩
  | ok threshold => exact ⟨rfl, rfl, .configure threshold, rfl⟩

theorem agree_perform (step : Service.Step) : Agree (fun _ => true) SameButLog
    (Service.perform step) (Service.perform step) := by
  have hlook : Compatible (fun _ => true) SameButLog := compatible_sameButLog
  cases step with
  | forgetSettings =>
    rintro s _ ⟨logging, rfl⟩
    exact ⟨rfl, rfl, logging, rfl⟩
  | readSettings =>
    rintro s _ ⟨logging, rfl⟩
    exact ⟨rfl, rfl, logging, rfl⟩
  | configureLogging level => exact (agree_configureLogging level).map _
  | start =>
    exact (hlook.settings.bind fun settings => agree_configureLogging settings.logLevel).map _
  | setVariable | unsetVariable | forgetDice | currentSettings | inspectDice | roll | calculateTool
  | auditTool | calculate | audit =>
    apply hlook.perform
    trivial

theorem lastLevel?_congr {s t : Service} (h : SameButLog s t) (steps : List Service.Step) :
    lastLevel? s steps = lastLevel? t steps := by
  induction steps generalizing s t with
  | nil => rfl
  | cons step steps ih =>
    have hstep : levelSet? s step = levelSet? t step := by
      cases step with
      | start => simp only [levelSet?, (compatible_sameButLog.settings s t h).1]
      | _ => rfl
    have hrest := ih (agree_perform step s t h).2.2
    exact congrArg₂ (· <|> ·) hrest hstep

end Prior

/-- What comes of setting up the log of this service, whatever its log is now. -/
structure SetsUp (service : Service) : Prop where
  accepted : ∀ level, capitals level ∉ templates →
    Service.configureLogging level service =
      ⟨.ok ⟨threshold level, 1, 30⟩, { service with logging := ⟨threshold level, 1, 30⟩ },
        [.logging (threshold level)]⟩
  refused : ∀ level, capitals level ∈ templates →
    ∃ failure, failure.kind ∈ [.value, .type] ∧
      Service.configureLogging level service = ⟨.error failure, service, []⟩
  started : ∀ settings, (Service.currentSettings service).result = .ok settings →
    Service.start service =
      Service.configureLogging settings.logLevel { service with settings := some settings }
  notStarted : ∀ failure, (Service.currentSettings service).result = .error failure →
    Service.start service = ⟨.error failure, service, []⟩
  last : ∀ steps, (after service steps).logging =
    setUp service.logging (lastLevel? service steps)
  free : ∀ logging steps, lastLevel? { service with logging } steps = lastLevel? service steps

/-- Setting up the log takes effect in full or not at all, and only the last time that it did
matters. -/
theorem log_follows_last_setup (service : Service) : SetsUp service where
  accepted _ h := configureLogging_accepted h service
  refused _ h := configureLogging_refused h service
  started _ h := start_of_valid h
  notStarted _ h := start_of_invalid h
  last steps := logging_after_steps steps service
  free logging steps := (lastLevel?_congr ⟨logging, rfl⟩ steps).symm

/-- The name of a template is no standard level, and it does not stand for that of INFO either. -/
theorem template_name_refused :
    standardLevels.lookup (capitals "basic_format") = none ∧
    Service.configureLogging "basic_format" {} =
      ⟨.error (.unknownLevel "%(levelname)s:%(name)s:%(message)s"), {}, []⟩ ∧
    (Service.configureLogging "basic_format" {}).result ≠ .ok ⟨20, 1, 30⟩ := by
  have hrefused : Service.configureLogging "basic_format" {} =
      ⟨.error (.unknownLevel "%(levelname)s:%(name)s:%(message)s"), {}, []⟩ := rfl
  refine ⟨by decide, hrefused, ?_⟩
  rw [hrefused]
  exact nofun

end DiceArithmetic.Proofs.LogSetup
