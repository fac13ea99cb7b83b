import DiceArithmetic.Calculator
import DiceArithmetic.Logging
import DiceArithmetic.Settings
import DiceArithmetic.Source.SystemDice

namespace DiceArithmetic

/-- A running service. Its settings are kept once they could be read, and its dice are made when
they are first needed. Dice without a seed start from entropy that was found outside. -/
structure Service where
  environment : Environment := []
  settings : Option Settings := none
  dice : Option SystemDice := none
  logging : Logging := {}
  entropy : Nat := 0

namespace Service

/-- The settings in force. Settings that cannot be read are not kept. -/
def currentSettings : Trial Service Settings := fun service =>
  match service.settings with
  | some settings => ⟨.ok settings, service, []⟩
  | none =>
    match Settings.ofEnvironment service.environment with
    | .ok settings => ⟨.ok settings, { service with settings := some settings }, []⟩
    | .error failure => ⟨.error failure, service, []⟩

def sharedDice : Trial Service SystemDice := fun service =>
  match service.dice with
  | some dice => ⟨.ok dice, service, []⟩
  | none => Trial.bind currentSettings (fun settings service =>
      match settings.randomSeed with
      | some seed =>
        let dice := SystemDice.seeded seed
        ⟨.ok dice, { service with dice := some dice }, [.seeded seed]⟩
      | none =>
        let dice := SystemDice.unseeded service.entropy
        ⟨.ok dice, { service with dice := some dice, entropy := service.entropy + 1 }, []⟩) service

def withDice {α : Type} (trial : Trial SystemDice α) : Trial Service α := do
  let dice ← sharedDice
  Trial.within (fun _ => dice) (fun service dice => { service with dice := some dice }) trial

/-- Dice are made only for an expression that can be read and keeps within the limits. -/
def compute : String → Option Limits → Trial Service Tally :=
  Calculator.computeBy fun e => withDice e.evaluate

def calculate (text : String) (limits : Option Limits) : Trial Service String :=
  Calculator.answer text (compute text limits)

/-- Dice are made first, as the report names them. -/
def audit (text : String) (limits : Option Limits) : Trial Service Report := do
  let dice ← sharedDice
  Calculator.report text dice.name <$> compute text limits

def calculateTool (text : String) : Trial Service String := do
  let settings ← currentSettings
  calculate text settings.limits

/-- A calculation's failure, restated as one about a value that begins with the code. -/
def restate (failure : Failure) : Failure :=
  if failure.kind.isA .calculation then .reported .value failure.message else failure

def auditTool (text : String) : Trial Service Report :=
  Trial.mapFailure restate do
    let settings ← currentSettings
    audit text settings.limits

/-- Sets up the log at a named level. A name that cannot be used leaves everything as it was. -/
def configureLogging (level : String) : Trial Service Logging := fun service =>
  match Logging.thresholdNamed level with
  | .error failure => ⟨.error failure, service, []⟩
  | .ok threshold =>
    let logging := Logging.configure threshold
    ⟨.ok logging, { service with logging }, [.logging threshold]⟩

def start : Trial Service Logging := do
  let settings ← currentSettings
  configureLogging settings.logLevel

inductive Step
  | setVariable (name value : String)
  | unsetVariable (name : String)
  | forgetSettings
  | forgetDice
  | readSettings
  | currentSettings
  | inspectDice
  | roll (sides : Int)
  | calculateTool (text : String)
  | auditTool (text : String)
  | calculate (text : String) (limits : Option Limits)
  | audit (text : String) (limits : Option Limits)
  | configureLogging (level : String)
  | start
deriving DecidableEq, Repr

inductive Reply
  | done
  | settings (settings : Settings)
  | dice (name : String) (seed : Option Int)
  | face (face : Face)
  | text (text : String)
  | report (report : Report)
  | logging (logging : Logging)
deriving DecidableEq, Repr

def update (f : Service → Service) : Trial Service Reply := fun service =>
  ⟨.ok .done, f service, []⟩

def perform : Step → Trial Service Reply
  | .setVariable name value =>
    update fun s => { s with environment := s.environment.set name value }
  | .unsetVariable name =>
    update fun s => { s with environment := s.environment.unset name }
  | .forgetSettings => update fun s => { s with settings := none }
  | .forgetDice => update fun s => { s with dice := none }
  | .readSettings => fun service =>
    ⟨(Settings.ofEnvironment service.environment).map .settings, service, []⟩
  | .currentSettings => .settings <$> currentSettings
  | .inspectDice => (fun dice => .dice dice.name dice.seed) <$> sharedDice
  | .roll sides => .face <$> withDice (Trial.draw sides)
  | .calculateTool text => .text <$> calculateTool text
  | .auditTool text => .report <$> auditTool text
  | .calculate text limits => .text <$> calculate text limits
  | .audit text limits => .report <$> audit text limits
  | .configureLogging level => .logging <$> configureLogging level
  | .start => .logging <$> start

structure Answer where
  result : Except Failure Reply
  lines : List String

def step (service : Service) (step : Step) : Answer × Service :=
  let outcome := perform step service
  (⟨outcome.result, outcome.source.logging.lines outcome.events⟩, outcome.source)

def run (service : Service) : List Step → List Answer
  | [] => []
  | next :: steps =>
    let (answer, after) := service.step next
    answer :: after.run steps

end Service

end DiceArithmetic
