import DiceArithmetic.Event

namespace DiceArithmetic

/-- How events become lines: those below the threshold are left out, and every handler writes the
others. The library for the transport has a threshold of its own. -/
structure Logging where
  threshold : Nat := Level.warning.weight
  handlers : Nat := 0
  transportThreshold : Nat := 0
deriving DecidableEq, Repr

namespace Logging

/-- The upper-case form of a character, as far as it can matter to one of the names below. -/
def upper : Char → List Char
  | 'ı' => ['I']
  | 'ſ' => ['S']
  | 'ﬅ' | 'ﬆ' => ['S', 'T']
  | c => [c.toUpper]

def capitals (name : String) : String :=
  String.ofList (name.toList.flatMap upper)

/-- The threshold that a name stands for. A name without meaning stands for that of INFO, and two
names are refused, as they are those of the templates for lines. -/
def thresholdNamed (name : String) : Except Failure Nat :=
  match capitals name with
  | "NOTSET" => .ok 0
  | "DEBUG" => .ok 10
  | "WARN" | "WARNING" => .ok 30
  | "ERROR" => .ok 40
  | "CRITICAL" | "FATAL" => .ok 50
  | "BASIC_FORMAT" => .error (.unknownLevel "%(levelname)s:%(name)s:%(message)s")
  | "_STYLES" => .error (.notALevel (
      "\x7b'%': (<class 'logging.PercentStyle'>, '%(levelname)s:%(name)s:%(message)s'), " ++
      "'\x7b': (<class 'logging.StrFormatStyle'>, " ++
      "'\x7blevelname\x7d:\x7bname\x7d:\x7bmessage\x7d'), " ++
      "'$': (<class 'logging.StringTemplateStyle'>, " ++
      "'$\x7blevelname\x7d:$\x7bname\x7d:$\x7bmessage\x7d')\x7d"))
  | _ => .ok 20

def configure (threshold : Nat) : Logging :=
  ⟨threshold, 1, Level.warning.weight⟩

/-- The records written for an event. Where there is no handler, a warning is written as it is. -/
def records (logging : Logging) (event : Event) : List String :=
  if event.level.weight < logging.threshold then []
  else if logging.handlers = 0 then
    if event.level.weight < Level.warning.weight then [] else [event.message]
  else
    List.replicate logging.handlers event.record

def lines (logging : Logging) (events : List Event) : List String :=
  (events.flatMap logging.records).flatMap (·.splitOn "\n")

end Logging

end DiceArithmetic
