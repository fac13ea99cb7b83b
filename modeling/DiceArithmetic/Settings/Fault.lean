import DiceArithmetic.Text.Abridged
import DiceArithmetic.Text.Quoted

namespace DiceArithmetic.Settings

inductive Misreading
  | noInteger
  | tooLong
deriving DecidableEq, Repr

namespace Misreading

def code : Misreading → String
  | .noInteger => "int_parsing"
  | .tooLong => "int_parsing_size"

def words : Misreading → String
  | .noInteger => "Input should be a valid integer, unable to parse string as an integer"
  | .tooLong => "Unable to parse input string as an integer, exceeded maximum size"

def page (reason : Misreading) : String :=
  "/".intercalate ["https:", "", "errors.pydantic.dev", "2.14", "v", reason.code]

end Misreading

structure Fault where
  name : String
  text : String
  reason : Misreading
deriving DecidableEq, Repr

/-- The fault in words. The text is cited as far as it is short. -/
def Fault.describe (fault : Fault) : String :=
  let cited := String.ofList (Text.abridge (Text.Quoted.encode fault.text.toList))
  s!"{fault.name}\n  {fault.reason.words} " ++
    s!"[type={fault.reason.code}, input_value={cited}, input_type=str]\n" ++
    s!"    For further information visit {fault.reason.page}"

end DiceArithmetic.Settings
