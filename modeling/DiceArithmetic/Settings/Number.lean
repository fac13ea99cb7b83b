import DiceArithmetic.Decimal
import DiceArithmetic.Settings.Fault

namespace DiceArithmetic.Settings.Number

def maxDigits : Nat := 4300

/-- Passes over the zeros and underscores behind a zero. The last of them is kept if a point or
nothing follows. A minus sign may follow as well as a digit. -/
def passZeros (last : Char) : List Char → Option (List Char)
  | [] => some [last]
  | c :: cs =>
    if c = '0' ∨ c = '_' then passZeros c cs
    else if c = '.' then some (last :: c :: cs)
    else if c.isDigit ∨ c = '-' then some (c :: cs)
    else none

/-- Leaves aside needless zeros at the head of a number. It has to begin with a digit. -/
def dropZeros : List Char → Option (List Char)
  | [] => none
  | c :: cs =>
    if c = '0' then passZeros c cs
    else if c.isDigit then some (c :: cs)
    else none

def dropPlaces (cs : List Char) : List Char :=
  let whole := cs.takeWhile (· != '.')
  let places := cs.drop (whole.length + 1)
  if !places.isEmpty && places.all (· == '0') then whole else cs

def tidy (cs : List Char) : Option (List Char) :=
  (dropZeros cs).map dropPlaces

/-- A number in digits and single underscores between them, without a needless zero in front. -/
def natural? (cs : List Char) : Option Nat :=
  if cs.head? = some '0' ∧ cs ≠ ['0'] ∨ maxDigits < cs.countP Char.isDigit then none
  else Decimal.natural? Decimal.asciiDigit? cs

/-- A number behind the zeros that it was written with. It may have a minus sign of its own, and an
underscore behind that. -/
def signed? : List Char → Option Int
  | '-' :: '_' :: cs => (natural? cs).map (-Int.ofNat ·)
  | '-' :: cs => (natural? cs).map (-Int.ofNat ·)
  | cs => (natural? cs).map Int.ofNat

/-- An integer behind at most one sign, with any zeros in front and with places that are zero. -/
def integer? : List Char → Option Int
  | '-' :: cs => ((tidy cs).bind natural?).map (-Int.ofNat ·)
  | '+' :: cs => (tidy cs).bind signed?
  | cs => (tidy cs).bind signed?

/-- Too many digits at once are noticed before anything else, if they come first in the text and no
zero is in front of them. -/
def tooLong (cs : List Char) : Bool :=
  let digits := (if cs.head? = some '-' then cs.tail else cs).takeWhile Char.isDigit
  digits.head? != some '0' && maxDigits < digits.length

def read (text : String) : Except Misreading Int :=
  if tooLong text.toList then .error .tooLong
  else
    match integer? (Text.trim text.toList) with
    | some n => .ok n
    | none => .error .noInteger

end DiceArithmetic.Settings.Number
