import DiceArithmetic.Decimal.Digit
import DiceArithmetic.Text.Blank

namespace DiceArithmetic.Decimal

section Numerals

variable (digit? : Char → Option Nat)

/-- Reads on behind a digit. One underscore may stand between two digits. -/
def digits? (value : Nat) : List Char → Option Nat
  | [] => some value
  | '_' :: c :: cs => (digit? c).bind fun d => digits? (10 * value + d) cs
  | c :: cs => (digit? c).bind fun d => digits? (10 * value + d) cs

def natural? : List Char → Option Nat
  | [] => none
  | c :: cs => (digit? c).bind (digits? digit? · cs)

def integer? : List Char → Option Int
  | '+' :: cs => (natural? digit? cs).map (Int.ofNat ·)
  | '-' :: cs => (natural? digit? cs).map (-Int.ofNat ·)
  | cs => (natural? digit? cs).map (Int.ofNat ·)

end Numerals

def powerOfTen (n : Nat) : Nat := Nat.pow 10 n

theorem one_lt_powerOfTen {n : Nat} (h : n ≠ 0) : 1 < powerOfTen n :=
  Nat.one_lt_pow h (by decide)

/-- Numbers are read and written in pieces of this many digits. -/
def pieceLength : Nat := 4000

/-- The text cut into pieces from the left. Only the last one may be shorter than the others. -/
def pieces (cs : List Char) : List (List Char) :=
  if cs = [] then [] else cs.take pieceLength :: pieces (cs.drop pieceLength)
termination_by cs.length
decreasing_by
  rename_i h
  rw [List.length_drop]
  exact Nat.sub_lt (List.length_pos_iff.mpr h) (by decide)

/-- Appends a piece to a number, by the piece's length and not by the digits in it. A piece that is
no number is handed back. -/
def extend (value : Int) (piece : List Char) : Except (List Char) Int :=
  match integer? digit? (Text.trim piece) with
  | some n => .ok (value * powerOfTen piece.length + n)
  | none => .error piece

def read (cs : List Char) : Except (List Char) Int :=
  (pieces cs).foldlM extend 0

def limbBase : Nat := powerOfTen pieceLength

/-- The number in base `limbBase`, leading limb first, in front of the limbs already split off. -/
def limbs (n : Nat) (lower : List Nat) : List Nat :=
  if n < limbBase then n :: lower else limbs (n / limbBase) (n % limbBase :: lower)
termination_by n
decreasing_by
  rename_i h
  have hb : 1 < limbBase := one_lt_powerOfTen (by decide)
  exact Nat.div_lt_self (by omega) hb

def padded (places n : Nat) : List Char :=
  let digits := Nat.toDigits 10 n
  List.replicate (places - digits.length) '0' ++ digits

def spell : List Nat → List Char
  | [] => []
  | top :: lower => Nat.toDigits 10 top ++ lower.flatMap (padded pieceLength)

def natDigits (n : Nat) : List Char := spell (limbs n [])

def digits (n : Int) : List Char :=
  if n < 0 then '-' :: natDigits n.natAbs else natDigits n.natAbs

def write (n : Int) : String :=
  String.ofList (digits n)

/-- A message names only numbers of at most this many digits. -/
def messageDigits : Nat := 4300

def fitsMessage (n : Int) : Bool :=
  n.natAbs < powerOfTen messageDigits

end DiceArithmetic.Decimal
