namespace DiceArithmetic.Text

def size : List Char → Nat
  | [] => 0
  | c :: cs => c.utf8Size + size cs

def takeBytes : Nat → List Char → List Char
  | _, [] => []
  | bytes, c :: cs =>
    if c.utf8Size ≤ bytes then c :: takeBytes (bytes - c.utf8Size) cs else []

/-- A text of more than fifty bytes loses its middle. What is left are its first 25 bytes and its
last 24, less where a character would be cut. -/
def abridge (cs : List Char) : List Char :=
  if size cs ≤ 50 then cs
  else takeBytes 25 cs ++ ['.', '.', '.'] ++ (takeBytes 24 cs.reverse).reverse

end DiceArithmetic.Text
