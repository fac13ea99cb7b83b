import DiceArithmetic.Proofs.ParseExactness

namespace DiceArithmetic.Proofs.Nesting

open DiceArithmetic.Expr.Parser (Opening maxOpen)
open DiceArithmetic.Proofs.Grammar DiceArithmetic.Proofs.Openings
open DiceArithmetic.Proofs.ParseExactness

/-- Where negations may end, a phrase has the same tree in front of a closing parenthesis as at the
end of the text. -/
theorem derives_before {rank : Rank} {text : List Char} {next next' : Option Char} {e : Expr}
    (h : Derives Greedy rank text next e) (hn : Greedy next) (hn' : Greedy next') :
    Derives Greedy rank text next' e := by
  induction h with
  | product _ ih => exact .product (ih hn)
  | additive hl hc _ _ ihr => exact .additive hl hc (ihr hn)
  | operand _ ih => exact .operand (ih hn)
  | multiplicative hl hc _ _ ihr => exact .multiplicative hl hc (ihr hn)
  | literal hd => exact .literal hd
  | dice hc hm hs => exact .dice hc hm hs
  | group hi _ => exact .group hi
  | negated _ _ ih => exact .negated (ih hn) hn'

theorem derives_group {text : List Char} {e : Expr} (h : Derives Greedy .sum text none e)
    (next : Option Char) : Derives Greedy .operand ('(' :: text ++ [')']) next e :=
  .group (derives_before h (.inl rfl) (.inr rfl))

theorem derives_joined {left right : List Char} {l r : Expr} {c : Char} {op : Operator}
    (hl : Derives Greedy .sum left none l) (hr : Derives Greedy .sum right none r)
    (hc : additive? c = some op ∨ multiplicative? c = some op) :
    Derives Greedy .sum (('(' :: left ++ [')']) ++ c :: ('(' :: right ++ [')'])) none
      (.binary op l r) := by
  have hleft := Derives.operand (derives_group hl (some c))
  have hright := derives_group hr none
  obtain hc | hc := hc
  · exact .additive (.product hleft) hc (.operand hright)
  · exact .product (.multiplicative hleft hc hright)

section Fronts

variable {limit : Nat} {text : List Char}

theorem readAll_parenthesized {e : Expr} (h : Derives Greedy .sum text none e) :
    Front.readAll {} ('(' :: text ++ [')']) = ⟨[], false⟩ :=
  readAll_of_derives_inside (derives_group h (some '+')) (by simp [Greedy]) []

theorem staysWithin_group {e : Expr} (h : Derives Greedy .sum text none e)
    (hw : Within limit text) : StaysWithin (limit + 1) {} ('(' :: text ++ [')']) := by
  have hinner := (staysWithin_of_within h.sentence hw).above .parenthesis
  have hclose := hinner text List.prefix_rfl
  refine staysWithin_cons.mpr ⟨Nat.zero_le _, hinner.append (staysWithin_cons.mpr ⟨hclose, ?_⟩)⟩
  exact staysWithin_nil (Nat.le_trans (Front.length_opened_read_plain (by decide) _) hclose)

theorem within_joined {left right : List Char} {l r : Expr} {c : Char} {op : Operator}
    (hl : Derives Greedy .sum left none l) (hr : Derives Greedy .sum right none r)
    (hc : additive? c = some op ∨ multiplicative? c = some op) (hwl : Within limit left)
    (hwr : Within limit right) :
    Within (limit + 1) (('(' :: left ++ [')']) ++ c :: ('(' :: right ++ [')'])) := by
  have hread : Front.read ⟨[], false⟩ c = {} := by
    obtain hc | hc := hc
    · exact Front.read_additive hc []
    · exact Front.read_multiplicative hc _
  refine ((staysWithin_group hl hwl).append ?_).within
  rw [readAll_parenthesized hl]
  refine staysWithin_cons.mpr ⟨Nat.zero_le _, ?_⟩
  rw [hread]
  exact staysWithin_group hr hwr

end Fronts

def joined (first second : String) (c : Char) : String :=
  s!"({first}){c}({second})"

theorem toList_joined (first second : String) (c : Char) : (joined first second c).toList =
    ('(' :: first.toList ++ [')']) ++ c :: ('(' :: second.toList ++ [')']) := by
  have h : joined first second c = "(" ++ first ++ ")" ++ String.singleton c ++ "(" ++ second ++
    ")" := rfl
  rw [h]
  simp [String.toList_append]

/-- Accepted texts keep their trees when they are put in parentheses and joined by an operator, if
one opening more is still within the limit. -/
theorem parse_joined {first second : String} {l r : Expr} {c : Char} {op : Operator}
    (hl : Expr.parse first = .ok l) (hr : Expr.parse second = .ok r)
    (hc : additive? c = some op ∨ multiplicative? c = some op)
    (hwl : Within (maxOpen - 1) first.toList) (hwr : Within (maxOpen - 1) second.toList) :
    Expr.parse (joined first second c) = .ok (.binary op l r) := by
  have hleft := derives_of_parse hl
  have hright := derives_of_parse hr
  have hwithin := within_joined hleft hright hc hwl hwr
  have hderives := derives_joined hleft hright hc
  rw [← toList_joined] at hwithin hderives
  exact parse_of_derives hwithin hderives

end DiceArithmetic.Proofs.Nesting
