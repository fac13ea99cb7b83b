import DiceArithmetic.Proofs.DiceParts
import DiceArithmetic.Proofs.ParseExactness

namespace DiceArithmetic.Proofs.TotalsReading

open DiceArithmetic.Expr.Parser (maxOpen run)
open DiceArithmetic.Proofs.Grammar DiceArithmetic.Proofs.Openings DiceArithmetic.Proofs.DiceParts
open DiceArithmetic.Proofs.PhraseReading DiceArithmetic.Proofs.Beginnings
open DiceArithmetic.Proofs.Viability DiceArithmetic.Proofs.ParseExactness

/-- The expression with literals in place of its dice terms, from left to right. -/
def fill : Expr → List Digits → Expr
  | .dice _, total :: _ => .literal total
  | .negated inner, totals => .negated (fill inner totals)
  | .binary op left right, totals =>
    .binary op (fill left (totals.take left.diceTerms.length))
      (fill right (totals.drop left.diceTerms.length))
  | e, _ => e

section Phrases

variable {ends : Option Char → Prop} {rank : Rank} {next : Option Char} {e l r : Expr}

/-- The parts of a phrase stay one of the same shape when totals replace its dice terms. -/
structure Fillable (ends : Option Char → Prop) (rank : Rank) (next : Option Char)
    (phrase : List Part) (e : Expr) : Prop where
  length : (phrase.filterMap Part.dice?).length = e.diceTerms.length
  derives : ∀ totals : List Digits, totals.length = e.diceTerms.length →
    (∀ total ∈ totals, IsDigits total) →
    Derives ends rank (replace totals phrase) next (fill e totals)

theorem Fillable.binary {left right : List Part} {c : Char} {op : Operator} {rank' : Rank}
    (hl : Fillable ends rank (some c) left l) (hr : Fillable ends rank' next right r)
    (hjoin : ∀ {text text' : List Char} {a b : Expr}, Derives ends rank text (some c) a →
      Derives ends rank' text' next b →
      Derives ends rank (text ++ c :: text') next (.binary op a b)) :
    Fillable ends rank next (left ++ .plain c :: right) (.binary op l r) := by
  refine ⟨?_, fun totals ht hd => ?_⟩
  · rw [List.filterMap_append, List.length_append, hl.length, Expr.diceTerms, List.length_append,
      ← hr.length]
    rfl
  · rw [Expr.diceTerms, List.length_append] at ht
    have hle : (left.filterMap Part.dice?).length ≤ totals.length := by
      rw [hl.length, ht]
      exact Nat.le_add_right _ _
    rw [replace_append hle, hl.length, replace, fill]
    refine hjoin (hl.derives _ ?_ fun total h => hd total (List.mem_of_mem_take h))
      (hr.derives _ ?_ fun total h => hd total (List.mem_of_mem_drop h))
    · rw [List.length_take]
      omega
    · rw [List.length_drop]
      omega

theorem Fillable.literal {digits : Digits} (hd : IsDigits digits) :
    Fillable ends .operand next (digits.map .plain) (.literal digits) := by
  refine ⟨?_, fun totals _ _ => ?_⟩
  · rw [List.filterMap_map]
    exact congrArg List.length (List.filterMap_eq_nil_iff.mpr fun _ _ => rfl)
  · rw [replace_plain]
    exact .literal hd

theorem Fillable.dice (written : List Char) (term : DiceTerm) :
    Fillable ends .operand next [.dice written] (.dice term) := by
  refine ⟨rfl, fun totals ht hd => ?_⟩
  obtain ⟨total, rfl⟩ := List.length_eq_one_iff.mp ht
  have htext : replace [total] [.dice written] = total := by
    rw [replace, replace, List.append_nil]
  rw [htext]
  exact .literal (hd total (by simp))

theorem Fillable.group {inner : List Part} (h : Fillable ends .sum (some ')') inner e) :
    Fillable ends .operand next (.plain '(' :: inner ++ [.plain ')']) e := by
  refine ⟨?_, fun totals ht hd => ?_⟩
  · simp only [List.cons_append, List.filterMap_cons, List.filterMap_append, Part.dice?,
      List.filterMap_nil, List.append_nil]
    exact h.length
  · have hle := Nat.le_of_eq (h.length.trans ht.symm)
    rw [List.cons_append, replace, replace_append hle, h.length, ← ht, List.take_length, replace,
      replace]
    exact .group (h.derives totals ht hd)

theorem Fillable.negated {body : List Part} (h : Fillable ends .sum next body e)
    (hn : ends next) : Fillable ends .operand next (.plain '-' :: body) (.negated e) := by
  refine ⟨h.length, fun totals ht hd => ?_⟩
  rw [replace]
  exact .negated (h.derives totals ht hd) hn

theorem parts_join {left right rest : List Char} {c : Char} {pl pr : List Part}
    (hc : Separates c) (hl : parts (left ++ c :: (right ++ rest)) =
      pl ++ parts (c :: (right ++ rest))) (hr : parts (right ++ rest) = pr ++ parts rest) :
    parts (left ++ c :: right ++ rest) = (pl ++ .plain c :: pr) ++ parts rest := by
  rw [List.append_assoc, List.cons_append, hl, parts_plain hc.1, hr]
  simp

theorem parts_of_derives {text rest : List Char} (h : Derives ends rank text next e)
    (hr : rest.head? = next) (hn : Separated next) :
    ∃ phrase, parts (text ++ rest) = phrase ++ parts rest ∧ Fillable ends rank next phrase e := by
  induction h generalizing rest with
  | product _ ih =>
    obtain ⟨phrase, hparts, hfill⟩ := ih hr hn
    exact ⟨phrase, hparts, hfill.length, fun totals ht hd => .product (hfill.derives totals ht hd)⟩
  | operand _ ih =>
    obtain ⟨phrase, hparts, hfill⟩ := ih hr hn
    exact ⟨phrase, hparts, hfill.length, fun totals ht hd => .operand (hfill.derives totals ht hd)⟩
  | @additive left right next l r c op _ hc _ ihl ihr =>
    have hc' := additive?_separates hc
    obtain ⟨pl, hpl, hl⟩ := @ihl (c :: (right ++ rest)) rfl (separated_some hc')
    obtain ⟨pr, hpr, hr'⟩ := ihr hr hn
    exact ⟨_, parts_join hc' hpl hpr, hl.binary hr' fun ha hb => .additive ha hc hb⟩
  | @multiplicative left right next l r c op _ hc _ ihl ihr =>
    have hc' := multiplicative?_separates hc
    obtain ⟨pl, hpl, hl⟩ := @ihl (c :: (right ++ rest)) rfl (separated_some hc')
    obtain ⟨pr, hpr, hr'⟩ := ihr hr hn
    exact ⟨_, parts_join hc' hpl hpr, hl.binary hr' fun ha hb => .multiplicative ha hc hb⟩
  | literal hd => exact ⟨_, parts_digits hd.2 (hr ▸ hn), .literal hd⟩
  | @dice count sides marker next hc hm hs =>
    exact ⟨_, parts_dice hc hm hs (hr ▸ hn), .dice _ _⟩
  | @group inner next e _ ih =>
    obtain ⟨phrase, hparts, hfill⟩ :=
      @ih (')' :: rest) rfl (separated_some (separates_of_mem (by decide)))
    refine ⟨.plain '(' :: phrase ++ [.plain ')'], ?_, hfill.group⟩
    rw [List.append_assoc, List.cons_append, parts_plain (by decide), List.singleton_append, hparts,
      parts_plain (by decide)]
    simp
  | @negated body next e _ hneg ih =>
    obtain ⟨phrase, hparts, hfill⟩ := ih hr hn
    refine ⟨.plain '-' :: phrase, ?_, hfill.negated hneg⟩
    rw [List.cons_append, parts_plain (by decide), hparts]
    rfl

theorem fillable_of_derives {text : List Char} (h : Derives ends .sum text none e) :
    Fillable ends .sum none (parts text) e := by
  have hnone : Separated none := nofun
  obtain ⟨phrase, hparts, hfill⟩ := @parts_of_derives _ _ _ _ text [] h rfl hnone
  rw [List.append_nil, parts_nil, List.append_nil] at hparts
  rwa [hparts]

end Phrases

section Openings

variable {limit : Nat} {front : Front}

theorem staysWithin_numeral {word rest : List Char} (hne : word ≠ [])
    (hw : ∀ c ∈ word, c.isDigit = true ∨ IsMarker c) :
    StaysWithin limit front (word ++ rest) ↔
      front.opened.length ≤ limit ∧ StaysWithin limit ⟨front.opened, false⟩ rest := by
  induction word generalizing front with
  | nil => exact absurd rfl hne
  | cons c word ih =>
    have hread : front.read c = ⟨front.opened, false⟩ := by
      obtain hd | hm := hw c (by simp)
      · exact Front.read_digit hd front
      · exact Front.read_marker hm front
    rw [List.cons_append, staysWithin_cons, hread]
    cases word with
    | nil => exact Iff.rfl
    | cons d word =>
      rw [ih (by simp) fun x hx => hw x (List.mem_cons_of_mem c hx)]
      exact and_self_left

theorem staysWithin_dice {written rest : List Char} (h : IsDice written) :
    StaysWithin limit front (written ++ rest) ↔
      front.opened.length ≤ limit ∧ StaysWithin limit ⟨front.opened, false⟩ rest :=
  staysWithin_numeral h.ne_nil fun _ hc => h.mem hc

theorem staysWithin_digits {digits rest : List Char} (h : IsDigits digits) :
    StaysWithin limit front (digits ++ rest) ↔
      front.opened.length ≤ limit ∧ StaysWithin limit ⟨front.opened, false⟩ rest :=
  staysWithin_numeral h.1 fun c hc => .inl (h.2 c hc)

theorem staysWithin_replace {phrase : List Part} {totals : List Digits}
    (hdice : ∀ written, .dice written ∈ phrase → IsDice written)
    (hd : ∀ total ∈ totals, IsDigits total)
    (h : StaysWithin limit front (phrase.flatMap Part.written)) :
    StaysWithin limit front (replace totals phrase) := by
  induction phrase generalizing front totals with
  | nil => simpa [replace] using h
  | cons part phrase ih =>
    have hrest : ∀ written, .dice written ∈ phrase → IsDice written :=
      fun written hw => hdice written (List.mem_cons_of_mem _ hw)
    rw [List.flatMap_cons] at h
    cases part with
    | plain c =>
      obtain ⟨hopen, hbound⟩ := staysWithin_cons.mp h
      rw [replace]
      exact staysWithin_cons.mpr ⟨hopen, ih hrest hd hbound⟩
    | dice written =>
      have hw : IsDice written := hdice written (by simp)
      obtain ⟨hopen, hbound⟩ := (staysWithin_dice hw).mp h
      cases totals with
      | nil =>
        rw [replace]
        exact (staysWithin_dice hw).mpr ⟨hopen, ih hrest hd hbound⟩
      | cons total totals =>
        have htotals : ∀ other ∈ totals, IsDigits other :=
          fun other ho => hd other (List.mem_cons_of_mem _ ho)
        rw [replace]
        exact (staysWithin_digits (hd total (by simp))).mpr ⟨hopen, ih hrest htotals hbound⟩

theorem staysWithin_of_parse {text : String} {e : Expr} (h : Expr.parse text = .ok e) :
    StaysWithin maxOpen {} text.toList := fun _ hb =>
  length_openAfter_of_run Begins.start (Nat.zero_le _) (parse_eq_ok.mp h) hb

end Openings

/-- A text with totals in place of its dice terms is read as its tree with totals in their place. -/
theorem parse_replace {text : String} {e : Expr} (h : Expr.parse text = .ok e)
    {totals : List Digits} (ht : totals.length = e.diceTerms.length)
    (hd : ∀ total ∈ totals, IsDigits total) :
    Expr.parse (String.ofList (replace totals (parts text.toList))) = .ok (fill e totals) := by
  have hderives := (fillable_of_derives (derives_of_parse h)).derives totals ht hd
  obtain ⟨htext, hdice⟩ := parts_sound text.toList
  -- The limit on openings needs its own argument: the grammar knows nothing of it.
  have hbound : StaysWithin maxOpen {} (replace totals (parts text.toList)) :=
    staysWithin_replace hdice hd (by rw [htext]; exact staysWithin_of_parse h)
  rw [← @String.toList_ofList (replace totals (parts text.toList))] at hderives
  refine parse_of_derives (fun beginning hb _ => ?_) hderives
  rw [String.toList_ofList] at hb
  exact hbound beginning hb

end DiceArithmetic.Proofs.TotalsReading
