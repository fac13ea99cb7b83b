import DiceArithmetic.Proofs.Reading

namespace DiceArithmetic.Proofs.Beginnings

open DiceArithmetic.Expr.Parser
open DiceArithmetic.Proofs.Grammar DiceArithmetic.Proofs.Reading

variable {limit n : Nat} {openings : List (Opening × Pending)} {pending : Pending}

/-- The text of what waits in front of an operand: a sum with an additive operator behind it, and
then a product with a multiplicative one. -/
inductive Lead : Pending → List Char → Prop
  | nothing : Lead {} []
  | term {text c l op} : Derives Greedy .sum text (some c) l → additive? c = some op →
      Lead ⟨some (l, op), none⟩ (text ++ [c])
  | factor {sum lead text c l op} : Lead ⟨sum, none⟩ lead →
      Derives Greedy .product text (some c) l → multiplicative? c = some op →
      Lead ⟨sum, some (l, op)⟩ (lead ++ (text ++ [c]))

inductive Outer : List (Opening × Pending) → List Char → Prop
  | nothing : Outer [] []
  | opened {openings pending opening outer lead c} : Outer openings outer → Lead pending lead →
      Opens c opening → Outer ((opening, pending) :: openings) (outer ++ (lead ++ [c]))

inductive Last : Phase → List Char → Prop
  | operand : Last .operand []
  | literal {digits} : IsDigits digits → Last (.literal digits.reverse) digits
  | marker {count c} : IsDigits count → IsMarker c → Last (.marker count) (count ++ [c])
  | sides {count c digits} : IsDigits count → IsMarker c → IsDigits digits →
      Last (.sides count digits.reverse) (count ++ c :: digits)
  | closed {inner e} : Derives Greedy .sum inner (some ')') e →
      Last (.closed e) ('(' :: inner ++ [')'])

/-- The state belongs to a text that has been read so far. -/
inductive Begins : State → List Char → Prop
  | intro {openings pending phase outer lead last} : Outer openings outer → Lead pending lead →
      Last phase last → Begins ⟨openings, pending, phase⟩ (outer ++ (lead ++ last))

theorem Begins.start : Begins {} [] :=
  .intro .nothing .nothing .operand

theorem Lead.product {lead : List Char} (h : Lead pending lead) :
    ∃ before own, lead = before ++ own ∧ Lead ⟨pending.sum, none⟩ before ∧
      ∀ {text next e}, Derives Greedy .operand text next e →
        Derives Greedy .product (own ++ text) next (pending.endProduct e) := by
  cases h with
  | nothing => exact ⟨[], [], rfl, .nothing, fun he => .operand he⟩
  | @term text c l op hl hc =>
    exact ⟨text ++ [c], [], by simp, .term hl hc, fun he => .operand he⟩
  | @factor sum lead text c l op hlead hl hc =>
    refine ⟨lead, text ++ [c], rfl, hlead, fun he => ?_⟩
    rw [List.append_assoc]
    exact .multiplicative hl hc he

theorem Lead.sum {lead text : List Char} {next : Option Char} {e : Expr} (h : Lead pending lead)
    (he : Derives Greedy .operand text next e) :
    Derives Greedy .sum (lead ++ text) next (pending.endSum e) := by
  obtain ⟨before, own, rfl, hbefore, hown⟩ := h.product
  have hproduct := hown he
  unfold Pending.endSum
  generalize pending.endProduct e = tree at hproduct ⊢
  generalize pending.sum = waiting at hbefore ⊢
  cases hbefore with
  | nothing => exact .product hproduct
  | term hl hc =>
    rw [List.append_assoc, List.append_assoc]
    exact .additive hl hc hproduct

theorem Last.derives {phase : Phase} {text : List Char} (h : Last phase text) {e : Expr}
    (he : phase.operand? = some e) (next : Option Char) : Derives Greedy .operand text next e := by
  cases h with
  | operand | marker => simp [Phase.operand?] at he
  | literal hd =>
    rw [Phase.operand?, List.reverse_reverse, Option.some.injEq] at he
    exact he ▸ .literal hd
  | sides hc hm hd =>
    rw [Phase.operand?, List.reverse_reverse, Option.some.injEq] at he
    exact he ▸ .dice hc hm hd
  | closed hinner =>
    rw [Phase.operand?, Option.some.injEq] at he
    exact he ▸ .group hinner

theorem Outer.closeNegations {outer text : List Char} {next : Option Char} {e : Expr}
    (h : Outer openings outer) (hn : Greedy next) (he : Derives Greedy .sum text next e) :
    ∃ outer' text', outer ++ text = outer' ++ text' ∧
      Outer (endNegations openings e).1 outer' ∧
      Derives Greedy .sum text' next (endNegations openings e).2 := by
  induction h generalizing text e with
  | nothing => exact ⟨[], text, rfl, .nothing, he⟩
  | @opened openings pending opening outer lead c houter hlead hc ih =>
    cases hc with
    | parenthesis => exact ⟨_, text, rfl, .opened houter hlead .parenthesis, he⟩
    | minus =>
      have hsum := hlead.sum (.negated he hn)
      obtain ⟨outer', text', htext, houter', he'⟩ := ih hsum
      refine ⟨outer', text', ?_, houter', he'⟩
      rw [← htext]
      simp

theorem Begins.enter {text : List Char} {c : Char} {opening : Opening}
    (h : Begins ⟨openings, pending, .operand⟩ text) (hc : Opens c opening) :
    Begins ⟨(opening, pending) :: openings, {}, .operand⟩ (text ++ [c]) := by
  cases h with
  | intro houter hlead hlast =>
    cases hlast
    have h := Begins.intro (.opened houter hlead hc) .nothing .operand
    simpa using h

section Following

variable {state next : State} {text : List Char} {last : Expr} {c : Char} {op : Operator}

theorem Begins.awaitTerm (h : Begins state text) (hl : state.phase.operand? = some last)
    (hop : additive? c = some op) : Begins (state.awaitTerm last op) (text ++ [c]) := by
  cases h with
  | intro houter hlead hlast =>
    have hsum := hlead.sum (hlast.derives hl (some c))
    have h := Begins.intro houter (.term hsum hop) .operand
    simpa [State.awaitTerm] using h

theorem Begins.awaitFactor (h : Begins state text) (hl : state.phase.operand? = some last)
    (hop : multiplicative? c = some op) : Begins (state.awaitFactor last op) (text ++ [c]) := by
  cases h with
  | intro houter hlead hlast =>
    obtain ⟨before, first, rfl, hbefore, hfirst⟩ := hlead.product
    have hproduct := hfirst (hlast.derives hl (some c))
    have h := Begins.intro houter (.factor hbefore hproduct hop) .operand
    simpa [State.awaitFactor] using h

theorem Begins.close (h : Begins state text) (hl : state.phase.operand? = some last)
    (hs : state.close last = .ok next) : Begins next (text ++ [')']) := by
  cases h with
  | intro houter hlead hlast =>
    obtain ⟨outer', text', htext, houter', he⟩ :=
      houter.closeNegations (.inr rfl) (hlead.sum (hlast.derives hl (some ')')))
    unfold State.close at hs
    split at hs
    · rename_i heq
      cases hs
      dsimp only at heq
      rw [heq] at houter' he
      cases houter' with
      | opened hout hld hc =>
        cases hc
        have h := Begins.intro hout hld (.closed he)
        rw [htext]
        simpa using h
    · cases hs

theorem Begins.follow (h : Begins state text) (hl : state.phase.operand? = some last)
    (hs : state.follow last c = .ok next) : Begins next (text ++ [c]) := by
  unfold State.follow at hs
  split at hs
  case h_1 | h_2 =>
    cases hs
    exact h.awaitTerm hl rfl
  case h_3 | h_4 =>
    cases hs
    exact h.awaitFactor hl rfl
  case h_5 => exact h.close hl hs
  case h_6 => cases hs

end Following

theorem Last.grow {phase grown : Phase} {own : List Char} {c : Char} (h : Last phase own)
    (hg : Grows c phase grown) : Last grown (own ++ [c]) := by
  cases hg with
  | literal hd =>
    cases h
    exact .literal (.singleton hd)
  | digit hd =>
    cases h with
    | literal hds => simpa using Last.literal (hds.concat hd)
  | marker hm =>
    cases h with
    | literal hds => simpa using Last.marker hds hm
  | sides hd =>
    cases h with
    | marker hc hm => simpa using Last.sides hc hm (.singleton hd)
  | side hd =>
    cases h with
    | sides hc hm hds => simpa using Last.sides hc hm (hds.concat hd)

/-- Reading a character keeps the state in step with the text. -/
theorem Begins.step {state next : State} {text : List Char} {c : Char} (h : Begins state text)
    (hs : state.step limit c = .ok next) : Begins next (text ++ [c]) := by
  obtain ⟨openings, pending, phase⟩ := state
  obtain ⟨grown, hg, rfl⟩ | ⟨opening, rfl, hc, -, rfl⟩ | ⟨last, hl, hf⟩ := step_cases hs
  · cases h with
    | intro houter hlead hlast =>
      have h := Begins.intro houter hlead (hlast.grow hg)
      simpa using h
  · exact h.enter hc
  · exact h.follow hl hf

theorem Begins.finish {state : State} {text : List Char} {e : Expr} (h : Begins state text)
    (hf : state.finish? = some e) : Derives Greedy .sum text none e := by
  cases h with
  | @intro openings pending phase outer lead own houter hlead hlast =>
    unfold State.finish? at hf
    split at hf
    · cases hf
    · rename_i last hl
      obtain ⟨outer', text', htext, houter', he⟩ :=
        houter.closeNegations (.inl rfl) (hlead.sum (hlast.derives hl none))
      split at hf
      · rename_i heq
        cases hf
        dsimp only at heq
        rw [heq] at houter' he
        cases houter'
        rw [htext]
        exact he
      · cases hf

theorem begins_readAll {state next : State} {text rest : List Char} (h : Begins state text)
    (hr : readAll limit state rest = .ok next) : Begins next (text ++ rest) := by
  induction rest generalizing state text with
  | nil =>
    cases hr
    rwa [List.append_nil]
  | cons c rest ih =>
    obtain ⟨mid, hs, hrest⟩ := readAll_cons_eq_ok hr
    rw [List.append_cons]
    exact ih (h.step hs) hrest

/-- What the parser reads from a state behind the beginning of a text completes a text of the
greedy grammar. -/
theorem derives_of_run {state : State} {text rest : List Char} {e : Expr} (h : Begins state text)
    (hr : run limit state n rest = .ok e) : Derives Greedy .sum (text ++ rest) none e := by
  obtain ⟨before, left, last, rfl, hread, hhalts⟩ := run_halts limit n state rest
  rw [hr] at hhalts
  cases hhalts with
  | finished hf =>
    rw [List.append_nil]
    exact (begins_readAll h hread).finish hf

end DiceArithmetic.Proofs.Beginnings
