import DiceArithmetic.Proofs.Beginnings
import DiceArithmetic.Proofs.Openings

namespace DiceArithmetic.Proofs.Viability

open DiceArithmetic.Expr.Parser
open DiceArithmetic.Proofs.Grammar DiceArithmetic.Proofs.Reading
open DiceArithmetic.Proofs.Beginnings DiceArithmetic.Proofs.Openings

variable {limit n : Nat} {openings : List (Opening × Pending)} {pending : Pending}

theorem last_completes {phase : Phase} {own : List Char} (h : Last phase own) :
    ∃ more e, (∀ c ∈ more, c ≠ '(' ∧ c ≠ '-') ∧
      ∀ next, Derives Greedy .operand (own ++ more) next e := by
  cases h with
  | operand => exact ⟨['0'], _, by simp, fun _ => .literal (.singleton rfl)⟩
  | literal hd =>
    refine ⟨[], .literal own, by simp, fun _ => ?_⟩
    rw [List.append_nil]
    exact .literal hd
  | @marker count c hc hm =>
    refine ⟨['0'], .dice ⟨count, ['0']⟩, by simp, fun _ => ?_⟩
    rw [List.append_assoc]
    exact .dice hc hm (.singleton rfl)
  | @sides count c digits hc hm hd =>
    refine ⟨[], .dice ⟨count, digits⟩, by simp, fun _ => ?_⟩
    rw [List.append_nil]
    exact .dice hc hm hd
  | @closed inner e hinner =>
    refine ⟨[], e, by simp, fun _ => ?_⟩
    rw [List.append_nil]
    exact .group hinner

theorem outer_completes {outer text : List Char} {e : Expr} (h : Outer openings outer)
    (he : ∀ next, Greedy next → Derives Greedy .sum text next e) :
    ∃ rest, (∀ c ∈ rest, c ≠ '(' ∧ c ≠ '-') ∧ Sentence (outer ++ (text ++ rest)) := by
  induction h generalizing text e with
  | nothing =>
    refine ⟨[], by simp, ?_⟩
    rw [List.append_nil]
    exact (he none (.inl rfl)).sentence
  | @opened openings pending opening outer lead c _ hlead hc ih =>
    cases hc with
    | parenthesis =>
      have hgroup : ∀ next, Greedy next →
          Derives Greedy .sum (lead ++ ('(' :: text ++ [')'])) next (pending.endSum e) :=
        fun _ _ => hlead.sum (.group (he (some ')') (.inr rfl)))
      obtain ⟨rest, hplain, hrest⟩ := ih hgroup
      exact ⟨')' :: rest, List.forall_mem_cons.mpr ⟨by decide, hplain⟩, by simpa using hrest⟩
    | minus =>
      have hnegated : ∀ next, Greedy next →
          Derives Greedy .sum (lead ++ '-' :: text) next (pending.endSum (.negated e)) :=
        fun next hn => hlead.sum (.negated (he next hn) hn)
      obtain ⟨rest, hplain, hrest⟩ := ih hnegated
      exact ⟨rest, hplain, by simpa using hrest⟩

/-- What the parser has read can be completed without opening anything more. -/
theorem begins_completes {state : State} {text : List Char} (h : Begins state text) :
    ∃ rest, (∀ c ∈ rest, c ≠ '(' ∧ c ≠ '-') ∧ Sentence (text ++ rest) := by
  cases h with
  | intro houter hlead hlast =>
    obtain ⟨more, e, hmore, he⟩ := last_completes hlast
    obtain ⟨rest, hplain, hrest⟩ := outer_completes houter fun next _ => hlead.sum (he next)
    exact ⟨more ++ rest, List.forall_mem_append.mpr ⟨hmore, hplain⟩, by simpa using hrest⟩

theorem viable_of_begins {state : State} {text : List Char} (h : Begins state text) :
    Viable text := by
  obtain ⟨rest, -, hrest⟩ := begins_completes h
  exact ⟨rest, hrest⟩

theorem readAll_lead {lead : List Char} (h : Lead pending lead) (opened : List Opening) :
    Front.readAll ⟨opened, true⟩ lead = ⟨opened, true⟩ := by
  induction h with
  | nothing => rfl
  | term hl hc =>
    rw [Front.readAll_append, readAll_of_derives_inside hl (additive?_not_greedy hc)]
    exact Front.read_additive hc opened
  | factor _ hl hc ih =>
    rw [Front.readAll_append, ih, Front.readAll_append,
      readAll_of_derives_inside hl (multiplicative?_not_greedy hc)]
    exact Front.read_multiplicative hc _

theorem readAll_outer {outer : List Char} (h : Outer openings outer) :
    Front.readAll {} outer = ⟨openings.map Prod.fst, true⟩ := by
  induction h with
  | nothing => rfl
  | opened _ hlead hc ih =>
    rw [Front.readAll_append, ih, Front.readAll_append, readAll_lead hlead]
    cases hc <;> rfl

theorem opened_last {phase : Phase} {own : List Char} (h : Last phase own)
    (opened : List Opening) : (Front.readAll ⟨opened, true⟩ own).opened = opened := by
  cases h with
  | operand => rfl
  | literal hd => rw [Front.readAll_digits hd]
  | marker hc hm =>
    rw [Front.readAll_append, Front.readAll_digits hc, Front.readAll_cons, Front.read_marker hm]
    rfl
  | sides hc hm hd =>
    rw [Front.readAll_append, Front.readAll_digits hc, Front.readAll_cons, Front.read_marker hm,
      Front.readAll_digits hd]
  | closed hinner =>
    have hgroup : Derives Greedy .operand _ (some '+') _ := .group hinner
    rw [readAll_of_derives_inside hgroup (additive?_not_greedy rfl)]

theorem openAfter_of_begins {state : State} {text : List Char} (h : Begins state text) :
    openAfter text = state.openings.map Prod.fst := by
  cases h with
  | intro houter hlead hlast =>
    rw [openAfter, Front.readAll_append, readAll_outer houter, Front.readAll_append,
      readAll_lead hlead, opened_last hlast]

theorem follow_not_tooManyOpen (state : State) (last : Expr) (c : Char) :
    state.follow last c ≠ .error .tooManyOpen := by
  unfold State.follow
  split <;> try simp
  unfold State.close
  split <;> simp

theorem opens_of_tooManyOpen {phase : Phase} {c : Char}
    (h : State.step limit ⟨openings, pending, phase⟩ c = .error .tooManyOpen) :
    phase = .operand ∧ limit ≤ openings.length ∧ ∃ opening, Opens c opening := by
  cases role phase c with
  | grows hgrows =>
    rw [step_grows hgrows] at h
    cases h
  | opens hp hc =>
    subst hp
    rw [step_opens hc] at h
    exact ⟨rfl, le_of_enter h, _, hc⟩
  | follows _ hstep =>
    rw [hstep] at h
    exact absurd h (follow_not_tooManyOpen _ _ _)
  | unexpected hstep =>
    rw [hstep] at h
    cases h

/-- A text that fails without a position has a beginning that a sentence has too and that leaves
too much open. -/
theorem exists_of_run_eq_none {state : State} {text rest : List Char} (h : Begins state text)
    (hr : run limit state n rest = .error none) :
    ∃ more, more <+: rest ∧ Viable (text ++ more) ∧ limit < (openAfter (text ++ more)).length := by
  obtain ⟨before, left, ⟨openings, pending, phase⟩, rfl, hread, hhalts⟩ :=
    run_halts limit n state rest
  rw [hr] at hhalts
  cases hhalts with
  | @tooManyOpen c left hs =>
    obtain ⟨rfl, hl, opening, hc⟩ := opens_of_tooManyOpen hs
    have hb := (begins_readAll h hread).enter hc
    rw [List.append_assoc] at hb
    have hprefix : before ++ [c] <+: before ++ c :: left :=
      ⟨left, (List.append_cons before c left).symm⟩
    refine ⟨before ++ [c], hprefix, viable_of_begins hb, ?_⟩
    rw [openAfter_of_begins hb, List.length_map, List.length_cons]
    omega

theorem length_endNegations (openings : List (Opening × Pending)) (e : Expr) :
    (endNegations openings e).1.length ≤ openings.length := by
  fun_induction endNegations openings e with
  | case1 outer openings e ih =>
    rw [List.length_cons]
    omega
  | case2 => exact Nat.le_refl _

theorem length_openings_follow {state next : State} {last : Expr} {c : Char}
    (h : state.follow last c = .ok next) : next.openings.length ≤ state.openings.length := by
  unfold State.follow at h
  split at h
  iterate 4
    · cases h
      exact Nat.le_refl _
  · unfold State.close at h
    split at h
    · rename_i heq
      cases h
      have hl := length_endNegations state.openings (state.pending.endSum last)
      rw [heq, List.length_cons] at hl
      exact Nat.le_of_succ_le hl
    · cases h
  · cases h

theorem length_openings_step {state next : State} {c : Char}
    (hl : state.openings.length ≤ limit) (h : state.step limit c = .ok next) :
    next.openings.length ≤ limit := by
  obtain ⟨openings, pending, phase⟩ := state
  obtain ⟨grown, -, rfl⟩ | ⟨opening, -, -, hlt, rfl⟩ | ⟨last, -, hf⟩ := step_cases h
  · exact hl
  · exact hlt
  · exact Nat.le_trans (length_openings_follow hf) hl

theorem length_openings_readAll {state next : State} {text : List Char}
    (hl : state.openings.length ≤ limit) (hr : readAll limit state text = .ok next) :
    next.openings.length ≤ limit := by
  induction text generalizing state with
  | nil =>
    cases hr
    exact hl
  | cons c text ih =>
    obtain ⟨mid, hs, hrest⟩ := readAll_cons_eq_ok hr
    exact ih (length_openings_step hl hs) hrest

theorem length_openAfter_of_readAll {state next : State} {text rest more : List Char}
    (h : Begins state text) (hl : state.openings.length ≤ limit)
    (hr : readAll limit state rest = .ok next) (hm : more <+: rest) :
    (openAfter (text ++ more)).length ≤ limit := by
  obtain ⟨left, rfl⟩ := hm
  obtain ⟨mid, hmid, -⟩ := readAll_append_eq_ok hr
  rw [openAfter_of_begins (begins_readAll h hmid), List.length_map]
  exact length_openings_readAll hl hmid

theorem length_openAfter_of_run {state : State} {text rest more : List Char} {e : Expr}
    (h : Begins state text) (hl : state.openings.length ≤ limit)
    (hr : run limit state n rest = .ok e) (hm : more <+: rest) :
    (openAfter (text ++ more)).length ≤ limit := by
  obtain ⟨before, left, last, rfl, hread, hhalts⟩ := run_halts limit n state rest
  rw [hr] at hhalts
  cases hhalts with
  | finished hf =>
    rw [List.append_nil] at hm
    exact length_openAfter_of_readAll h hl hread hm

end DiceArithmetic.Proofs.Viability
