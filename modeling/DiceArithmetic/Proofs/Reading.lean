import DiceArithmetic.Proofs.Grammar

namespace DiceArithmetic.Proofs.Reading

open DiceArithmetic.Expr.Parser
open DiceArithmetic.Proofs.Grammar

variable {limit limit' n : Nat} {openings : List (Opening × Pending)} {pending : Pending}

theorem follow_additive {c : Char} {op : Operator} (h : additive? c = some op) (state : State)
    (last : Expr) : state.follow last c = .ok (state.awaitTerm last op) := by
  obtain ⟨rfl, rfl⟩ | ⟨rfl, rfl⟩ := additive?_cases h <;> rfl

theorem follow_multiplicative {c : Char} {op : Operator} (h : multiplicative? c = some op)
    (state : State) (last : Expr) : state.follow last c = .ok (state.awaitFactor last op) := by
  obtain ⟨rfl, rfl⟩ | ⟨rfl, rfl⟩ := multiplicative?_cases h <;> rfl

inductive Opens : Char → Opening → Prop
  | parenthesis : Opens '(' .parenthesis
  | minus : Opens '-' .minus

theorem step_opens {c : Char} {opening : Opening} (h : Opens c opening) :
    State.step limit ⟨openings, pending, .operand⟩ c =
      State.enter limit ⟨openings, pending, .operand⟩ opening := by
  cases h <;> rfl

theorem step_enter {c : Char} {opening : Opening} (h : Opens c opening)
    (hl : openings.length < limit) : State.step limit ⟨openings, pending, .operand⟩ c =
      .ok ⟨(opening, pending) :: openings, {}, .operand⟩ := by
  rw [step_opens h, State.enter, if_pos hl]

theorem enter_eq_ok {opening : Opening} {phase : Phase} {next : State}
    (h : State.enter limit ⟨openings, pending, phase⟩ opening = .ok next) :
    openings.length < limit ∧ next = ⟨(opening, pending) :: openings, {}, .operand⟩ := by
  unfold State.enter at h
  split at h
  · exact ⟨‹_›, (Except.ok.inj h).symm⟩
  · cases h

theorem le_of_enter {opening : Opening} {phase : Phase}
    (h : State.enter limit ⟨openings, pending, phase⟩ opening = .error .tooManyOpen) :
    limit ≤ openings.length := by
  unfold State.enter at h
  split at h
  · cases h
  · exact Nat.le_of_not_lt ‹_›

inductive Grows (c : Char) : Phase → Phase → Prop
  | literal : c.isDigit = true → Grows c .operand (.literal [c])
  | digit {digits} : c.isDigit = true → Grows c (.literal digits) (.literal (c :: digits))
  | marker {digits} : IsMarker c → Grows c (.literal digits) (.marker digits.reverse)
  | sides {count} : c.isDigit = true → Grows c (.marker count) (.sides count [c])
  | side {count digits} : c.isDigit = true →
      Grows c (.sides count digits) (.sides count (c :: digits))

theorem step_grows {phase grown : Phase} {c : Char} (h : Grows c phase grown) :
    State.step limit ⟨openings, pending, phase⟩ c = .ok ⟨openings, pending, grown⟩ := by
  cases h with
  | literal hd | digit hd | sides hd | side hd => simp [State.step, hd]
  | marker hm => obtain rfl | rfl := hm <;> rfl

/-- Behind a complete operand only the tree counts, and no longer how it was written. -/
theorem step_of_operand? {phase : Phase} {last : Expr} (h : phase.operand? = some last) {c : Char}
    (hc : Separates c) : State.step limit ⟨openings, pending, phase⟩ c =
      State.follow ⟨openings, pending, phase⟩ last c := by
  obtain ⟨hd, hm⟩ := hc
  unfold IsMarker at hm
  cases phase with
  | operand | marker => simp [Phase.operand?] at h
  | literal | sides | closed =>
    simp only [Phase.operand?, Option.some.injEq] at h
    subst h
    simp [State.step, hd, hm]

/-- What a character is to what was read last: more of it, the beginning of something in the place
of an operand, the first one behind a complete operand, or nothing that could stand there. -/
inductive Role (phase : Phase) (c : Char) : Prop
  | grows {grown} : Grows c phase grown → Role phase c
  | opens {opening} : phase = .operand → Opens c opening → Role phase c
  | follows {last} : phase.operand? = some last →
      (∀ limit openings pending, State.step limit ⟨openings, pending, phase⟩ c =
        State.follow ⟨openings, pending, phase⟩ last c) → Role phase c
  | unexpected : (∀ limit openings pending,
      State.step limit ⟨openings, pending, phase⟩ c = .error .unexpected) → Role phase c

theorem role_of_digit {c : Char} (hd : c.isDigit = true) (phase : Phase) : Role phase c := by
  cases phase with
  | operand => exact .grows (.literal hd)
  | literal digits => exact .grows (.digit hd)
  | marker count => exact .grows (.sides hd)
  | sides count digits => exact .grows (.side hd)
  | closed e => exact .follows rfl fun _ _ _ => rfl

theorem role_of_not_digit {c : Char} (hd : c.isDigit = false) (phase : Phase) : Role phase c := by
  cases phase with
  | operand =>
    by_cases hpar : c = '('
    · subst hpar
      exact .opens rfl .parenthesis
    by_cases hm : c = '-'
    · subst hm
      exact .opens rfl .minus
    · exact .unexpected fun _ _ _ => by simp [State.step, hd, hpar, hm]
  | literal digits =>
    by_cases hm : IsMarker c
    · exact .grows (.marker hm)
    · exact .follows rfl fun _ _ _ => step_of_operand? rfl ⟨hd, hm⟩
  | marker count => exact .unexpected fun _ _ _ => by simp [State.step, hd]
  | sides count digits => exact .follows rfl fun _ _ _ => by simp [State.step, hd]
  | closed e => exact .follows rfl fun _ _ _ => rfl

theorem role (phase : Phase) (c : Char) : Role phase c := by
  cases hd : c.isDigit with
  | true => exact role_of_digit hd phase
  | false => exact role_of_not_digit hd phase

/-- All that reading a character can do: go on with the last operand, open something in its place,
or stand behind it. -/
theorem step_cases {phase : Phase} {c : Char} {next : State}
    (h : State.step limit ⟨openings, pending, phase⟩ c = .ok next) :
    (∃ grown, Grows c phase grown ∧ next = ⟨openings, pending, grown⟩) ∨
    (∃ opening, phase = .operand ∧ Opens c opening ∧ openings.length < limit ∧
      next = ⟨(opening, pending) :: openings, {}, .operand⟩) ∨
    (∃ last, phase.operand? = some last ∧
      State.follow ⟨openings, pending, phase⟩ last c = .ok next) := by
  cases role phase c with
  | grows hgrows =>
    rw [step_grows hgrows] at h
    exact .inl ⟨_, hgrows, (Except.ok.inj h).symm⟩
  | opens hp hc =>
    subst hp
    rw [step_opens hc] at h
    exact .inr (.inl ⟨_, rfl, hc, enter_eq_ok h⟩)
  | follows hlast hstep =>
    rw [hstep] at h
    exact .inr (.inr ⟨_, hlast, h⟩)
  | unexpected hstep =>
    rw [hstep] at h
    cases h

def readAll (limit : Nat) (state : State) (text : List Char) : Except Stop State :=
  text.foldlM (State.step limit) state

theorem readAll_cons {state mid : State} {c : Char} (h : state.step limit c = .ok mid)
    (text : List Char) : readAll limit state (c :: text) = readAll limit mid text := by
  rw [readAll, List.foldlM_cons, h]
  rfl

theorem readAll_append {state mid : State} {text : List Char}
    (h : readAll limit state text = .ok mid) (more : List Char) :
    readAll limit state (text ++ more) = readAll limit mid more := by
  rw [readAll] at h
  rw [readAll, List.foldlM_append, h]
  rfl

theorem run_of_readAll {state mid : State} {text : List Char}
    (h : readAll limit state text = .ok mid) (rest : List Char) :
    run limit state n (text ++ rest) = run limit mid (n + text.length) rest := by
  induction text generalizing state n with
  | nil =>
    obtain rfl : state = mid := Except.ok.inj h
    rfl
  | cons c text ih =>
    cases hs : state.step limit c with
    | error stop =>
      rw [readAll, List.foldlM_cons, hs] at h
      cases h
    | ok next =>
      rw [readAll_cons hs] at h
      have hpos : n + (c :: text).length = n + 1 + text.length := by
        rw [List.length_cons]; omega
      rw [hpos, ← ih h, List.cons_append, run, hs]

theorem readAll_cons_eq_ok {state next : State} {c : Char} {text : List Char}
    (h : readAll limit state (c :: text) = .ok next) :
    ∃ mid, state.step limit c = .ok mid ∧ readAll limit mid text = .ok next := by
  cases hs : state.step limit c with
  | ok mid => exact ⟨mid, rfl, by rwa [readAll_cons hs] at h⟩
  | error stop =>
    rw [readAll, List.foldlM_cons, hs] at h
    cases h

theorem readAll_append_eq_ok {state next : State} {text more : List Char}
    (h : readAll limit state (text ++ more) = .ok next) :
    ∃ mid, readAll limit state text = .ok mid ∧ readAll limit mid more = .ok next := by
  induction text generalizing state with
  | nil => exact ⟨state, rfl, h⟩
  | cons c text ih =>
    obtain ⟨mid, hs, hr⟩ := readAll_cons_eq_ok h
    obtain ⟨last, htext, hmore⟩ := ih hr
    exact ⟨last, by rwa [readAll_cons hs], hmore⟩

inductive Halts (limit : Nat) (last : State) (place : Nat) :
    List Char → Except (Option Nat) Expr → Prop
  | finished {e} : last.finish? = some e → Halts limit last place [] (.ok e)
  | unfinished : last.finish? = none → Halts limit last place [] (.error (some place))
  | unexpected {c rest} : last.step limit c = .error .unexpected →
      Halts limit last place (c :: rest) (.error (some place))
  | tooManyOpen {c rest} : last.step limit c = .error .tooManyOpen →
      Halts limit last place (c :: rest) (.error none)

/-- A run reads a text to its end, or up to the first character that it cannot read. -/
theorem run_halts (limit n : Nat) (state : State) (text : List Char) :
    ∃ before rest last, text = before ++ rest ∧ readAll limit state before = .ok last ∧
      Halts limit last (n + before.length) rest (run limit state n text) := by
  induction text generalizing state n with
  | nil =>
    refine ⟨[], [], state, rfl, rfl, ?_⟩
    rw [run]
    cases hf : state.finish? with
    | none => exact .unfinished hf
    | some e => exact .finished hf
  | cons c text ih =>
    rw [run]
    cases hs : state.step limit c with
    | ok mid =>
      obtain ⟨before, rest, last, rfl, hread, hhalts⟩ := ih (n + 1) mid
      have hplace : n + 1 + before.length = n + (c :: before).length := by
        rw [List.length_cons]; omega
      rw [hplace] at hhalts
      exact ⟨c :: before, rest, last, rfl, by rwa [readAll_cons hs], hhalts⟩
    | error stop =>
      refine ⟨[], c :: text, state, rfl, rfl, ?_⟩
      cases stop with
      | unexpected => exact .unexpected hs
      | tooManyOpen => exact .tooManyOpen hs

section Digits

theorem readAll_digits {phase : Digits → Phase}
    (hstep : ∀ digits c, c.isDigit = true →
      State.step limit ⟨openings, pending, phase digits⟩ c =
        .ok ⟨openings, pending, phase (c :: digits)⟩)
    {more : List Char} (hm : ∀ c ∈ more, c.isDigit = true) (digits : Digits) :
    readAll limit ⟨openings, pending, phase digits⟩ more =
      .ok ⟨openings, pending, phase (more.reverse ++ digits)⟩ := by
  induction more generalizing digits with
  | nil => rfl
  | cons c more ih =>
    rw [readAll_cons (hstep digits c (hm c (by simp))),
      ih (fun x hx => hm x (List.mem_cons_of_mem c hx)), List.reverse_cons, List.append_assoc,
      List.singleton_append]

theorem readAll_group {begin : Phase} {phase : Digits → Phase}
    (hfirst : ∀ c, c.isDigit = true → State.step limit ⟨openings, pending, begin⟩ c =
      .ok ⟨openings, pending, phase [c]⟩)
    (hstep : ∀ digits c, c.isDigit = true →
      State.step limit ⟨openings, pending, phase digits⟩ c =
        .ok ⟨openings, pending, phase (c :: digits)⟩)
    {digits : List Char} (hd : IsDigits digits) :
    readAll limit ⟨openings, pending, begin⟩ digits =
      .ok ⟨openings, pending, phase digits.reverse⟩ := by
  obtain ⟨hne, hall⟩ := hd
  cases digits with
  | nil => exact absurd rfl hne
  | cons c digits =>
    rw [readAll_cons (hfirst c (hall c (by simp))),
      readAll_digits hstep (fun x hx => hall x (List.mem_cons_of_mem c hx)), List.reverse_cons]

theorem readAll_literal {digits : List Char} (hd : IsDigits digits) :
    readAll limit ⟨openings, pending, .operand⟩ digits =
      .ok ⟨openings, pending, .literal digits.reverse⟩ :=
  readAll_group (fun _ hc => step_grows (.literal hc)) (fun _ _ hc => step_grows (.digit hc)) hd

theorem readAll_dice {count sides : List Char} {marker : Char} (hc : IsDigits count)
    (hm : IsMarker marker) (hs : IsDigits sides) :
    readAll limit ⟨openings, pending, .operand⟩ (count ++ marker :: sides) =
      .ok ⟨openings, pending, .sides count sides.reverse⟩ := by
  have hmark : State.step limit ⟨openings, pending, .literal count.reverse⟩ marker =
      .ok ⟨openings, pending, .marker count⟩ := by
    rw [step_grows (.marker hm), List.reverse_reverse]
  rw [readAll_append (readAll_literal hc), readAll_cons hmark]
  exact readAll_group (fun _ hc => step_grows (.sides hc)) (fun _ _ hc => step_grows (.side hc)) hs

end Digits

section Limit

theorem enter_of_le (hle : limit ≤ limit') {state : State} {opening : Opening}
    (h : state.enter limit opening ≠ .error .tooManyOpen) :
    state.enter limit' opening = state.enter limit opening := by
  unfold State.enter at h ⊢
  by_cases hl : state.openings.length < limit
  · rw [if_pos hl, if_pos (Nat.lt_of_lt_of_le hl hle)]
  · exact absurd (if_neg hl) h

theorem step_of_le (hle : limit ≤ limit') {state : State} {c : Char}
    (h : state.step limit c ≠ .error .tooManyOpen) : state.step limit' c = state.step limit c := by
  obtain ⟨openings, pending, phase⟩ := state
  cases role phase c with
  | grows hgrows => rw [step_grows hgrows, step_grows hgrows]
  | opens hp hc =>
    subst hp
    rw [step_opens hc] at h
    rw [step_opens hc, step_opens hc]
    exact enter_of_le hle h
  | follows _ hstep | unexpected hstep => rw [hstep, hstep]

theorem run_of_le (hle : limit ≤ limit') {state : State} {text : List Char}
    (h : run limit state n text ≠ .error none) :
    run limit' state n text = run limit state n text := by
  induction text generalizing state n with
  | nil => rfl
  | cons c text ih =>
    have hstep : state.step limit' c = state.step limit c :=
      step_of_le hle fun ht => h (by rw [run, ht])
    rw [run] at h
    rw [run, run, hstep]
    cases hs : state.step limit c with
    | ok next => exact ih (by simpa only [hs] using h)
    | error stop => cases stop <;> rfl

end Limit

end DiceArithmetic.Proofs.Reading
