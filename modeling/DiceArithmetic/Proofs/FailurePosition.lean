import Mathlib.Data.List.Induction
import DiceArithmetic.Proofs.Nesting

namespace DiceArithmetic.Proofs.FailurePosition

open DiceArithmetic.Expr.Parser
open DiceArithmetic.Proofs.Grammar DiceArithmetic.Proofs.Openings
open DiceArithmetic.Proofs.Reading DiceArithmetic.Proofs.PlainReading
open DiceArithmetic.Proofs.Beginnings DiceArithmetic.Proofs.Viability
open DiceArithmetic.Proofs.ParseExactness DiceArithmetic.Proofs.Nesting

section Viable

variable {text beginning other : List Char}

theorem viable_nil : Viable [] :=
  ⟨['0'], .literal ['0'], .product (.operand (.literal (.singleton rfl)))⟩

theorem viable_beginning (h : Viable text) (hb : beginning <+: text) : Viable beginning := by
  obtain ⟨more, rfl⟩ := hb
  obtain ⟨rest, hs⟩ := h
  exact ⟨more ++ rest, by rwa [← List.append_assoc]⟩

/-- The longest beginning of a text that also begins a sentence. -/
structure Longest (beginning text : List Char) : Prop where
  begins : beginning <+: text
  viable : Viable beginning
  longest : ∀ other, other <+: text → Viable other → other.length ≤ beginning.length

theorem Longest.prefix_of_viable (h : Longest beginning text) (ho : other <+: text)
    (hv : Viable other) : other <+: beginning :=
  List.prefix_of_prefix_length_le ho h.begins (h.longest other ho hv)

theorem Longest.unique (h : Longest beginning text) (h' : Longest other text) :
    beginning = other := by
  have hle := h'.prefix_of_viable h.begins h.viable
  exact hle.eq_of_length_le (h.longest other h'.begins h'.viable)

theorem exists_longest (text : List Char) : ∃ beginning, Longest beginning text := by
  induction text using List.reverseRecOn with
  | nil => exact ⟨[], List.nil_prefix, viable_nil, fun other ho _ => ho.length_le⟩
  | append_singleton text c ih =>
    by_cases hv : Viable (text ++ [c])
    · exact ⟨text ++ [c], List.prefix_rfl, hv, fun other ho _ => ho.length_le⟩
    · obtain ⟨beginning, hb⟩ := ih
      have hbegins := hb.begins.trans (List.prefix_append text [c])
      refine ⟨beginning, hbegins, hb.viable, fun other ho hvo => ?_⟩
      obtain rfl | ho := List.prefix_concat_iff.mp ho
      · exact absurd hvo hv
      · exact hb.longest other ho hvo

end Viable

section Reading

variable {limit n p : Nat} {state : State} {text before rest : List Char}

theorem staysWithin_of_readAll (hr : readAll limit {} text = .ok state) :
    StaysWithin limit {} text := fun _ hb =>
  length_openAfter_of_readAll Begins.start (Nat.zero_le limit) hr hb

theorem not_viable_of_unexpected {c : Char} (hr : readAll limit {} before = .ok state)
    (hs : state.step limit c = .error .unexpected) : ¬ Viable (before ++ [c]) := by
  rintro ⟨rest, hsentence⟩
  rw [List.append_assoc, List.singleton_append] at hsentence
  have hstop : run limit {} 0 (before ++ c :: rest) = .error (some (0 + before.length)) := by
    rw [run_of_readAll hr, run, hs]
  -- With room for all openings the parser accepts the sentence, but it stops in the same place.
  obtain ⟨e, he⟩ := run_of_sentence hsentence (Nat.le_max_right limit _)
  rw [run_of_le (Nat.le_max_left _ _) (by rw [hstop]; simp), hstop] at he
  cases he

/-- A run that halts with a position has read the longest viable beginning. -/
theorem longest_of_halts (hr : readAll limit {} before = .ok state)
    (h : Halts limit state p rest (.error (some p))) : Longest before (before ++ rest) := by
  refine ⟨List.prefix_append _ _, viable_of_begins (begins_readAll Begins.start hr), ?_⟩
  intro other ho hv
  cases h with
  | unfinished =>
    rw [List.append_nil] at ho
    exact ho.length_le
  | @unexpected c rest hs =>
    apply Nat.le_of_not_lt
    intro hlt
    rw [List.append_cons] at ho
    have hnext : before ++ [c] <+: other :=
      List.prefix_of_prefix_length_le (List.prefix_append _ _) ho
        (by rw [List.length_append, List.length_singleton]; omega)
    exact not_viable_of_unexpected hr hs (viable_beginning hv hnext)

theorem readAll_of_run (h : run limit {} 0 text = .error (some p)) :
    ∃ before rest last, text = before ++ rest ∧ p = before.length ∧
      readAll limit {} before = .ok last ∧ Longest before text := by
  obtain ⟨before, rest, last, rfl, hread, hhalts⟩ := run_halts limit 0 {} text
  rw [h, Nat.zero_add] at hhalts
  obtain rfl : p = before.length := by cases hhalts <;> rfl
  exact ⟨before, rest, last, rfl, rfl, hread, longest_of_halts hread hhalts⟩

end Reading

section Failing

variable {limit : Nat} {text beginning : List Char}

theorem run_eq_none_iff (h : Longest beginning text) :
    run limit {} 0 text = .error none ↔ ¬ StaysWithin limit {} beginning := by
  constructor
  · intro hrun hwithin
    obtain ⟨more, hm, hv, hopen⟩ := exists_of_run_eq_none Begins.start hrun
    rw [List.nil_append] at hv hopen
    exact Nat.not_le_of_lt hopen (hwithin more (h.prefix_of_viable hm hv))
  · intro hnot
    cases hrun : run limit {} 0 text with
    | ok e =>
      refine absurd (fun other ho => ?_) hnot
      exact length_openAfter_of_run Begins.start (Nat.zero_le limit) hrun (ho.trans h.begins)
    | error position =>
      cases position with
      | none => rfl
      | some p =>
        obtain ⟨before, rest, last, rfl, -, hread, hlongest⟩ := readAll_of_run hrun
        rw [h.unique hlongest] at hnot
        exact absurd (staysWithin_of_readAll hread) hnot

theorem position_of_run {p : Nat} (h : Longest beginning text)
    (hrun : run limit {} 0 text = .error (some p)) : p = beginning.length := by
  obtain ⟨before, rest, last, rfl, rfl, -, hlongest⟩ := readAll_of_run hrun
  rw [h.unique hlongest]

theorem parse_eq_error {text : String} {position : Option Nat} :
    Expr.parse text = .error (.unparsable text position) ↔
      run maxOpen {} 0 text.toList = .error position := by
  unfold Expr.parse
  cases run maxOpen {} 0 text.toList <;> simp [Except.mapError]

theorem parse_of_sentence (h : StaysWithin maxOpen {} text) (hs : Sentence text) :
    ∃ e, Expr.parse (String.ofList text) = .ok e := by
  obtain ⟨e, he⟩ := greedy_of_sentence hs
  exact ⟨e, parse_ofList h.within he⟩

theorem exists_parse_completion (hw : StaysWithin maxOpen {} beginning) (hv : Viable beginning) :
    ∃ rest e, Expr.parse (String.ofList (beginning ++ rest)) = .ok e := by
  have hlongest : Longest beginning beginning := ⟨List.prefix_rfl, hv, fun _ ho _ => ho.length_le⟩
  cases hrun : run maxOpen {} 0 beginning with
  | ok e =>
    refine ⟨[], e, ?_⟩
    rwa [parse_eq_ok, String.toList_ofList, List.append_nil]
  | error position =>
    cases position with
    | none => exact absurd hw ((run_eq_none_iff hlongest).mp hrun)
    | some p =>
      obtain ⟨before, left, last, rfl, -, hread, hbehind⟩ := readAll_of_run hrun
      have hbefore := hlongest.unique hbehind
      -- All of the text has been read, so only what it leaves open is to be closed.
      rw [hbefore] at hw ⊢
      obtain ⟨rest, hplain, hs⟩ := begins_completes (begins_readAll Begins.start hread)
      have hopen := hw before List.prefix_rfl
      obtain ⟨e, he⟩ := parse_of_sentence (hw.append (staysWithin_of_plain hopen hplain)) hs
      exact ⟨rest, e, he⟩

end Failing

/-- A text has a longest beginning that also begins a sentence. Where that has more than 150 open,
the text is not read, even if it is a sentence, and no position is given. Else a text that is not
read fails just behind it: up to there it can be completed to one that is read, and with one
character more to no sentence at all. -/
theorem parse_fails_behind_longest (text : String) :
    (∃ beginning, Longest beginning text.toList) ∧
    ∀ beginning, Longest beginning text.toList →
      (¬ StaysWithin 150 {} beginning →
        Expr.parse text = .error (.unparsable text none)) ∧
      (StaysWithin 150 {} beginning → (¬ ∃ e, Expr.parse text = .ok e) →
        Expr.parse text = .error (.unparsable text (some beginning.length)) ∧
        (∃ rest e, Expr.parse (String.ofList (beginning ++ rest)) = .ok e) ∧
        (beginning.length < text.toList.length →
          ¬ Viable (text.toList.take (beginning.length + 1)))) := by
  refine ⟨exists_longest _, fun beginning h => ⟨fun hnot => ?_, fun hwithin hfails => ?_⟩⟩
  · rw [parse_eq_error, run_eq_none_iff h]
    exact hnot
  · obtain ⟨position, hposition⟩ := parse_fails hfails
    have hrun := parse_eq_error.mp hposition
    refine ⟨?_, exists_parse_completion hwithin h.viable, fun hlt hv => ?_⟩
    · cases position with
      | none => exact absurd hwithin ((run_eq_none_iff h).mp hrun)
      | some p => rwa [position_of_run h hrun] at hposition
    · have hle := h.longest _ (List.take_prefix _ _) hv
      rw [List.length_take] at hle
      omega

theorem parse_fails_inside_parentheses :
    Longest "2*(3d".toList "2*(3d)+1".toList ∧ StaysWithin 150 {} "2*(3d".toList ∧
      (¬ ∃ e, Expr.parse "2*(3d)+1" = .ok e) ∧
      Expr.parse "2*(3d)+1" = .error (.unparsable "2*(3d)+1" (some 5)) ∧
      (∃ rest e, Expr.parse (String.ofList ("2*(3d".toList ++ rest)) = .ok e) ∧
      ¬ Viable "2*(3d)".toList := by
  have hread : readAll maxOpen {} "2*(3d".toList =
      .ok ⟨[(.parenthesis, ⟨none, some (.literal ['2'], .mul)⟩)], {}, .marker ['3']⟩ := by rfl
  have hlongest : Longest "2*(3d".toList ("2*(3d".toList ++ ")+1".toList) :=
    longest_of_halts (p := 5) hread (.unexpected rfl)
  have hwithin : StaysWithin 150 {} "2*(3d".toList := staysWithin_of_readAll hread
  have hfails : ¬ ∃ e, Expr.parse "2*(3d)+1" = .ok e := by
    rintro ⟨e, he⟩
    have hrun : run maxOpen {} 0 "2*(3d)+1".toList = .error (some 5) := by rfl
    rw [parse_eq_ok, hrun] at he
    cases he
  obtain ⟨hposition, hcompletion, hviable⟩ :=
    ((parse_fails_behind_longest "2*(3d)+1").2 _ hlongest).2 hwithin hfails
  exact ⟨hlongest, hwithin, hfails, hposition, hcompletion, hviable (by decide)⟩

end DiceArithmetic.Proofs.FailurePosition
