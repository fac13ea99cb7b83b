import DiceArithmetic.Proofs.Draws
import DiceArithmetic.Proofs.Reducing

namespace DiceArithmetic.Proofs.ConsumedRolls

open DiceArithmetic.Proofs.Trials DiceArithmetic.Proofs.Reducing DiceArithmetic.Proofs.Draws

section Trials

variable {α β : Type}

def RunsOut (result : Except Failure α) : Prop :=
  ∃ failure, result = .error failure ∧ failure.kind = .sourceExhausted

@[simp]
theorem runsOut_error {failure : Failure} :
    RunsOut (.error failure : Except Failure α) ↔ failure.kind = .sourceExhausted := by
  simp [RunsOut]

@[simp]
theorem not_runsOut_ok (a : α) : ¬ RunsOut (.ok a : Except Failure α) := by
  simp [RunsOut]

/-- Given just these rolls, the trial uses up all of them and fails for want of another one. -/
def Starves (trial : Trial FixedRolls α) (values : List Int) : Prop :=
  ∀ given, (trial ⟨given, values⟩).result = .error (.exhausted given) ∧
    (trial ⟨given, values⟩).source = ⟨given, []⟩

/-- Given any rolls that begin with these, the trial takes these and no others, and ends in one and
the same way. With fewer of them it starves. -/
structure Settles (trial : Trial FixedRolls α) (taken : List Int) (result : Except Failure α)
    (events : List Event) : Prop where
  enough : ∀ given rest, trial ⟨given, taken ++ rest⟩ = ⟨result, ⟨given, rest⟩, events⟩
  needed : ∀ beginning, beginning <+: taken → beginning ≠ taken → Starves trial beginning

/-- Of any rolls the trial takes a beginning that settles it, or it starves on all of them and on
every beginning of them. -/
def Economical (trial : Trial FixedRolls α) : Prop :=
  ∀ values,
    (∃ taken rest result events, values = taken ++ rest ∧ ¬ RunsOut result ∧
      Settles trial taken result events) ∨
    ∀ beginning, beginning <+: values → Starves trial beginning

variable {trial : Trial FixedRolls α} {next : α → Trial FixedRolls β} {taken : List Int}
  {events : List Event}

theorem Starves.bind {values : List Int} (h : Starves trial values) :
    Starves (trial >>= next) values := by
  intro given
  obtain ⟨hresult, hsource⟩ := h given
  rcases ht : trial ⟨given, values⟩ with ⟨result, after, events⟩
  rw [ht] at hresult hsource
  dsimp only at hresult hsource
  subst hresult
  rw [Trial.bind_of_error ht]
  exact ⟨rfl, hsource⟩

theorem Settles.starves {a : α} {more : List Int} (h : Settles trial taken (.ok a) events)
    (hn : Starves (next a) more) : Starves (trial >>= next) (taken ++ more) := by
  intro given
  rw [Trial.bind_of_ok (h.enough given more)]
  exact hn given

theorem Settles.fails {failure : Failure} (h : Settles trial taken (.error failure) events) :
    Settles (trial >>= next) taken (.error failure) events :=
  ⟨fun given rest => Trial.bind_of_error (h.enough given rest) next,
    fun beginning hb hne => (h.needed beginning hb hne).bind⟩

theorem beginning_cases {beginning first second : List Int} (h : beginning <+: first ++ second) :
    (beginning <+: first ∧ beginning ≠ first) ∨
      ∃ more, more <+: second ∧ beginning = first ++ more := by
  obtain hfirst | hfirst := List.prefix_or_prefix_of_prefix h (List.prefix_append first second)
  · by_cases heq : beginning = first
    · exact .inr ⟨[], List.nil_prefix, by rw [heq, List.append_nil]⟩
    · exact .inl ⟨hfirst, heq⟩
  · obtain ⟨more, rfl⟩ := hfirst
    exact .inr ⟨more, (List.prefix_append_right_inj first).mp h, rfl⟩

theorem Settles.bind {a : α} {more : List Int} {result : Except Failure β} {rest : List Event}
    (h : Settles trial taken (.ok a) events) (hn : Settles (next a) more result rest) :
    Settles (trial >>= next) (taken ++ more) result (events ++ rest) := by
  constructor
  case enough =>
    intro given left
    rw [List.append_assoc, Trial.bind_of_ok (h.enough given (more ++ left)), hn.enough given left]
  case needed =>
    intro beginning hb hne
    obtain ⟨hfirst, hfewer⟩ | ⟨second, hsecond, rfl⟩ := beginning_cases hb
    · exact (h.needed beginning hfirst hfewer).bind
    · exact h.starves (hn.needed second hsecond fun heq => hne (by rw [heq]))

theorem Economical.bind (h : Economical trial) (hn : ∀ a, Economical (next a)) :
    Economical (trial >>= next) := by
  intro values
  obtain ⟨taken, rest, result, events, rfl, hout, hsettles⟩ | hstarves := h values
  · cases result with
    | error failure =>
      have hout' : ¬ RunsOut (.error failure : Except Failure β) := by
        rwa [runsOut_error] at hout ⊢
      exact .inl ⟨taken, rest, .error failure, events, rfl, hout', hsettles.fails⟩
    | ok a =>
      obtain ⟨second, left, result, later, rfl, hout', hsettles'⟩ | hstarves := hn a rest
      · exact .inl ⟨taken ++ second, left, result, events ++ later,
          (List.append_assoc taken second left).symm, hout', hsettles.bind hsettles'⟩
      · refine .inr fun beginning hb => ?_
        obtain ⟨hfirst, hfewer⟩ | ⟨second, hsecond, rfl⟩ := beginning_cases hb
        · exact (hsettles.needed beginning hfirst hfewer).bind
        · exact hsettles.starves (hstarves second hsecond)
  · exact .inr fun beginning hb => (hstarves beginning hb).bind

theorem economical_of_settled {result : Except Failure α} (h : ¬ RunsOut result)
    (ht : ∀ s, trial s = ⟨result, s, events⟩) : Economical trial := by
  refine fun values => .inl ⟨[], values, result, events, rfl, h, fun given rest => ht _, ?_⟩
  intro beginning hb hne
  exact absurd (List.prefix_nil.mp hb) hne

theorem economical_pure (a : α) : Economical (pure a : Trial FixedRolls α) :=
  economical_of_settled (not_runsOut_ok a) fun _ => rfl

theorem economical_ofExcept {result : Except Failure α} (h : ¬ RunsOut result) :
    Economical (Trial.ofExcept result) :=
  economical_of_settled h fun _ => rfl

theorem economical_fail {failure : Failure} (h : failure.kind ≠ .sourceExhausted) :
    Economical (Trial.fail failure : Trial FixedRolls α) :=
  economical_ofExcept (mt runsOut_error.mp h)

theorem economical_emit (event : Event) : Economical (Trial.emit event) :=
  economical_of_settled (not_runsOut_ok ()) fun _ => rfl

end Trials

section Evaluating

theorem economical_draw (sides : Int) : Economical (Trial.draw sides) := by
  intro values
  cases values with
  | nil =>
    refine .inr fun beginning hb => ?_
    rw [List.prefix_nil.mp hb]
    exact fun given => ⟨rfl, rfl⟩
  | cons face rest =>
    refine .inl ⟨[face], rest, _, [], rfl, ?_, fun given left => rfl, fun beginning hb hne => ?_⟩
    · split
      · exact not_runsOut_ok _
      · rw [runsOut_error, Failure.naming]
        split <;> rintro ⟨⟩
    · cases beginning with
      | nil => exact fun given => ⟨rfl, rfl⟩
      | cons first others =>
        obtain ⟨rfl, hothers⟩ := List.cons_prefix_cons.mp hb
        rw [List.prefix_nil.mp hothers] at hne
        exact absurd rfl hne

theorem economical_drawFaces (sides : Int) (count : Nat) (faces : List Face) :
    Economical (drawFaces sides count faces) := by
  induction count generalizing faces with
  | zero => exact economical_pure _
  | succ count ih => exact (economical_draw sides).bind fun face => ih (face :: faces)

theorem economical_value (digits : Digits) : Economical (Trial.ofExcept digits.value) := by
  apply economical_ofExcept
  rintro ⟨failure, hfailure, hkind⟩
  obtain ⟨piece, rfl⟩ := value_eq_error hfailure
  cases hkind

theorem economical_total (faces : List Face) : Economical (Trial.ofExcept (Face.total faces)) := by
  apply economical_ofExcept
  rintro ⟨failure, hfailure, hkind⟩
  rw [total_eq_error hfailure] at hkind
  cases hkind

theorem economical_throwDice (term : DiceTerm) : Economical term.throwDice := by
  refine (economical_value term.count).bind fun count =>
    (economical_value term.sides).bind fun sides => ?_
  by_cases hs : sides ≤ 0
  · rw [if_pos hs]
    exact economical_fail (by rintro ⟨⟩)
  · rw [if_neg hs]
    refine (economical_drawFaces sides count.toNat []).bind fun faces =>
      (economical_total faces).bind fun total =>
        (economical_emit _).bind fun _ => ?_
    cases total with
    | whole n => exact economical_pure _
    | inexact => exact economical_fail (by rintro ⟨⟩)

theorem economical_reduce (levels : Nat) (e : Expr) : Economical (e.reduce levels) := by
  induction levels generalizing e with
  | zero => exact economical_fail (by rintro ⟨⟩)
  | succ levels ih =>
    cases e with
    | literal digits => exact (economical_value digits).bind fun n => economical_pure _
    | dice term => exact economical_throwDice term
    | negated inner =>
      exact (ih inner).bind fun tally => economical_ofExcept (not_runsOut_ok _)
    | binary op left right =>
      unfold Expr.reduce
      cases hop : op.meaning? with
      | none => exact economical_fail (by rintro ⟨⟩)
      | some apply =>
        refine (ih left).bind fun l => (ih right).bind fun r => economical_ofExcept ?_
        rintro ⟨failure, hf, hkind⟩
        rw [merge_eq_error hop hf] at hkind
        cases hkind
    | foreign kind => exact economical_fail (by rintro ⟨⟩)

structure Exhausts (e : Expr) (values : List Int) : Prop where
  result : (e.evaluate (FixedRolls.ofList values)).result = .error (.exhausted values.length)
  source : (e.evaluate (FixedRolls.ofList values)).source = ⟨values.length, []⟩

theorem exhausts_of_starves {e : Expr} {values : List Int} (h : Starves e.evaluate values) :
    Exhausts e values :=
  ⟨(h values.length).1, (h values.length).2⟩

section Settled

variable {e : Expr} {taken : List Int} {result : Except Failure Tally} {events : List Event}

theorem Settles.evaluate (h : Settles e.evaluate taken result events) (rest : List Int) :
    e.evaluate (FixedRolls.ofList (taken ++ rest)) =
      ⟨result, ⟨(taken ++ rest).length, rest⟩, events⟩ :=
  h.enough _ rest

theorem Settles.evaluate_of_take (h : Settles e.evaluate taken result events) {others : List Int}
    (hothers : others.take taken.length = taken) : e.evaluate (FixedRolls.ofList others) =
      ⟨result, ⟨others.length, others.drop taken.length⟩, events⟩ := by
  have hsplit := List.take_append_drop taken.length others
  rw [hothers] at hsplit
  have hevaluate := h.evaluate (others.drop taken.length)
  rw [hsplit] at hevaluate
  exact hevaluate

theorem Settles.exhausts_of_fewer (h : Settles e.evaluate taken result events) (rest : List Int)
    {m : Nat} (hm : m < taken.length) : Exhausts e ((taken ++ rest).take m) := by
  rw [List.take_append_of_le_length (Nat.le_of_lt hm)]
  apply exhausts_of_starves
  refine h.needed _ (List.take_prefix m taken) fun heq => ?_
  have hlength := congrArg List.length heq
  rw [List.length_take] at hlength
  omega

end Settled

/-- An evaluation depends on the rolls that it takes and on no others. Either it takes so many of
them, ends alike on all rolls that begin with these, and runs out on any fewer; or it runs out of
them, and so it does on every beginning of them. -/
theorem evaluate_depends_on_taken (e : Expr) (values : List Int) :
    (¬ RunsOut (e.evaluate (FixedRolls.ofList values)).result ∧
      ∃ n ≤ values.length,
        (e.evaluate (FixedRolls.ofList values)).source = ⟨values.length, values.drop n⟩ ∧
        (∀ others : List Int, others.take n = values.take n →
          e.evaluate (FixedRolls.ofList others) =
            ⟨(e.evaluate (FixedRolls.ofList values)).result, ⟨others.length, others.drop n⟩,
              (e.evaluate (FixedRolls.ofList values)).events⟩) ∧
        ∀ m < n, Exhausts e (values.take m)) ∨
    (RunsOut (e.evaluate (FixedRolls.ofList values)).result ∧
      ∀ beginning, beginning <+: values → Exhausts e beginning) := by
  obtain ⟨taken, rest, result, events, rfl, hout, hsettles⟩ | hstarves :=
    economical_reduce Expr.maxDepth e values
  · left
    have hevaluate := hsettles.evaluate rest
    rw [hevaluate]
    refine ⟨hout, taken.length, ?_, ?_, fun others hothers => ?_, fun m hm => ?_⟩
    · rw [List.length_append]
      exact Nat.le_add_right _ _
    · rw [List.drop_left]
    · rw [List.take_left] at hothers
      exact hsettles.evaluate_of_take hothers
    · exact hsettles.exhausts_of_fewer rest hm
  · right
    have hexhausts := fun beginning hb => exhausts_of_starves (hstarves beginning hb)
    exact ⟨⟨_, (hexhausts values List.prefix_rfl).result, rfl⟩, hexhausts⟩

end Evaluating

end DiceArithmetic.Proofs.ConsumedRolls
