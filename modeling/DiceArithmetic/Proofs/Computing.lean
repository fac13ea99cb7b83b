import DiceArithmetic.Calculator
import DiceArithmetic.Proofs.Trials

namespace DiceArithmetic.Proofs.Computing

open DiceArithmetic.Calculator DiceArithmetic.Proofs.Trials

variable {σ : Type} {evaluate : Expr → Trial σ Tally} {text : String} {e : Expr} {s : σ}

theorem read_of_parse (h : Expr.parse text = .ok e) :
    (read text : Trial σ Expr) s = ⟨.ok e, s, [.parsed text]⟩ := by
  change (⟨Expr.parse text, s, readingEvents text (Expr.parse text)⟩ : Outcome σ Expr) = _
  rw [h]
  rfl

theorem computeBy_of_parse (h : Expr.parse text = .ok e) (limits : Option Limits) :
    computeBy evaluate text limits s =
      let outcome := Trial.mapFailure Failure.ofComputation
        (do Trial.ofExcept (limits.elim (.ok ()) (·.check e)); evaluate e) s
      { outcome with events := .parsed text :: outcome.events } :=
  Trial.bind_of_ok (read_of_parse h) _

theorem computeBy_of_parse_error {failure : Failure} (h : Expr.parse text = .error failure)
    (limits : Option Limits) : computeBy evaluate text limits s =
      ⟨.error failure, s, readingEvents text (.error failure)⟩ := by
  have hread : (read text : Trial σ Expr) s =
      ⟨.error failure, s, readingEvents text (.error failure)⟩ := by
    change (⟨Expr.parse text, s, readingEvents text (Expr.parse text)⟩ : Outcome σ Expr) = _
    rw [h]
  exact Trial.bind_of_error hread _

theorem computeBy_of_check {limits : Option Limits} (h : Expr.parse text = .ok e)
    (hc : limits.elim (.ok ()) (·.check e) = .ok ()) :
    computeBy evaluate text limits s =
      ⟨(evaluate e s).result.mapError Failure.ofComputation, (evaluate e s).source,
        .parsed text :: (evaluate e s).events⟩ := by
  rw [computeBy_of_parse h, hc, ofExcept_ok_bind]
  rfl

theorem computeBy_none (h : Expr.parse text = .ok e) :
    computeBy evaluate text none s =
      ⟨(evaluate e s).result.mapError Failure.ofComputation, (evaluate e s).source,
        .parsed text :: (evaluate e s).events⟩ :=
  computeBy_of_parse h none

theorem computeBy_of_check_error {limits : Limits} {failure : Failure}
    (h : Expr.parse text = .ok e) (hc : limits.check e = .error failure) :
    computeBy evaluate text (some limits) s =
      ⟨.error failure.ofComputation, s, [.parsed text]⟩ := by
  rw [computeBy_of_parse h, Option.elim_some, hc]
  rfl

theorem parse_of_computeBy {limits : Option Limits} {tally : Tally} {after : σ}
    {events : List Event} (h : computeBy evaluate text limits s = ⟨.ok tally, after, events⟩) :
    ∃ e, Expr.parse text = .ok e := by
  cases hp : Expr.parse text with
  | ok e => exact ⟨e, rfl⟩
  | error failure =>
    rw [computeBy_of_parse_error hp] at h
    cases h

theorem evaluate_of_computeBy {tally : Tally} {after : σ} {events : List Event}
    (h : computeBy evaluate text none s = ⟨.ok tally, after, events⟩) :
    ∃ e rest, Expr.parse text = .ok e ∧ evaluate e s = ⟨.ok tally, after, rest⟩ ∧
      events = .parsed text :: rest := by
  obtain ⟨e, he⟩ := parse_of_computeBy h
  rw [computeBy_none he] at h
  rcases hs : evaluate e s with ⟨result, source, rest⟩
  rw [hs] at h
  cases result with
  | error failure => cases h
  | ok value =>
    cases h
    exact ⟨e, rest, he, hs, rfl⟩

theorem answer_of_ok {computation : Trial σ Tally} {after : σ} {tally : Tally}
    {events : List Event} (h : computation s = ⟨.ok tally, after, events⟩) :
    answer text computation s = ⟨.ok (render text tally), after, events⟩ := by
  apply recover_of_ok
  rw [map_eq_pure_bind, Trial.bind_of_ok h]
  simp [Trial.pure_apply]

theorem answer_of_error {computation : Trial σ Tally} {after : σ} {failure : Failure}
    {events : List Event} (h : computation s = ⟨.error failure, after, events⟩) :
    answer text computation s =
      let outcome := excuse text failure after
      { outcome with events := events ++ outcome.events } := by
  apply recover_of_error
  rw [map_eq_pure_bind, Trial.bind_of_error h]

theorem source_excuse (text : String) (failure : Failure) (s : σ) :
    (excuse text failure s).source = s := by
  unfold excuse
  repeat' split
  all_goals rfl

theorem source_answer (text : String) (computation : Trial σ Tally) (s : σ) :
    (answer text computation s).source = (computation s).source := by
  rcases h : computation s with ⟨failure | tally, after, events⟩
  · rw [answer_of_error h]
    exact source_excuse text failure after
  · rw [answer_of_ok h]

section Rejecting

variable {limits : Option Limits}

/-- The text is not evaluated: it cannot be read, or its expression exceeds the limits. -/
inductive Rejected (text : String) (limits : Option Limits) : Prop
  | unread {failure} : Expr.parse text = .error failure → Rejected text limits
  | refused {e given failure} : Expr.parse text = .ok e → limits = some given →
      given.check e = .error failure → Rejected text limits

theorem rejected_or_checked (text : String) (limits : Option Limits) : Rejected text limits ∨
    ∃ e, Expr.parse text = .ok e ∧ limits.elim (.ok ()) (·.check e) = .ok () := by
  cases hp : Expr.parse text with
  | error failure => exact .inl (.unread hp)
  | ok e =>
    cases limits with
    | none => exact .inr ⟨e, rfl, rfl⟩
    | some given =>
      cases hc : given.check e with
      | error failure => exact .inl (.refused hp rfl hc)
      | ok => exact .inr ⟨e, rfl, hc⟩

theorem computeBy_of_rejected (h : Rejected text limits) (evaluate : Expr → Trial σ Tally)
    (s : σ) : ∃ failure events, computeBy evaluate text limits s = ⟨.error failure, s, events⟩ := by
  cases h with
  | unread hp => exact ⟨_, _, computeBy_of_parse_error hp limits⟩
  | refused hp hlimits hc =>
    subst hlimits
    exact ⟨_, _, computeBy_of_check_error hp hc⟩

theorem source_of_rejected (h : Rejected text limits) (evaluate : Expr → Trial σ Tally) (s : σ) :
    (computeBy evaluate text limits s).source = s := by
  obtain ⟨failure, events, hc⟩ := computeBy_of_rejected h evaluate s
  rw [hc]

theorem source_of_not_rejected (h : ¬ Rejected text limits) : ∃ e, Expr.parse text = .ok e ∧
    ∀ (evaluate : Expr → Trial σ Tally) (s : σ),
      (computeBy evaluate text limits s).source = (evaluate e s).source := by
  obtain ⟨e, hp, hc⟩ := (rejected_or_checked text limits).resolve_left h
  refine ⟨e, hp, fun evaluate s => ?_⟩
  rw [computeBy_of_check hp hc]

end Rejecting

section Agreeing

variable {τ : Type} {shown : Event → Bool} {R : σ → τ → Prop} {evaluate' : Expr → Trial τ Tally}

theorem agree_computeBy (h : ∀ e, Agree shown R (evaluate e) (evaluate' e)) (text : String)
    (limits : Option Limits) :
    Agree shown R (computeBy evaluate text limits) (computeBy evaluate' text limits) := by
  have hread : Related R (read text) (read text) := fun _ _ hst => ⟨rfl, rfl, hst⟩
  refine (hread.agree shown).bind fun e => Agree.mapFailure _ ?_
  exact ((Related.ofExcept _).agree shown).bind fun _ => h e

theorem related_excuse (text : String) (failure : Failure) :
    Related R (excuse text failure) (excuse text failure) := by
  have hreport : ∀ (event : Event) (words : String),
      Related R (do Trial.emit event; return words) (do Trial.emit event; return words) :=
    fun event words => (Related.emit event).bind fun _ => Related.of_pure words
  unfold excuse
  split
  · exact hreport _ _
  split
  · exact hreport _ _
  split
  · exact hreport _ _
  split
  · exact hreport _ _
  · exact Related.fail failure

theorem agree_answer {computation : Trial σ Tally} {computation' : Trial τ Tally} (text : String)
    (h : Agree shown R computation computation') :
    Agree shown R (answer text computation) (answer text computation') :=
  (h.map _).recover fun failure => (related_excuse text failure).agree shown

theorem matches_computeBy (h : ∀ e, Matches R (evaluate e) (evaluate' e)) (text : String)
    (limits : Option Limits) :
    Matches R (computeBy evaluate text limits) (computeBy evaluate' text limits) :=
  (agree_computeBy (fun e => (h e).agree) text limits).matches

theorem matches_answer {computation : Trial σ Tally} {computation' : Trial τ Tally} (text : String)
    (h : Matches R computation computation') :
    Matches R (answer text computation) (answer text computation') :=
  (agree_answer text h.agree).matches

theorem result_answer {computation : Trial σ Tally} {computation' : Trial τ Tally} {s : σ} {t : τ}
    (text : String) (h : (computation s).result = (computation' t).result) :
    (answer text computation s).result = (answer text computation' t).result := by
  have hends : Matches (fun _ _ => True) (fun _ : σ => computation s)
      (fun _ : τ => computation' t) :=
    fun _ _ _ => ⟨h, trivial⟩
  exact (matches_answer text hends s t trivial).1

end Agreeing

end DiceArithmetic.Proofs.Computing
