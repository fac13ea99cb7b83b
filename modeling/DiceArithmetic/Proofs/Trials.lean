import DiceArithmetic.Expr.Evaluation

namespace DiceArithmetic.Proofs.Trials

variable {σ τ α β : Type}

theorem bind_eq_ok {trial : Trial σ α} {next : α → Trial σ β} {s after : σ} {b : β}
    {events : List Event} (h : (trial >>= next) s = ⟨.ok b, after, events⟩) :
    ∃ a mid first second, trial s = ⟨.ok a, mid, first⟩ ∧
      next a mid = ⟨.ok b, after, second⟩ ∧ events = first ++ second := by
  rcases ht : trial s with ⟨_ | a, mid, first⟩
  · rw [Trial.bind_of_error ht] at h
    cases h
  · rw [Trial.bind_of_ok ht] at h
    rcases hn : next a mid with ⟨result, later, second⟩
    rw [hn] at h
    cases h
    exact ⟨a, mid, first, second, rfl, hn, rfl⟩

theorem bind_cases (trial : Trial σ α) (next : α → Trial σ β) (s : σ) :
    (∃ failure mid events, trial s = ⟨.error failure, mid, events⟩ ∧
      (trial >>= next) s = ⟨.error failure, mid, events⟩) ∨
    ∃ a mid events, trial s = ⟨.ok a, mid, events⟩ ∧
      (trial >>= next) s = { next a mid with events := events ++ (next a mid).events } := by
  rcases h : trial s with ⟨failure | a, mid, events⟩
  · exact .inl ⟨failure, mid, events, rfl, Trial.bind_of_error h next⟩
  · exact .inr ⟨a, mid, events, rfl, Trial.bind_of_ok h next⟩

theorem bind_eq_error {trial : Trial σ α} {next : α → Trial σ β} {s after : σ} {failure : Failure}
    {events : List Event} (h : (trial >>= next) s = ⟨.error failure, after, events⟩) :
    trial s = ⟨.error failure, after, events⟩ ∨
      ∃ a mid first second, trial s = ⟨.ok a, mid, first⟩ ∧
        next a mid = ⟨.error failure, after, second⟩ := by
  obtain ⟨cause, mid, first, ht, hb⟩ | ⟨a, mid, first, ht, hb⟩ := bind_cases trial next s
  · rw [hb] at h
    cases h
    exact .inl ht
  · rw [hb] at h
    rcases hn : next a mid with ⟨result, last, second⟩
    rw [hn] at h
    cases h
    exact .inr ⟨a, mid, first, second, ht, hn⟩

theorem map_apply (f : α → β) (trial : Trial σ α) (s : σ) :
    (f <$> trial) s = ⟨(trial s).result.map f, (trial s).source, (trial s).events⟩ := by
  rw [map_eq_pure_bind]
  obtain ⟨failure, mid, events, ht, hb⟩ | ⟨a, mid, events, ht, hb⟩ :=
    bind_cases trial (fun a => pure (f a)) s
  · rw [hb, ht]
    rfl
  · rw [hb, ht, Trial.pure_apply, List.append_nil]
    rfl

theorem source_map (f : α → β) (trial : Trial σ α) (s : σ) :
    ((f <$> trial) s).source = (trial s).source := by
  rw [map_apply]

theorem ofExcept_ok_bind (a : α) (next : α → Trial σ β) :
    (Trial.ofExcept (.ok a) >>= next) = next a :=
  pure_bind a next

theorem recover_of_ok {trial : Trial σ α} {s after : σ} {a : α} {events : List Event}
    (h : trial s = ⟨.ok a, after, events⟩) (handler : Failure → Trial σ α) :
    trial.recover handler s = ⟨.ok a, after, events⟩ := by
  rw [Trial.recover, h]

theorem recover_of_error {trial : Trial σ α} {s after : σ} {failure : Failure}
    {events : List Event} (h : trial s = ⟨.error failure, after, events⟩)
    (handler : Failure → Trial σ α) : trial.recover handler s =
      { handler failure after with events := events ++ (handler failure after).events } := by
  rw [Trial.recover, h]

theorem ofExcept_eq_ok {result : Except Failure α} {s after : σ} {a : α} {events : List Event}
    (h : Trial.ofExcept result s = ⟨.ok a, after, events⟩) :
    result = .ok a ∧ after = s ∧ events = [] := by
  cases h
  exact ⟨rfl, rfl, rfl⟩

theorem ofExcept_eq_error {result : Except Failure α} {s after : σ} {failure : Failure}
    {events : List Event} (h : Trial.ofExcept result s = ⟨.error failure, after, events⟩) :
    result = .error failure ∧ after = s := by
  cases h
  exact ⟨rfl, rfl⟩

theorem map_eq_ok {result : Except Failure α} {f : α → β} {b : β} :
    result.map f = .ok b ↔ ∃ a, result = .ok a ∧ f a = b := by
  cases result with
  | error failure => exact ⟨nofun, nofun⟩
  | ok a => simp [Except.map]

theorem map_eq_error {result : Except Failure α} {f : α → β} {failure : Failure} :
    result.map f = .error failure ↔ result = .error failure := by
  cases result with
  | error cause => simp [Except.map]
  | ok a => exact ⟨nofun, nofun⟩

theorem error_of_mapError {ε : Type} {f : ε → Failure} {result : Except ε α} {failure : Failure}
    (h : result.mapError f = .error failure) :
    ∃ cause, result = .error cause ∧ f cause = failure := by
  cases result with
  | ok a => cases h
  | error cause => exact ⟨cause, rfl, Except.error.inj h⟩

theorem fail_ne_ok {failure : Failure} {s after : σ} {a : α} {events : List Event} :
    (Trial.fail failure : Trial σ α) s ≠ ⟨.ok a, after, events⟩ :=
  fun h => nomatch h

/-- Two trials that cannot be told apart by their results and events, if their sources are related
before them, and that leave related sources. -/
def Related (R : σ → τ → Prop) (trial : Trial σ α) (trial' : Trial τ α) : Prop :=
  ∀ s t, R s t → (trial s).result = (trial' t).result ∧ (trial s).events = (trial' t).events ∧
    R (trial s).source (trial' t).source

namespace Related

variable {R : σ → τ → Prop}

theorem of_pure (a : α) : Related R (pure a : Trial σ α) (pure a) :=
  fun _ _ h => ⟨rfl, rfl, h⟩

theorem ofExcept (result : Except Failure α) :
    Related R (Trial.ofExcept result) (Trial.ofExcept result) :=
  fun _ _ h => ⟨rfl, rfl, h⟩

theorem fail (failure : Failure) :
    Related R (Trial.fail failure : Trial σ α) (Trial.fail failure) :=
  ofExcept _

theorem emit (event : Event) : Related R (Trial.emit event) (Trial.emit event) :=
  fun _ _ h => ⟨rfl, rfl, h⟩

end Related

/-- Two trials that cannot be told apart by their results and by those of their events that are
shown, if their sources are related before them, and that leave related sources. -/
def Agree (shown : Event → Bool) (R : σ → τ → Prop) (trial : Trial σ α) (trial' : Trial τ α) :
    Prop :=
  ∀ s t, R s t → (trial s).result = (trial' t).result ∧
    (trial s).events.filter shown = (trial' t).events.filter shown ∧
    R (trial s).source (trial' t).source

theorem Related.agree {R : σ → τ → Prop} {trial : Trial σ α} {trial' : Trial τ α}
    (h : Related R trial trial') (shown : Event → Bool) : Agree shown R trial trial' :=
  fun s t hst => ⟨(h s t hst).1, congrArg (List.filter shown) (h s t hst).2.1, (h s t hst).2.2⟩

namespace Agree

variable {shown : Event → Bool} {R : σ → τ → Prop} {trial : Trial σ α} {trial' : Trial τ α}

theorem related (h : Agree (fun _ => true) R trial trial') : Related R trial trial' := by
  intro s t hst
  obtain ⟨hresult, hevents, hsource⟩ := h s t hst
  have hall : ∀ events : List Event, events.filter (fun _ => true) = events :=
    fun _ => List.filter_eq_self.mpr fun _ _ => rfl
  rw [hall, hall] at hevents
  exact ⟨hresult, hevents, hsource⟩

theorem bind {next : α → Trial σ β} {next' : α → Trial τ β} (h : Agree shown R trial trial')
    (hn : ∀ a, Agree shown R (next a) (next' a)) :
    Agree shown R (trial >>= next) (trial' >>= next') := by
  intro s t hst
  obtain ⟨hresult, hevents, hsource⟩ := h s t hst
  rcases hs : trial s with ⟨result, mid, first⟩
  rcases ht : trial' t with ⟨result', mid', first'⟩
  rw [hs, ht] at hresult hevents hsource
  dsimp only at hresult hevents hsource
  subst hresult
  cases result with
  | error failure =>
    rw [Trial.bind_of_error hs, Trial.bind_of_error ht]
    exact ⟨rfl, hevents, hsource⟩
  | ok a =>
    obtain ⟨hres, hev, hsrc⟩ := hn a mid mid' hsource
    rw [Trial.bind_of_ok hs, Trial.bind_of_ok ht]
    refine ⟨hres, ?_, hsrc⟩
    rw [List.filter_append, List.filter_append, hevents, hev]

theorem map (f : α → β) (h : Agree shown R trial trial') :
    Agree shown R (f <$> trial) (f <$> trial') := by
  rw [map_eq_pure_bind, map_eq_pure_bind]
  exact h.bind fun a => (Related.of_pure (f a)).agree shown

theorem mapFailure (f : Failure → Failure) (h : Agree shown R trial trial') :
    Agree shown R (trial.mapFailure f) (trial'.mapFailure f) :=
  fun s t hst => ⟨congrArg (Except.mapError f) (h s t hst).1, (h s t hst).2⟩

theorem recover {handler : Failure → Trial σ α} {handler' : Failure → Trial τ α}
    (h : Agree shown R trial trial')
    (hh : ∀ failure, Agree shown R (handler failure) (handler' failure)) :
    Agree shown R (trial.recover handler) (trial'.recover handler') := by
  intro s t hst
  obtain ⟨hresult, hevents, hsource⟩ := h s t hst
  rcases hs : trial s with ⟨result, mid, first⟩
  rcases ht : trial' t with ⟨result', mid', first'⟩
  rw [hs, ht] at hresult hevents hsource
  dsimp only at hresult hevents hsource
  subst hresult
  cases result with
  | error failure =>
    obtain ⟨hres, hev, hsrc⟩ := hh failure mid mid' hsource
    rw [recover_of_error hs, recover_of_error ht]
    refine ⟨hres, ?_, hsrc⟩
    rw [List.filter_append, List.filter_append, hevents, hev]
  | ok a =>
    rw [recover_of_ok hs, recover_of_ok ht]
    exact ⟨rfl, hevents, hsource⟩

end Agree

theorem Related.bind {R : σ → τ → Prop} {trial : Trial σ α} {trial' : Trial τ α}
    {next : α → Trial σ β} {next' : α → Trial τ β} (h : Related R trial trial')
    (hn : ∀ a, Related R (next a) (next' a)) : Related R (trial >>= next) (trial' >>= next') :=
  ((h.agree _).bind fun a => (hn a).agree _).related

/-- Two trials with the same results, if their sources are related before them, that leave related
sources. They may report different events. -/
def Matches (R : σ → τ → Prop) (trial : Trial σ α) (trial' : Trial τ α) : Prop :=
  ∀ s t, R s t → (trial s).result = (trial' t).result ∧ R (trial s).source (trial' t).source

theorem Agree.matches {shown : Event → Bool} {R : σ → τ → Prop} {trial : Trial σ α}
    {trial' : Trial τ α} (h : Agree shown R trial trial') : Matches R trial trial' :=
  fun s t hst => ⟨(h s t hst).1, (h s t hst).2.2⟩

theorem Related.matches {R : σ → τ → Prop} {trial : Trial σ α} {trial' : Trial τ α}
    (h : Related R trial trial') : Matches R trial trial' :=
  (h.agree fun _ => true).matches

namespace Matches

variable {R : σ → τ → Prop} {trial : Trial σ α} {trial' : Trial τ α}

theorem agree (h : Matches R trial trial') : Agree (fun _ => false) R trial trial' := by
  intro s t hst
  have hnone : ∀ events : List Event, events.filter (fun _ => false) = [] :=
    fun _ => List.filter_eq_nil_iff.mpr fun _ _ => Bool.false_ne_true
  rw [hnone, hnone]
  exact ⟨(h s t hst).1, rfl, (h s t hst).2⟩

theorem map (f : α → β) (h : Matches R trial trial') : Matches R (f <$> trial) (f <$> trial') :=
  (h.agree.map f).matches

theorem mapFailure (f : Failure → Failure) (h : Matches R trial trial') :
    Matches R (trial.mapFailure f) (trial'.mapFailure f) :=
  (h.agree.mapFailure f).matches

end Matches

section Sources

variable [RandomSource σ] [RandomSource τ] {R : σ → τ → Prop}

def Alike (R : σ → τ → Prop) : Prop :=
  ∀ s t sides, R s t → (RandomSource.roll s sides).1 = (RandomSource.roll t sides).1 ∧
    R (RandomSource.roll s sides).2 (RandomSource.roll t sides).2

theorem Alike.draw (h : Alike R) (sides : Int) :
    Related R (Trial.draw sides) (Trial.draw sides) :=
  fun s t hst => ⟨(h s t sides hst).1, rfl, (h s t sides hst).2⟩

theorem Alike.drawFaces (h : Alike R) (sides : Int) (count : Nat) (faces : List Face) :
    Related R (drawFaces sides count faces) (drawFaces sides count faces) := by
  induction count generalizing faces with
  | zero => exact .of_pure _
  | succ count ih => exact (h.draw sides).bind fun face => ih (face :: faces)

theorem Alike.throwDice (h : Alike R) (term : DiceTerm) :
    Related R term.throwDice term.throwDice := by
  refine (Related.ofExcept _).bind fun count => (Related.ofExcept _).bind fun sides => ?_
  by_cases hs : sides ≤ 0
  · rw [if_pos hs, if_pos hs]
    exact .fail _
  · rw [if_neg hs, if_neg hs]
    refine (h.drawFaces sides count.toNat []).bind fun faces =>
      (Related.ofExcept _).bind fun total => (Related.emit _).bind fun _ => ?_
    cases total with
    | whole n => exact .of_pure _
    | inexact => exact .fail _

theorem Alike.reduce (h : Alike R) (levels : Nat) (e : Expr) :
    Related R (e.reduce levels) (e.reduce levels) := by
  induction levels generalizing e with
  | zero => exact .fail _
  | succ levels ih =>
    cases e with
    | literal digits => exact (Related.ofExcept _).bind fun n => .of_pure _
    | dice term => exact h.throwDice term
    | negated inner => exact (ih inner).bind fun tally => .ofExcept _
    | binary op left right =>
      unfold Expr.reduce
      cases op.meaning? with
      | none => exact .fail _
      | some apply =>
        exact (ih left).bind fun l => (ih right).bind fun r => .ofExcept _
    | foreign kind => exact .fail _

end Sources

end DiceArithmetic.Proofs.Trials
