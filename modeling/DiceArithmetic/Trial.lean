import DiceArithmetic.Event
import DiceArithmetic.Source

namespace DiceArithmetic

/-- How a trial ends. Also one that fails has drawn from its source and left events. -/
structure Outcome (σ α : Type) where
  result : Except Failure α
  source : σ
  events : List Event := []

instance {σ α : Type} [DecidableEq σ] [DecidableEq α] : DecidableEq (Outcome σ α)
  | ⟨.ok a, s, events⟩, ⟨.ok a', s', events'⟩ =>
    decidable_of_iff (a = a' ∧ s = s' ∧ events = events') (by simp)
  | ⟨.error failure, s, events⟩, ⟨.error failure', s', events'⟩ =>
    decidable_of_iff (failure = failure' ∧ s = s' ∧ events = events') (by simp)
  | ⟨.ok _, _, _⟩, ⟨.error _, _, _⟩ | ⟨.error _, _, _⟩, ⟨.ok _, _, _⟩ => isFalse (by simp)

/-- A computation that may draw from a source with states in `σ`, leave events and fail. -/
def Trial (σ α : Type) : Type :=
  σ → Outcome σ α

namespace Trial

variable {σ τ α β : Type}

def bind (trial : Trial σ α) (next : α → Trial σ β) : Trial σ β := fun s =>
  match trial s with
  | ⟨.error failure, after, events⟩ => ⟨.error failure, after, events⟩
  | ⟨.ok a, after, events⟩ =>
    let outcome := next a after
    { outcome with events := events ++ outcome.events }

instance : Monad (Trial σ) where
  pure a s := ⟨.ok a, s, []⟩
  bind := bind

theorem pure_apply (a : α) (s : σ) : (pure a : Trial σ α) s = ⟨.ok a, s, []⟩ := rfl

theorem bind_of_ok {trial : Trial σ α} {s after : σ} {a : α} {events : List Event}
    (h : trial s = ⟨.ok a, after, events⟩) (next : α → Trial σ β) :
    (trial >>= next) s = { next a after with events := events ++ (next a after).events } := by
  change Trial.bind trial next s = _
  rw [Trial.bind, h]

theorem bind_of_error {trial : Trial σ α} {s after : σ} {failure : Failure} {events : List Event}
    (h : trial s = ⟨.error failure, after, events⟩) (next : α → Trial σ β) :
    (trial >>= next) s = ⟨.error failure, after, events⟩ := by
  change Trial.bind trial next s = _
  rw [Trial.bind, h]

instance : LawfulMonad (Trial σ) := LawfulMonad.mk' (Trial σ)
  (by
    intro α trial
    funext s
    rcases h : trial s with ⟨_ | a, after, events⟩
    · exact bind_of_error h (pure ∘ id)
    · refine (bind_of_ok h (pure ∘ id)).trans ?_
      rw [Function.comp_apply, pure_apply, List.append_nil, id])
  (by
    intro α β a next
    funext s
    exact bind_of_ok (pure_apply a s) next)
  (by
    intro α β γ trial next last
    funext s
    rcases h : trial s with ⟨_ | a, after, events⟩
    · rw [bind_of_error (bind_of_error h next), bind_of_error h]
    · rcases k : next a after with ⟨_ | b, later, more⟩
      · rw [bind_of_error ((bind_of_ok h next).trans (by rw [k])), bind_of_ok h, bind_of_error k]
      · rw [bind_of_ok ((bind_of_ok h next).trans (by rw [k])), bind_of_ok h, bind_of_ok k]
        simp)

def ofExcept (result : Except Failure α) : Trial σ α := fun s => ⟨result, s, []⟩

def fail (failure : Failure) : Trial σ α := ofExcept (.error failure)

def emit (event : Event) : Trial σ Unit := fun s => ⟨.ok (), s, [event]⟩

def draw [RandomSource σ] (sides : Int) : Trial σ Face := fun s =>
  let (result, after) := RandomSource.roll s sides
  ⟨result, after, []⟩

def mapFailure (f : Failure → Failure) (trial : Trial σ α) : Trial σ α := fun s =>
  let outcome := trial s
  { outcome with result := outcome.result.mapError f }

def recover (trial : Trial σ α) (handler : Failure → Trial σ α) : Trial σ α := fun s =>
  match trial s with
  | ⟨.ok a, after, events⟩ => ⟨.ok a, after, events⟩
  | ⟨.error failure, after, events⟩ =>
    let outcome := handler failure after
    { outcome with events := events ++ outcome.events }

def within (get : τ → σ) (put : τ → σ → τ) (trial : Trial σ α) : Trial τ α := fun t =>
  let outcome := trial (get t)
  ⟨outcome.result, put t outcome.source, outcome.events⟩

end Trial

end DiceArithmetic
