import DiceArithmetic.Proofs.Computing
import DiceArithmetic.Proofs.Honesty
import DiceArithmetic.Proofs.LimitCheck
import DiceArithmetic.Proofs.Reducing
import DiceArithmetic.Source.Any

namespace DiceArithmetic.Proofs.Failing

open DiceArithmetic.Proofs.Grammar DiceArithmetic.Proofs.Trials DiceArithmetic.Proofs.LimitCheck
open DiceArithmetic.Proofs.Draws DiceArithmetic.Proofs.Honesty DiceArithmetic.Proofs.Reducing

/-- A failure for which an expression counts as one that cannot be computed: it is one of that kind,
or one about a value or about nesting, which are passed on as such. -/
def Uncomputable (failure : Failure) : Prop :=
  failure.kind.isA .uncomputable = true ∨ failure.kind = .value ∨ failure.kind = .nesting

theorem isA_calculation {kind : Failure.Kind} (h : kind.isA .uncomputable = true) :
    kind.isA .calculation = true := by
  revert h
  cases kind <;> decide

theorem not_isA_unparsable {kind : Failure.Kind} (h : kind.isA .uncomputable = true) :
    kind.isA .unparsable = false := by
  revert h
  cases kind <;> decide

theorem Uncomputable.ofComputation {failure : Failure} (h : Uncomputable failure) :
    failure.ofComputation.kind.isA .uncomputable = true := by
  unfold Failure.ofComputation
  obtain hkind | hkind | hkind := h
  · rwa [if_pos (isA_calculation hkind)]
  · rw [hkind]
    rfl
  · rw [hkind]
    rfl

theorem uncomputable_naming {failure : Failure} (h : failure.kind.isA .uncomputable = true)
    (numbers : List Int) : Uncomputable (Failure.naming numbers failure) := by
  unfold Failure.naming
  split
  · exact .inl h
  · exact .inr (.inl rfl)

section Trials

variable {σ α β : Type} {I : σ → Prop} {post : α → Prop}

/-- How a trial may end whose source stays within `I`: with a value that meets the condition, or
because something cannot be computed. It reports nothing but throws. -/
structure Orderly (I : σ → Prop) (post : α → Prop) (outcome : Outcome σ α) : Prop where
  source : I outcome.source
  events : ∀ event ∈ outcome.events, ∃ term, event = .rolled term
  value : ∀ a, outcome.result = .ok a → post a
  failure : ∀ failure, outcome.result = .error failure → Uncomputable failure

def Ends (I : σ → Prop) (post : α → Prop) (trial : Trial σ α) : Prop :=
  ∀ s, I s → Orderly I post (trial s)

theorem Ends.bind {post' : β → Prop} {trial : Trial σ α} {next : α → Trial σ β}
    (h : Ends I post trial) (hn : ∀ a, post a → Ends I post' (next a)) :
    Ends I post' (trial >>= next) := by
  intro s hs
  have hfirst := h s hs
  obtain ⟨failure, mid, events, ht, hb⟩ | ⟨a, mid, events, ht, hb⟩ := bind_cases trial next s
  · rw [ht] at hfirst
    rw [hb]
    exact ⟨hfirst.source, hfirst.events, nofun, fun _ h => hfirst.failure _ (by cases h; rfl)⟩
  · rw [ht] at hfirst
    have hsecond := hn a (hfirst.value a rfl) mid hfirst.source
    rw [hb]
    refine ⟨hsecond.source, fun event hevent => ?_, hsecond.value, hsecond.failure⟩
    obtain hleft | hright := List.mem_append.mp hevent
    · exact hfirst.events event hleft
    · exact hsecond.events event hright

theorem ends_pure {a : α} (h : post a) : Ends I post (pure a) :=
  fun _ hs => ⟨hs, nofun, fun _ ha => Except.ok.inj ha ▸ h, nofun⟩

theorem ends_fail {failure : Failure} (h : Uncomputable failure) :
    Ends I post (Trial.fail failure) :=
  fun _ hs => ⟨hs, nofun, nofun, fun _ hf => Except.error.inj hf ▸ h⟩

theorem ends_ofExcept {result : Except Failure α} (hv : ∀ a, result = .ok a → post a)
    (hf : ∀ failure, result = .error failure → Uncomputable failure) :
    Ends I post (Trial.ofExcept result) :=
  fun _ hs => ⟨hs, nofun, hv, hf⟩

theorem ends_rolled (term : DiceTerm) : Ends I (fun _ => True) (Trial.emit (.rolled term)) :=
  fun _ hs => ⟨hs, fun _ he => ⟨term, List.mem_singleton.mp he⟩, fun _ _ => trivial, nofun⟩

end Trials

theorem uncomputable_value {digits : Digits} {failure : Failure}
    (h : digits.value = .error failure) : Uncomputable failure := by
  obtain ⟨piece, rfl⟩ := value_eq_error h
  exact .inr (.inl rfl)

theorem ends_value {σ : Type} {I : σ → Prop} (digits : Digits) :
    Ends I (fun _ => True) (Trial.ofExcept digits.value) :=
  ends_ofExcept (fun _ _ => trivial) fun _ => uncomputable_value

def Whole (face : Face) : Prop := ∃ n, face = .whole n

theorem total_of_whole {faces : List Face} (h : ∀ face ∈ faces, Whole face) (start : Int) :
    ∃ n, faces.foldlM Face.add (.whole start) = .ok (.whole n) := by
  induction faces generalizing start with
  | nil => exact ⟨start, rfl⟩
  | cons face faces ih =>
    obtain ⟨n, rfl⟩ := h face (by simp)
    exact ih (fun other ho => h other (List.mem_cons_of_mem _ ho)) (start + n)

section Sources

variable {σ : Type} [RandomSource σ] {I : σ → Prop}

/-- From these states, which are not left, a source answers with exact numbers, and fails only in
ways for which an expression counts as one that cannot be computed. -/
structure Dependable (I : σ → Prop) : Prop where
  next : ∀ s sides, I s → I (RandomSource.roll s sides).2
  face : ∀ s sides face, I s → (RandomSource.roll s sides).1 = .ok face → Whole face
  failure : ∀ s sides failure, I s → (RandomSource.roll s sides).1 = .error failure →
    Uncomputable failure

theorem Dependable.draw (h : Dependable I) (sides : Int) : Ends I Whole (Trial.draw sides) :=
  fun s hs => ⟨h.next s sides hs, nofun, fun face => h.face s sides face hs,
    fun failure => h.failure s sides failure hs⟩

theorem Dependable.drawFaces (h : Dependable I) (sides : Int) (count : Nat) {faces : List Face}
    (hf : ∀ face ∈ faces, Whole face) :
    Ends I (fun drawn => ∀ face ∈ drawn, Whole face) (drawFaces sides count faces) := by
  induction count generalizing faces with
  | zero => exact ends_pure fun face hface => hf face (List.mem_reverse.mp hface)
  | succ count ih =>
    refine (h.draw sides).bind fun face hface => ih fun other ho => ?_
    obtain rfl | ho := List.mem_cons.mp ho
    · exact hface
    · exact hf other ho

theorem Dependable.throwDice (h : Dependable I) (term : DiceTerm) :
    Ends I (fun _ => True) term.throwDice := by
  refine (ends_value term.count).bind fun count _ => (ends_value term.sides).bind fun sides _ => ?_
  by_cases hs : sides ≤ 0
  · rw [if_pos hs]
    exact ends_fail (.inl rfl)
  · rw [if_neg hs]
    refine (h.drawFaces sides count.toNat (by simp)).bind fun faces hfaces => ?_
    obtain ⟨n, hn⟩ := total_of_whole hfaces 0
    rw [Face.total, hn, ofExcept_ok_bind]
    exact (ends_rolled term).bind fun _ _ => ends_pure trivial

theorem Dependable.reduce (h : Dependable I) (levels : Nat) (e : Expr) :
    Ends I (fun _ => True) (e.reduce levels) := by
  induction levels generalizing e with
  | zero => exact ends_fail (.inr (.inr rfl))
  | succ levels ih =>
    cases e with
    | literal digits => exact (ends_value digits).bind fun n _ => ends_pure trivial
    | dice term => exact h.throwDice term
    | negated inner =>
      exact (ih inner).bind fun tally _ => ends_ofExcept (fun _ _ => trivial) nofun
    | binary op left right =>
      unfold Expr.reduce
      cases hop : op.meaning? with
      | none => exact ends_fail (.inl rfl)
      | some apply =>
        refine (ih left).bind fun l _ => (ih right).bind fun r _ => ?_
        refine ends_ofExcept (fun _ _ => trivial) fun failure hf => ?_
        rw [merge_eq_error hop hf]
        exact .inl rfl
    | foreign kind => exact ends_fail (.inl rfl)

end Sources

section Checking

variable {limits : Limits} {e : Expr} {failure : Failure}

theorem uncomputable_checkDepth (h : limits.checkDepth e = .error failure) :
    Uncomputable failure := by
  unfold Limits.checkDepth Expr.measure at h
  cases hmax : limits.maxDepth with
  | none =>
    rw [hmax] at h
    cases h
  | some max =>
    rw [hmax] at h
    by_cases hlevels : e.depth ≤ Expr.maxDepth
    · simp only [if_pos hlevels, bind, Except.bind] at h
      by_cases hbroken : max < (e.depth : Int)
      · rw [if_pos hbroken] at h
        rw [← Except.error.inj h]
        exact uncomputable_naming rfl [max]
      · rw [if_neg hbroken] at h
        cases h
    · simp only [if_neg hlevels, bind, Except.bind] at h
      cases h
      exact .inr (.inr rfl)

theorem Verdict.uncomputable {found : List (Except Failure DiceTerm)} {count : Int}
    {result : Except Failure Unit} (h : Verdict limits count found result)
    (hf : result = .error failure) : Uncomputable failure := by
  cases h with
  | passed => cases hf
  | deep =>
    rw [← Except.error.inj hf]
    exact .inr (.inr rfl)
  | sides =>
    rw [← Except.error.inj hf]
    exact uncomputable_naming rfl _
  | dice =>
    rw [← Except.error.inj hf]
    exact uncomputable_naming rfl _

theorem uncomputable_check (he : IsWritten e) (h : limits.check e = .error failure) :
    Uncomputable failure := by
  rw [Limits.check] at h
  cases hdepth : limits.checkDepth e with
  | error cause =>
    rw [hdepth] at h
    cases h
    exact uncomputable_checkDepth hdepth
  | ok =>
    rw [hdepth] at h
    exact Verdict.uncomputable (checkTerms_verdict (found_of_isWritten he Expr.maxDepth) 0) h

end Checking

section Dependable

theorem uncomputable_fixedRolls {rolls : FixedRolls} {sides : Int} {failure : Failure}
    (h : (FixedRolls.roll rolls sides).1 = .error failure) : Uncomputable failure := by
  unfold FixedRolls.roll at h
  cases hr : rolls.remaining with
  | nil =>
    simp only [hr] at h
    rw [← Except.error.inj h]
    exact .inl rfl
  | cons face rest =>
    simp only [hr] at h
    split at h
    · cases h
    · rw [← Except.error.inj h]
      exact uncomputable_naming rfl _

theorem dependable_fixedRolls : Dependable fun _ : FixedRolls => True where
  next _ _ _ := trivial
  face _ _ _ _ h := by
    obtain ⟨n, _, _, _, rfl, _⟩ := fixedRolls_roll_ok h
    exact ⟨n, rfl⟩
  failure _ _ _ _ := uncomputable_fixedRolls

theorem uncomputable_systemDice {dice : SystemDice} {sides : Int} {failure : Failure}
    (h : (SystemDice.roll dice sides).1 = .error failure) : Uncomputable failure := by
  obtain hsides | hsides := Int.lt_or_le sides 1
  · obtain ⟨cause, hroll, hkind⟩ := roll_refused dice hsides
    rw [hroll] at h
    rw [← Except.error.inj h]
    exact .inr (.inl hkind)
  · obtain ⟨n, rest, -, -, hroll⟩ := roll_thrown dice hsides
    rw [hroll] at h
    cases h

theorem dependable_systemDice : Dependable fun _ : SystemDice => True where
  next _ _ _ := trivial
  face dice sides face _ h := by
    obtain ⟨n, rfl, _⟩ := honest_systemDice dice [] sides face h
    exact ⟨n, rfl⟩
  failure _ _ _ _ := uncomputable_systemDice

/-- A source of the library's own: a list of rolls or a generator, and not a caller's. -/
def IsOwn : AnySource → Prop
  | .scripted _ => False
  | _ => True

theorem dependable_isOwn : Dependable IsOwn where
  next source sides h := by
    cases source with
    | fixed | system => trivial
    | scripted => exact h
  face source sides face h hroll := by
    cases source with
    | fixed rolls => exact dependable_fixedRolls.face rolls sides face trivial hroll
    | system dice => exact dependable_systemDice.face dice sides face trivial hroll
    | scripted => exact h.elim
  failure source sides failure h hroll := by
    cases source with
    | fixed rolls => exact dependable_fixedRolls.failure rolls sides failure trivial hroll
    | system dice => exact dependable_systemDice.failure dice sides failure trivial hroll
    | scripted => exact h.elim

end Dependable

end DiceArithmetic.Proofs.Failing
