import Mathlib.Algebra.Ring.Int.Defs
import DiceArithmetic.Proofs.Trials
import DiceArithmetic.Source.FixedRolls
import DiceArithmetic.Source.Recorded

namespace DiceArithmetic.Proofs.Draws

open DiceArithmetic.Proofs.Trials

variable {σ : Type} [RandomSource σ]

/-- The source answers these requests with these faces, one after the other. -/
inductive Answers : σ → List (Int × Face) → σ → Prop
  | nil (s) : Answers s [] s
  | cons {s mid after sides face draws} : RandomSource.roll s sides = (.ok face, mid) →
      Answers mid draws after → Answers s ((sides, face) :: draws) after

theorem Answers.append {s mid after : σ} {first second : List (Int × Face)}
    (h : Answers s first mid) (h' : Answers mid second after) :
    Answers s (first ++ second) after := by
  induction h with
  | nil => exact h'
  | cons hr _ ih => exact .cons hr (ih h')

theorem Answers.split {s after : σ} {first second : List (Int × Face)}
    (h : Answers s (first ++ second) after) :
    ∃ mid, Answers s first mid ∧ Answers mid second after := by
  induction first generalizing s with
  | nil => exact ⟨s, .nil s, h⟩
  | cons draw first ih =>
    cases h with
    | cons hroll hrest =>
      obtain ⟨mid, hfirst, hsecond⟩ := ih hrest
      exact ⟨mid, .cons hroll hfirst, hsecond⟩

theorem Answers.record {s after : Recorded σ} {draws : List (Int × Face)}
    (h : Answers s draws after) :
    after.record = s.record ++ draws.map fun draw => (draw.1, .ok draw.2) := by
  induction h with
  | nil => simp
  | @cons s mid after sides face draws hr _ ih =>
    have hmid : mid.record = s.record ++ [(sides, .ok face)] := by
      have h2 := congrArg (fun answer => answer.2.record) hr
      have h1 := congrArg Prod.fst hr
      change (RandomSource.roll s.source sides).1 = .ok face at h1
      change s.record ++ [(sides, (RandomSource.roll s.source sides).1)] = mid.record at h2
      rw [← h2, h1]
    rw [ih, hmid]
    simp

theorem fixedRolls_roll_ok {s : FixedRolls} {sides : Int} {face : Face}
    (h : (FixedRolls.roll s sides).1 = .ok face) :
    ∃ n rest, s.remaining = n :: rest ∧
      FixedRolls.roll s sides = (.ok (.whole n), ⟨s.given, rest⟩) ∧
      face = .whole n ∧ 1 ≤ n ∧ n ≤ sides := by
  unfold FixedRolls.roll at h ⊢
  cases hs : s.remaining with
  | nil => simp [hs] at h
  | cons n rest =>
    rw [hs] at h
    dsimp only at h ⊢
    by_cases hn : 1 ≤ n ∧ n ≤ sides
    · rw [if_pos hn] at h ⊢
      cases h
      exact ⟨n, rest, rfl, rfl, rfl, hn⟩
    · rw [if_neg hn, Failure.naming] at h
      split at h <;> cases h

theorem Answers.fixed {s after : FixedRolls} {draws : List (Int × Face)}
    (h : Answers s draws after) :
    ∃ faces : List Int, draws.map Prod.snd = faces.map Face.whole ∧
      s.remaining = faces ++ after.remaining ∧ after.given = s.given := by
  induction h with
  | nil s => exact ⟨[], rfl, rfl, rfl⟩
  | @cons s mid after sides face draws hr _ ih =>
    obtain ⟨faces, hfaces, hremaining, hgiven⟩ := ih
    obtain ⟨n, rest, hs, hroll, rfl, _⟩ := fixedRolls_roll_ok (congrArg Prod.fst hr)
    cases hroll.symm.trans hr
    refine ⟨n :: faces, by simp [hfaces], ?_, hgiven⟩
    rw [hs, List.cons_append, ← hremaining]

theorem drawFaces_draws {sides : Int} {count : Nat} {faces out : List Face} {s after : σ}
    {events : List Event} (h : drawFaces sides count faces s = ⟨.ok out, after, events⟩) :
    ∃ new, out = faces.reverse ++ new ∧ new.length = count ∧
      Answers s (new.map fun face => (sides, face)) after ∧ events = [] := by
  induction count generalizing faces s events with
  | zero =>
    cases h
    exact ⟨[], by simp, rfl, .nil _, rfl⟩
  | succ count ih =>
    rw [drawFaces] at h
    obtain ⟨face, mid, first, second, hdraw, hrest, rfl⟩ := bind_eq_ok h
    obtain ⟨new, rfl, rfl, hdraws, rfl⟩ := ih hrest
    have hroll : RandomSource.roll s sides = (.ok face, mid) := by
      have h1 := congrArg Outcome.result hdraw
      have h2 := congrArg Outcome.source hdraw
      exact Prod.ext h1 h2
    have hfirst : first = [] := (congrArg Outcome.events hdraw).symm
    refine ⟨face :: new, by simp, by simp, .cons hroll hdraws, by simp [hfirst]⟩

theorem add_eq_whole {a b : Face} {n : Int} (h : Face.add a b = .ok (.whole n)) :
    ∃ i j, a = .whole i ∧ b = .whole j ∧ n = i + j := by
  cases a with
  | whole i =>
    cases b with
    | whole j =>
      cases h
      exact ⟨i, j, rfl, rfl, rfl⟩
    | inexact =>
      rw [Face.add] at h
      by_cases hbound : i.natAbs < Face.inexactBound
      · rw [if_pos hbound] at h
        cases h
      · rw [if_neg hbound] at h
        cases h
  | inexact =>
    cases b with
    | whole j =>
      rw [Face.add] at h
      by_cases hbound : j.natAbs < Face.inexactBound
      · rw [if_pos hbound] at h
        cases h
      · rw [if_neg hbound] at h
        cases h
    | inexact => cases h

theorem add_eq_error {a b : Face} {failure : Failure} (h : Face.add a b = .error failure) :
    failure = .inexactOverflow := by
  unfold Face.add at h
  split at h
  · cases h
  · cases h
  all_goals split at h <;> cases h; rfl

/-- Faces can always be added up, but for a number that is too large to become inexact. -/
theorem total_eq_error {faces : List Face} {failure : Failure}
    (h : Face.total faces = .error failure) : failure = .inexactOverflow := by
  rw [Face.total] at h
  generalize Face.whole 0 = start at h
  induction faces generalizing start with
  | nil => cases h
  | cons face faces ih =>
    rw [List.foldlM_cons] at h
    cases hadd : Face.add start face with
    | error cause =>
      rw [hadd] at h
      cases h
      exact add_eq_error hadd
    | ok next =>
      rw [hadd] at h
      exact ih next h

theorem foldlM_add_whole (rolls : List Int) (start : Int) :
    (rolls.map Face.whole).foldlM Face.add (.whole start) = .ok (.whole (start + rolls.sum)) := by
  induction rolls generalizing start with
  | nil =>
    rw [List.sum_nil, Int.add_zero]
    rfl
  | cons n rolls ih =>
    rw [List.sum_cons, ← Int.add_assoc]
    exact ih (start + n)

theorem total_whole (rolls : List Int) :
    Face.total (rolls.map .whole) = .ok (.whole rolls.sum) := by
  rw [Face.total, foldlM_add_whole, Int.zero_add]

theorem foldlM_add_eq_whole {faces : List Face} {start : Face} {n : Int}
    (h : faces.foldlM Face.add start = .ok (.whole n)) :
    ∃ (m : Int) (rolls : List Int), start = .whole m ∧ faces = rolls.map Face.whole ∧
      n = m + rolls.sum := by
  induction faces generalizing start with
  | nil =>
    cases h
    exact ⟨n, [], rfl, rfl, by simp⟩
  | cons face faces ih =>
    rw [List.foldlM_cons] at h
    cases hadd : Face.add start face with
    | error failure =>
      rw [hadd] at h
      cases h
    | ok next =>
      rw [hadd] at h
      obtain ⟨m, rolls, rfl, rfl, rfl⟩ := ih h
      obtain ⟨i, j, rfl, rfl, rfl⟩ := add_eq_whole hadd
      exact ⟨i, j :: rolls, rfl, rfl, by rw [List.sum_cons]; omega⟩

theorem filterMap_whole? (rolls : List Int) :
    (rolls.map Face.whole).filterMap Face.whole? = rolls := by
  rw [List.filterMap_map]
  exact List.filterMap_some

structure Records (term : DiceTerm) (throw : Throw) : Prop where
  count : term.count.value = .ok throw.count
  sides : term.sides.value = .ok throw.sides
  sides_pos : 1 ≤ throw.sides
  length : throw.rolls.length = throw.count.toNat
  total : throw.total = throw.rolls.sum

def drawsOf (throw : Throw) : List (Int × Face) :=
  throw.rolls.map fun n => (throw.sides, .whole n)

/-- A throw succeeds only for a die with sides, and if all its faces are whole. -/
theorem throwDice_eq_ok {term : DiceTerm} {tally : Tally} {s after : σ} {events : List Event}
    (h : term.throwDice s = ⟨.ok tally, after, events⟩) :
    ∃ count sides faces n, term.count.value = .ok count ∧ term.sides.value = .ok sides ∧
      1 ≤ sides ∧ drawFaces sides count.toNat [] s = ⟨.ok faces, after, []⟩ ∧
      Face.total faces = .ok (.whole n) ∧
      tally = ⟨n, [⟨count, sides, faces.filterMap Face.whole?, n⟩]⟩ ∧ events = [.rolled term] := by
  rw [DiceTerm.throwDice] at h
  obtain ⟨count, _, _, _, hcount, h1, rfl⟩ := bind_eq_ok h
  obtain ⟨hcount', rfl, rfl⟩ := ofExcept_eq_ok hcount
  obtain ⟨sides, _, _, _, hsides, h2, rfl⟩ := bind_eq_ok h1
  obtain ⟨hsides', rfl, rfl⟩ := ofExcept_eq_ok hsides
  by_cases hpos : sides ≤ 0
  · rw [if_pos hpos] at h2
    exact absurd h2 fail_ne_ok
  rw [if_neg hpos] at h2
  obtain ⟨faces, _, _, _, hfaces, h3, rfl⟩ := bind_eq_ok h2
  obtain ⟨_, _, _, _, rfl⟩ := drawFaces_draws hfaces
  obtain ⟨total, _, _, _, htotal, h4, rfl⟩ := bind_eq_ok h3
  obtain ⟨htotal', rfl, rfl⟩ := ofExcept_eq_ok htotal
  obtain ⟨_, _, _, _, hemit, h5, rfl⟩ := bind_eq_ok h4
  cases hemit
  cases total with
  | inexact => exact absurd h5 fail_ne_ok
  | whole n =>
    cases h5
    exact ⟨count, sides, faces, n, hcount', hsides', by omega, hfaces, htotal', rfl, rfl⟩

theorem throwDice_draws {term : DiceTerm} {tally : Tally} {s after : σ} {events : List Event}
    (h : term.throwDice s = ⟨.ok tally, after, events⟩) :
    ∃ throw, Records term throw ∧ tally = ⟨throw.total, [throw]⟩ ∧
      Answers s (drawsOf throw) after ∧ events = [.rolled term] := by
  obtain ⟨count, sides, faces, n, hcount, hsides, hpos, hfaces, htotal, rfl, rfl⟩ :=
    throwDice_eq_ok h
  obtain ⟨new, hnew, hlength, hdraws, -⟩ := drawFaces_draws hfaces
  obtain ⟨m, rolls, hm, rfl, rfl⟩ := foldlM_add_eq_whole htotal
  cases hm
  rw [List.reverse_nil, List.nil_append] at hnew
  subst hnew
  have hlength' : rolls.length = count.toNat := by simpa using hlength
  refine ⟨⟨count, sides, rolls, rolls.sum⟩, ⟨hcount, hsides, hpos, hlength', rfl⟩, ?_, ?_, rfl⟩
  · rw [filterMap_whole?, Int.zero_add]
  · simpa [drawsOf, Function.comp_def] using hdraws

end DiceArithmetic.Proofs.Draws
