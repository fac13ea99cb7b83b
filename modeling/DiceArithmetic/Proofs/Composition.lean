import DiceArithmetic.Proofs.Computing
import DiceArithmetic.Proofs.Nesting
import DiceArithmetic.Proofs.Reducing
import DiceArithmetic.Source.FixedRolls

namespace DiceArithmetic.Proofs.Composition

open DiceArithmetic.Calculator
open DiceArithmetic.Proofs.Grammar DiceArithmetic.Proofs.Openings DiceArithmetic.Proofs.Nesting
open DiceArithmetic.Proofs.Computing DiceArithmetic.Proofs.Reducing

section Operators

inductive Combines : Char → Rat → Rat → Except Failure Rat → Prop
  | sum {a b} : Combines '+' a b (.ok (a + b))
  | difference {a b} : Combines '-' a b (.ok (a - b))
  | product {a b} : Combines '*' a b (.ok (a * b))
  | quotient {a b} : b ≠ 0 → Combines '/' a b (.ok (a / b))
  | undefined {a} : Combines '/' a 0 (.error .divisionByZero)

theorem combines_divide (a b : Rat) : Combines '/' a b (divide a b) := by
  unfold divide
  by_cases hb : b = 0
  · rw [if_pos hb, hb]
    exact .undefined
  · rw [if_neg hb]
    exact .quotient hb

theorem exists_operator {c : Char} (h : c ∈ ['+', '-', '*', '/']) :
    ∃ op apply, (additive? c = some op ∨ multiplicative? c = some op) ∧
      op.meaning? = some apply ∧ ∀ a b, Combines c a b (apply a b) := by
  simp only [List.mem_cons, List.not_mem_nil, or_false] at h
  obtain rfl | rfl | rfl | rfl := h
  · exact ⟨.add, _, .inl rfl, rfl, fun _ _ => .sum⟩
  · exact ⟨.sub, _, .inl rfl, rfl, fun _ _ => .difference⟩
  · exact ⟨.mul, _, .inr rfl, rfl, fun _ _ => .product⟩
  · exact ⟨.div, _, .inr rfl, rfl, combines_divide⟩

theorem Combines.mapError {c : Char} {a b : Rat} {combined : Except Failure Rat}
    (h : Combines c a b combined) (f : Rat → Tally) :
    (combined.map f).mapError Failure.ofComputation = combined.map f := by
  cases h <;> rfl

end Operators

section Evaluating

variable {σ : Type} [RandomSource σ] {op : Operator} {left right : Expr} {s : σ}
  {apply : Rat → Rat → Except Failure Rat}

theorem evaluate_binary (hop : op.meaning? = some apply) (hl : left.depth < Expr.maxDepth)
    (hr : right.depth < Expr.maxDepth) :
    ((Expr.binary op left right).evaluate : Trial σ Tally) = (do
      let l ← left.evaluate
      let r ← right.evaluate
      Trial.ofExcept (l.merge r apply)) := by
  -- Inside the joined text an operand has one level less, which is enough for it.
  have hleft : (left.reduce 999 : Trial σ Tally) = left.evaluate :=
    reduce_of_depth_le (Nat.le_of_lt_succ hl) (Nat.le_of_lt hl)
  have hright : (right.reduce 999 : Trial σ Tally) = right.evaluate :=
    reduce_of_depth_le (Nat.le_of_lt_succ hr) (Nat.le_of_lt hr)
  rw [← hleft, ← hright, Expr.evaluate, Expr.maxDepth, Expr.reduce, hop]

end Evaluating

section Computing

variable {σ : Type} [RandomSource σ] {text : String} {e : Expr} {s : σ}

theorem evaluate_of_compute_error {failure : Failure} (hp : Expr.parse text = .ok e)
    (h : (compute text none s).result = .error failure) :
    ∃ cause events, e.evaluate s = ⟨.error cause, (compute text none s).source, events⟩ ∧
      failure = cause.ofComputation := by
  rw [compute, computeBy_none hp] at h ⊢
  rcases he : e.evaluate s with ⟨cause | tally, after, events⟩
  · rw [he] at h
    exact ⟨cause, events, rfl, (Except.error.inj h).symm⟩
  · rw [he] at h
    cases h

theorem evaluate_of_compute_ok {tally : Tally} (hp : Expr.parse text = .ok e)
    (h : (compute text none s).result = .ok tally) :
    ∃ events, e.evaluate s = ⟨.ok tally, (compute text none s).source, events⟩ := by
  rw [compute, computeBy_none hp] at h ⊢
  rcases he : e.evaluate s with ⟨cause | tally, after, events⟩
  · rw [he] at h
    cases h
  · rw [he] at h
    cases h
    exact ⟨events, rfl⟩

/-- The joined text is computed by computing the first text and then, unless that fails, the second
one from where the first one left the source. Their values are combined, and the throws of the first
one come first. -/
structure Composed (first second : String) (c : Char) (s : σ) : Prop where
  first_fails : ∀ failure, (compute first none s).result = .error failure →
    (compute (joined first second c) none s).result = .error failure ∧
    (compute (joined first second c) none s).source = (compute first none s).source
  second_fails : ∀ l failure, (compute first none s).result = .ok l →
    (compute second none (compute first none s).source).result = .error failure →
    (compute (joined first second c) none s).result = .error failure ∧
    (compute (joined first second c) none s).source =
      (compute second none (compute first none s).source).source
  combined : ∀ l r, (compute first none s).result = .ok l →
    (compute second none (compute first none s).source).result = .ok r →
    (∃ value, Combines c l.value r.value value ∧
      (compute (joined first second c) none s).result =
        value.map fun value => ⟨value, l.throws ++ r.throws⟩) ∧
    (compute (joined first second c) none s).source =
      (compute second none (compute first none s).source).source

/-- Computing a text that joins two others comes to the same as computing these one after the other
on the same source. -/
theorem compute_joined {first second : String} {c : Char} {left right : Expr}
    (hc : c ∈ ['+', '-', '*', '/']) (hl : Expr.parse first = .ok left)
    (hr : Expr.parse second = .ok right) (hwl : Within 149 first.toList)
    (hwr : Within 149 second.toList) (hdl : left.depth ≤ 999) (hdr : right.depth ≤ 999) (s : σ) :
    Composed first second c s := by
  obtain ⟨op, apply, hread, hop, hcombines⟩ := exists_operator hc
  have heval := @evaluate_binary σ _ _ _ _ _ hop (Nat.lt_succ_of_le hdl) (Nat.lt_succ_of_le hdr)
  have hjoined := @computeBy_none σ Expr.evaluate _ _ s (parse_joined hl hr hread hwl hwr)
  rw [heval] at hjoined
  constructor
  case first_fails =>
    intro failure hfirst
    obtain ⟨cause, events, hleft, rfl⟩ := evaluate_of_compute_error hl hfirst
    rw [Trial.bind_of_error hleft] at hjoined
    rw [compute, hjoined]
    exact ⟨rfl, rfl⟩
  case second_fails =>
    intro l failure hfirst hsecond
    obtain ⟨events, hleft⟩ := evaluate_of_compute_ok hl hfirst
    obtain ⟨cause, events', hright, rfl⟩ := evaluate_of_compute_error hr hsecond
    rw [Trial.bind_of_ok hleft, Trial.bind_of_error hright] at hjoined
    rw [compute, hjoined]
    exact ⟨rfl, rfl⟩
  case combined =>
    intro l r hfirst hsecond
    obtain ⟨events, hleft⟩ := evaluate_of_compute_ok hl hfirst
    obtain ⟨events', hright⟩ := evaluate_of_compute_ok hr hsecond
    rw [Trial.bind_of_ok hleft, Trial.bind_of_ok hright] at hjoined
    have hvalue := hcombines l.value r.value
    rw [compute, hjoined]
    exact ⟨⟨_, hvalue, hvalue.mapError _⟩, rfl⟩

theorem compute_joined_quotient :
    let rolls := FixedRolls.ofList [3, 1, 1, 5]
    compute "-1d6+2" none rolls = ⟨.ok ⟨-5, [⟨1, 6, [3], 3⟩]⟩, ⟨4, [1, 1, 5]⟩,
        [.parsed "-1d6+2", .rolled ⟨['1'], ['6']⟩]⟩ ∧
      compute "2d4-3" none (⟨4, [1, 1, 5]⟩ : FixedRolls) =
        ⟨.ok ⟨-1, [⟨2, 4, [1, 1], 2⟩]⟩, ⟨4, [5]⟩, [.parsed "2d4-3", .rolled ⟨['2'], ['4']⟩]⟩ ∧
      joined "-1d6+2" "2d4-3" '/' = "(-1d6+2)/(2d4-3)" ∧
      (compute "(-1d6+2)/(2d4-3)" none rolls).result =
        .ok ⟨5, [⟨1, 6, [3], 3⟩, ⟨2, 4, [1, 1], 2⟩]⟩ ∧
      (compute "(-1d6+2)/(2d4-3)" none rolls).source = ⟨4, [5]⟩ := by
  intro rolls
  have hleft : Expr.parse "-1d6+2" =
      .ok (.negated (.binary .add (.dice ⟨['1'], ['6']⟩) (.literal ['2']))) := by rfl
  have hright : Expr.parse "2d4-3" =
      .ok (.binary .sub (.dice ⟨['2'], ['4']⟩) (.literal ['3'])) := by rfl
  have hfirst : compute "-1d6+2" none rolls = ⟨.ok ⟨-5, [⟨1, 6, [3], 3⟩]⟩, ⟨4, [1, 1, 5]⟩,
      [.parsed "-1d6+2", .rolled ⟨['1'], ['6']⟩]⟩ := by decide +kernel
  have hsecond : compute "2d4-3" none (⟨4, [1, 1, 5]⟩ : FixedRolls) =
      ⟨.ok ⟨-1, [⟨2, 4, [1, 1], 2⟩]⟩, ⟨4, [5]⟩,
        [.parsed "2d4-3", .rolled ⟨['2'], ['4']⟩]⟩ := by decide +kernel
  have hcomposed := compute_joined (by decide : '/' ∈ ['+', '-', '*', '/']) hleft hright
    (within_of_length (by decide)) (within_of_length (by decide)) (by decide) (by decide) rolls
  obtain ⟨⟨value, hvalue, hresult⟩, hsource⟩ := hcomposed.combined
    ⟨-5, [⟨1, 6, [3], 3⟩]⟩ ⟨-1, [⟨2, 4, [1, 1], 2⟩]⟩ (by rw [hfirst]) (by rw [hfirst, hsecond])
  rw [hfirst, hsecond] at hsource
  refine ⟨hfirst, hsecond, rfl, ?_, hsource⟩
  have hquotient : (-5 : Rat) / -1 = 5 := by decide +kernel
  cases hvalue with
  | quotient _ =>
    rw [hquotient] at hresult
    exact hresult

end Computing

end DiceArithmetic.Proofs.Composition
