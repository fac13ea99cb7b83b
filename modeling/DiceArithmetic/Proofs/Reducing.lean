import DiceArithmetic.Proofs.Trials

namespace DiceArithmetic.Proofs.Reducing

open DiceArithmetic.Proofs.Trials

variable {σ : Type} [RandomSource σ] {levels : Nat}

theorem value_eq_error {digits : Digits} {failure : Failure} (h : digits.value = .error failure) :
    ∃ piece, failure = .malformedDigits piece := by
  rw [Digits.value] at h
  obtain ⟨piece, -, rfl⟩ := error_of_mapError h
  exact ⟨piece, rfl⟩

theorem reduce_literal {digits : Digits} {n : Int} (h : digits.value = .ok n) (s : σ) :
    (Expr.literal digits).reduce (levels + 1) s = ⟨.ok ⟨n, []⟩, s, []⟩ := by
  rw [Expr.reduce, h]
  rfl

theorem reduce_literal_eq_ok {digits : Digits} {s after : σ} {tally : Tally} {events : List Event}
    (h : (Expr.literal digits).reduce (levels + 1) s = ⟨.ok tally, after, events⟩) :
    ∃ n : Int, digits.value = .ok n ∧ tally = ⟨n, []⟩ ∧ after = s ∧ events = [] := by
  rw [Expr.reduce] at h
  obtain ⟨n, _, _, _, hn, h1, rfl⟩ := bind_eq_ok h
  obtain ⟨hn', rfl, rfl⟩ := ofExcept_eq_ok hn
  cases h1
  exact ⟨n, hn', rfl, rfl, rfl⟩

theorem reduce_negated {inner : Expr} {tally : Tally} {s after : σ} {events : List Event}
    (h : inner.reduce levels s = ⟨.ok tally, after, events⟩) :
    (Expr.negated inner).reduce (levels + 1) s =
      ⟨.ok ⟨-tally.value, tally.throws⟩, after, events⟩ := by
  rw [Expr.reduce, Trial.bind_of_ok h]
  simp [Trial.ofExcept, Tally.mapValue, Except.map]

theorem reduce_negated_eq_ok {inner : Expr} {s after : σ} {tally : Tally} {events : List Event}
    (h : (Expr.negated inner).reduce (levels + 1) s = ⟨.ok tally, after, events⟩) :
    ∃ tally', inner.reduce levels s = ⟨.ok tally', after, events⟩ ∧
      tally = ⟨-tally'.value, tally'.throws⟩ := by
  rw [Expr.reduce] at h
  obtain ⟨tally', _, _, _, hi, h1, rfl⟩ := bind_eq_ok h
  obtain ⟨hmap, rfl, rfl⟩ := ofExcept_eq_ok h1
  cases hmap
  exact ⟨tally', by rw [hi, List.append_nil], rfl⟩

theorem merge_eq_ok {l r tally : Tally} {f : Rat → Rat → Except Failure Rat}
    (h : l.merge r f = .ok tally) :
    f l.value r.value = .ok tally.value ∧ tally.throws = l.throws ++ r.throws := by
  unfold Tally.merge at h
  cases hf : f l.value r.value with
  | error failure =>
    rw [hf] at h
    cases h
  | ok value =>
    rw [hf] at h
    cases h
    exact ⟨rfl, rfl⟩

theorem apply_eq_error {op : Operator} {apply : Rat → Rat → Except Failure Rat}
    (hop : op.meaning? = some apply) {a b : Rat} {failure : Failure}
    (h : apply a b = .error failure) : failure = .divisionByZero := by
  cases op <;> cases hop
  case div =>
    rw [divide] at h
    split at h <;> cases h
    rfl
  all_goals cases h

theorem merge_eq_error {op : Operator} {apply : Rat → Rat → Except Failure Rat}
    (hop : op.meaning? = some apply) {l r : Tally} {failure : Failure}
    (h : l.merge r apply = .error failure) : failure = .divisionByZero := by
  rw [Tally.merge] at h
  cases happly : apply l.value r.value with
  | ok value =>
    rw [happly] at h
    cases h
  | error cause =>
    rw [happly] at h
    cases h
    exact apply_eq_error hop happly

theorem reduce_binary {op : Operator} {left right : Expr} {l r : Tally} {s mid after : σ}
    {first second : List Event} {apply : Rat → Rat → Except Failure Rat} {value : Rat}
    (hop : op.meaning? = some apply) (hl : left.reduce levels s = ⟨.ok l, mid, first⟩)
    (hr : right.reduce levels mid = ⟨.ok r, after, second⟩)
    (hvalue : apply l.value r.value = .ok value) :
    (Expr.binary op left right).reduce (levels + 1) s =
      ⟨.ok ⟨value, l.throws ++ r.throws⟩, after, first ++ second⟩ := by
  simp only [Expr.reduce, hop]
  rw [Trial.bind_of_ok hl, Trial.bind_of_ok hr]
  simp [Trial.ofExcept, Tally.merge, hvalue, Except.map]

theorem reduce_binary_eq_ok {op : Operator} {left right : Expr} {s after : σ} {tally : Tally}
    {events : List Event}
    (h : (Expr.binary op left right).reduce (levels + 1) s = ⟨.ok tally, after, events⟩) :
    ∃ apply l r mid first second, op.meaning? = some apply ∧
      left.reduce levels s = ⟨.ok l, mid, first⟩ ∧
      right.reduce levels mid = ⟨.ok r, after, second⟩ ∧
      apply l.value r.value = .ok tally.value ∧ tally.throws = l.throws ++ r.throws ∧
      events = first ++ second := by
  rw [Expr.reduce] at h
  cases hop : op.meaning? with
  | none =>
    rw [hop] at h
    exact absurd h fail_ne_ok
  | some apply =>
    rw [hop] at h
    obtain ⟨l, mid, first, _, hl, h1, rfl⟩ := bind_eq_ok h
    obtain ⟨r, _, second, _, hr, h2, rfl⟩ := bind_eq_ok h1
    obtain ⟨hmerge, rfl, rfl⟩ := ofExcept_eq_ok h2
    obtain ⟨hvalue, hthrows⟩ := merge_eq_ok hmerge
    exact ⟨apply, l, r, mid, first, second, rfl, hl, hr, hvalue, hthrows, by simp⟩

theorem depth_ne_zero (e : Expr) : e.depth ≠ 0 := by
  cases e <;> simp [Expr.depth]

theorem reduce_of_depth_le {e : Expr} {levels levels' : Nat} (h : e.depth ≤ levels)
    (h' : e.depth ≤ levels') : (e.reduce levels : Trial σ Tally) = e.reduce levels' := by
  induction levels generalizing e levels' with
  | zero => exact absurd (Nat.le_zero.mp h) (depth_ne_zero e)
  | succ levels ih =>
    cases levels' with
    | zero => exact absurd (Nat.le_zero.mp h') (depth_ne_zero e)
    | succ levels' =>
      cases e with
      | literal | dice | foreign => rfl
      | negated inner =>
        have hinner := ih (Nat.le_of_succ_le_succ h) (Nat.le_of_succ_le_succ h')
        rw [Expr.reduce, Expr.reduce, hinner]
      | binary op left right =>
        obtain ⟨hl, hr⟩ := Nat.max_le.mp (Nat.le_of_succ_le_succ h)
        obtain ⟨hl', hr'⟩ := Nat.max_le.mp (Nat.le_of_succ_le_succ h')
        rw [Expr.reduce, Expr.reduce, ih hl hl', ih hr hr']

end DiceArithmetic.Proofs.Reducing
