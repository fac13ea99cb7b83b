import DiceArithmetic.Proofs.Reducing
import DiceArithmetic.Source.FixedRolls

namespace DiceArithmetic.Proofs.StackMachine

open DiceArithmetic.Proofs.Trials DiceArithmetic.Proofs.Reducing

inductive Instruction
  | push (digits : Digits)
  | roll (term : DiceTerm)
  | negate
  | check (op : Operator)
  | combine (op : Operator)
  | fail (kind : String)
deriving DecidableEq, Repr

/-- Operands come before what is done with them, except that an operator is checked before both of
its operands. -/
def compile : Expr → List Instruction
  | .literal digits => [.push digits]
  | .dice term => [.roll term]
  | .negated inner => compile inner ++ [.negate]
  | .binary op left right => [.check op] ++ compile left ++ compile right ++ [.combine op]
  | .foreign kind => [.fail kind]

abbrev Stack := List Tally

/-- How a run stops that does not fail: behind its last instruction, or at one that finds fewer
values on the stack than it takes. -/
inductive Halt
  | finished (stack : Stack)
  | underflow (instruction : Instruction)
deriving DecidableEq, Repr

section Running

variable {σ : Type} [RandomSource σ]

def Instruction.execute : Instruction → Stack → Option (Trial σ Stack)
  | .push digits, stack => some do
    let n ← Trial.ofExcept digits.value
    return ⟨n, []⟩ :: stack
  | .roll term, stack => some do
    let tally ← term.throwDice
    return tally :: stack
  | .negate, tally :: stack => some do
    let negative ← Trial.ofExcept (tally.mapValue fun value => .ok (-value))
    return negative :: stack
  | .check op, stack =>
    match op.meaning? with
    | none => some (Trial.fail (.unknownOperator op.symbol))
    | some _ => some (pure stack)
  | .combine op, right :: left :: stack =>
    match op.meaning? with
    | none => some (Trial.fail (.unknownOperator op.symbol))
    | some apply => some do
      let tally ← Trial.ofExcept (left.merge right apply)
      return tally :: stack
  | .fail kind, _ => some (Trial.fail (.unknownNode kind))
  | .negate, [] | .combine _, [] | .combine _, [_] => none

def run : List Instruction → Stack → Trial σ Halt
  | [], stack => pure (.finished stack)
  | instruction :: code, stack =>
    match instruction.execute stack with
    | none => pure (.underflow instruction)
    | some trial => trial >>= run code

theorem run_cons {instruction : Instruction} {stack : Stack} {trial : Trial σ Stack}
    (h : instruction.execute stack = some trial) (code : List Instruction) :
    run (instruction :: code) stack = trial >>= run code := by
  rw [run, h]

section Instructions

variable (code : List Instruction) (stack : Stack)

theorem run_push (digits : Digits) : (run (.push digits :: code) stack : Trial σ Halt) =
    Trial.ofExcept digits.value >>= fun n => run code (⟨n, []⟩ :: stack) := by
  rw [run_cons rfl, bind_assoc]
  simp only [pure_bind]

theorem run_roll (term : DiceTerm) : (run (.roll term :: code) stack : Trial σ Halt) =
    term.throwDice >>= fun tally => run code (tally :: stack) := by
  rw [run_cons rfl, bind_assoc]
  simp only [pure_bind]

theorem run_negate (tally : Tally) : (run (.negate :: code) (tally :: stack) : Trial σ Halt) =
    Trial.ofExcept (tally.mapValue fun value => .ok (-value)) >>= fun negative =>
      run code (negative :: stack) := by
  rw [run_cons rfl, bind_assoc]
  simp only [pure_bind]

theorem run_check_unknown {op : Operator} (hop : op.meaning? = none) :
    (run (.check op :: code) stack : Trial σ Halt) = Trial.fail (.unknownOperator op.symbol) := by
  have hexecute : (Instruction.check op).execute stack =
      some (Trial.fail (.unknownOperator op.symbol) : Trial σ Stack) := by
    rw [Instruction.execute, hop]
  rw [run_cons hexecute]
  rfl

variable {op : Operator} {apply : Rat → Rat → Except Failure Rat}

theorem run_check (hop : op.meaning? = some apply) :
    (run (.check op :: code) stack : Trial σ Halt) = run code stack := by
  have hexecute : (Instruction.check op).execute stack = some (pure stack : Trial σ Stack) := by
    rw [Instruction.execute, hop]
  rw [run_cons hexecute, pure_bind]

theorem run_combine (hop : op.meaning? = some apply) (l r : Tally) :
    (run (.combine op :: code) (r :: l :: stack) : Trial σ Halt) =
      Trial.ofExcept (l.merge r apply) >>= fun tally => run code (tally :: stack) := by
  have hexecute : (Instruction.combine op).execute (r :: l :: stack) =
      some (Trial.ofExcept (l.merge r apply) >>= fun tally => pure (tally :: stack) :
        Trial σ Stack) := by
    rw [Instruction.execute, hop]
  rw [run_cons hexecute, bind_assoc]
  simp only [pure_bind]

end Instructions

/-- In front of any code and on top of any stack, the code of an expression comes to the same as its
evaluation, whose value is left on the stack. -/
theorem run_compile {e : Expr} {levels : Nat} (h : e.depth ≤ levels) (code : List Instruction)
    (stack : Stack) : (run (compile e ++ code) stack : Trial σ Halt) =
      e.reduce levels >>= fun tally => run code (tally :: stack) := by
  induction levels generalizing e code stack with
  | zero => exact absurd (Nat.le_zero.mp h) (depth_ne_zero e)
  | succ levels ih =>
    cases e with
    | literal digits =>
      rw [compile, List.singleton_append, run_push, Expr.reduce, bind_assoc]
      simp only [pure_bind]
    | dice term => exact run_roll code stack term
    | negated inner =>
      have hinner : inner.depth ≤ levels := Nat.le_of_succ_le_succ h
      rw [compile, List.append_assoc, ih hinner, Expr.reduce, bind_assoc]
      simp only [List.singleton_append, run_negate]
    | binary op left right =>
      obtain ⟨hl, hr⟩ := Nat.max_le.mp (Nat.le_of_succ_le_succ h)
      simp only [compile, List.append_assoc, List.cons_append, List.nil_append]
      cases hop : op.meaning? with
      | none =>
        rw [run_check_unknown _ _ hop, Expr.reduce, hop]
        rfl
      | some apply =>
        -- The left value lies on the stack while the code of the right operand runs.
        rw [run_check _ _ hop, ih hl, Expr.reduce, hop]
        simp only [bind_assoc, ih hr, run_combine _ _ hop]
    | foreign kind => rfl

/-- Run on an empty stack, the code of an expression ends as its evaluation does: with the value and
nothing else on the stack, or with the same failure. It leaves the source in the same state and the
same events. A value that an instruction needs is never missing. -/
structure Simulates (e : Expr) (s : σ) : Prop where
  value : ∀ tally, (run (compile e) [] s).result = .ok (.finished [tally]) ↔
    (e.evaluate s).result = .ok tally
  failure : ∀ failure, (run (compile e) [] s).result = .error failure ↔
    (e.evaluate s).result = .error failure
  one_left : ∀ halt, (run (compile e) [] s).result = .ok halt → ∃ tally, halt = .finished [tally]
  source : (run (compile e) [] s).source = (e.evaluate s).source
  events : (run (compile e) [] s).events = (e.evaluate s).events

/-- Whatever an expression holds, also one that was built by hand, its code does on a stack what its
evaluation does by recursion. -/
theorem compile_simulates (e : Expr) (h : e.depth ≤ 1000) (s : σ) : Simulates e s := by
  have hrun : run (compile e) [] s =
      ((fun tally => .finished [tally]) <$> e.evaluate : Trial σ Halt) s := by
    have hcode := @run_compile σ _ e Expr.maxDepth h [] []
    rw [List.append_nil] at hcode
    rw [hcode, map_eq_pure_bind]
    rfl
  rw [map_apply] at hrun
  constructor
  case value =>
    intro tally
    rw [hrun, map_eq_ok]
    exact ⟨fun ⟨_, heval, hhalt⟩ => by cases hhalt; exact heval, fun heval => ⟨tally, heval, rfl⟩⟩
  case failure =>
    intro failure
    rw [hrun, map_eq_error]
  case one_left =>
    intro halt hhalt
    rw [hrun, map_eq_ok] at hhalt
    obtain ⟨tally, -, rfl⟩ := hhalt
    exact ⟨tally, rfl⟩
  case source => rw [hrun]
  case events => rw [hrun]

theorem compile_simulates_unknown_operator :
    let e := Expr.binary .div (.negated (.dice ⟨['2'], ['6']⟩))
      (.binary (.unknown "?") (.foreign "str") (.literal ['x']))
    let rolls := FixedRolls.ofList [3, 4, 5]
    compile e = [.check .div, .roll ⟨['2'], ['6']⟩, .negate, .check (.unknown "?"), .fail "str",
      .push ['x'], .combine (.unknown "?"), .combine .div] ∧
    e.depth ≤ 1000 ∧ Simulates e rolls ∧
    run (compile e) [] rolls =
      ⟨.error (.unknownOperator "?"), ⟨3, [5]⟩, [.rolled ⟨['2'], ['6']⟩]⟩ := by
  intro e rolls
  have hdepth : e.depth ≤ 1000 := by decide
  have hsimulates := compile_simulates e hdepth rolls
  have heval : e.evaluate rolls =
      ⟨.error (.unknownOperator "?"), ⟨3, [5]⟩, [.rolled ⟨['2'], ['6']⟩]⟩ := by
    unfold e
    decide +kernel
  have hresult := (hsimulates.failure (.unknownOperator "?")).mpr (by rw [heval])
  have hsource := hsimulates.source
  have hevents := hsimulates.events
  rw [heval] at hsource hevents
  refine ⟨rfl, hdepth, hsimulates, ?_⟩
  rcases hrun : run (compile e) [] rolls with ⟨result, after, events⟩
  rw [hrun] at hresult hsource hevents
  dsimp only at hresult hsource hevents
  rw [hresult, hsource, hevents]

end Running

end DiceArithmetic.Proofs.StackMachine
