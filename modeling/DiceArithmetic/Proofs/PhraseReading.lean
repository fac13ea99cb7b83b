import DiceArithmetic.Proofs.Reading

namespace DiceArithmetic.Proofs.PhraseReading

open DiceArithmetic.Expr.Parser
open DiceArithmetic.Proofs.Grammar DiceArithmetic.Proofs.Reading

variable {limit n : Nat} {openings : List (Opening × Pending)} {pending : Pending}

/-- What may wait in front of a phrase of this rank. -/
def Suits : Rank → Pending → Prop
  | .sum, pending => pending = {}
  | .product, pending => pending.product = none
  | .operand, _ => True

/-- What may stand behind a phrase of this rank. -/
inductive Follows : Rank → Option Char → Prop
  | ending {rank next} : Greedy next → Follows rank next
  | additive {rank c op} : additive? c = some op → Follows rank (some c)
  | multiplicative {rank c op} : rank ≠ .sum → multiplicative? c = some op →
      Follows rank (some c)

theorem Follows.weaken {rank rank' : Rank} {next : Option Char} (hl : rank' ≠ .sum)
    (h : Follows rank next) : Follows rank' next := by
  cases h with
  | ending hn => exact .ending hn
  | additive hc => exact .additive hc
  | multiplicative _ hc => exact .multiplicative hl hc

theorem Follows.separates {rank : Rank} {c : Char} (h : Follows rank (some c)) : Separates c := by
  cases h with
  | ending hn =>
    obtain hc | hc := hn <;> cases hc
    exact separates_of_mem (by decide)
  | additive hc => exact additive?_separates hc
  | multiplicative _ hc => exact multiplicative?_separates hc

theorem follow_phase (phase phase' : Phase) (last : Expr) (c : Char) :
    State.follow ⟨openings, pending, phase⟩ last c =
      State.follow ⟨openings, pending, phase'⟩ last c := rfl

theorem run_of_operand? {phase : Phase} {last : Expr} (h : phase.operand? = some last)
    {rank : Rank} {rest : List Char} (hr : Follows rank rest.head?) :
    run limit ⟨openings, pending, phase⟩ n rest =
      run limit ⟨openings, pending, .closed last⟩ n rest := by
  cases rest with
  | nil =>
    have hc : (Phase.closed last).operand? = some last := rfl
    simp only [run, State.finish?, h, hc]
  | cons c rest =>
    rw [run, run, step_of_operand? h hr.separates, step_of_operand? rfl hr.separates, follow_phase]

section Closed

variable {openings' : List (Opening × Pending)} {pending' : Pending} {e e' : Expr}

theorem run_closed_of_endNegations {rest : List Char} (hr : Greedy rest.head?)
    (h : endNegations openings (pending.endSum e) = endNegations openings' (pending'.endSum e')) :
    run limit ⟨openings, pending, .closed e⟩ n rest =
      run limit ⟨openings', pending', .closed e'⟩ n rest := by
  cases rest with
  | nil => simp [run, State.finish?, Phase.operand?, h]
  | cons c rest =>
    obtain rfl : c = ')' := by
      obtain h | h := hr
      · simp at h
      · simpa using h
    simp [run, State.step, State.follow, State.close, h]

theorem run_closed_of_endSum {rest : List Char} (hr : Follows .sum rest.head?)
    (h : pending.endSum e = pending'.endSum e') :
    run limit ⟨openings, pending, .closed e⟩ n rest =
      run limit ⟨openings, pending', .closed e'⟩ n rest := by
  cases rest with
  | nil => exact run_closed_of_endNegations (.inl rfl) (by rw [h])
  | cons c rest =>
    cases hr with
    | ending hn => exact run_closed_of_endNegations hn (by rw [h])
    | additive hc => simp [run, State.step, follow_additive hc, State.awaitTerm, h]
    | multiplicative hl => exact absurd rfl hl

theorem run_closed_of_endProduct {rest : List Char} (hr : Follows .product rest.head?)
    (hs : pending.sum = pending'.sum) (hp : pending.endProduct e = pending'.endProduct e') :
    run limit ⟨openings, pending, .closed e⟩ n rest =
      run limit ⟨openings, pending', .closed e'⟩ n rest := by
  have h : pending.endSum e = pending'.endSum e' := by
    unfold Pending.endSum
    rw [hs, hp]
  cases rest with
  | nil => exact run_closed_of_endSum (.ending (.inl rfl)) h
  | cons c rest =>
    cases hr with
    | ending hn => exact run_closed_of_endSum (.ending hn) h
    | additive hc => exact run_closed_of_endSum (.additive hc) h
    | multiplicative _ hc =>
      simp [run, State.step, follow_multiplicative hc, State.awaitFactor, hs, hp]

end Closed

/-- Wherever the text is read in front of `next`, the state behind it is as good as one in which the
tree is a single operand. -/
def ReadAs (limit : Nat) (rank : Rank) (text : List Char) (next : Option Char) (e : Expr) : Prop :=
  ∀ openings pending n rest, Suits rank pending → Follows rank next → rest.head? = next →
    openings.length + text.length ≤ limit →
    run limit ⟨openings, pending, .operand⟩ n (text ++ rest) =
      run limit ⟨openings, pending, .closed e⟩ (n + text.length) rest

section Phrases

variable {left right body rest : List Char} {next : Option Char} {e l r : Expr} {c : Char}
  {op : Operator}

theorem ReadAs.join {rank rank' : Rank} {waiting : Pending} (hl : ReadAs limit rank left (some c) l)
    (hr : ReadAs limit rank' right next r) (hs : Suits rank pending) (hc : Follows rank (some c))
    (hstep : State.step limit ⟨openings, pending, .closed l⟩ c = .ok ⟨openings, waiting, .operand⟩)
    (hs' : Suits rank' waiting) (hf : Follows rank' next) (hrest : rest.head? = next)
    (hlen : openings.length + (left ++ c :: right).length ≤ limit) :
    run limit ⟨openings, pending, .operand⟩ n (left ++ c :: right ++ rest) =
      run limit ⟨openings, waiting, .closed r⟩ (n + (left ++ c :: right).length) rest := by
  have hpos : n + (left ++ c :: right).length = n + left.length + 1 + right.length := by
    simp only [List.length_append, List.length_cons]; omega
  simp only [List.length_append, List.length_cons] at hlen
  rw [hpos, List.append_assoc, hl openings pending n _ hs hc rfl (by omega), List.cons_append, run,
    hstep]
  exact hr openings waiting (n + left.length + 1) rest hs' hf hrest (by omega)

theorem ReadAs.additive (hl : ReadAs limit .sum left (some c) l) (hc : additive? c = some op)
    (hr : ReadAs limit .product right next r) :
    ReadAs limit .sum (left ++ c :: right) next (.binary op l r) := by
  intro openings pending n rest hs hf hrest hlen
  obtain rfl : pending = {} := hs
  have hstep : State.step limit ⟨openings, {}, .closed l⟩ c =
      .ok ⟨openings, ⟨some (l, op), none⟩, .operand⟩ := follow_additive hc _ _
  apply (hl.join hr rfl (.additive hc) hstep rfl (hf.weaken (by simp)) hrest hlen).trans
  -- The pending sum and the product behind it make up the same sum as their tree by itself.
  exact run_closed_of_endSum (hrest ▸ hf) rfl

theorem ReadAs.multiplicative (hl : ReadAs limit .product left (some c) l)
    (hc : multiplicative? c = some op) (hr : ReadAs limit .operand right next r) :
    ReadAs limit .product (left ++ c :: right) next (.binary op l r) := by
  intro openings pending n rest hs hf hrest hlen
  have hnone : pending.product = none := hs
  have hstep : State.step limit ⟨openings, pending, .closed l⟩ c =
      .ok ⟨openings, ⟨pending.sum, some (l, op)⟩, .operand⟩ := by
    apply (follow_multiplicative hc _ _).trans
    simp [State.awaitFactor, Pending.endProduct, hnone, attach]
  apply (hl.join hr hs (.multiplicative (by simp) hc) hstep trivial (hf.weaken (by simp)) hrest
    hlen).trans
  refine run_closed_of_endProduct (hrest ▸ hf) rfl ?_
  simp [Pending.endProduct, hnone, attach]

theorem ReadAs.product (h : ReadAs limit .product body next e) : ReadAs limit .sum body next e := by
  intro openings pending n rest hs hf hrest hlen
  obtain rfl : pending = {} := hs
  exact h openings {} n rest rfl (hf.weaken (by simp)) hrest hlen

theorem ReadAs.operand (h : ReadAs limit .operand body next e) :
    ReadAs limit .product body next e :=
  fun openings pending n rest _ hf => h openings pending n rest trivial (hf.weaken (by simp))

theorem readAs_literal {digits : List Char} (hd : IsDigits digits) :
    ReadAs limit .operand digits next (.literal digits) := by
  intro openings pending n rest _ hf hrest _
  rw [run_of_readAll (readAll_literal hd)]
  exact run_of_operand? (by rw [Phase.operand?, List.reverse_reverse]) (hrest ▸ hf)

theorem readAs_dice {count sides : List Char} {marker : Char} (hc : IsDigits count)
    (hm : IsMarker marker) (hs : IsDigits sides) :
    ReadAs limit .operand (count ++ marker :: sides) next (.dice ⟨count, sides⟩) := by
  intro openings pending n rest _ hf hrest _
  rw [run_of_readAll (readAll_dice hc hm hs)]
  exact run_of_operand? (by rw [Phase.operand?, List.reverse_reverse]) (hrest ▸ hf)

theorem ReadAs.enter {opening : Opening} (h : ReadAs limit .sum body next e) (hc : Opens c opening)
    (hf : Follows .sum next) (hrest : rest.head? = next)
    (hlen : openings.length + (c :: body).length ≤ limit) :
    run limit ⟨openings, pending, .operand⟩ n (c :: body ++ rest) =
      run limit ⟨(opening, pending) :: openings, {}, .closed e⟩ (n + (c :: body).length) rest := by
  have hpos : n + (c :: body).length = n + 1 + body.length := by
    simp only [List.length_cons]; omega
  simp only [List.length_cons] at hlen
  rw [hpos, List.cons_append, run, step_enter hc (by omega)]
  exact h _ {} (n + 1) rest rfl hf hrest (by simp only [List.length_cons]; omega)

theorem ReadAs.group (h : ReadAs limit .sum body (some ')') e) :
    ReadAs limit .operand ('(' :: body ++ [')']) next e := by
  intro openings pending n rest _ _ _ hlen
  have hclose : State.step limit ⟨(.parenthesis, pending) :: openings, {}, .closed e⟩ ')' =
      .ok ⟨openings, pending, .closed e⟩ := rfl
  rw [List.length_append, List.length_singleton] at hlen ⊢
  have hinner : run limit ⟨openings, pending, .operand⟩ n ('(' :: body ++ ')' :: rest) =
      run limit ⟨(.parenthesis, pending) :: openings, {}, .closed e⟩ (n + ('(' :: body).length)
        (')' :: rest) :=
    h.enter .parenthesis (.ending (.inr rfl)) rfl (by omega)
  rw [List.append_assoc]
  apply hinner.trans
  rw [run, hclose]
  rfl

theorem ReadAs.negated (h : ReadAs limit .sum body next e) (hn : Greedy next) :
    ReadAs limit .operand ('-' :: body) next (.negated e) := by
  intro openings pending n rest _ _ hrest hlen
  apply (h.enter .minus (.ending hn) hrest hlen).trans
  exact run_closed_of_endNegations (hrest ▸ hn) rfl

theorem readAs_of_derives {rank : Rank} {text : List Char} (h : Derives Greedy rank text next e) :
    ReadAs limit rank text next e := by
  induction h with
  | product _ ih => exact ih.product
  | operand _ ih => exact ih.operand
  | additive _ hc _ ihl ihr => exact ihl.additive hc ihr
  | multiplicative _ hc _ ihl ihr => exact ihl.multiplicative hc ihr
  | literal hd => exact readAs_literal hd
  | dice hc hm hs => exact readAs_dice hc hm hs
  | group _ ih => exact ih.group
  | negated _ hn ih => exact ih.negated hn

end Phrases

theorem run_eq_ok_of_derives {text : List Char} {e : Expr} (h : Derives Greedy .sum text none e)
    (hl : text.length ≤ limit) : run limit {} 0 text = .ok e := by
  have hrun : run limit {} 0 (text ++ []) = run limit ⟨[], {}, .closed e⟩ (0 + text.length) [] :=
    readAs_of_derives h [] {} 0 [] rfl (.ending (.inl rfl)) rfl (by simpa using hl)
  rw [List.append_nil] at hrun
  exact hrun

end DiceArithmetic.Proofs.PhraseReading
