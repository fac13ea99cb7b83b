import DiceArithmetic.Proofs.DiceParts
import DiceArithmetic.Proofs.LimitCheck
import DiceArithmetic.Proofs.RollLog

namespace DiceArithmetic.Proofs.LosslessReading

open DiceArithmetic.Proofs.Grammar DiceArithmetic.Proofs.DiceParts
open DiceArithmetic.Proofs.ParseExactness DiceArithmetic.Proofs.Trials
open DiceArithmetic.Proofs.LimitCheck DiceArithmetic.Proofs.Draws DiceArithmetic.Proofs.RollLog

section Order

def lowerMarker (c : Char) : Char := if c = 'D' then 'd' else c

/-- A text without its parentheses and with every die marker in lower case. -/
def bare (text : List Char) : List Char :=
  (text.filter fun c => c ≠ '(' ∧ c ≠ ')').map lowerMarker

/-- An expression written in order and without parentheses. -/
def inOrder : Expr → List Char
  | .literal digits => digits
  | .dice term => term.count ++ 'd' :: term.sides
  | .negated inner => '-' :: inOrder inner
  | .binary op left right => inOrder left ++ op.symbol.toList ++ inOrder right
  | .foreign _ => []

theorem bare_append (left right : List Char) : bare (left ++ right) = bare left ++ bare right := by
  simp [bare]

theorem bare_cons (c : Char) (text : List Char) : bare (c :: text) = bare [c] ++ bare text :=
  bare_append [c] text

theorem bare_digits {digits : List Char} (h : IsDigits digits) : bare digits = digits := by
  have hkept : ∀ c ∈ digits, (c ≠ '(' ∧ c ≠ ')') ∧ lowerMarker c = c := by
    intro c hc
    have hdigit := h.2 c hc
    have hne : ∀ other : Char, other.isDigit = false → c ≠ other := by
      rintro other hother rfl
      rw [hdigit] at hother
      cases hother
    exact ⟨⟨hne '(' rfl, hne ')' rfl⟩, if_neg (hne 'D' rfl)⟩
  rw [bare, List.filter_eq_self.mpr fun c hc => decide_eq_true (hkept c hc).1]
  exact (List.map_congr_left fun c hc => (hkept c hc).2).trans (List.map_id' digits)

theorem bare_marker {marker : Char} (h : IsMarker marker) : bare [marker] = ['d'] := by
  obtain rfl | rfl := h <;> rfl

theorem bare_additive {c : Char} {op : Operator} (h : additive? c = some op) :
    bare [c] = op.symbol.toList := by
  obtain ⟨rfl, rfl⟩ | ⟨rfl, rfl⟩ := additive?_cases h <;> rfl

theorem bare_multiplicative {c : Char} {op : Operator} (h : multiplicative? c = some op) :
    bare [c] = op.symbol.toList := by
  obtain ⟨rfl, rfl⟩ | ⟨rfl, rfl⟩ := multiplicative?_cases h <;> rfl

theorem bare_eq_inOrder {ends : Option Char → Prop} {rank : Rank} {text : List Char}
    {next : Option Char} {e : Expr} (h : Derives ends rank text next e) :
    bare text = inOrder e := by
  induction h with
  | product _ ih | operand _ ih => exact ih
  | additive _ hc _ ihl ihr =>
    rw [bare_append, bare_cons, bare_additive hc, ihl, ihr, ← List.append_assoc]
    rfl
  | multiplicative _ hc _ ihl ihr =>
    rw [bare_append, bare_cons, bare_multiplicative hc, ihl, ihr, ← List.append_assoc]
    rfl
  | literal hd => exact bare_digits hd
  | dice hc hm hs =>
    rw [bare_append, bare_cons, bare_marker hm, bare_digits hc, bare_digits hs]
    rfl
  | group _ ih =>
    rw [bare_append, bare_cons, ih]
    exact List.append_nil _
  | negated _ _ ih =>
    rw [bare_cons, ih]
    rfl

end Order

section Places

def StandsAt (text : List Char) (start : Nat) (written : List Char) : Prop :=
  IsDice written ∧ written <+: text.drop start

structure MaximalAt (text : List Char) (start : Nat) (written : List Char) : Prop where
  stands : StandsAt text start written
  whole : ∀ start' written', StandsAt text start' written' → start' ≤ start →
    start + written.length ≤ start' + written'.length → start' = start ∧ written' = written

/-- These are the dice terms in the text that are no parts of longer ones, from left to right and
each with the number of characters before it. -/
structure Lists (text : List Char) (places : List (Nat × List Char)) : Prop where
  ordered : places.Pairwise fun place later => place.1 < later.1
  complete : ∀ start written, (start, written) ∈ places ↔ MaximalAt text start written

variable {text left right written : List Char} {c : Char} {start : Nat}

theorem StandsAt.range (h : StandsAt text start written) :
    start < start + written.length ∧ start + written.length ≤ text.length := by
  have hpos := List.length_pos_iff.mpr h.1.ne_nil
  have hle := h.2.length_le
  rw [List.length_drop] at hle
  omega

theorem not_mem_of_separates (hc : Separates c) (h : IsDice written) : c ∉ written := by
  intro hmem
  obtain hdigit | hmarker := h.mem hmem
  · rw [hc.1] at hdigit
    cases hdigit
  · exact hc.2 hmarker

theorem prefix_of_not_mem (h : written <+: left ++ c :: right) (hc : c ∉ written) :
    written <+: left := by
  have hleft : left ++ [c] <+: left ++ c :: right := ⟨right, by simp⟩
  obtain hshort | hlong := List.prefix_or_prefix_of_prefix h hleft
  · obtain rfl | hbegins := List.prefix_concat_iff.mp hshort
    · exact absurd (by simp) hc
    · exact hbegins
  · exact absurd (hlong.subset (by simp)) hc

theorem drop_join (left right : List Char) (c : Char) (k : Nat) :
    (left ++ c :: right).drop (left.length + 1 + k) = right.drop k := by
  have hlength : left.length + 1 = (left ++ [c]).length := by simp
  rw [List.append_cons, hlength, List.drop_length_add_append]

theorem StandsAt.before (h : StandsAt left start written) (c : Char) (right : List Char) :
    StandsAt (left ++ c :: right) start written := by
  have hle : start ≤ left.length := by
    have hrange := h.range
    omega
  refine ⟨h.1, ?_⟩
  rw [List.drop_append_of_le_length hle]
  exact h.2.trans (List.prefix_append _ _)

theorem StandsAt.after (h : StandsAt right start written) (left : List Char) (c : Char) :
    StandsAt (left ++ c :: right) (left.length + 1 + start) written :=
  ⟨h.1, by rw [drop_join]; exact h.2⟩

theorem StandsAt.side (h : StandsAt (left ++ c :: right) start written) (hc : Separates c) :
    StandsAt left start written ∨ ∃ k, start = left.length + 1 + k ∧ StandsAt right k written := by
  obtain ⟨hdice, hbegins⟩ := h
  by_cases hle : start ≤ left.length
  · rw [List.drop_append_of_le_length hle] at hbegins
    exact .inl ⟨hdice, prefix_of_not_mem hbegins (not_mem_of_separates hc hdice)⟩
  · obtain ⟨k, rfl⟩ := Nat.exists_eq_add_of_le (Nat.lt_of_not_le hle)
    rw [Nat.succ_eq_add_one, drop_join] at hbegins
    exact .inr ⟨k, rfl, hdice, hbegins⟩

/-- A dice term that held one on the other side too would hold the character that separates. -/
theorem maximalAt_join (hc : Separates c) : MaximalAt (left ++ c :: right) start written ↔
    MaximalAt left start written ∨
      ∃ k, start = left.length + 1 + k ∧ MaximalAt right k written := by
  constructor
  · rintro ⟨hstands, hwhole⟩
    obtain hl | ⟨k, rfl, hr⟩ := hstands.side hc
    · exact .inl ⟨hl, fun start' written' h' => hwhole start' written' (h'.before c right)⟩
    · refine .inr ⟨k, rfl, hr, fun start' written' h' hstart hend => ?_⟩
      obtain ⟨hsame, rfl⟩ := hwhole _ written' (h'.after left c) (by omega) (by omega)
      exact ⟨by omega, rfl⟩
  · rintro (⟨hl, hwhole⟩ | ⟨k, rfl, hr, hwhole⟩)
    · refine ⟨hl.before c right, fun start' written' h' hstart hend => ?_⟩
      obtain hl' | ⟨k', rfl, hr'⟩ := h'.side hc
      · exact hwhole start' written' hl' hstart hend
      · have hrange := hl.range
        omega
    · refine ⟨hr.after left c, fun start' written' h' hstart hend => ?_⟩
      obtain hl' | ⟨k', rfl, hr'⟩ := h'.side hc
      · have hrange := hr.range
        have hrange' := hl'.range
        omega
      · obtain ⟨rfl, rfl⟩ := hwhole k' written' hr' (by omega) (by omega)
        exact ⟨rfl, rfl⟩

def shifted (n : Nat) (places : List (Nat × List Char)) : List (Nat × List Char) :=
  places.map fun place => (n + place.1, place.2)

theorem mem_shifted {n : Nat} {places : List (Nat × List Char)} :
    (start, written) ∈ shifted n places ↔ ∃ k, start = n + k ∧ (k, written) ∈ places := by
  simp only [shifted, List.mem_map, Prod.mk.injEq, Prod.exists]
  constructor
  · rintro ⟨k, _, hmem, rfl, rfl⟩
    exact ⟨k, rfl, hmem⟩
  · rintro ⟨k, rfl, hmem⟩
    exact ⟨k, written, hmem, rfl, rfl⟩

theorem Lists.join {before after : List (Nat × List Char)} (hl : Lists left before)
    (hc : Separates c) (hr : Lists right after) :
    Lists (left ++ c :: right) (before ++ shifted (left.length + 1) after) := by
  constructor
  case complete =>
    intro start written
    rw [List.mem_append, hl.complete, mem_shifted, maximalAt_join hc]
    simp only [hr.complete]
  case ordered =>
    refine List.pairwise_append.mpr ⟨hl.ordered, ?_, fun place hplace later hlater => ?_⟩
    · exact hr.ordered.map _ fun _ _ h => Nat.add_lt_add_left h _
    · obtain ⟨k, hk, -⟩ := mem_shifted.mp hlater
      have hrange := ((hl.complete _ _).mp hplace).stands.range
      omega

theorem lists_digits {digits : List Char} (h : ∀ c ∈ digits, c.isDigit = true) :
    Lists digits [] := by
  refine ⟨.nil, fun start written => ⟨nofun, fun hmax => ?_⟩⟩
  obtain ⟨⟨count, marker, sides, -, hmarker, -, rfl⟩, hbegins⟩ := hmax.stands
  have hmem := List.mem_of_mem_drop (hbegins.subset (by simp) : marker ∈ digits.drop start)
  have hdigit := h marker hmem
  rw [IsMarker.not_digit hmarker] at hdigit
  cases hdigit

theorem lists_dice (h : IsDice written) : Lists written [(0, written)] := by
  have hstands : StandsAt written 0 written := ⟨h, List.prefix_rfl⟩
  refine ⟨List.pairwise_singleton _ _, fun start written' => ?_⟩
  constructor
  · intro hmem
    cases List.mem_singleton.mp hmem
    refine ⟨hstands, fun start' written' h' hstart hend => ?_⟩
    cases Nat.le_zero.mp hstart
    have hbegins : written' <+: written := h'.2
    exact ⟨rfl, hbegins.eq_of_length_le (by omega)⟩
  · intro hmax
    have hrange := hmax.stands.range
    obtain ⟨rfl, rfl⟩ := hmax.whole 0 written hstands (Nat.zero_le start) (by omega)
    exact List.mem_singleton_self _

def termOf (written : List Char) : DiceTerm :=
  ⟨written.takeWhile Char.isDigit, (written.dropWhile Char.isDigit).tail⟩

theorem termOf_dice {count sides : List Char} {marker : Char} (hcount : IsDigits count)
    (hmarker : IsMarker marker) : termOf (count ++ marker :: sides) = ⟨count, sides⟩ := by
  have hends : ∀ c, (marker :: sides).head? = some c → c.isDigit = false := by
    rintro c ⟨⟩
    exact IsMarker.not_digit hmarker
  rw [termOf, takeWhile_digits hcount.2 hends, dropWhile_digits hcount.2 hends, List.tail_cons]

def terms (places : List (Nat × List Char)) : List DiceTerm :=
  places.map fun place => termOf place.2

theorem terms_shifted (n : Nat) (places : List (Nat × List Char)) :
    terms (shifted n places) = terms places := by
  simp [terms, shifted]

/-- The expression has just the dice terms that stand in the text, in the same order. -/
def Holds (text : List Char) (e : Expr) : Prop :=
  ∃ places, Lists text places ∧ e.diceTerms = terms places

theorem Holds.join {l r e : Expr} (hl : Holds left l) (hc : Separates c) (hr : Holds right r)
    (he : e.diceTerms = l.diceTerms ++ r.diceTerms) : Holds (left ++ c :: right) e := by
  obtain ⟨before, hlists, hbefore⟩ := hl
  obtain ⟨after, hlists', hafter⟩ := hr
  refine ⟨_, hlists.join hc hlists', ?_⟩
  rw [he, hbefore, hafter, ← terms_shifted (left.length + 1) after]
  exact List.map_append.symm

theorem holds_nil (digits : Digits) : Holds [] (.literal digits) :=
  ⟨[], lists_digits nofun, rfl⟩

theorem holds_of_derives {ends : Option Char → Prop} {rank : Rank} {next : Option Char} {e : Expr}
    (h : Derives ends rank text next e) : Holds text e := by
  induction h with
  | product _ ih | operand _ ih => exact ih
  | additive _ hc _ ihl ihr => exact ihl.join (additive?_separates hc) ihr rfl
  | multiplicative _ hc _ ihl ihr => exact ihl.join (multiplicative?_separates hc) ihr rfl
  | literal hd => exact ⟨[], lists_digits hd.2, rfl⟩
  | @dice count sides marker next hc hm hs =>
    refine ⟨_, lists_dice ⟨count, marker, sides, hc, hm, hs, rfl⟩, ?_⟩
    rw [Expr.diceTerms, terms, List.map_singleton, termOf_dice hc hm]
  | @group inner next e _ ih =>
    have hclosed : Holds (inner ++ [')']) e :=
      ih.join (separates_of_mem (by decide)) (holds_nil []) (List.append_nil _).symm
    exact (holds_nil []).join (separates_of_mem (by decide)) hclosed rfl
  | negated _ _ ih => exact (holds_nil []).join (separates_of_mem (by decide)) ih rfl

end Places

section Rolling

variable {σ α β : Type} {trial : Trial σ α} {planned more : List Event}

/-- Of what is planned the trial reports a beginning, and all of it if it succeeds. -/
def Announces (trial : Trial σ α) (planned : List Event) : Prop :=
  ∀ s, (trial s).events <+: planned ∧
    ∀ a, (trial s).result = .ok a → (trial s).events = planned

theorem announces_ofExcept (result : Except Failure α) :
    Announces (Trial.ofExcept result : Trial σ α) [] :=
  fun _ => ⟨List.nil_prefix, fun _ _ => rfl⟩

theorem announces_fail (failure : Failure) (planned : List Event) :
    Announces (Trial.fail failure : Trial σ α) planned :=
  fun _ => ⟨List.nil_prefix, nofun⟩

theorem announces_emit (event : Event) : Announces (Trial.emit event : Trial σ Unit) [event] :=
  fun _ => ⟨List.prefix_rfl, fun _ _ => rfl⟩

theorem Announces.bind {next : α → Trial σ β} (h : Announces trial planned)
    (hn : ∀ a, Announces (next a) more) : Announces (trial >>= next) (planned ++ more) := by
  intro s
  obtain ⟨hbegins, hall⟩ := h s
  obtain ⟨failure, mid, events, ht, hb⟩ | ⟨a, mid, events, ht, hb⟩ := bind_cases trial next s
  · rw [ht] at hbegins
    rw [hb]
    exact ⟨hbegins.trans (List.prefix_append planned more), nofun⟩
  · rw [ht] at hall
    obtain rfl : events = planned := hall a rfl
    obtain ⟨hbegins', hall'⟩ := hn a mid
    rw [hb]
    exact ⟨(List.prefix_append_right_inj events).mpr hbegins',
      fun b hb' => congrArg (events ++ ·) (hall' b hb')⟩

variable [RandomSource σ]

theorem announces_draw (sides : Int) : Announces (Trial.draw sides : Trial σ Face) [] :=
  fun _ => ⟨List.nil_prefix, fun _ _ => rfl⟩

theorem announces_drawFaces (sides : Int) (count : Nat) (faces : List Face) :
    Announces (drawFaces sides count faces : Trial σ (List Face)) [] := by
  induction count generalizing faces with
  | zero => exact announces_ofExcept (.ok faces.reverse)
  | succ count ih => exact (announces_draw sides).bind fun face => ih (face :: faces)

theorem announces_throwDice (term : DiceTerm) :
    Announces (term.throwDice : Trial σ Tally) [.rolled term] := by
  refine (announces_ofExcept _).bind fun count => (announces_ofExcept _).bind fun sides => ?_
  by_cases hs : sides ≤ 0
  · rw [if_pos hs]
    exact announces_fail _ _
  · rw [if_neg hs]
    refine (announces_drawFaces sides count.toNat []).bind fun faces =>
      (announces_ofExcept _).bind fun total => (announces_emit _).bind fun _ => ?_
    cases total with
    | whole n => exact announces_ofExcept _
    | inexact => exact announces_fail _ _

theorem announces_reduce (levels : Nat) (e : Expr) :
    Announces (e.reduce levels : Trial σ Tally) (e.diceTerms.map .rolled) := by
  induction levels generalizing e with
  | zero => exact announces_fail _ _
  | succ levels ih =>
    cases e with
    | literal digits => exact (announces_ofExcept _).bind fun _ => announces_ofExcept _
    | dice term => exact announces_throwDice term
    | negated inner =>
      have hinner := (ih inner).bind fun tally => announces_ofExcept
        (tally.mapValue fun value => .ok (-value))
      rwa [List.append_nil] at hinner
    | binary op left right =>
      unfold Expr.reduce
      cases op.meaning? with
      | none => exact announces_fail _ _
      | some apply =>
        have hboth := (ih left).bind fun l => (ih right).bind fun r =>
          announces_ofExcept (l.merge r apply)
        rwa [List.append_nil, ← List.map_append] at hboth
    | foreign kind => exact announces_fail _ _

end Rolling

/-- Nothing of the text is lost in the expression, nor doubled, nor moved: it is the text without
its parentheses, its dice terms are those in the text, and just these are counted and rolled. -/
structure Lossless (text : String) (e : Expr) : Prop where
  inOrder : bare text.toList = inOrder e
  holds : Holds text.toList e
  counted : ∀ limits : Limits, limits.check e = do
    limits.checkDepth e
    limits.checkTerms 0 (e.diceTerms.map .ok)
  rolled : ∀ (σ : Type) [RandomSource σ], Announces (e.evaluate : Trial σ Tally)
    (e.diceTerms.map .rolled)
  recorded : ∀ (σ : Type) [RandomSource σ] (s after : σ) (tally : Tally) (events : List Event),
    e.evaluate s = ⟨.ok tally, after, events⟩ → List.Forall₂ Records e.diceTerms tally.throws

/-- An expression that can be measured is read without a loss. -/
theorem parse_lossless (text : String) (e : Expr) (h : Expr.parse text = .ok e)
    (hd : e.depth ≤ 1000) : Lossless text e where
  inOrder := bare_eq_inOrder (derives_of_parse h)
  holds := holds_of_derives (derives_of_parse h)
  counted limits := by rw [Limits.check, walk_of_depth_le (show e.depth ≤ Expr.maxDepth from hd)]
  rolled _ := announces_reduce Expr.maxDepth e
  recorded _ _ _ _ _ _ heval := (reduce_records heval).1

theorem parse_lossless_in_parentheses :
    ∃ e, Expr.parse "(2D6)/-(1d8-04d10)" = .ok e ∧ e.depth ≤ 1000 ∧
      Lossless "(2D6)/-(1d8-04d10)" e ∧ inOrder e = "2d6/-1d8-04d10".toList ∧
      e.diceTerms = [⟨['2'], ['6']⟩, ⟨['1'], ['8']⟩, ⟨['0', '4'], ['1', '0']⟩] := by
  have hparse : Expr.parse "(2D6)/-(1d8-04d10)" = .ok (.binary .div (.dice ⟨['2'], ['6']⟩)
      (.negated (.binary .sub (.dice ⟨['1'], ['8']⟩) (.dice ⟨['0', '4'], ['1', '0']⟩)))) := by rfl
  exact ⟨_, hparse, by decide, parse_lossless _ _ hparse (by decide), by decide, rfl⟩

end DiceArithmetic.Proofs.LosslessReading
