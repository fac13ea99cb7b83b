import DiceArithmetic.Proofs.Grammar

namespace DiceArithmetic.Proofs.Openings

open DiceArithmetic.Expr.Parser (Opening)
open DiceArithmetic.Proofs.Grammar

/-- What the beginning of a text leaves open, the innermost first, and whether an operand comes
next. A minus sign opens a negation only there, and stays open up to the parenthesis around it. -/
structure Front where
  opened : List Opening := []
  ready : Bool := true
deriving DecidableEq, Repr

def Front.read (front : Front) (c : Char) : Front :=
  if c = '(' then ⟨.parenthesis :: front.opened, true⟩
  else if c = ')' then ⟨(front.opened.dropWhile (· = .minus)).tail, false⟩
  else if c = '-' ∧ front.ready = true then ⟨.minus :: front.opened, true⟩
  else ⟨front.opened, c ∈ ['+', '-', '*', '/']⟩

def Front.readAll (front : Front) (text : List Char) : Front :=
  text.foldl Front.read front

def openAfter (text : List Char) : List Opening :=
  (Front.readAll {} text).opened

def Viable (text : List Char) : Prop := ∃ rest, Sentence (text ++ rest)

/-- As far as a text begins a sentence, it never has more than the given number open. -/
def Within (limit : Nat) (text : List Char) : Prop :=
  ∀ beginning, beginning <+: text → Viable beginning → (openAfter beginning).length ≤ limit

/-- Behind every beginning of the text no more than so many are open. -/
def StaysWithin (limit : Nat) (front : Front) (text : List Char) : Prop :=
  ∀ beginning, beginning <+: text → (front.readAll beginning).opened.length ≤ limit

namespace Front

theorem readAll_append (front : Front) (text more : List Char) :
    front.readAll (text ++ more) = (front.readAll text).readAll more :=
  List.foldl_append

theorem readAll_cons (front : Front) (c : Char) (text : List Char) :
    front.readAll (c :: text) = (front.read c).readAll text := rfl

theorem readAll_nil (front : Front) : front.readAll [] = front := rfl

theorem read_digit {c : Char} (h : c.isDigit = true) (front : Front) :
    front.read c = ⟨front.opened, false⟩ := by
  have hne : c ≠ '(' ∧ c ≠ ')' ∧ c ≠ '+' ∧ c ≠ '-' ∧ c ≠ '*' ∧ c ≠ '/' := by
    refine ⟨?_, ?_, ?_, ?_, ?_, ?_⟩ <;> rintro rfl <;> simp at h
  simp [read, hne]

theorem read_marker {c : Char} (h : IsMarker c) (front : Front) :
    front.read c = ⟨front.opened, false⟩ := by
  obtain rfl | rfl := h <;> simp [read]

theorem read_additive {c : Char} {op : Operator} (h : additive? c = some op)
    (opened : List Opening) : read ⟨opened, false⟩ c = ⟨opened, true⟩ := by
  obtain ⟨rfl, -⟩ | ⟨rfl, -⟩ := additive?_cases h <;> simp [read]

theorem read_multiplicative {c : Char} {op : Operator} (h : multiplicative? c = some op)
    (front : Front) : front.read c = ⟨front.opened, true⟩ := by
  obtain ⟨rfl, -⟩ | ⟨rfl, -⟩ := multiplicative?_cases h <;> simp [read]

theorem readAll_digits {cs : List Char} (h : IsDigits cs) (front : Front) :
    front.readAll cs = ⟨front.opened, false⟩ := by
  obtain ⟨hne, hall⟩ := h
  induction cs generalizing front with
  | nil => exact absurd rfl hne
  | cons c cs ih =>
    rw [readAll_cons, read_digit (hall c (by simp))]
    cases cs with
    | nil => rfl
    | cons d ds => exact ih _ (by simp) fun x hx => hall x (List.mem_cons_of_mem c hx)

theorem length_opened_read_plain {c : Char} (hc : c ≠ '(' ∧ c ≠ '-') (front : Front) :
    (front.read c).opened.length ≤ front.opened.length := by
  have hd : (front.opened.dropWhile (· = .minus)).length ≤ front.opened.length :=
    (List.dropWhile_sublist _).length_le
  by_cases hclose : c = ')'
  · subst hclose
    simp only [read, List.length_tail, Char.reduceEq, ↓reduceIte]
    omega
  · simp [read, hc, hclose]

theorem length_opened_read (front : Front) (c : Char) :
    (front.read c).opened.length ≤ front.opened.length + 1 := by
  by_cases hpar : c = '('
  · simp [read, hpar]
  by_cases hminus : c = '-'
  · cases hready : front.ready <;> simp [read, hminus, hready]
  · exact Nat.le_succ_of_le (length_opened_read_plain ⟨hpar, hminus⟩ front)

theorem length_opened_readAll (front : Front) (text : List Char) :
    (front.readAll text).opened.length ≤ front.opened.length + text.length := by
  induction text generalizing front with
  | nil => simp [readAll_nil]
  | cons c text ih =>
    have h := ih (front.read c)
    have hc := length_opened_read front c
    rw [readAll_cons, List.length_cons]
    omega

theorem length_opened_of_plain {text : List Char} (h : ∀ c ∈ text, c ≠ '(' ∧ c ≠ '-')
    (front : Front) : (front.readAll text).opened.length ≤ front.opened.length := by
  induction text generalizing front with
  | nil => exact Nat.le_refl _
  | cons c text ih =>
    have hread := length_opened_read_plain (h c (by simp)) front
    have htext := ih (fun x hx => h x (List.mem_cons_of_mem c hx)) (front.read c)
    rw [readAll_cons]
    omega

end Front

theorem length_openAfter (text : List Char) : (openAfter text).length ≤ text.length := by
  simpa [openAfter] using Front.length_opened_readAll {} text

theorem within_of_length {limit : Nat} {text : List Char} (h : text.length ≤ limit) :
    Within limit text := fun beginning hb _ =>
  Nat.le_trans (length_openAfter beginning) (Nat.le_trans hb.length_le h)

section StaysWithin

variable {limit : Nat} {front : Front} {text : List Char}

theorem staysWithin_cons {c : Char} : StaysWithin limit front (c :: text) ↔
    front.opened.length ≤ limit ∧ StaysWithin limit (front.read c) text := by
  constructor
  · intro h
    refine ⟨h [] List.nil_prefix, fun beginning hb => ?_⟩
    exact h (c :: beginning) (List.cons_prefix_cons.mpr ⟨rfl, hb⟩)
  · rintro ⟨hfront, h⟩ beginning hb
    cases beginning with
    | nil => exact hfront
    | cons d beginning =>
      obtain ⟨rfl, hrest⟩ := List.cons_prefix_cons.mp hb
      exact h beginning hrest

theorem staysWithin_nil (h : front.opened.length ≤ limit) : StaysWithin limit front [] := by
  intro beginning hb
  rw [List.prefix_nil.mp hb]
  exact h

theorem staysWithin_of_plain (h : front.opened.length ≤ limit)
    (hp : ∀ c ∈ text, c ≠ '(' ∧ c ≠ '-') : StaysWithin limit front text := fun _ hb =>
  Nat.le_trans (Front.length_opened_of_plain (fun c hc => hp c (hb.subset hc)) front) h

theorem StaysWithin.append {more : List Char} (h : StaysWithin limit front text)
    (hm : StaysWithin limit (front.readAll text) more) :
    StaysWithin limit front (text ++ more) := by
  induction text generalizing front with
  | nil => exact hm
  | cons c text ih =>
    obtain ⟨hfront, htext⟩ := staysWithin_cons.mp h
    exact staysWithin_cons.mpr ⟨hfront, ih htext hm⟩

theorem StaysWithin.within (h : StaysWithin limit {} text) : Within limit text :=
  fun beginning hb _ => h beginning hb

theorem within_of_plain (h : ∀ c ∈ text, c ≠ '(' ∧ c ≠ '-') : Within limit text :=
  (staysWithin_of_plain (Nat.zero_le _) h).within

theorem staysWithin_of_within (hs : Sentence text) (h : Within limit text) :
    StaysWithin limit {} text := by
  intro beginning hb
  obtain ⟨rest, rfl⟩ := hb
  exact h beginning (List.prefix_append _ _) ⟨rest, hs⟩

/-- What was open before is left behind what a character opens, as far as it stays open. -/
theorem read_above (own base : List Opening) (ready : Bool) (c : Char) :
    ∃ left, left <:+ base ∧ Front.read ⟨own ++ base, ready⟩ c =
      ⟨(Front.read ⟨own, ready⟩ c).opened ++ left, (Front.read ⟨own, ready⟩ c).ready⟩ := by
  by_cases hclose : c = ')'
  · subst hclose
    simp only [Front.read, Char.reduceEq, ↓reduceIte, List.dropWhile_append]
    -- Only when nothing of its own is left does the parenthesis close what was open before.
    cases hown : own.dropWhile (· = .minus) with
    | nil =>
      exact ⟨_, (List.tail_suffix _).trans (List.dropWhile_suffix _), rfl⟩
    | cons opening rest => exact ⟨base, List.suffix_rfl, rfl⟩
  · refine ⟨base, List.suffix_rfl, ?_⟩
    unfold Front.read
    rw [if_neg hclose, if_neg hclose]
    by_cases hopen : c = '('
    · simp [hopen]
    by_cases hminus : c = '-' ∧ ready = true
    · simp [hminus]
    · simp [hopen, hminus]

theorem readAll_above (own base : List Opening) (ready : Bool) (text : List Char) :
    ∃ left, left <:+ base ∧ Front.readAll ⟨own ++ base, ready⟩ text =
      ⟨(Front.readAll ⟨own, ready⟩ text).opened ++ left,
        (Front.readAll ⟨own, ready⟩ text).ready⟩ := by
  induction text generalizing own base ready with
  | nil => exact ⟨base, List.suffix_rfl, rfl⟩
  | cons c text ih =>
    obtain ⟨mid, hmid, hread⟩ := read_above own base ready c
    obtain ⟨left, hleft, hrest⟩ := ih (Front.read ⟨own, ready⟩ c).opened mid _
    refine ⟨left, hleft.trans hmid, ?_⟩
    rw [Front.readAll_cons, Front.readAll_cons, hread, hrest]

theorem StaysWithin.above (h : StaysWithin limit {} text) (opening : Opening) :
    StaysWithin (limit + 1) ⟨[opening], true⟩ text := by
  intro beginning hb
  obtain ⟨left, hleft, hread⟩ := readAll_above [] [opening] true beginning
  have hlength := hleft.length_le
  have hown := h beginning hb
  rw [List.nil_append] at hread
  rw [hread, List.length_append]
  simp only [List.length_cons, List.length_nil] at hlength
  omega

end StaysWithin

theorem plain_of_isDigits {digits : List Char} (h : IsDigits digits) :
    ∀ c ∈ digits, c ≠ '(' ∧ c ≠ '-' := by
  intro c hc
  have hdigit := h.2 c hc
  constructor <;> rintro rfl <;> simp at hdigit

theorem readAll_join {front mid : Front} {left right : List Char} {c : Char}
    (hl : front.readAll left = mid) (hc : mid.read c = front) :
    front.readAll (left ++ c :: right) = front.readAll right := by
  rw [Front.readAll_append, hl, Front.readAll_cons, hc]

/-- A phrase leaves open only negations at its end, and those only where it ends greedily. -/
theorem readAll_of_derives {rank : Rank} {text : List Char} {next : Option Char} {e : Expr}
    (h : Derives Greedy rank text next e) (opened : List Opening) :
    ∃ k, Front.readAll ⟨opened, true⟩ text = ⟨List.replicate k .minus ++ opened, false⟩ ∧
      (¬ Greedy next → k = 0) := by
  induction h generalizing opened with
  | product _ ih | operand _ ih => exact ih opened
  | additive _ hc _ ihl ihr =>
    obtain ⟨k, hk, hz⟩ := ihl opened
    obtain rfl := hz (additive?_not_greedy hc)
    rw [readAll_join hk (Front.read_additive hc opened)]
    exact ihr opened
  | multiplicative _ hc _ ihl ihr =>
    obtain ⟨k, hk, hz⟩ := ihl opened
    obtain rfl := hz (multiplicative?_not_greedy hc)
    rw [readAll_join hk (Front.read_multiplicative hc _)]
    exact ihr opened
  | literal hd => exact ⟨0, Front.readAll_digits hd _, fun _ => rfl⟩
  | dice hc hm hs =>
    refine ⟨0, ?_, fun _ => rfl⟩
    rw [Front.readAll_append, Front.readAll_digits hc, Front.readAll_cons, Front.read_marker hm,
      Front.readAll_digits hs]
    rfl
  | group _ ih =>
    obtain ⟨k, hk, -⟩ := ih (.parenthesis :: opened)
    refine ⟨0, ?_, fun _ => rfl⟩
    rw [List.cons_append, Front.readAll_cons, Front.readAll_append]
    have hp : Front.read ⟨opened, true⟩ '(' = ⟨.parenthesis :: opened, true⟩ := rfl
    rw [hp, hk]
    simp [Front.readAll, Front.read]
  | negated _ hn ih =>
    obtain ⟨k, hk, -⟩ := ih (.minus :: opened)
    refine ⟨k + 1, ?_, fun h => absurd hn h⟩
    rw [Front.readAll_cons]
    have hm : Front.read ⟨opened, true⟩ '-' = ⟨.minus :: opened, true⟩ := rfl
    rw [hm, hk, List.replicate_succ', List.append_assoc]
    rfl

theorem readAll_of_derives_inside {rank : Rank} {text : List Char} {next : Option Char} {e : Expr}
    (h : Derives Greedy rank text next e) (hn : ¬ Greedy next) (opened : List Opening) :
    Front.readAll ⟨opened, true⟩ text = ⟨opened, false⟩ := by
  obtain ⟨k, hk, hz⟩ := readAll_of_derives h opened
  obtain rfl := hz hn
  exact hk

end DiceArithmetic.Proofs.Openings
