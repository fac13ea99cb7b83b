import DiceArithmetic.Proofs.Grammar

namespace DiceArithmetic.Proofs.DiceParts

open DiceArithmetic.Proofs.Grammar

/-- A dice term in a text, with all the digits that belong to it, or a character between them. -/
inductive Part
  | dice (written : List Char)
  | plain (c : Char)
deriving DecidableEq, Repr

def Part.written : Part → List Char
  | .dice written => written
  | .plain c => [c]

def Part.dice? : Part → Option (List Char)
  | .dice written => some written
  | .plain _ => none

/-- Cuts off the dice term that a text begins with. Digits are taken as far as they go. -/
def diceAt? (text : List Char) : Option (List Char × List Char) :=
  match text.dropWhile Char.isDigit with
  | [] => none
  | marker :: behind =>
    let count := text.takeWhile Char.isDigit
    let sides := behind.takeWhile Char.isDigit
    if count ≠ [] ∧ (marker = 'd' ∨ marker = 'D') ∧ sides ≠ [] then
      some (count ++ marker :: sides, behind.dropWhile Char.isDigit)
    else none

def IsDice (written : List Char) : Prop :=
  ∃ count marker sides, IsDigits count ∧ IsMarker marker ∧ IsDigits sides ∧
    written = count ++ marker :: sides

theorem isDigits_takeWhile {cs : List Char} (h : cs.takeWhile Char.isDigit ≠ []) :
    IsDigits (cs.takeWhile Char.isDigit) :=
  ⟨h, List.all_eq_true.mp List.all_takeWhile⟩

theorem isDice_of_diceAt? {text written rest : List Char}
    (h : diceAt? text = some (written, rest)) : IsDice written ∧ text = written ++ rest := by
  unfold diceAt? at h
  cases hd : text.dropWhile Char.isDigit with
  | nil =>
    rw [hd] at h
    cases h
  | cons marker behind =>
    rw [hd] at h
    dsimp only at h
    split at h
    · rename_i hdice
      obtain ⟨hcount, hmarker, hsides⟩ := hdice
      cases h
      refine ⟨⟨_, marker, _, isDigits_takeWhile hcount, hmarker, isDigits_takeWhile hsides, rfl⟩,
        ?_⟩
      rw [List.append_assoc, List.cons_append, List.takeWhile_append_dropWhile, ← hd,
        List.takeWhile_append_dropWhile]
    · cases h

theorem IsDice.ne_nil {written : List Char} (h : IsDice written) : written ≠ [] := by
  obtain ⟨count, marker, sides, _, _, _, rfl⟩ := h
  simp

theorem IsDice.mem {written : List Char} {c : Char} (h : IsDice written) (hc : c ∈ written) :
    c.isDigit = true ∨ IsMarker c := by
  obtain ⟨count, marker, sides, hcount, hmarker, hsides, rfl⟩ := h
  obtain hc | hc := List.mem_append.mp hc
  · exact .inl (hcount.2 c hc)
  · obtain rfl | hc := List.mem_cons.mp hc
    · exact .inr hmarker
    · exact .inl (hsides.2 c hc)

theorem length_of_diceAt? {text written rest : List Char}
    (h : diceAt? text = some (written, rest)) : rest.length < text.length := by
  obtain ⟨hdice, rfl⟩ := isDice_of_diceAt? h
  have hpos := List.length_pos_iff.mpr hdice.ne_nil
  rw [List.length_append]
  omega

def parts (text : List Char) : List Part :=
  match text with
  | [] => []
  | c :: cs =>
    match _h : diceAt? (c :: cs) with
    | some (written, rest) => .dice written :: parts rest
    | none => .plain c :: parts cs
termination_by text.length
decreasing_by
  · exact length_of_diceAt? ‹_›
  · exact Nat.lt_succ_self _

def occurrences (text : List Char) : List (List Char) :=
  (parts text).filterMap Part.dice?

def replace : List (List Char) → List Part → List Char
  | _, [] => []
  | texts, .plain c :: rest => c :: replace texts rest
  | text :: texts, .dice _ :: rest => text ++ replace texts rest
  | [], .dice written :: rest => written ++ replace [] rest

theorem parts_nil : parts [] = [] := by
  rw [parts]

theorem parts_cons_none {c : Char} {cs : List Char} (h : diceAt? (c :: cs) = none) :
    parts (c :: cs) = .plain c :: parts cs := by
  rw [parts]
  split
  · rename_i hs
    rw [h] at hs
    cases hs
  · rfl

theorem parts_of_diceAt? {text written rest : List Char}
    (h : diceAt? text = some (written, rest)) : parts text = .dice written :: parts rest := by
  cases text with
  | nil => cases h
  | cons c cs =>
    rw [parts]
    split
    · rename_i hs
      rw [h] at hs
      cases hs
      rfl
    · rename_i hs
      rw [h] at hs
      cases hs

theorem parts_sound (text : List Char) :
    (parts text).flatMap Part.written = text ∧
      ∀ written, .dice written ∈ parts text → IsDice written := by
  fun_induction parts text with
  | case1 => exact ⟨rfl, by simp⟩
  | case2 c cs written rest h ih =>
    obtain ⟨hdice, htext⟩ := isDice_of_diceAt? h
    refine ⟨by rw [List.flatMap_cons, ih.1, htext]; rfl, fun other ho => ?_⟩
    obtain heq | ho := List.mem_cons.mp ho
    · cases heq
      exact hdice
    · exact ih.2 other ho
  | case3 c cs h ih =>
    refine ⟨by rw [List.flatMap_cons, ih.1]; rfl, fun other ho => ?_⟩
    obtain heq | ho := List.mem_cons.mp ho
    · cases heq
    · exact ih.2 other ho

section Pieces

def Separated (next : Option Char) : Prop := ∀ c, next = some c → Separates c

theorem separated_some {c : Char} (h : Separates c) : Separated (some c) := by
  rintro _ ⟨⟩
  exact h

theorem takeWhile_digits {digits rest : List Char} (hd : ∀ c ∈ digits, c.isDigit = true)
    (hr : ∀ c, rest.head? = some c → c.isDigit = false) :
    (digits ++ rest).takeWhile Char.isDigit = digits := by
  rw [List.takeWhile_append_of_pos hd]
  cases rest with
  | nil => simp
  | cons c rest => simp [hr c rfl]

theorem dropWhile_digits {digits rest : List Char} (hd : ∀ c ∈ digits, c.isDigit = true)
    (hr : ∀ c, rest.head? = some c → c.isDigit = false) :
    (digits ++ rest).dropWhile Char.isDigit = rest := by
  rw [List.dropWhile_append_of_pos hd]
  cases rest with
  | nil => simp
  | cons c rest => simp [hr c rfl]

theorem diceAt?_plain {c : Char} (hc : c.isDigit = false) (rest : List Char) :
    diceAt? (c :: rest) = none := by
  simp [diceAt?, hc]

theorem parts_plain {c : Char} (hc : c.isDigit = false) (rest : List Char) :
    parts (c :: rest) = .plain c :: parts rest :=
  parts_cons_none (diceAt?_plain hc rest)

theorem diceAt?_digits {digits rest : List Char} (hd : ∀ c ∈ digits, c.isDigit = true)
    (hr : Separated rest.head?) : diceAt? (digits ++ rest) = none := by
  unfold diceAt?
  rw [dropWhile_digits hd fun c hc => (hr c hc).1]
  cases rest with
  | nil => rfl
  | cons c rest =>
    have hm : ¬ (c = 'd' ∨ c = 'D') := (hr c rfl).2
    simp [hm]

theorem parts_digits {digits rest : List Char} (hd : ∀ c ∈ digits, c.isDigit = true)
    (hr : Separated rest.head?) : parts (digits ++ rest) = digits.map .plain ++ parts rest := by
  induction digits with
  | nil => rfl
  | cons c digits ih =>
    have hnone : diceAt? (c :: (digits ++ rest)) = none := diceAt?_digits hd hr
    rw [List.cons_append, parts_cons_none hnone,
      ih fun x hx => hd x (List.mem_cons_of_mem c hx)]
    rfl

theorem IsMarker.not_digit {c : Char} (h : IsMarker c) : c.isDigit = false := by
  obtain rfl | rfl := h <;> rfl

theorem parts_dice {count sides rest : List Char} {marker : Char} (hc : IsDigits count)
    (hm : IsMarker marker) (hs : IsDigits sides) (hr : Separated rest.head?) :
    parts (count ++ marker :: sides ++ rest) = .dice (count ++ marker :: sides) :: parts rest := by
  apply parts_of_diceAt?
  have hmarker : ∀ c, (marker :: (sides ++ rest)).head? = some c → c.isDigit = false := by
    rintro c ⟨⟩
    exact IsMarker.not_digit hm
  have hrest : ∀ c, rest.head? = some c → c.isDigit = false := fun c hc => (hr c hc).1
  have hm' : marker = 'd' ∨ marker = 'D' := hm
  rw [List.append_assoc, List.cons_append, diceAt?, dropWhile_digits hc.2 hmarker,
    takeWhile_digits hc.2 hmarker]
  simp [takeWhile_digits hs.2 hrest, dropWhile_digits hs.2 hrest, hc.1, hs.1, hm']

end Pieces

section Replacing

theorem replace_plain (texts : List (List Char)) (cs : List Char) :
    replace texts (cs.map .plain) = cs := by
  induction cs with
  | nil => rw [List.map_nil, replace]
  | cons c cs ih => rw [List.map_cons, replace, ih]

theorem replace_append {left right : List Part} {texts : List (List Char)}
    (h : (left.filterMap Part.dice?).length ≤ texts.length) :
    replace texts (left ++ right) =
      replace (texts.take (left.filterMap Part.dice?).length) left ++
        replace (texts.drop (left.filterMap Part.dice?).length) right := by
  induction left generalizing texts with
  | nil => simp [replace]
  | cons part left ih =>
    cases part with
    | plain c =>
      have hl := ih h
      simp only [List.cons_append, replace, List.filterMap_cons, Part.dice?] at hl ⊢
      rw [hl]
    | dice written =>
      cases texts with
      | nil => simp [Part.dice?] at h
      | cons text texts =>
        have hlength : (left.filterMap Part.dice?).length ≤ texts.length := by
          simpa [Part.dice?] using h
        have hl := ih hlength
        simp only [List.cons_append, replace, List.filterMap_cons, Part.dice?, List.length_cons,
          List.take_succ_cons, List.drop_succ_cons, List.append_assoc] at hl ⊢
        rw [hl]

end Replacing

end DiceArithmetic.Proofs.DiceParts
