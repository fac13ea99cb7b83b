import DiceArithmetic.Expr.Measure
import DiceArithmetic.Proofs.Grammar

namespace DiceArithmetic.Proofs.Decimals

open DiceArithmetic.Decimal
open DiceArithmetic.Proofs.Grammar

def number (digits : List Char) : Nat := Nat.ofDigitChars 10 digits 0

section Reading

theorem digit?_of_isDigit {c : Char} (h : c.isDigit = true) :
    digit? c = some (c.toNat - '0'.toNat) := by
  simp [digit?, asciiDigit?, h]

theorem digits?_of_isDigit {cs : List Char} (h : ∀ c ∈ cs, c.isDigit = true) (value : Nat) :
    digits? digit? value cs = some (Nat.ofDigitChars 10 cs value) := by
  induction cs generalizing value with
  | nil => simp [digits?]
  | cons c cs ih =>
    have hc : c.isDigit = true := h c (by simp)
    have hne : c ≠ '_' := by
      rintro rfl
      simp at hc
    rw [digits?.eq_3 digit? value c cs (fun _ _ hu => absurd hu hne), digit?_of_isDigit hc,
      Option.bind_some, ih (fun x hx => h x (List.mem_cons_of_mem c hx)), Nat.ofDigitChars_cons]

theorem natural?_of_isDigits {cs : List Char} (h : IsDigits cs) :
    natural? digit? cs = some (number cs) := by
  obtain ⟨hne, hall⟩ := h
  cases cs with
  | nil => exact absurd rfl hne
  | cons c cs =>
    rw [natural?, digit?_of_isDigit (hall c (by simp)), Option.bind_some,
      digits?_of_isDigit (fun x hx => hall x (List.mem_cons_of_mem c hx)), number,
      Nat.ofDigitChars_cons]
    simp

theorem integer?_of_isDigits {cs : List Char} (h : IsDigits cs) :
    integer? digit? cs = some (number cs : Int) := by
  have hnat := natural?_of_isDigits h
  unfold integer?
  split
  · exact absurd (h.2 '+' (by simp)) (by decide)
  · exact absurd (h.2 '-' (by simp)) (by decide)
  · rw [hnat]
    rfl

theorem not_isBlank {c : Char} (h : c.isDigit = true) : Text.isBlank c = false := by
  have hb : 48 ≤ c.toNat ∧ c.toNat ≤ 57 := Char.isDigit_iff_toNat.mp h
  simp only [Text.isBlank, Bool.or_eq_false_iff, Bool.and_eq_false_iff, beq_eq_false_iff_ne,
    decide_eq_false_iff_not]
  omega

theorem dropWhile_isBlank {cs : List Char} (h : ∀ c ∈ cs, c.isDigit = true) :
    cs.dropWhile Text.isBlank = cs := by
  cases cs with
  | nil => rfl
  | cons c cs => rw [List.dropWhile_cons, not_isBlank (h c (by simp))]; rfl

theorem trim_of_isDigit {cs : List Char} (h : ∀ c ∈ cs, c.isDigit = true) :
    Text.trim cs = cs := by
  rw [Text.trim, dropWhile_isBlank h, dropWhile_isBlank (by simpa using h), List.reverse_reverse]

theorem extend_of_isDigits {piece : List Char} (h : IsDigits piece) (value : Nat) :
    extend value piece = .ok (Nat.ofDigitChars 10 piece value : Int) := by
  rw [extend, trim_of_isDigit h.2, integer?_of_isDigits h]
  have hval : Nat.ofDigitChars 10 piece value = value * powerOfTen piece.length + number piece := by
    rw [Nat.ofDigitChars_eq_ofDigitChars_zero, Nat.mul_comm]
    rfl
  rw [hval]
  simp

theorem foldlM_extend {cut : List (List Char)} (h : ∀ piece ∈ cut, IsDigits piece) (value : Nat) :
    cut.foldlM extend (value : Int) = .ok (Nat.ofDigitChars 10 cut.flatten value : Int) := by
  induction cut generalizing value with
  | nil => rfl
  | cons piece cut ih =>
    obtain ⟨hpiece, hcut⟩ := List.forall_mem_cons.mp h
    rw [List.foldlM_cons, extend_of_isDigits hpiece]
    apply (ih hcut _).trans
    rw [List.flatten_cons, Nat.ofDigitChars_append]

theorem isDigits_of_mem_cut {cut : List (List Char)} (h : ∀ c ∈ cut.flatten, c.isDigit = true)
    (hne : ∀ piece ∈ cut, piece ≠ []) : ∀ piece ∈ cut, IsDigits piece :=
  fun piece hpiece => ⟨hne piece hpiece, fun c hc => h c (List.mem_flatten_of_mem hpiece hc)⟩

theorem flatten_pieces (cs : List Char) : (pieces cs).flatten = cs := by
  fun_induction pieces cs with
  | case1 => rfl
  | case2 cs hne ih => rw [List.flatten_cons, ih, List.take_append_drop]

theorem length_of_mem_pieces {cs : List Char} :
    ∀ piece ∈ pieces cs, piece ≠ [] ∧ piece.length ≤ pieceLength := by
  fun_induction pieces cs with
  | case1 => nofun
  | case2 cs hne ih =>
    refine List.forall_mem_cons.mpr ⟨⟨?_, List.length_take_le _ _⟩, ih⟩
    rw [Ne, List.take_eq_nil_iff]
    rintro (hp | hn)
    · exact absurd hp (by decide)
    · exact hne hn

/-- A group of ASCII digits of any length is read as its number. -/
theorem read_of_isDigit {cs : List Char} (h : ∀ c ∈ cs, c.isDigit = true) :
    read cs = .ok (number cs : Int) := by
  rw [← flatten_pieces cs] at h
  have hfold := foldlM_extend
    (isDigits_of_mem_cut h fun piece hpiece => (length_of_mem_pieces piece hpiece).1) 0
  rwa [flatten_pieces] at hfold

theorem value_of_isDigits {digits : Digits} (h : IsDigits digits) :
    digits.value = .ok (number digits : Int) := by
  rw [Digits.value, read_of_isDigit h.2]
  rfl

end Reading

section Writing

theorem fitsMessage_eq_false {n : Nat} (h : powerOfTen messageDigits ≤ n) :
    fitsMessage n = false := by
  rw [fitsMessage, Int.natAbs_natCast]
  exact decide_eq_false (Nat.not_lt.mpr h)

theorem padded_succ {k n : Nat} (hk : 0 < k) :
    padded (k + 1) n = padded k (n / 10) ++ [Nat.digitChar (n % 10)] := by
  by_cases hn : n < 10
  · have hdiv : n / 10 = 0 := by omega
    have hmod : n % 10 = n := by omega
    rw [padded, padded, hdiv, hmod, Nat.toDigits_zero, Nat.toDigits_of_lt_base hn]
    obtain ⟨j, rfl⟩ : ∃ j, k = j + 1 := ⟨k - 1, by omega⟩
    simp [List.replicate_succ']
  · rw [padded, padded, Nat.toDigits_of_base_le (by omega) (by omega), List.length_append,
      List.length_singleton, Nat.add_sub_add_right, List.append_assoc]

theorem toDigits_mul_add {k q r : Nat} (hq : 0 < q) (hk : 0 < k) (hr : r < powerOfTen k) :
    Nat.toDigits 10 (q * powerOfTen k + r) = Nat.toDigits 10 q ++ padded k r := by
  induction k generalizing r with
  | zero => omega
  | succ k ih =>
    have hpow : powerOfTen (k + 1) = powerOfTen k * 10 := rfl
    rw [hpow] at hr ⊢
    by_cases hzero : k = 0
    · subst hzero
      have hone : powerOfTen 0 = 1 := rfl
      rw [hone] at hr ⊢
      have hpad : padded (0 + 1) r = Nat.toDigits 10 r := by
        simp [padded, Nat.toDigits_of_lt_base (show r < 10 by omega)]
      rw [hpad, Nat.toDigits_append_toDigits (by decide) hq (by omega)]
      congr 1
      omega
    · have hstep : q * (powerOfTen k * 10) + r = 10 * (q * powerOfTen k + r / 10) + r % 10 := by
        rw [← Nat.mul_assoc]
        omega
      have hpos : 0 < powerOfTen k := Nat.pow_pos (by decide)
      have hqpos : 0 < q * powerOfTen k + r / 10 := by
        have := Nat.mul_pos hq hpos
        omega
      rw [hstep, ← Nat.toDigits_append_toDigits (by decide) hqpos (Nat.mod_lt r (by decide)),
        ih (by omega) (by omega), padded_succ (by omega), List.append_assoc,
        Nat.toDigits_of_lt_base (Nat.mod_lt r (by decide))]

theorem spell_limbs (n : Nat) (lower : List Nat) :
    spell (limbs n lower) = Nat.toDigits 10 n ++ lower.flatMap (padded pieceLength) := by
  fun_induction limbs n lower with
  | case1 n lower h => rfl
  | case2 n lower h ih =>
    have hb : 0 < limbBase := Nat.lt_trans (by decide) (one_lt_powerOfTen (by decide))
    have hdiv : 0 < n / limbBase := Nat.div_pos (Nat.le_of_not_lt h) hb
    have hsplit : n / limbBase * limbBase + n % limbBase = n := Nat.div_add_mod' n limbBase
    rw [ih, List.flatMap_cons, ← List.append_assoc]
    have hdigits : Nat.toDigits 10 (n / limbBase * limbBase + n % limbBase) =
        Nat.toDigits 10 (n / limbBase) ++ padded pieceLength (n % limbBase) :=
      toDigits_mul_add hdiv (by decide) (Nat.mod_lt n hb)
    rw [← hdigits, hsplit]

/-- A natural number of any length is written with its decimal digits. -/
theorem natDigits_eq_toDigits (n : Nat) : natDigits n = Nat.toDigits 10 n := by
  rw [natDigits, spell_limbs, List.flatMap_nil, List.append_nil]

theorem digits_natCast (n : Nat) : digits (n : Int) = Nat.toDigits 10 n := by
  have h : ¬ ((n : Int) < 0) := by omega
  rw [digits, if_neg h, natDigits_eq_toDigits]
  rfl

theorem isDigits_toDigits (n : Nat) : IsDigits (Nat.toDigits 10 n) :=
  ⟨Nat.toDigits_ne_nil, fun _ hc => Nat.isDigit_of_mem_toDigits (by decide) (by decide) hc⟩

theorem number_toDigits (n : Nat) : number (Nat.toDigits 10 n) = n :=
  Nat.ofDigitChars_ten_toDigits

end Writing

end DiceArithmetic.Proofs.Decimals
