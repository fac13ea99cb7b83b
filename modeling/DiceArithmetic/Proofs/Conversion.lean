import Mathlib.Data.Nat.Digits.Defs
import DiceArithmetic.Proofs.Decimals

namespace DiceArithmetic.Proofs.Conversion

open DiceArithmetic.Decimal
open DiceArithmetic.Proofs.Grammar DiceArithmetic.Proofs.Decimals

section Zeros

def withoutZeros (cs : List Char) : List Char :=
  match cs.dropWhile (· == '0') with
  | [] => ['0']
  | c :: rest => c :: rest

theorem digitChar_of_isDigit {c : Char} (h : c.isDigit = true) :
    c.toNat - '0'.toNat < 10 ∧ Nat.digitChar (c.toNat - '0'.toNat) = c := by
  obtain ⟨hlow, hhigh⟩ : 48 ≤ c.toNat ∧ c.toNat ≤ 57 := Char.isDigit_iff_toNat.mp h
  have hzero : '0'.toNat = 48 := rfl
  have hlt : c.toNat - '0'.toNat < 10 := by omega
  refine ⟨hlt, Char.toNat_inj.mp ?_⟩
  rw [Nat.toNat_digitChar_of_lt_ten hlt]
  omega

theorem toDigits_ofDigitChars {cs : List Char} (h : ∀ c ∈ cs, c.isDigit = true) {value : Nat}
    (hv : 0 < value) :
    Nat.toDigits 10 (Nat.ofDigitChars 10 cs value) = Nat.toDigits 10 value ++ cs := by
  induction cs generalizing value with
  | nil => rw [Nat.ofDigitChars_nil, List.append_nil]
  | cons c cs ih =>
    obtain ⟨hc, hcs⟩ := List.forall_mem_cons.mp h
    obtain ⟨hlt, hchar⟩ := digitChar_of_isDigit hc
    have hpos : 0 < 10 * value + (c.toNat - '0'.toNat) := by omega
    rw [Nat.ofDigitChars_cons, ih hcs hpos, ← Nat.toDigits_append_toDigits (by decide) hv hlt,
      Nat.toDigits_of_lt_base hlt, hchar, List.append_assoc, List.singleton_append]

theorem toDigits_number {cs : List Char} (h : ∀ c ∈ cs, c.isDigit = true) :
    Nat.toDigits 10 (number cs) = withoutZeros cs := by
  induction cs with
  | nil => rfl
  | cons c cs ih =>
    obtain ⟨hc, hcs⟩ := List.forall_mem_cons.mp h
    obtain ⟨hlt, hchar⟩ := digitChar_of_isDigit hc
    by_cases hzero : c = '0'
    · subst hzero
      have hdrop : withoutZeros ('0' :: cs) = withoutZeros cs := by simp [withoutZeros]
      rw [hdrop, ← ih hcs, number, Nat.ofDigitChars_cons]
      rfl
    · have hpos : 0 < c.toNat - '0'.toNat := by
        refine Nat.pos_of_ne_zero fun hnone => hzero ?_
        rw [← hchar, hnone]
        rfl
      have hkeep : withoutZeros (c :: cs) = c :: cs := by simp [withoutZeros, hzero]
      rw [hkeep, number, Nat.ofDigitChars_cons, Nat.mul_zero, Nat.zero_add,
        toDigits_ofDigitChars hcs hpos, Nat.toDigits_of_lt_base hlt, hchar, List.singleton_append]

end Zeros

section Limbs

theorem powerOfTen_eq (n : Nat) : powerOfTen n = 10 ^ n := rfl

theorem powerOfTen_mono {m n : Nat} (h : m ≤ n) : powerOfTen m ≤ powerOfTen n :=
  Nat.pow_le_pow_right (by decide) h

theorem limbBase_eq : limbBase = 10 ^ 4000 := powerOfTen_eq 4000

theorem one_lt_limbBase : 1 < limbBase := one_lt_powerOfTen (by decide)

/-- A number is split into its digits to the base of the limbs, and zero into one limb. -/
theorem limbs_eq_digits (n : Nat) (lower : List Nat) :
    limbs n lower = (if n = 0 then [0] else (Nat.digits limbBase n).reverse) ++ lower := by
  fun_induction limbs n lower with
  | case1 n lower h =>
    by_cases hzero : n = 0
    · rw [if_pos hzero, hzero, List.singleton_append]
    · rw [if_neg hzero, Nat.digits_of_lt limbBase n hzero h]
      rfl
  | case2 n lower h ih =>
    have hle : limbBase ≤ n := Nat.le_of_not_lt h
    have hbase := one_lt_limbBase
    have hzero : n ≠ 0 := by omega
    have hdiv : n / limbBase ≠ 0 := Nat.ne_of_gt (Nat.div_pos hle (by omega))
    rw [ih, if_neg hdiv, if_neg hzero, Nat.digits_eq_cons_digits_div hbase hzero,
      List.reverse_cons, List.append_assoc, List.singleton_append]

theorem lt_of_mem_limbs {n limb : Nat} (h : limb ∈ limbs n []) : limb < limbBase := by
  rw [limbs_eq_digits, List.append_nil] at h
  by_cases hzero : n = 0
  · rw [if_pos hzero, List.mem_singleton] at h
    rw [h]
    exact Nat.lt_trans Nat.zero_lt_one one_lt_limbBase
  · rw [if_neg hzero, List.mem_reverse] at h
    exact Nat.digits_lt_base one_lt_limbBase h

theorem fitsMessage_of_lt_limbBase {limb : Nat} (h : limb < limbBase) :
    fitsMessage limb = true := by
  have hlength : pieceLength ≤ messageDigits := by decide
  rw [fitsMessage, Int.natAbs_natCast, decide_eq_true_eq]
  exact Nat.lt_of_lt_of_le h (powerOfTen_mono hlength)

end Limbs

theorem digits_neg {n : Int} (h : n < 0) : digits n = '-' :: digits (-n) := by
  have hneg : ¬ -n < 0 := by omega
  rw [digits, if_pos h, digits, if_neg hneg, Int.natAbs_neg]

/-- Digits are read as the number that they stand for, wherever they are cut into pieces, and this
number is written without their leading zeros. The pieces that are read are short. -/
structure ReadExactly (cs : List Char) : Prop where
  value : read cs = .ok (number cs : Int)
  cut : ∀ cut : List (List Char), cut.flatten = cs → (∀ piece ∈ cut, piece ≠ []) →
    cut.foldlM extend 0 = .ok (number cs : Int)
  written : digits (number cs) = withoutZeros cs
  whole : (pieces cs).flatten = cs
  short : ∀ piece ∈ pieces cs, piece ≠ [] ∧ piece.length ≤ 4000

/-- A number is written with its decimal digits and is read back. What is written one after the
other are its digits to a large base, each of them short. -/
structure WrittenExactly (n : Nat) : Prop where
  written : digits n = Nat.toDigits 10 n
  readBack : read (digits n) = .ok (n : Int)
  spelled : digits n = spell (limbs n [])
  split : limbs n [] = if n = 0 then [0] else (Nat.digits (10 ^ 4000) n).reverse
  short : ∀ limb ∈ limbs n [], limb < 10 ^ 4000 ∧ fitsMessage limb = true

theorem readExactly {cs : List Char} (h : IsDigits cs) : ReadExactly cs where
  value := read_of_isDigit h.2
  cut cut hcut hne := by
    have hall : ∀ c ∈ cut.flatten, c.isDigit = true := hcut ▸ h.2
    have hfold := foldlM_extend (isDigits_of_mem_cut hall hne) 0
    rwa [hcut] at hfold
  written := by rw [digits_natCast, toDigits_number h.2]
  whole := flatten_pieces cs
  short := length_of_mem_pieces

theorem writtenExactly (n : Nat) : WrittenExactly n where
  written := digits_natCast n
  readBack := by rw [digits_natCast, read_of_isDigit (isDigits_toDigits n).2, number_toDigits]
  spelled := by rw [digits_natCast, spell_limbs, List.flatMap_nil, List.append_nil]
  split := by
    rw [limbs_eq_digits, List.append_nil, limbBase_eq]
  short limb hlimb := by
    have hlt := lt_of_mem_limbs hlimb
    exact ⟨limbBase_eq ▸ hlt, fitsMessage_of_lt_limbBase hlt⟩

/-- Digits and numbers of any length are turned into each other exactly, although only short pieces
of them are ever converted at once. -/
theorem conversion_exact (cs : List Char) (h : IsDigits cs) :
    ReadExactly cs ∧ (∀ n : Nat, WrittenExactly n) ∧
      ∀ n : Int, n < 0 → digits n = '-' :: digits (-n) :=
  ⟨readExactly h, writtenExactly, fun _ => digits_neg⟩

theorem conversion_exact_leading_zeros :
    let cs := "0070".toList
    IsDigits cs ∧ ReadExactly cs ∧ read cs = .ok 70 ∧ digits 70 = "70".toList ∧
      [['0'], ['0', '7'], ['0']].foldlM extend 0 = .ok 70 ∧ digits (-70) = "-70".toList := by
  intro cs
  have hdigits : IsDigits cs := ⟨nofun, List.all_eq_true.mp rfl⟩
  obtain ⟨hread, -, hneg⟩ := conversion_exact cs hdigits
  have hnumber : number cs = 70 := by rfl
  have hvalue := hread.value
  have hcut := hread.cut [['0'], ['0', '7'], ['0']] rfl (by decide)
  have hseventy := hread.written
  rw [hnumber] at hvalue hcut hseventy
  refine ⟨hdigits, hread, hvalue, hseventy, hcut, ?_⟩
  rw [hneg (-70) (by decide)]
  exact congrArg (List.cons '-') hseventy

end DiceArithmetic.Proofs.Conversion
