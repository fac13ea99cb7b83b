import DiceArithmetic.Calculator
import DiceArithmetic.Proofs.Decimals

namespace DiceArithmetic.Proofs.Wording

open DiceArithmetic.Calculator
open DiceArithmetic.Proofs.Decimals

section Joining

variable {c : Char} {sep : List Char} {words words' : List (List Char)}

theorem not_mem_intercalate (hs : c ∉ sep) (h : ∀ word ∈ words, c ∉ word) :
    c ∉ sep.intercalate words := by
  induction words with
  | nil => simp
  | cons word words ih =>
    have hword := h word (by simp)
    have hrest := ih fun w hw => h w (List.mem_cons_of_mem word hw)
    cases words with
    | nil => rwa [List.intercalate_singleton]
    | cons next words =>
      rw [List.intercalate_cons_cons, List.mem_append, List.mem_append, not_or, not_or]
      exact ⟨⟨hword, hs⟩, hrest⟩

/-- Words that are told apart by a character that none of them holds can be read back. -/
theorem eq_of_intercalate_eq (h : ∀ word ∈ words, c ∉ word) (h' : ∀ word ∈ words', c ∉ word)
    (hne : words ≠ []) (hne' : words' ≠ []) (heq : [c].intercalate words = [c].intercalate words') :
    words = words' := by
  rw [← List.splitOn_intercalate c h hne, heq, List.splitOn_intercalate c h' hne']

theorem intercalate_ne_nil (hne : words ≠ []) (h : ∀ word ∈ words, word ≠ []) :
    sep.intercalate words ≠ [] := by
  cases words with
  | nil => exact absurd rfl hne
  | cons word words =>
    have hword := h word (by simp)
    cases words with
    | nil => rwa [List.intercalate_singleton]
    | cons next words => simp [List.intercalate_cons_cons, hword]

theorem eq_of_intercalate_eq_of_ne_nil (h : ∀ word ∈ words, c ∉ word ∧ word ≠ [])
    (h' : ∀ word ∈ words', c ∉ word ∧ word ≠ [])
    (heq : [c].intercalate words = [c].intercalate words') : words = words' := by
  by_cases hne : words = []
  · by_cases hne' : words' = []
    · rw [hne, hne']
    · rw [hne, List.intercalate_nil] at heq
      exact absurd heq.symm (intercalate_ne_nil hne' fun w hw => (h' w hw).2)
  · by_cases hne' : words' = []
    · rw [hne', List.intercalate_nil] at heq
      exact absurd heq (intercalate_ne_nil hne fun w hw => (h w hw).2)
    · exact eq_of_intercalate_eq (fun w hw => (h w hw).1) (fun w hw => (h' w hw).1) hne hne' heq

end Joining

section Numbers

variable {n : Int} {c : Char}

theorem mem_digits (h : c ∈ Decimal.digits n) : c.isDigit = true ∨ c = '-' := by
  rw [Decimal.digits, natDigits_eq_toDigits] at h
  by_cases hneg : n < 0
  · rw [if_pos hneg] at h
    obtain rfl | hc := List.mem_cons.mp h
    · exact .inr rfl
    · exact .inl ((isDigits_toDigits _).2 c hc)
  · rw [if_neg hneg] at h
    exact .inl ((isDigits_toDigits _).2 c h)

theorem not_mem_digits (n : Int) (hd : c.isDigit = false) (hm : c ≠ '-') :
    c ∉ Decimal.digits n := by
  intro h
  obtain hc | hc := mem_digits h
  · rw [hd] at hc
    cases hc
  · exact hm hc

theorem digits_ne_nil (n : Int) : Decimal.digits n ≠ [] := by
  rw [Decimal.digits, natDigits_eq_toDigits]
  by_cases hneg : n < 0
  · simp [hneg]
  · simp [hneg, (isDigits_toDigits n.natAbs).1]

theorem toDigits_injective : Function.Injective (Nat.toDigits 10) := fun m n h => by
  rw [← number_toDigits m, h, number_toDigits]

theorem digits_of_neg (h : n < 0) : Decimal.digits n = '-' :: Nat.toDigits 10 n.natAbs := by
  rw [Decimal.digits, if_pos h, natDigits_eq_toDigits]

theorem digits_of_nonneg (h : 0 ≤ n) : Decimal.digits n = Nat.toDigits 10 n.natAbs := by
  rw [Decimal.digits, if_neg (Int.not_lt.mpr h), natDigits_eq_toDigits]

theorem digits_ne_of_signs {m n : Int} (hm : m < 0) (hn : 0 ≤ n) :
    Decimal.digits m ≠ Decimal.digits n := by
  rw [digits_of_neg hm, digits_of_nonneg hn]
  intro h
  have hminus := (isDigits_toDigits n.natAbs).2 '-' (h ▸ List.mem_cons_self)
  exact absurd hminus (by decide)

theorem digits_injective : Function.Injective Decimal.digits := by
  intro m n h
  by_cases hm : m < 0
  · by_cases hn : n < 0
    · rw [digits_of_neg hm, digits_of_neg hn] at h
      have habs := toDigits_injective (List.cons.inj h).2
      omega
    · exact absurd h (digits_ne_of_signs hm (Int.not_lt.mp hn))
  · by_cases hn : n < 0
    · exact absurd h.symm (digits_ne_of_signs hn (Int.not_lt.mp hm))
    · rw [digits_of_nonneg (Int.not_lt.mp hm), digits_of_nonneg (Int.not_lt.mp hn)] at h
      have habs := toDigits_injective h
      omega

theorem toList_write (n : Int) : (Decimal.write n).toList = Decimal.digits n :=
  String.toList_ofList

end Numbers

section Lines

def lineWords (t : Throw) : List (List Char) :=
  [['d'].intercalate [Decimal.digits t.count, Decimal.digits t.sides], ['=', '>'],
    ['+'].intercalate (t.rolls.map Decimal.digits), ['=', '>'], Decimal.digits t.total]

theorem toList_line (t : Throw) : t.line.toList = [' '].intercalate (lineWords t) := by
  have h : t.line = Decimal.write t.count ++ "d" ++ Decimal.write t.sides ++ " => " ++
    "+".intercalate (t.rolls.map Decimal.write) ++ " => " ++ Decimal.write t.total := rfl
  have hrolls : (t.rolls.map Decimal.write).map String.toList = t.rolls.map Decimal.digits := by
    rw [List.map_map]
    exact List.map_congr_left fun n _ => toList_write n
  rw [h]
  simp only [String.toList_append, String.toList_intercalate, toList_write, hrolls]
  simp [lineWords, List.intercalate_cons_cons]

variable {c : Char}

theorem not_mem_lineWords (hd : c.isDigit = false) (hc : c ∉ ['-', 'd', '+', '=', '>'])
    (t : Throw) : ∀ word ∈ lineWords t, c ∉ word := by
  have hne : c ≠ '-' ∧ c ≠ 'd' ∧ c ≠ '+' ∧ c ≠ '=' ∧ c ≠ '>' := by simpa using hc
  have hnumber := fun n => not_mem_digits n hd hne.1
  have harrow : c ∉ ['=', '>'] := by simp [hne]
  intro word hword
  simp only [lineWords, List.mem_cons, List.not_mem_nil, or_false] at hword
  obtain rfl | rfl | rfl | rfl | rfl := hword
  · exact not_mem_intercalate (by simp [hne]) (by simp [hnumber])
  · exact harrow
  · exact not_mem_intercalate (by simp [hne]) (by simp [hnumber])
  · exact harrow
  · exact hnumber _

theorem not_mem_line (hd : c.isDigit = false) (hc : c ∉ ['-', 'd', '+', '=', '>', ' '])
    (t : Throw) : c ∉ t.line.toList := by
  rw [toList_line]
  have hne : c ≠ ' ' := fun h => hc (by simp [h])
  have hwords : c ∉ ['-', 'd', '+', '=', '>'] := fun h => hc (List.mem_append_left [' '] h)
  exact not_mem_intercalate (by simpa using hne) (not_mem_lineWords hd hwords t)

theorem line_injective : Function.Injective Throw.line := by
  intro t t' h
  have hlist := congrArg String.toList h
  rw [toList_line, toList_line] at hlist
  have hwords := eq_of_intercalate_eq (not_mem_lineWords rfl (by decide) t)
    (not_mem_lineWords rfl (by decide) t') (by simp [lineWords]) (by simp [lineWords]) hlist
  simp only [lineWords, List.cons.injEq, and_true, true_and] at hwords
  obtain ⟨hdice, hrolls, htotal⟩ := hwords
  have hmarker : ∀ n, 'd' ∉ Decimal.digits n := fun n => not_mem_digits n rfl (by decide)
  have hplus : ∀ n, '+' ∉ Decimal.digits n := fun n => not_mem_digits n rfl (by decide)
  have hpair := eq_of_intercalate_eq (by simp [hmarker]) (by simp [hmarker]) (by simp) (by simp)
    hdice
  have hfaces := eq_of_intercalate_eq_of_ne_nil (by simp [hplus, digits_ne_nil])
    (by simp [hplus, digits_ne_nil]) hrolls
  simp only [List.cons.injEq, and_true] at hpair
  have hcount := digits_injective hpair.1
  have hsides := digits_injective hpair.2
  have htotal' := digits_injective htotal
  have hrolls' := (List.map_inj_right fun _ _ h => digits_injective h).mp hfaces
  cases t
  cases t'
  congr

def displayWords (tally : Tally) : List (List Char) :=
  if tally.value.den = 1 then [Decimal.digits tally.value.num]
  else [Decimal.digits tally.value.num, Decimal.digits tally.value.den]

theorem toList_display (tally : Tally) :
    tally.display.toList = ['/'].intercalate (displayWords tally) := by
  unfold Tally.display displayWords
  by_cases h : tally.value.den = 1
  · simp [h, toList_write]
  · rw [if_neg h, if_neg h]
    have hquotient : s!"{Decimal.write tally.value.num}/{Decimal.write tally.value.den}" =
      Decimal.write tally.value.num ++ "/" ++ Decimal.write tally.value.den := rfl
    rw [hquotient]
    simp [String.toList_append, toList_write, List.intercalate_cons_cons]

theorem not_mem_displayWords (hd : c.isDigit = false) (hc : c ≠ '-') (tally : Tally) :
    ∀ word ∈ displayWords tally, c ∉ word := by
  have hnumber := fun n => not_mem_digits n hd hc
  unfold displayWords
  split <;> simp [hnumber]

theorem not_mem_display (hd : c.isDigit = false) (hc : c ∉ ['-', '/']) (tally : Tally) :
    c ∉ tally.display.toList := by
  have hne : c ≠ '-' ∧ c ≠ '/' := by simpa using hc
  rw [toList_display]
  exact not_mem_intercalate (by simpa using hne.2) (not_mem_displayWords hd hne.1 tally)

theorem value_of_display {tally tally' : Tally} (h : tally.display = tally'.display) :
    tally.value = tally'.value := by
  have hlist := congrArg String.toList h
  rw [toList_display, toList_display] at hlist
  have hne : ∀ tally, displayWords tally ≠ [] := by
    intro tally
    unfold displayWords
    split <;> simp
  have hwords := eq_of_intercalate_eq (not_mem_displayWords rfl (by decide) tally)
    (not_mem_displayWords rfl (by decide) tally') (hne _) (hne _) hlist
  unfold displayWords at hwords
  split at hwords <;> split at hwords <;> rename_i hden hden'
  · have hnum := digits_injective (List.cons.inj hwords).1
    exact Rat.ext hnum (hden.trans hden'.symm)
  · simp at hwords
  · simp at hwords
  · simp only [List.cons.injEq, and_true] at hwords
    have hden := digits_injective hwords.2
    exact Rat.ext (digits_injective hwords.1) (by omega)

end Lines

section Answers

/-- A text that cannot be mistaken for anything but an expression. -/
def Plain (text : String) : Prop :=
  ∀ c ∈ text.toList, c ≠ ' ' ∧ c ≠ '\n' ∧ c ≠ Char.ofNat 0x60

def resultWords (text : String) (tally : Tally) : List (List Char) :=
  [text.toList, ['=', '>'], tally.display.toList]

def resultLine (text : String) (tally : Tally) : List Char :=
  [' '].intercalate (resultWords text tally)

def answerLines (text : String) (tally : Tally) : List (List Char) :=
  tally.throws.map (·.line.toList) ++ [resultLine text tally]

theorem toList_render (text : String) (tally : Tally) :
    (render text tally).toList = ['\n'].intercalate (answerLines text tally) := by
  have hresult : s!"{text} => {tally.display}" = text ++ " => " ++ tally.display := rfl
  have hline : (text ++ " => " ++ tally.display).toList = resultLine text tally := by
    simp [resultLine, resultWords, String.toList_append, List.intercalate_cons_cons]
  rw [render, hresult, String.toList_intercalate, List.map_append, Tally.lines, List.map_map,
    List.map_singleton, hline]
  rfl

theorem not_mem_resultWords {text : String} (h : Plain text) (tally : Tally) :
    ∀ word ∈ resultWords text tally, ' ' ∉ word ∧ '\n' ∉ word ∧ Char.ofNat 0x60 ∉ word := by
  intro word hword
  simp only [resultWords, List.mem_cons, List.not_mem_nil, or_false] at hword
  obtain rfl | rfl | rfl := hword
  · exact ⟨fun hc => (h _ hc).1 rfl, fun hc => (h _ hc).2.1 rfl, fun hc => (h _ hc).2.2 rfl⟩
  · decide
  · have hdisplay := fun c hd hc => @not_mem_display c hd hc tally
    exact ⟨hdisplay _ rfl (by decide), hdisplay _ rfl (by decide), hdisplay _ rfl (by decide)⟩

theorem not_mem_answerLines {text : String} (h : Plain text) (tally : Tally) :
    ∀ line ∈ answerLines text tally, '\n' ∉ line ∧ Char.ofNat 0x60 ∉ line := by
  intro line hline
  obtain hthrow | hresult := List.mem_append.mp hline
  · obtain ⟨throw, _, rfl⟩ := List.mem_map.mp hthrow
    exact ⟨not_mem_line rfl (by decide) throw, not_mem_line rfl (by decide) throw⟩
  · cases List.mem_singleton.mp hresult
    have hwords := not_mem_resultWords h tally
    exact ⟨not_mem_intercalate (by decide) fun word hw => (hwords word hw).2.1,
      not_mem_intercalate (by decide) fun word hw => (hwords word hw).2.2⟩

theorem splitOn_render {text : String} (h : Plain text) (tally : Tally) :
    (render text tally).toList.splitOn '\n' = answerLines text tally := by
  rw [toList_render]
  exact List.splitOn_intercalate '\n' (fun line hl => (not_mem_answerLines h tally line hl).1)
    (by simp [answerLines])

theorem resultLine_injective {text text' : String} {tally tally' : Tally} (h : Plain text)
    (h' : Plain text') (heq : resultLine text tally = resultLine text' tally') :
    text = text' ∧ tally.value = tally'.value := by
  have hwords := eq_of_intercalate_eq (fun word hw => (not_mem_resultWords h tally word hw).1)
    (fun word hw => (not_mem_resultWords h' tally' word hw).1) (by simp [resultWords])
    (by simp [resultWords]) heq
  simp only [resultWords, List.cons.injEq, and_true, true_and] at hwords
  exact ⟨String.toList_inj.mp hwords.1, value_of_display (String.toList_inj.mp hwords.2)⟩

/-- An answer with a value shows its text, the value and every throw. -/
theorem render_injective {text text' : String} {tally tally' : Tally} (h : Plain text)
    (h' : Plain text') (heq : render text tally = render text' tally') :
    text = text' ∧ tally = tally' := by
  have hlines : answerLines text tally = answerLines text' tally' := by
    rw [← splitOn_render h, heq, splitOn_render h']
  obtain ⟨hthrows, hresult⟩ := List.append_inj' hlines rfl
  obtain ⟨htext, hvalue⟩ := resultLine_injective h h' (List.singleton_inj.mp hresult)
  have hsame : tally.throws = tally'.throws := by
    refine (List.map_inj_right fun throw throw' hline => ?_).mp hthrows
    exact line_injective (String.toList_inj.mp hline)
  cases tally
  cases tally'
  exact ⟨htext, by congr⟩

def quoted (text words : String) : String :=
  "`" ++ text ++ words

theorem notParsed_eq (text : String) :
    notParsed text = quoted text "` => could not be parsed" := rfl

theorem notComputed_eq (text : String) :
    notComputed text = quoted text "` => parsed but could not be computed" := rfl

theorem quoted_injective (words : String) : Function.Injective (quoted · words) := by
  intro text text' h
  rw [← String.toList_inj] at h
  simpa [quoted, String.toList_append, String.toList_inj] using h

theorem notParsed_injective : Function.Injective notParsed :=
  quoted_injective "` => could not be parsed"

theorem notComputed_injective : Function.Injective notComputed :=
  quoted_injective "` => parsed but could not be computed"

theorem notParsed_ne_notComputed (text text' : String) : notParsed text ≠ notComputed text' := by
  intro h
  rw [notParsed_eq, notComputed_eq, quoted, quoted, ← String.toList_inj] at h
  simp only [String.toList_append] at h
  -- The shorter of the two endings would have to be the end of the longer one.
  have hleft := List.suffix_append ("`".toList ++ text.toList) "` => could not be parsed".toList
  have hright := List.suffix_append ("`".toList ++ text'.toList)
    "` => parsed but could not be computed".toList
  rw [h] at hleft
  exact absurd (List.suffix_of_suffix_length_le hleft hright (by decide)) (by decide)

theorem not_mem_render {text : String} (h : Plain text) (tally : Tally) :
    Char.ofNat 0x60 ∉ (render text tally).toList := by
  rw [toList_render]
  exact not_mem_intercalate (by decide) fun line hl => (not_mem_answerLines h tally line hl).2

theorem render_ne_quoted {text : String} (h : Plain text) (tally : Tally) (text' words : String) :
    render text tally ≠ quoted text' words := by
  intro heq
  apply not_mem_render h tally
  rw [heq, quoted, String.toList_append, String.toList_append]
  exact List.mem_append_left _ (List.mem_append_left _ (by decide))

end Answers

end DiceArithmetic.Proofs.Wording
