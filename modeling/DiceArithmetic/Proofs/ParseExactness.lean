import DiceArithmetic.Proofs.PlainReading
import DiceArithmetic.Proofs.Viability

namespace DiceArithmetic.Proofs.ParseExactness

open DiceArithmetic.Expr.Parser
open DiceArithmetic.Proofs.Grammar DiceArithmetic.Proofs.Openings
open DiceArithmetic.Proofs.Reading DiceArithmetic.Proofs.PhraseReading
open DiceArithmetic.Proofs.PlainReading DiceArithmetic.Proofs.Beginnings
open DiceArithmetic.Proofs.Viability

theorem derives_unique {text : List Char} {e e' : Expr} (h : Derives Greedy .sum text none e)
    (h' : Derives Greedy .sum text none e') : e = e' := by
  have hrun := run_eq_ok_of_derives h (Nat.le_refl _)
  rw [run_eq_ok_of_derives h' (Nat.le_refl _)] at hrun
  exact (Except.ok.inj hrun).symm

theorem greedy_of_sentence {text : List Char} (h : Sentence text) :
    ∃ e, Derives Greedy .sum text none e := by
  obtain ⟨e, he⟩ := run_of_sentence h (Nat.le_refl _)
  exact ⟨e, derives_of_run Begins.start he⟩

theorem run_of_within {limit : Nat} {text : List Char} (h : Within limit text) :
    run limit {} 0 text = run (max limit text.length) {} 0 text := by
  refine (run_of_le (Nat.le_max_left _ _) fun hn => ?_).symm
  obtain ⟨more, hm, hv, ho⟩ := exists_of_run_eq_none Begins.start hn
  exact absurd (h more hm hv) (Nat.not_le_of_lt ho)

theorem parse_eq_ok {text : String} {e : Expr} :
    Expr.parse text = .ok e ↔ run maxOpen {} 0 text.toList = .ok e := by
  unfold Expr.parse
  cases run maxOpen {} 0 text.toList with
  | error position => exact ⟨nofun, nofun⟩
  | ok tree =>
    constructor
    · rintro ⟨⟩
      rfl
    · rintro ⟨⟩
      rfl

theorem derives_of_parse {text : String} {e : Expr} (h : Expr.parse text = .ok e) :
    Derives Greedy .sum text.toList none e :=
  derives_of_run Begins.start (parse_eq_ok.mp h)

theorem parse_of_derives {text : String} {e : Expr} (hw : Within maxOpen text.toList)
    (h : Derives Greedy .sum text.toList none e) : Expr.parse text = .ok e := by
  rw [parse_eq_ok, run_of_within hw]
  exact run_eq_ok_of_derives h (Nat.le_max_right _ _)

theorem parse_ofList {text : List Char} {e : Expr} (hw : Within maxOpen text)
    (h : Derives Greedy .sum text none e) : Expr.parse (String.ofList text) = .ok e := by
  rw [← @String.toList_ofList text] at hw h
  exact parse_of_derives hw h

theorem parse_fails {text : String} (h : ¬ ∃ e, Expr.parse text = .ok e) :
    ∃ position, Expr.parse text = .error (.unparsable text position) := by
  unfold Expr.parse at h ⊢
  cases hr : run maxOpen {} 0 text.toList with
  | ok e => exact absurd ⟨e, by rw [hr]; rfl⟩ h
  | error position => exact ⟨position, rfl⟩

/-- A text that never has too much open is read exactly as the grammar with greedy negations says,
which gives it at most one tree and leaves out no text of the plain grammar. -/
theorem parse_eq_ok_iff_derives (text : String) (hw : Within maxOpen text.toList) :
    (∀ e, Expr.parse text = .ok e ↔ Derives Greedy .sum text.toList none e) ∧
    (∀ e e', Derives Greedy .sum text.toList none e → Derives Greedy .sum text.toList none e' →
      e = e') ∧
    ((∃ e, Expr.parse text = .ok e) ↔ Sentence text.toList) ∧
    (¬ Sentence text.toList →
      ∃ position, Expr.parse text = .error (.unparsable text position)) := by
  have hiff : (∃ e, Expr.parse text = .ok e) ↔ Sentence text.toList := by
    constructor
    · rintro ⟨e, he⟩
      exact (derives_of_parse he).sentence
    · intro hs
      obtain ⟨e, he⟩ := greedy_of_sentence hs
      exact ⟨e, parse_of_derives hw he⟩
  refine ⟨fun e => ⟨derives_of_parse, parse_of_derives hw⟩, fun e e' => derives_unique, hiff, ?_⟩
  intro hs
  exact parse_fails fun he => hs (hiff.mp he)

theorem derives_negation_inside_product :
    Within maxOpen "2*-(3d6--01)+4".toList ∧
    Derives Greedy .sum "2*-(3d6--01)+4".toList none
      (.binary .mul (.literal ['2']) (.negated (.binary .add
        (.binary .sub (.dice ⟨['3'], ['6']⟩) (.negated (.literal ['0', '1'])))
        (.literal ['4'])))) := by
  have hw : Within maxOpen "2*-(3d6--01)+4".toList := within_of_length (by decide)
  have hp : Expr.parse "2*-(3d6--01)+4" = .ok (.binary .mul (.literal ['2']) (.negated (.binary .add
      (.binary .sub (.dice ⟨['3'], ['6']⟩) (.negated (.literal ['0', '1'])))
      (.literal ['4'])))) := by rfl
  exact ⟨hw, ((parse_eq_ok_iff_derives _ hw).1 _).mp hp⟩

end DiceArithmetic.Proofs.ParseExactness
