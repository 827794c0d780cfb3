import Mathlib.Data.List.Basic
import Mathlib.Tactic.Common
import Eigenmesh.Decimal.Fixed
import Eigenmesh.Proofs.Text.Words

/-!
Texts of numbers.

Whole numbers and numbers with a fixed number of decimal places are written without blanks and with
few letters. So a line of numbers with blanks between them gives every number back, and it is never
taken for a headline.
-/

namespace Eigenmesh

/-! ### Numerals -/

namespace Decimal

/-- The characters that numbers are written with. -/
def isFigure (c : Char) : Bool := c.isDigit || ['-', '.', 'N', 'a', 'i', 'n', 'f'].contains c

/-- A number as it is written. -/
structure IsNumeral (s : String) : Prop where
  nonempty : s.toList ≠ []
  figures : ∀ c ∈ s.toList, isFigure c = true

lemma isBlank_of_isFigure {c : Char} (h : isFigure c = true) : Text.isBlank c = false := by
  rw [isFigure, Bool.or_eq_true, List.contains_iff_mem] at h
  rcases h with digit | letter
  · have range : 48 ≤ c.toNat ∧ c.toNat ≤ 57 := by
      simp only [Char.isDigit, Bool.and_eq_true, decide_eq_true_eq, ge_iff_le,
        UInt32.le_iff_toNat_le] at digit
      exact digit
    simp only [Text.isBlank, Text.blankRanges, List.any_cons, List.any_nil, Bool.or_false,
      Bool.or_eq_false_iff, Bool.and_eq_false_imp, decide_eq_true_eq, decide_eq_false_iff_not]
    omega
  · simp only [List.mem_cons, List.not_mem_nil, or_false] at letter
    rcases letter with rfl | rfl | rfl | rfl | rfl | rfl | rfl <;> rfl

lemma IsNumeral.isWord {s : String} (h : IsNumeral s) : Text.IsWord s.toList :=
  ⟨h.nonempty, fun c hc => isBlank_of_isFigure (h.figures c hc)⟩

lemma isFigure_of_mem_digits {n : ℕ} {c : Char} (h : c ∈ digits n) : isFigure c = true := by
  rw [isFigure, Nat.isDigit_of_mem_toDigits (by decide) (Nat.le_refl 10) h, Bool.true_or]

lemma isNumeral_toString (n : ℕ) : IsNumeral (toString n) := by
  rw [Nat.toString_eq_ofList_toDigits]
  refine ⟨?_, fun c hc => ?_⟩
  · rw [String.toList_ofList]
    exact Nat.toDigits_ne_nil
  · rw [String.toList_ofList] at hc
    exact isFigure_of_mem_digits hc

lemma toString_injective {m n : ℕ} (h : toString m = toString n) : m = n := by
  have read := congrArg (fun s : String => Nat.ofDigitChars 10 s.toList 0) h
  simpa only [Nat.toString_eq_ofList_toDigits, String.toList_ofList,
    Nat.ofDigitChars_ten_toDigits] using read

lemma figures_withPoint (d places : ℕ) :
    withPoint d places ≠ [] ∧ ∀ c ∈ withPoint d places, isFigure c = true := by
  let padded := List.replicate (places + 1 - (digits d).length) '0' ++ digits d
  have nonempty : padded ≠ [] := List.append_ne_nil_of_right_ne_nil _ Nat.toDigits_ne_nil
  have figures : ∀ c ∈ padded, isFigure c = true := fun c hc => by
    rcases List.mem_append.1 hc with zero | digit
    · rw [List.eq_of_mem_replicate zero]
      decide
    · exact isFigure_of_mem_digits digit
  change (if places = 0 then padded else _) ≠ [] ∧
    ∀ c ∈ (if places = 0 then padded else _), isFigure c = true
  split
  · exact ⟨nonempty, figures⟩
  · refine ⟨List.append_ne_nil_of_right_ne_nil _ (List.cons_ne_nil _ _), fun c hc => ?_⟩
    rcases List.mem_append.1 hc with before | after
    · exact figures c (List.mem_of_mem_take before)
    · rcases List.mem_cons.1 after with rfl | after
      · decide
      · exact figures c (List.mem_of_mem_drop after)

lemma isNumeral_signed {negative : Bool} {text : List Char} (nonempty : text ≠ [])
    (figures : ∀ c ∈ text, isFigure c = true) : IsNumeral (signed negative false text) := by
  cases negative with
  | false => exact ⟨by simpa [signed] using nonempty, by simpa [signed] using figures⟩
  | true =>
    refine ⟨by simp [signed], fun c hc => ?_⟩
    rcases List.mem_cons.1 (show c ∈ '-' :: text by simpa [signed] using hc) with rfl | hc
    · decide
    · exact figures c hc

lemma isNumeral_fixedText (places : ℕ) (x : Float) : IsNumeral (fixedText places x) := by
  rw [fixedText]
  cases Value.ofFloat x with
  | nan =>
    change IsNumeral "NaN"
    exact ⟨by decide, List.all_eq_true.1 (by rfl)⟩
  | infinite negative => exact isNumeral_signed (by decide) (List.all_eq_true.1 (by rfl))
  | finite negative m q =>
    obtain ⟨nonempty, figures⟩ :=
      figures_withPoint ((Ratio.ofBinary m q).scale places).round places
    exact isNumeral_signed nonempty figures

end Decimal

namespace Text

open Decimal

/-! ### Lines and words -/

/-- The lines of a text. What follows the last line feed is one more. -/
def linesOf (s : String) : List String := (Text.lines s.toList).map String.ofList

/-- The words of a line. -/
def wordsOf (line : String) : List String := (Text.words line.toList).map String.ofList

/-- The lines below a headline, up to an empty one. -/
def below (headline s : String) : List String :=
  (((linesOf s).dropWhile (· ≠ headline)).drop 1).takeWhile (· ≠ "")

lemma below_eq {headline s : String} {before part after : List String}
    (lines : linesOf s = before ++ headline :: (part ++ "" :: after)) (fresh : headline ∉ before)
    (full : "" ∉ part) : below headline s = part := by
  have skipped : ∀ l ∈ before, decide (l ≠ headline) = true := fun l hl =>
    decide_eq_true fun same => fresh (same ▸ hl)
  have taken : ∀ l ∈ part, decide (l ≠ "") = true := fun l hl =>
    decide_eq_true fun same => full (same ▸ hl)
  rw [below, lines, List.dropWhile_append_of_pos skipped, List.dropWhile_cons_of_neg (by simp),
    List.drop_one, List.tail_cons, List.takeWhile_append_of_pos taken,
    List.takeWhile_cons_of_neg (by simp), List.append_nil]

lemma wordsOf_intercalate {ws : List String} (numerals : ∀ w ∈ ws, IsNumeral w) :
    wordsOf (" ".intercalate ws) = ws := by
  have words : ∀ w ∈ ws.map String.toList, IsWord w := by
    intro w hw
    obtain ⟨v, hv, rfl⟩ := List.mem_map.1 hw
    exact (numerals v hv).isWord
  have cut := words_of_spread (spread_intercalate words)
  rw [wordsOf, String.toList_intercalate, show " ".toList = [' '] from rfl, cut, List.map_map]
  simp

/-- A line of numbers with blanks between them. -/
structure IsPlain (l : String) : Prop where
  nonempty : l ≠ ""
  plain : ∀ c ∈ l.toList, c = ' ' ∨ isFigure c = true

lemma isPlain_of_isNumeral {l : String} (h : IsNumeral l) : IsPlain l :=
  ⟨fun empty => h.nonempty (empty ▸ rfl), fun c hc => .inr (h.figures c hc)⟩

lemma isPlain_toString (n : ℕ) : IsPlain (toString n) := isPlain_of_isNumeral (isNumeral_toString n)

lemma isPlain_intercalate {w : String} {ws : List String} (numerals : ∀ v ∈ w :: ws, IsNumeral v) :
    IsPlain (" ".intercalate (w :: ws)) := by
  constructor
  · intro empty
    have words := wordsOf_intercalate numerals
    rw [empty] at words
    cases words
  · intro c hc
    rw [String.toList_intercalate] at hc
    induction ws generalizing w with
    | nil => exact .inr ((numerals w List.mem_cons_self).figures c (by simpa using hc))
    | cons v ws ih =>
      obtain ⟨first, numerals⟩ := List.forall_mem_cons.1 numerals
      rw [List.map_cons, List.map_cons, List.intercalate_cons_cons, List.mem_append,
        List.mem_append] at hc
      rcases hc with (inside | blank) | after
      · exact .inr (first.figures c inside)
      · exact .inl (List.mem_singleton.1 blank)
      · exact ih numerals after

lemma notMem_of_isPlain {ls : List String} (plain : ∀ l ∈ ls, IsPlain l) : "" ∉ ls :=
  fun mem => (plain "" mem).nonempty rfl

/-- A line with a character that is neither blank nor part of a number. -/
def IsHeadline (l : String) : Prop := ∃ c ∈ l.toList, c ≠ ' ' ∧ isFigure c = false

lemma IsHeadline.ne {l l' : String} (h : IsHeadline l) (plain : IsPlain l') : l ≠ l' := by
  rintro rfl
  obtain ⟨c, hc, blank, figure⟩ := h
  rcases plain.plain c hc with rfl | other
  · exact blank rfl
  · rw [figure] at other
    cases other

lemma IsHeadline.notMem {l : String} {ls : List String} (h : IsHeadline l)
    (plain : ∀ l' ∈ ls, IsPlain l') : l ∉ ls := fun mem => h.ne (plain l mem) rfl

lemma IsPlain.single {l : String} (plain : IsPlain l) : '\n' ∉ l.toList := fun mem =>
  (plain.plain _ mem).elim (by decide) (by decide)

end Text

end Eigenmesh
