import Mathlib
import PrefixCalc.Text.Alphabetic
import PrefixCalc.Text.Blank

/-!
# Letters, digits and gaps

A gap is a text of blanks alone, as it may stand around a token.  Trimming takes nothing but a gap
away at the end of a text that starts without a blank, and a text that neither starts nor ends with
a blank is what trimming leaves of it and any gap behind it.  ASCII letters and digits are not
blank, and the letters are alphabetic.
-/

namespace PrefixCalc
namespace Text

/-- A text of blanks alone, perhaps of none. -/
def IsGap (text : List Char) : Prop :=
  ∀ c ∈ text, isBlank c = true

theorem isGap_nil : IsGap [] := by
  intro c hc
  exact absurd hc List.not_mem_nil

theorem isGap_append {first second : List Char} :
    IsGap (first ++ second) ↔ IsGap first ∧ IsGap second := by
  simp only [IsGap, List.forall_mem_append]

theorem isAlpha_iff_toNat {c : Char} :
    c.isAlpha = true ↔ (65 ≤ c.toNat ∧ c.toNat ≤ 90) ∨ (97 ≤ c.toNat ∧ c.toNat ≤ 122) := by
  simp only [Char.isAlpha, Char.isUpper, Char.isLower, Bool.or_eq_true, Bool.and_eq_true,
    decide_eq_true_eq, UInt32.le_iff_toNat_le]
  rfl

theorem isDigit_iff_toNat {c : Char} : c.isDigit = true ↔ 48 ≤ c.toNat ∧ c.toNat ≤ 57 :=
  Char.isDigit_iff_toNat

theorem isAlphanum_of_isAlpha {c : Char} (h : c.isAlpha = true) : c.isAlphanum = true := by
  rw [Char.isAlphanum, h, Bool.true_or]

theorem isAlphanum_of_isDigit {c : Char} (h : c.isDigit = true) : c.isAlphanum = true := by
  rw [Char.isAlphanum, h, Bool.or_true]

theorem toNat_bounds_of_isAlphanum {c : Char} (h : c.isAlphanum = true) :
    48 ≤ c.toNat ∧ c.toNat ≤ 122 := by
  rw [Char.isAlphanum, Bool.or_eq_true, isAlpha_iff_toNat, isDigit_iff_toNat] at h
  omega

theorem isAlphabetic_of_isAlpha {c : Char} (h : c.isAlpha = true) : isAlphabetic c = true := by
  have hBounds := toNat_bounds_of_isAlphanum (isAlphanum_of_isAlpha h)
  rw [isAlphabetic_of_lt (by omega), h]

theorem isBlank_of_isAlphanum {c : Char} (h : c.isAlphanum = true) : isBlank c = false := by
  rw [Bool.eq_false_iff]
  intro hBlank
  obtain ⟨range, hRange, hLow, hHigh⟩ := inRanges_iff.1 hBlank
  have hBounds := toNat_bounds_of_isAlphanum h
  -- No range of blanks meets `48..122`.
  simp only [blankRanges, List.mem_cons, List.not_mem_nil, or_false] at hRange
  rcases hRange with rfl | rfl | rfl | rfl | rfl | rfl | rfl | rfl | rfl | rfl <;> omega

/-- Blanks behind a text that ends without one are trimmed away. -/
theorem trim_append_gap {text gap : List Char} (hGap : IsGap gap)
    (hFirst : ∀ c ∈ text.head?, isBlank c = false)
    (hLast : ∀ c ∈ text.getLast?, isBlank c = false) :
    trim (text ++ gap) = text := by
  have hReverse : (text ++ gap).reverse.dropWhile isBlank = text.reverse := by
    rw [List.reverse_append, List.dropWhile_append_of_pos
      (fun c hc => hGap c (List.mem_reverse.1 hc))]
    cases hText : text.reverse with
    | nil => rfl
    | cons last earlier =>
      have hBlank : isBlank last = false := by
        apply hLast last
        rw [← List.head?_reverse, hText]
        rfl
      rw [List.dropWhile_cons_of_neg (by simp [hBlank])]
  cases text with
  | nil =>
    have hStart : trimStart gap = [] := by
      exact List.dropWhile_eq_nil_iff.2 hGap
    rw [List.nil_append, trim, hStart]
    rfl
  | cons c text =>
    have hStart : trimStart (c :: text ++ gap) = c :: text ++ gap := by
      rw [List.cons_append, trimStart, List.dropWhile_cons_of_neg (by simp [hFirst c rfl])]
    rw [trim, hStart, trimEnd, hReverse, List.reverse_reverse]

/-- A text that starts without a blank is its trimmed form and blanks behind it. -/
theorem exists_gap_of_trim {c : Char} (rest : List Char) (h : isBlank c = false) :
    ∃ gap, IsGap gap ∧ c :: rest = trim (c :: rest) ++ gap := by
  have hStart : trimStart (c :: rest) = c :: rest :=
    List.dropWhile_cons_of_neg (by simp [h])
  refine ⟨((c :: rest).reverse.takeWhile isBlank).reverse, ?_, ?_⟩
  · intro d hd
    exact List.mem_takeWhile_imp (List.mem_reverse.1 hd)
  · rw [trim, hStart, trimEnd, ← List.reverse_append, List.takeWhile_append_dropWhile,
      List.reverse_reverse]

end Text
end PrefixCalc
