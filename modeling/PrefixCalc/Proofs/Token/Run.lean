import PrefixCalc.Proofs.Token.Spelling

/-!
# Runs of text

A number or a name is read from the run of text up to the next `,` or `)`, trimmed.  The run is one
word exactly when nothing but blanks follows the word there (`Delimited`): `run_append` finds the
word again, and `exists_delimited_of_run` splits any text into its run and something delimited.
-/

namespace PrefixCalc
namespace Numeral

theorem isDigit_or_dash_of_mem_write {value : Int} {c : Char} (h : c ∈ write value) :
    c.isDigit = true ∨ c = '-' := by
  have hDigits : ∀ n : Nat, c ∈ Nat.toDigits 10 n → c.isDigit = true :=
    fun n hc => Nat.isDigit_of_mem_toDigits (by decide) (by decide) hc
  unfold write at h
  split at h
  · rcases List.mem_cons.1 h with hDash | hc
    · exact Or.inr hDash
    · exact Or.inl (hDigits _ hc)
  · exact Or.inl (hDigits _ h)

theorem write_ne_nil (value : Int) : write value ≠ [] := by
  unfold write
  split
  · exact List.cons_ne_nil _ _
  · exact Nat.toDigits_ne_nil

theorem toList_ofWord (value : Int32) : (ofWord value).toList = write value.toInt := by
  rw [ofWord, String.toList_ofList]

end Numeral

namespace Token

/-- A character that can stand in the spelling of an operand. -/
def IsWordChar (c : Char) : Prop :=
  c.isAlphanum = true ∨ c = '_' ∨ c = '-'

theorem IsWordChar.not_isBlank {c : Char} (h : IsWordChar c) : Text.isBlank c = false := by
  rcases h with hAlphanum | rfl | rfl
  · exact Text.isBlank_of_isAlphanum hAlphanum
  · decide
  · decide

theorem IsWordChar.not_mark {c : Char} (h : IsWordChar c) : c ≠ ',' ∧ c ≠ '(' ∧ c ≠ ')' := by
  refine ⟨?_, ?_, ?_⟩ <;> rintro rfl <;> exact absurd h (by unfold IsWordChar; decide)

theorem ne_of_isAlpha {c : Char} (h : c.isAlpha = true) :
    c ≠ ',' ∧ c ≠ '(' ∧ c ≠ ')' ∧ ¬ (c.isDigit || c == '-') = true := by
  refine ⟨?_, ?_, ?_, ?_⟩
  · rintro rfl
    exact absurd h (by decide)
  · rintro rfl
    exact absurd h (by decide)
  · rintro rfl
    exact absurd h (by decide)
  · intro hNumber
    rcases Bool.or_eq_true _ _ ▸ hNumber with hDigit | hDash
    · have hDigits := Text.isDigit_iff_toNat.1 hDigit
      have hLetters := Text.isAlpha_iff_toNat.1 h
      omega
    · rw [beq_iff_eq.1 hDash] at h
      exact absurd h (by decide)

/-- A letter of any alphabet is no digit and no mark. -/
theorem ne_of_isAlphabetic {c : Char} (h : Text.isAlphabetic c = true) :
    c ≠ ',' ∧ c ≠ '(' ∧ c ≠ ')' ∧ ¬ (c.isDigit || c == '-') = true := by
  by_cases hAscii : c.toNat < 128
  · rw [Text.isAlphabetic_of_lt hAscii] at h
    exact ne_of_isAlpha h
  · refine ⟨?_, ?_, ?_, ?_⟩
    · rintro rfl
      exact hAscii (by decide)
    · rintro rfl
      exact hAscii (by decide)
    · rintro rfl
      exact hAscii (by decide)
    · rw [Bool.or_eq_true, Text.isDigit_iff_toNat, beq_iff_eq]
      rintro (hDigit | rfl)
      · omega
      · exact hAscii (by decide)

/-! ## Runs -/

/-- Only blanks come before the next `,` or `)`, or before the end. -/
def Delimited (after : List Char) : Prop :=
  Text.IsGap (after.takeWhile fun c => c != ',' && c != ')')

/-- A run holds one word when only blanks stand between the word and the next `,` or `)`. -/
theorem run_append {word after : List Char} (hWord : ∀ c ∈ word, IsWordChar c)
    (hAfter : Delimited after) : run (word ++ after) = word := by
  have hTake : (word ++ after).takeWhile (fun c => c != ',' && c != ')') =
      word ++ after.takeWhile fun c => c != ',' && c != ')' := by
    apply List.takeWhile_append_of_pos
    intro c hc
    have hMark := (hWord c hc).not_mark
    simp [hMark.1, hMark.2.2]
  rw [run, hTake]
  apply Text.trim_append_gap hAfter
  · intro c hc
    exact (hWord c (List.mem_of_mem_head? hc)).not_isBlank
  · intro c hc
    exact (hWord c (List.mem_of_mem_getLast? hc)).not_isBlank

/-- A text is the run in front of it and something delimited. -/
theorem exists_delimited_of_run {c : Char} (rest : List Char) (hBlank : Text.isBlank c = false)
    (hComma : c ≠ ',') (hClosing : c ≠ ')') :
    ∃ after, c :: rest = run (c :: rest) ++ after ∧ Delimited after := by
  have hTake : (c :: rest).takeWhile (fun d => d != ',' && d != ')') =
      c :: rest.takeWhile fun d => d != ',' && d != ')' :=
    List.takeWhile_cons_of_pos (by simp [hComma, hClosing])
  obtain ⟨gap, hGap, hRun⟩ :=
    Text.exists_gap_of_trim (rest.takeWhile fun d => d != ',' && d != ')') hBlank
  rw [← hTake] at hRun
  refine ⟨gap ++ (c :: rest).dropWhile (fun d => d != ',' && d != ')'), ?_, ?_⟩
  · rw [run, ← List.append_assoc, ← hRun, List.takeWhile_append_dropWhile]
  · have hInside : ∀ d ∈ gap, (d != ',' && d != ')') = true := by
      intro d hd
      apply List.mem_takeWhile_imp (p := fun d => d != ',' && d != ')') (l := c :: rest)
      rw [hRun]
      exact List.mem_append_right _ hd
    -- What `dropWhile` leaves starts with a mark, if it is not empty.
    have hStop : ((c :: rest).dropWhile fun d => d != ',' && d != ')').takeWhile
        (fun d => d != ',' && d != ')') = [] := by
      have hHead := List.head?_dropWhile_not (fun d => d != ',' && d != ')') (c :: rest)
      cases hDrop : (c :: rest).dropWhile fun d => d != ',' && d != ')' with
      | nil => rfl
      | cons d tail =>
        rw [hDrop] at hHead
        exact List.takeWhile_cons_of_neg (by simpa using hHead)
    rw [Delimited, List.takeWhile_append_of_pos hInside, hStop, List.append_nil]
    exact hGap

/-- Blanks in front neither make nor spoil a delimited text. -/
theorem delimited_gap_append {gap rest : List Char} (hGap : Text.IsGap gap) :
    Delimited (gap ++ rest) ↔ Delimited rest := by
  have hInside : ∀ c ∈ gap, (c != ',' && c != ')') = true := by
    intro c hc
    have hBlank := hGap c hc
    have hComma : c ≠ ',' := by
      rintro rfl
      exact absurd hBlank (by decide)
    have hClosing : c ≠ ')' := by
      rintro rfl
      exact absurd hBlank (by decide)
    simp [hComma, hClosing]
  rw [Delimited, List.takeWhile_append_of_pos hInside, Text.isGap_append]
  exact ⟨fun h => h.2, fun h => ⟨hGap, h⟩⟩

theorem delimited_cons_iff {c : Char} {rest : List Char} (hBlank : Text.isBlank c = false) :
    Delimited (c :: rest) ↔ c = ',' ∨ c = ')' := by
  constructor
  · intro h
    by_contra hNot
    rw [not_or] at hNot
    have hMem : Text.isBlank c = true := by
      apply h
      rw [List.takeWhile_cons_of_pos (by simp [hNot.1, hNot.2])]
      exact List.mem_cons_self
    rw [hBlank] at hMem
    exact Bool.false_ne_true hMem
  · intro h
    rw [Delimited, List.takeWhile_cons_of_neg (by rcases h with rfl | rfl <;> decide)]
    exact Text.isGap_nil

theorem not_isAlpha_of_delimited {c : Char} {after : List Char} (h : Delimited (c :: after)) :
    c.isAlpha = false := by
  rw [Bool.eq_false_iff]
  intro hAlpha
  have hBlank := Text.isBlank_of_isAlphanum (Text.isAlphanum_of_isAlpha hAlpha)
  obtain ⟨hComma, -, hClosing, -⟩ := ne_of_isAlpha hAlpha
  rcases (delimited_cons_iff hBlank).1 h with hEq | hEq
  · exact hComma hEq
  · exact hClosing hEq

end Token
end PrefixCalc
