/-!
# Decimal numerals

The written form of an integer is `0`, or an optional `-` and ASCII digits of which the first is not
`0`.  So every integer has exactly one numeral: there is no `+`, no leading zero and no `-0`.
`read?` accepts these forms and nothing else, of any length; that a value fits into a word is asked
apart, by `toWord?`, because a numeral that is too large is a different fault from a text that is no
numeral.

Main statement: `read?_eq_some_iff`, a text reads as an integer exactly when it is the numeral that
is written for it.
-/

namespace PrefixCalc
namespace Numeral

/-- Whether a text is one or more ASCII digits and does not start with `0`. -/
def isPositive : List Char → Bool
  | [] => false
  | digit :: digits => digit.isDigit && digit != '0' && digits.all Char.isDigit

/-- The integer that a numeral stands for, or nothing when the text is no numeral. -/
def read? (text : List Char) : Option Int :=
  if text = ['0'] then some 0
  else
    match text with
    | '-' :: digits =>
      if isPositive digits then some (-(Nat.ofDigitChars 10 digits 0 : Int)) else none
    | digits => if isPositive digits then some (Nat.ofDigitChars 10 digits 0 : Int) else none

/-- The numeral of an integer. -/
def write (value : Int) : List Char :=
  if value < 0 then '-' :: Nat.toDigits 10 value.natAbs else Nat.toDigits 10 value.natAbs

/-- The integer as a 32-bit word, if it is one. -/
def toWord? (value : Int) : Option Int32 :=
  if Int32.minValue.toInt ≤ value ∧ value ≤ Int32.maxValue.toInt then some (Int32.ofInt value)
  else none

/-- The numeral of a word, as text. -/
def ofWord (value : Int32) : String :=
  String.ofList (write value.toInt)

/-! ## Digits -/

private theorem digitChar_toNat_sub {digit : Char} (h : digit.isDigit = true) :
    Nat.digitChar (digit.toNat - '0'.toNat) = digit ∧ digit.toNat - '0'.toNat < 10 := by
  have hBounds : 48 ≤ digit.toNat ∧ digit.toNat ≤ 57 := by
    simp only [Char.isDigit, Bool.and_eq_true, decide_eq_true_eq] at h
    exact ⟨UInt32.le_iff_toNat_le.1 h.1, UInt32.le_iff_toNat_le.1 h.2⟩
  have hTable : ∀ n, n < 10 → Nat.digitChar n = Char.ofNat (n + 48) := by decide
  have hZero : '0'.toNat = 48 := rfl
  have hSmall : digit.toNat - '0'.toNat < 10 := by omega
  refine ⟨?_, hSmall⟩
  rw [hTable _ hSmall, show digit.toNat - '0'.toNat + 48 = digit.toNat by omega, Char.ofNat_toNat]

private theorem isPositive_append_digit {digits : List Char} {digit : Char}
    (h : isPositive digits = true) (hDigit : digit.isDigit = true) :
    isPositive (digits ++ [digit]) = true := by
  cases digits with
  | nil => simp [isPositive] at h
  | cons first rest => simp_all [isPositive]

/-- The digits of a positive number are a run of digits without a leading zero. -/
theorem isPositive_toDigits {n : Nat} (h : 0 < n) : isPositive (Nat.toDigits 10 n) = true := by
  induction n using Nat.strongRecOn with
  | ind n ih =>
    by_cases hSmall : n < 10
    · have hTable : ∀ m, m < 10 → 0 < m → isPositive [Nat.digitChar m] = true := by decide
      rw [Nat.toDigits_of_lt_base hSmall]
      exact hTable n hSmall h
    · rw [Nat.toDigits_of_base_le (by omega) (by omega)]
      refine isPositive_append_digit (ih (n / 10) (by omega) (by omega)) ?_
      have hTable : ∀ m, m < 10 → (Nat.digitChar m).isDigit = true := by decide
      exact hTable _ (Nat.mod_lt _ (by omega))

private theorem toDigits_ofDigitChars_from {digits : List Char} {n : Nat} (hPos : 0 < n)
    (h : digits.all Char.isDigit = true) :
    Nat.toDigits 10 (Nat.ofDigitChars 10 digits n) = Nat.toDigits 10 n ++ digits := by
  induction digits generalizing n with
  | nil => simp
  | cons digit digits ih =>
    simp only [List.all_cons, Bool.and_eq_true] at h
    have hDigit := digitChar_toNat_sub h.1
    rw [Nat.ofDigitChars_cons, ih (by omega) h.2,
      ← Nat.toDigits_append_toDigits (by omega) hPos hDigit.2,
      Nat.toDigits_of_lt_base hDigit.2, hDigit.1]
    simp

private theorem toNat_sub_pos {digit : Char} (h : digit.isDigit = true) (hZero : digit ≠ '0') :
    0 < digit.toNat - '0'.toNat := by
  apply Nat.pos_of_ne_zero
  intro hEq
  have hChar := (digitChar_toNat_sub h).1
  rw [hEq] at hChar
  exact hZero hChar.symm

/-- A run of digits without a leading zero is the digits of the number it stands for. -/
theorem toDigits_ofDigitChars {digits : List Char} (h : isPositive digits = true) :
    Nat.toDigits 10 (Nat.ofDigitChars 10 digits 0) = digits ∧ 0 < Nat.ofDigitChars 10 digits 0 := by
  cases digits with
  | nil => simp [isPositive] at h
  | cons digit digits =>
    simp only [isPositive, Bool.and_eq_true, bne_iff_ne, ne_eq] at h
    obtain ⟨⟨hDigit, hZero⟩, hRest⟩ := h
    have hPos := toNat_sub_pos hDigit hZero
    have hEq : Nat.toDigits 10 (Nat.ofDigitChars 10 (digit :: digits) 0) = digit :: digits := by
      rw [Nat.ofDigitChars_cons, Nat.mul_zero, Nat.zero_add,
        toDigits_ofDigitChars_from hPos hRest,
        Nat.toDigits_of_lt_base (digitChar_toNat_sub hDigit).2, (digitChar_toNat_sub hDigit).1]
      simp
    refine ⟨hEq, Nat.pos_of_ne_zero ?_⟩
    intro hNone
    rw [hNone, Nat.toDigits_zero] at hEq
    exact hZero (List.cons.inj hEq).1.symm

/-! ## Numerals -/

private theorem isPositive_dash (digits : List Char) : isPositive ('-' :: digits) = false := by
  simp [isPositive, show ('-').isDigit = false from rfl]

/-- What is written for an integer reads as this integer. -/
theorem read?_write (value : Int) : read? (write value) = some value := by
  unfold write
  by_cases hNeg : value < 0
  · have hPos := isPositive_toDigits (n := value.natAbs) (by omega)
    simp only [hNeg, if_true, read?, List.cons.injEq, hPos, Nat.ofDigitChars_ten_toDigits]
    rw [if_neg (fun h => absurd h.1 (by decide))]
    congr 1
    omega
  · by_cases hZero : value = 0
    · subst hZero
      rfl
    · have hPos := isPositive_toDigits (n := value.natAbs) (by omega)
      have hNotZero : Nat.toDigits 10 value.natAbs ≠ ['0'] := by
        intro h
        rw [h] at hPos
        exact absurd hPos (by decide)
      have hValue : ((value.natAbs : Nat) : Int) = value := by omega
      simp only [hNeg, if_false, read?, hNotZero]
      split
      · next digits hEq =>
        rw [hEq, isPositive_dash] at hPos
        exact absurd hPos (by decide)
      · rw [if_pos hPos, Nat.ofDigitChars_ten_toDigits, hValue]

/-- A text reads as an integer exactly when it is the numeral written for it. -/
theorem read?_eq_some_iff {text : List Char} {value : Int} :
    read? text = some value ↔ text = write value := by
  refine ⟨?_, fun h => h ▸ read?_write value⟩
  intro h
  unfold read? at h
  split at h
  · next hText =>
    cases h
    rw [hText]
    rfl
  · split at h
    · next digits _ =>
      split at h
      · next hPos =>
        cases h
        have hDigits := toDigits_ofDigitChars hPos
        rw [write, if_pos (by omega), Int.natAbs_neg, Int.natAbs_natCast, hDigits.1]
      · exact absurd h (by simp)
    · split at h
      · next hPos =>
        cases h
        have hDigits := toDigits_ofDigitChars hPos
        rw [write, if_neg (by omega), Int.natAbs_natCast, hDigits.1]
      · exact absurd h (by simp)

/-! ## Words -/

/-- An integer is the word `word` exactly when it is the value of `word`. -/
theorem toWord?_eq_some_iff {value : Int} {word : Int32} :
    toWord? value = some word ↔ value = word.toInt := by
  constructor
  · intro h
    unfold toWord? at h
    split at h
    · next hBounds =>
      cases h
      have hMin : Int32.minValue.toInt = -2147483648 := rfl
      have hMax : Int32.maxValue.toInt = 2147483647 := rfl
      exact (Int32.toInt_ofInt_of_le (by omega) (by omega)).symm
    · exact absurd h (by simp)
  · rintro rfl
    rw [toWord?, if_pos ⟨word.minValue_le_toInt, word.toInt_le⟩, Int32.ofInt_toInt]

/-- Exactly the integers outside 32 bits are no word. -/
theorem toWord?_eq_none_iff {value : Int} :
    toWord? value = none ↔ value < Int32.minValue.toInt ∨ Int32.maxValue.toInt < value := by
  rw [toWord?]
  split
  · simp only [reduceCtorEq, false_iff]
    omega
  · simp only [true_iff]
    omega

end Numeral
end PrefixCalc
