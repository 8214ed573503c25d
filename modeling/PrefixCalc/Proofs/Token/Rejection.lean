import PrefixCalc.Proofs.Token.Reading

/-!
# Where reading stops

A text that is no list of tokens is refused for one place in it.  What stands in front of this place
reads on its own, and its last token is no operand, for an operand leaves nothing but `,` or `)` to
come next.  At the place itself no token starts, and `Rejects` says why, without the reader, in
terms of the character there and of the run up to the next `,` or `)`.

Main statements: `readAll_append`, a text may be cut behind a token that is no operand, and
`tokenize_eq_error_iff`, the errors are exactly those of such a place.
-/

namespace PrefixCalc

/-! ## Forms of words -/

namespace Numeral

/-- `0`, or ASCII digits of which the first is not `0`, with or without a `-` in front. -/
def IsNumeral (text : List Char) : Prop :=
  text = ['0'] ∨ ∃ first rest, (text = first :: rest ∨ text = '-' :: first :: rest) ∧
    first.isDigit = true ∧ first ≠ '0' ∧ ∀ c ∈ rest, c.isDigit = true

/-- The integer is no 32-bit word. -/
def OutOfRange (value : Int) : Prop :=
  value < -2 ^ 31 ∨ 2 ^ 31 - 1 < value

theorem isPositive_eq_true_iff {digits : List Char} :
    isPositive digits = true ↔ ∃ first rest, digits = first :: rest ∧
      first.isDigit = true ∧ first ≠ '0' ∧ ∀ c ∈ rest, c.isDigit = true := by
  cases digits with
  | nil => simp [isPositive]
  | cons first rest => simp [isPositive, and_assoc]

/-- The texts of this form are the numerals that are written for integers. -/
theorem isNumeral_iff {text : List Char} : IsNumeral text ↔ ∃ value, text = write value := by
  simp only [← read?_eq_some_iff]
  constructor
  · rintro (rfl | ⟨first, rest, hText, hFirst, hZero, hRest⟩)
    · exact ⟨0, rfl⟩
    · have hPositive : isPositive (first :: rest) = true :=
        isPositive_eq_true_iff.2 ⟨first, rest, rfl, hFirst, hZero, hRest⟩
      rcases hText with rfl | rfl
      · have hNotZero : first :: rest ≠ ['0'] := fun h => hZero (List.cons.inj h).1
        refine ⟨(Nat.ofDigitChars 10 (first :: rest) 0 : Int), ?_⟩
        unfold read?
        rw [if_neg hNotZero]
        split
        · next digits hDash =>
          obtain rfl : first = '-' := (List.cons.inj hDash).1
          exact absurd hFirst (by decide)
        · rw [if_pos hPositive]
      · have hNotZero : '-' :: first :: rest ≠ ['0'] := by simp
        rw [read?, if_neg hNotZero]
        exact ⟨_, if_pos hPositive⟩
  · rintro ⟨value, h⟩
    unfold read? at h
    split at h
    · next hZero => exact Or.inl hZero
    · split at h
      · next digits _ =>
        split at h
        · next hPositive =>
          obtain ⟨first, rest, rfl, hDigits⟩ := isPositive_eq_true_iff.1 hPositive
          exact Or.inr ⟨first, rest, Or.inr rfl, hDigits⟩
        · exact absurd h (by simp)
      · split at h
        · next hPositive =>
          obtain ⟨first, rest, rfl, hDigits⟩ := isPositive_eq_true_iff.1 hPositive
          exact Or.inr ⟨first, rest, Or.inl rfl, hDigits⟩
        · exact absurd h (by simp)

end Numeral

namespace Token

/-- A letter or `_`, then letters, digits and `_`, all of them ASCII. -/
def IsName (text : List Char) : Prop :=
  ∃ first rest, text = first :: rest ∧ (first.isAlpha = true ∨ first = '_') ∧
    ∀ c ∈ rest, c.isAlphanum = true ∨ c = '_'

theorem isName_eq_true_iff {text : List Char} : isName text = true ↔ IsName text := by
  cases text with
  | nil => simp [isName, IsName]
  | cons first rest => simp [isName, IsName, isNameStart, isNamePart]

/-! ## One token -/

/-- No token starts with `c` and the text `rest` behind it, and this is why. -/
inductive Rejects (position : Nat) (c : Char) (rest : List Char) : LexicalError → Prop
  | invalidNumber : c.isDigit = true ∨ c = '-' → ¬ Numeral.IsNumeral (run (c :: rest)) →
      Rejects position c rest (.invalidNumber (String.ofList (run (c :: rest))) position)
  /-- The run is the numeral of an integer that is no 32-bit word. -/
  | numberOutOfRange {value : Int} : c.isDigit = true ∨ c = '-' →
      run (c :: rest) = Numeral.write value → Numeral.OutOfRange value →
      Rejects position c rest (.numberOutOfRange (String.ofList (run (c :: rest))) position)
  | invalidIdentifier : Text.isAlphabetic c = true →
      (∀ word : Keyword, (c :: rest).take 3 ≠ word.spelling.toList) → ¬ IsName (run (c :: rest)) →
      Rejects position c rest (.invalidIdentifier (String.ofList (run (c :: rest))) position)
  | unexpectedCharacter : c.isDigit = false → c ≠ '-' → Text.isAlphabetic c = false →
      c ≠ ',' → c ≠ '(' → c ≠ ')' → Rejects position c rest (.unexpectedCharacter c position)

theorem readNumber_eq_error_iff {position : Nat} {literal : List Char} {error : LexicalError} :
    readNumber position literal = .error error ↔
      (¬ Numeral.IsNumeral literal ∧
        error = .invalidNumber (String.ofList literal) position) ∨
      ∃ value, literal = Numeral.write value ∧ Numeral.OutOfRange value ∧
        error = .numberOutOfRange (String.ofList literal) position := by
  rw [readNumber]
  cases hRead : Numeral.read? literal with
  | none =>
    have hValue : ∀ value, literal ≠ Numeral.write value := by
      intro value hLiteral
      rw [Numeral.read?_eq_some_iff.2 hLiteral] at hRead
      exact absurd hRead (by simp)
    have hForm : ¬ Numeral.IsNumeral literal := by
      rw [Numeral.isNumeral_iff]
      exact fun ⟨value, hLiteral⟩ => hValue value hLiteral
    simp [hForm, hValue, eq_comm]
  | some value =>
    have hForm : Numeral.IsNumeral literal :=
      Numeral.isNumeral_iff.2 ⟨value, Numeral.read?_eq_some_iff.1 hRead⟩
    have hValue : ∀ other, literal = Numeral.write other ↔ value = other := by
      intro other
      rw [← Numeral.read?_eq_some_iff, hRead, Option.some.injEq]
    simp only [hForm, hValue, not_true_eq_false, false_and, false_or, exists_eq_left']
    cases hWord : Numeral.toWord? value with
    | none =>
      have hRange : Numeral.OutOfRange value := Numeral.toWord?_eq_none_iff.1 hWord
      simp [hRange, eq_comm]
    | some word =>
      have hRange : ¬ Numeral.OutOfRange value := by
        intro h
        rw [Numeral.toWord?_eq_none_iff.2 h] at hWord
        exact absurd hWord (by simp)
      simp [hRange]

theorem readName_eq_error_iff {position : Nat} {name : List Char} {error : LexicalError} :
    readName position name = .error error ↔
      ¬ IsName name ∧ error = .invalidIdentifier (String.ofList name) position := by
  rw [← isName_eq_true_iff, readName]
  split
  · next h => simp [h]
  · next h => simp [h, eq_comm]

/-- A token is refused for the reasons given and for no other. -/
theorem read_eq_error_iff {position : Nat} {c : Char} {rest : List Char} {error : LexicalError} :
    read position c rest = .error error ↔ Rejects position c rest error := by
  constructor
  · intro h
    unfold read at h
    split_ifs at h with hComma hOpening hClosing hNumber hLetter
    · have hStart : c.isDigit = true ∨ c = '-' := by simpa using hNumber
      rw [map_eq_error_iff, readNumber_eq_error_iff] at h
      rcases h with ⟨hForm, rfl⟩ | ⟨value, hValue, hRange, rfl⟩
      · exact .invalidNumber hStart hForm
      · exact .numberOutOfRange hStart hValue hRange
    · split at h
      · exact absurd h (by simp)
      · next hWord =>
        rw [map_eq_error_iff, readName_eq_error_iff] at h
        obtain ⟨hName, rfl⟩ := h
        exact .invalidIdentifier hLetter (Keyword.ofSpelling?_eq_none_iff.1 hWord) hName
    · obtain rfl : .unexpectedCharacter c position = error := Except.error.inj h
      rw [Bool.or_eq_true, not_or, Bool.not_eq_true, beq_iff_eq] at hNumber
      exact .unexpectedCharacter hNumber.1 hNumber.2 (Bool.not_eq_true _ ▸ hLetter)
        hComma hOpening hClosing
  · intro h
    cases h with
    | invalidNumber hStart hForm =>
      rw [read_of_isDigit position rest hStart, map_eq_error_iff, readNumber_eq_error_iff]
      exact Or.inl ⟨hForm, rfl⟩
    | @numberOutOfRange value hStart hValue hRange =>
      rw [read_of_isDigit position rest hStart, map_eq_error_iff, readNumber_eq_error_iff]
      exact Or.inr ⟨value, hValue, hRange, rfl⟩
    | invalidIdentifier hLetter hWord hName =>
      have hNone : Keyword.ofSpelling? ((c :: rest).take Keyword.width) = none :=
        Keyword.ofSpelling?_eq_none_iff.2 hWord
      rw [read_of_isAlphabetic position rest hLetter, hNone]
      exact map_eq_error_iff.2 (readName_eq_error_iff.2 ⟨hName, rfl⟩)
    | unexpectedCharacter hDigit hDash hLetter hComma hOpening hClosing =>
      have hNumber : ¬ (c.isDigit || c == '-') = true := by simp [hDigit, hDash]
      rw [read, if_neg hComma, if_neg hOpening, if_neg hClosing, if_neg hNumber]
      exact if_neg (by simp [hLetter])

theorem Rejects.not_delimiter {position : Nat} {c : Char} {rest : List Char}
    {error : LexicalError} (h : Rejects position c rest error) : ¬ (c = ',' ∨ c = ')') := by
  have hRead := read_eq_error_iff.2 h
  rintro (rfl | rfl) <;> exact absurd hRead (by simp [read])

/-! ## Cutting a text -/

/-- What comes before the next `,` or `)` of a text comes before it in a longer text too. -/
theorem Delimited.of_append {before after : List Char} (h : Delimited (before ++ after)) :
    Delimited before := by
  intro c hc
  apply h
  rw [List.takeWhile_append]
  split
  · next hAll =>
    apply List.mem_append_left
    exact (List.takeWhile_prefix _).subset hc
  · exact hc

/-- A written form that starts with `,` or `)` stays delimited whatever comes behind it. -/
theorem Spells.delimited_append {next : Token} {tokens : List Token} {text : List Char}
    (h : Spells (next :: tokens) text) (hNext : next = comma ∨ next = closing)
    (after : List Char) : Delimited (text ++ after) := by
  cases h with
  | @cons gap _ _ rest hGap _ =>
    rw [List.append_assoc, List.append_assoc, delimited_gap_append hGap]
    rcases hNext with rfl | rfl
    · exact (delimited_cons_iff (by decide)).2 (Or.inl rfl)
    · exact (delimited_cons_iff (by decide)).2 (Or.inr rfl)

/-- Text may come behind a token that is no operand without changing how the token is read, and
behind an operand if `,` or `)` comes next. -/
theorem Reads.append {text rest : List Char} {token : Token} {taken : Nat} {tokens : List Token}
    (h : Reads text token taken rest) (hSeparated : Separated (token :: tokens))
    (hSpells : Spells tokens rest)
    (hLast : ∀ last ∈ (token :: tokens).getLast?, last.isOperand = false) (after : List Char) :
    Reads (text ++ after) token taken (rest ++ after) where
  text_eq := by rw [h.text_eq, List.append_assoc]
  length_eq := h.length_eq
  legible := h.legible
  delimited := by
    intro hOperand
    cases tokens with
    | nil => exact absurd hOperand (by simp [hLast token rfl])
    | cons next tokens =>
      have hNext := (List.isChain_cons_cons.1 hSeparated).1 hOperand
      exact hSpells.delimited_append hNext after

/-- A token is still in front when the text is cut off further on. -/
theorem Reads.cut {text before after : List Char} {token : Token} {taken : Nat}
    (h : Reads text token taken (before ++ after)) :
    Reads (token.spelling.toList ++ before) token taken before where
  text_eq := rfl
  length_eq := h.length_eq
  legible := h.legible
  delimited hOperand := (h.delimited hOperand).of_append

/-- Behind an operand and blanks nothing but `,` or `)` can come. -/
theorem Reads.isOperand_eq_false {text gap after : List Char} {c : Char} {token : Token}
    {taken : Nat} (h : Reads text token taken (gap ++ c :: after)) (hGap : Text.IsGap gap)
    (hBlank : Text.isBlank c = false) (hMark : ¬ (c = ',' ∨ c = ')')) :
    token.isOperand = false := by
  rw [Bool.eq_false_iff]
  intro hOperand
  have hDelimited := h.delimited hOperand
  rw [delimited_gap_append hGap, delimited_cons_iff hBlank] at hDelimited
  exact hMark hDelimited

/-- A text may be cut behind a token that is no operand: both pieces are read as they were. -/
theorem readAll_append {position : Nat} {before : List Char} {tokens : List Token}
    (h : readAll position before = .ok tokens)
    (hLast : ∀ last ∈ tokens.getLast?, last.isOperand = false) (after : List Char) :
    readAll position (before ++ after) =
      (readAll (position + before.length) after).map fun others => tokens ++ others := by
  -- By the length, for what is left behind a token may start anywhere further on.
  induction hLength : before.length using Nat.strongRecOn
    generalizing position before tokens with
  | ind n ih =>
    subst hLength
    cases before with
    | nil =>
      rw [readAll_nil] at h
      obtain rfl : [] = tokens := Except.ok.inj h
      rw [List.nil_append, List.length_nil, Nat.add_zero]
      cases readAll position after <;> rfl
    | cons c rest =>
      cases hBlank : Text.isBlank c with
      | true =>
        rw [readAll_cons_of_isBlank position rest hBlank] at h
        rw [List.cons_append, readAll_cons_of_isBlank position _ hBlank,
          ih rest.length (by simp) h hLast rfl, List.length_cons, Nat.add_assoc,
          Nat.add_comm 1 rest.length]
      | false =>
        obtain ⟨-, hSeparated, -⟩ := spells_of_readAll h
        obtain ⟨token, taken, tail, others, hReads, hTail, rfl⟩ :=
          exists_reads_of_readAll hBlank h
        obtain ⟨-, -, hSpells⟩ := spells_of_readAll hTail
        have hText := hReads.length_text
        have hOthers : ∀ last ∈ others.getLast?, last.isOperand = false := by
          intro last hMem
          apply hLast
          rw [List.getLast?_cons, Option.mem_def.1 hMem]
          rfl
        have hPosition : position + 1 + taken + tail.length = position + (c :: rest).length := by
          omega
        rw [readAll_of_reads (hReads.append hSeparated hSpells hLast after),
          ih tail.length (by omega) hTail hOthers rfl, hPosition]
        cases readAll (position + (c :: rest).length) after <;> rfl

/-- Where reading fails there is a place at which no token starts, and the text in front of it reads
on its own up to a token that is no operand. -/
theorem exists_rejects_of_readAll {position : Nat} {text : List Char} {error : LexicalError}
    (h : readAll position text = .error error) :
    ∃ before c after tokens, text = before ++ c :: after ∧
      readAll position before = .ok tokens ∧
      (∀ last ∈ tokens.getLast?, last.isOperand = false) ∧ Text.isBlank c = false ∧
      Rejects (position + before.length) c after error := by
  induction hLength : text.length using Nat.strongRecOn generalizing position text with
  | ind n ih =>
    subst hLength
    cases text with
    | nil => exact absurd h (by simp)
    | cons c rest =>
      cases hBlank : Text.isBlank c with
      | true =>
        rw [readAll_cons_of_isBlank position rest hBlank] at h
        obtain ⟨before, bad, after, tokens, rfl, hBefore, hLast, hBad, hRejects⟩ :=
          ih rest.length (by simp) h rfl
        refine ⟨c :: before, bad, after, tokens, rfl, ?_, hLast, hBad, ?_⟩
        · rw [readAll_cons_of_isBlank position before hBlank, hBefore]
        · rwa [List.length_cons, Nat.add_comm before.length, ← Nat.add_assoc]
      | false =>
        cases hRead : read position c rest with
        | error other =>
          rw [readAll_cons_of_not_isBlank position rest hBlank, hRead] at h
          obtain rfl : other = error := Except.error.inj h
          exact ⟨[], c, rest, [], rfl, readAll_nil position, by simp, hBlank,
            read_eq_error_iff.1 hRead⟩
        | ok result =>
          obtain ⟨token, taken⟩ := result
          obtain ⟨tail, hReads⟩ := reads_of_read hBlank hRead
          have hText := hReads.length_text
          rw [readAll_of_reads hReads, map_eq_error_iff] at h
          obtain ⟨before, bad, after, tokens, rfl, hBefore, hLast, hBad, hRejects⟩ :=
            ih tail.length (by omega) h rfl
          have hCut := hReads.cut
          refine ⟨token.spelling.toList ++ before, bad, after, token :: tokens, ?_, ?_, ?_, hBad,
            ?_⟩
          · rw [hReads.text_eq, List.append_assoc]
          · rw [readAll_of_reads hCut, hBefore]
            rfl
          · cases tokens with
            | nil =>
              -- Between the token and the bad place there are only blanks.
              intro last hMem
              obtain rfl : token = last := Option.some.inj hMem
              obtain ⟨-, -, ⟨hGap⟩⟩ := spells_of_readAll hBefore
              exact hReads.isOperand_eq_false hGap hBad hRejects.not_delimiter
            | cons next tokens => rwa [List.getLast?_cons_cons]
          · have hPosition : position + (token.spelling.toList ++ before).length =
                position + 1 + taken + before.length := by
              have hCutText := hCut.length_text
              omega
            rwa [hPosition]

/-- The errors of reading: a text is refused with an error exactly when there is a place in it where
the text in front reads on its own and does not end with an operand, and where the error says, with
this place as its position, why no token starts. -/
theorem tokenize_eq_error_iff (source : String) (error : LexicalError) :
    tokenize source = .error error ↔
      ∃ before c after tokens, source.toList = before ++ c :: after ∧
        tokenize (String.ofList before) = .ok tokens ∧
        (∀ last ∈ tokens.getLast?, last.isOperand = false) ∧
        Text.isBlank c = false ∧ Rejects before.length c after error := by
  constructor
  · intro h
    obtain ⟨before, c, after, tokens, hText, hBefore, hLast, hBlank, hRejects⟩ :=
      exists_rejects_of_readAll h
    rw [Nat.zero_add] at hRejects
    refine ⟨before, c, after, tokens, hText, ?_, hLast, hBlank, hRejects⟩
    rwa [tokenize, String.toList_ofList]
  · rintro ⟨before, c, after, tokens, hText, hBefore, hLast, hBlank, hRejects⟩
    rw [tokenize, String.toList_ofList] at hBefore
    rw [tokenize, hText, readAll_append hBefore hLast, map_eq_error_iff, Nat.zero_add,
      readAll_cons_of_not_isBlank _ _ hBlank, read_eq_error_iff.2 hRejects]

/-- The run that is refused may hold a bracket and blanks, and its place is counted in characters,
the no-break space being one of them. -/
theorem tokenize_numeral_too_large :
    tokenize "sub(\u00a02147483648, (é)" = .error (.numberOutOfRange "2147483648" 5) ∧
      tokenize "sub(\u00a02, é (1 )" = .error (.invalidIdentifier "é (1" 8) := by
  constructor
  · refine (tokenize_eq_error_iff _ _).2 ⟨"sub(\u00a0".toList, '2', "147483648, (é)".toList,
      [keyword (.op .sub), opening], by decide, by cbv, by simp [isOperand], by decide, ?_⟩
    have hRun : run ('2' :: "147483648, (é)".toList) = Numeral.write 2147483648 := by cbv
    exact Rejects.numberOutOfRange (Or.inl (by decide)) hRun (Or.inr (by decide))
  · refine (tokenize_eq_error_iff _ _).2 ⟨"sub(\u00a02, ".toList, 'é', " (1 )".toList,
      [keyword (.op .sub), opening, number 2, comma], by decide, by cbv, by simp [isOperand],
      by decide, ?_⟩
    have hName : ¬ IsName (run ('é' :: " (1 )".toList)) := by
      rw [← isName_eq_true_iff]
      decide
    refine Rejects.invalidIdentifier (by decide) ?_ hName
    rintro ((_ | _ | _ | _) | _) <;> decide

end Token
end PrefixCalc
