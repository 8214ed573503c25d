import PrefixCalc.Proofs.Token.Run

/-!
# Reading tokens is exact

Main statement: `readAll_eq_ok_iff`, a text reads as a list of tokens exactly when it is a written
form of the list, all names in it are readable and all operands are separated from what follows.
So a text has at most one reading, and no other layout of the same tokens reads differently.

For one token the same is said by `Reads`: the token's spelling stands in front of the text, and
behind an operand only blanks come before the next `,`, `)` or the end.
-/

namespace PrefixCalc
namespace Token

/-! ## One token -/

/-- A token that the reader can give back: a variable is a readable name. -/
def Legible (token : Token) : Prop :=
  ∀ name, token = var name → Readable name

theorem isAlpha_of_isName {first : Char} {rest : List Char} (h : isName (first :: rest) = true)
    (hFirst : Text.isAlphabetic first = true) :
    first.isAlpha = true ∧ ∀ c ∈ rest, c.isAlphanum = true ∨ c = '_' := by
  simp only [isName, isNameStart, isNamePart, Bool.and_eq_true, Bool.or_eq_true, beq_iff_eq,
    List.all_eq_true] at h
  refine ⟨?_, h.2⟩
  rcases h.1 with hAlpha | rfl
  · exact hAlpha
  · exact absurd hFirst (by decide)

theorem readNumber_eq_ok_iff {position : Nat} {literal : List Char} {token : Token} :
    readNumber position literal = .ok token ↔
      ∃ value, token = number value ∧ literal = (Numeral.ofWord value).toList := by
  unfold readNumber
  constructor
  · intro h
    split at h
    · exact absurd h (by simp)
    · next integer hInteger =>
      split at h
      · exact absurd h (by simp)
      · next value hValue =>
        refine ⟨value, (Except.ok.inj h).symm, ?_⟩
        rw [Numeral.toList_ofWord, ← Numeral.toWord?_eq_some_iff.1 hValue]
        exact Numeral.read?_eq_some_iff.1 hInteger
  · rintro ⟨value, rfl, rfl⟩
    rw [Numeral.read?_eq_some_iff.2 (Numeral.toList_ofWord value)]
    simp only [Numeral.toWord?_eq_some_iff.2 rfl]

theorem readName_eq_ok_iff {position : Nat} {text : List Char} {token : Token} :
    readName position text = .ok token ↔
      isName text = true ∧ token = var (String.ofList text) := by
  unfold readName
  split
  · next h => simp [h, eq_comm]
  · next h => simp [h]

theorem isWordChar_of_mem_spelling {token : Token} (hOperand : token.isOperand = true)
    (hLegible : token.Legible) : ∀ c ∈ token.spelling.toList, IsWordChar c := by
  intro c hc
  cases token with
  | number value =>
    rw [spelling, Numeral.toList_ofWord] at hc
    rcases Numeral.isDigit_or_dash_of_mem_write hc with hDigit | hDash
    · exact Or.inl (Text.isAlphanum_of_isDigit hDigit)
    · exact Or.inr (Or.inr hDash)
  | var name =>
    obtain ⟨⟨first, rest, hName, hFirst, hRest⟩, -⟩ := hLegible name rfl
    rw [spelling, hName] at hc
    rcases List.mem_cons.1 hc with rfl | hc
    · exact Or.inl (Text.isAlphanum_of_isAlpha hFirst)
    · exact (hRest c hc).imp_right Or.inl
  | keyword _ => exact absurd hOperand (by simp [isOperand])
  | comma => exact absurd hOperand (by simp [isOperand])
  | opening => exact absurd hOperand (by simp [isOperand])
  | closing => exact absurd hOperand (by simp [isOperand])

/-- A legible token has a spelling, and the spelling does not start with a blank. -/
theorem exists_spelling_eq_cons {token : Token} (hLegible : token.Legible) :
    ∃ c rest, token.spelling.toList = c :: rest ∧ Text.isBlank c = false := by
  cases hSpelling : token.spelling.toList with
  | nil =>
    exfalso
    cases token with
    | keyword word =>
      have hLength := word.length_spelling
      rw [show word.spelling.toList = [] from hSpelling] at hLength
      exact absurd hLength (by decide)
    | number value =>
      rw [spelling, Numeral.toList_ofWord] at hSpelling
      exact Numeral.write_ne_nil _ hSpelling
    | var name =>
      obtain ⟨⟨first, rest, hName, -⟩, -⟩ := hLegible name rfl
      exact List.cons_ne_nil first rest (hName.symm.trans hSpelling)
    | comma => exact absurd hSpelling (by decide)
    | opening => exact absurd hSpelling (by decide)
    | closing => exact absurd hSpelling (by decide)
  | cons c rest =>
    refine ⟨c, rest, rfl, ?_⟩
    have hMem : c ∈ token.spelling.toList := by
      rw [hSpelling]
      exact List.mem_cons_self
    by_cases hOperand : token.isOperand = true
    · exact (isWordChar_of_mem_spelling hOperand hLegible c hMem).not_isBlank
    · cases token with
      | keyword word =>
        have hAlpha := word.isAlpha_of_mem_spelling c hMem
        exact Text.isBlank_of_isAlphanum (Text.isAlphanum_of_isAlpha hAlpha)
      | number _ => exact absurd rfl hOperand
      | var _ => exact absurd rfl hOperand
      | comma =>
        obtain rfl : c = ',' := by simpa [spelling] using hMem
        decide
      | opening =>
        obtain rfl : c = '(' := by simpa [spelling] using hMem
        decide
      | closing =>
        obtain rfl : c = ')' := by simpa [spelling] using hMem
        decide

/-- The token is in front of the text, takes `taken` characters besides the first, and leaves
`after`. -/
structure Reads (text : List Char) (token : Token) (taken : Nat) (after : List Char) : Prop where
  text_eq : text = token.spelling.toList ++ after
  length_eq : token.spelling.toList.length = taken + 1
  legible : token.Legible
  delimited : token.isOperand = true → Delimited after

/-- The length of a text with a token in front. -/
theorem Reads.length_text {text after : List Char} {token : Token} {taken : Nat}
    (h : Reads text token taken after) : text.length = taken + 1 + after.length := by
  rw [h.text_eq, List.length_append, h.length_eq]

theorem Reads.drop_eq {c : Char} {rest after : List Char} {token : Token} {taken : Nat}
    (h : Reads (c :: rest) token taken after) : rest.drop taken = after := by
  have hDrop : (c :: rest).drop (taken + 1) = after := by
    rw [h.text_eq, ← h.length_eq, List.drop_left]
  simpa using hDrop

/-- The token starts with the first character of the text. -/
theorem Reads.exists_tail {c : Char} {rest after : List Char} {token : Token} {taken : Nat}
    (h : Reads (c :: rest) token taken after) : ∃ tail, token.spelling.toList = c :: tail := by
  obtain ⟨first, tail, hSpelling, -⟩ := exists_spelling_eq_cons h.legible
  have hText := h.text_eq
  rw [hSpelling, List.cons_append] at hText
  exact ⟨tail, by rw [hSpelling, (List.cons.inj hText).1]⟩

/-- An operand in front of the text is the run there. -/
theorem Reads.run_eq {text after : List Char} {token : Token} {taken : Nat}
    (h : Reads text token taken after) (hOperand : token.isOperand = true) :
    run text = token.spelling.toList := by
  rw [h.text_eq]
  exact run_append (isWordChar_of_mem_spelling hOperand h.legible) (h.delimited hOperand)

theorem reads_mark {token : Token} {c : Char} (rest : List Char)
    (hSpelling : token.spelling.toList = [c]) (hKind : token.isOperand = false)
    (hLegible : token.Legible) : Reads (c :: rest) token 0 rest where
  text_eq := by rw [hSpelling]; rfl
  length_eq := by rw [hSpelling]; rfl
  legible := hLegible
  delimited h := absurd h (by simp [hKind])

/-- What a letter starts is a keyword or a name, if it is anything. -/
theorem read_of_isAlphabetic (position : Nat) {c : Char} (rest : List Char)
    (h : Text.isAlphabetic c = true) :
    read position c rest =
      match Keyword.ofSpelling? ((c :: rest).take Keyword.width) with
      | some word => .ok (.keyword word, Keyword.width - 1)
      | none =>
        (readName position (run (c :: rest))).map fun token =>
          (token, (run (c :: rest)).length - 1) := by
  obtain ⟨hComma, hOpening, hClosing, hNumber⟩ := ne_of_isAlphabetic h
  rw [read, if_neg hComma, if_neg hOpening, if_neg hClosing, if_neg hNumber]
  exact if_pos h

/-- What a digit or `-` starts is a number. -/
theorem read_of_isDigit (position : Nat) {c : Char} (rest : List Char)
    (h : c.isDigit = true ∨ c = '-') :
    read position c rest =
      (readNumber position (run (c :: rest))).map fun token =>
        (token, (run (c :: rest)).length - 1) := by
  have hWord : IsWordChar c := h.imp Text.isAlphanum_of_isDigit Or.inr
  have hMark := hWord.not_mark
  rw [read, if_neg hMark.1, if_neg hMark.2.1, if_neg hMark.2.2, if_pos (by simpa using h)]

theorem isName_of_readable {name : String} (h : Readable name) : isName name.toList = true := by
  obtain ⟨⟨first, rest, hName, hFirst, hRest⟩, -⟩ := h
  rw [hName]
  simpa [isName, isNameStart, isNamePart, hFirst] using hRest

/-- A readable name does not start a keyword, not even together with what follows it. -/
theorem take_ne_spelling {name : String} {after : List Char} (hName : Readable name)
    (hAfter : Delimited after) (word : Keyword) :
    (name.toList ++ after).take Keyword.width ≠ word.spelling.toList := by
  intro h
  rcases Nat.lt_or_ge name.toList.length Keyword.width with hShort | hLong
  · -- The keyword would reach into what follows, and there comes no letter first.
    have hTake : (name.toList ++ after).take Keyword.width =
        name.toList ++ after.take (Keyword.width - name.toList.length) := by
      rw [List.take_append, List.take_of_length_le (Nat.le_of_lt hShort)]
    rw [hTake] at h
    have hLength := congrArg List.length h
    rw [word.length_spelling, List.length_append, List.length_take] at hLength
    cases after with
    | nil =>
      rw [List.length_nil, Nat.min_zero] at hLength
      omega
    | cons c after =>
      have hMem : c ∈ word.spelling.toList := by
        rw [← h]
        apply List.mem_append_right
        obtain ⟨n, hn⟩ := Nat.exists_eq_add_of_lt hShort
        rw [show Keyword.width - name.toList.length = n + 1 by omega, List.take_succ_cons]
        exact List.mem_cons_self
      have hAlpha := word.isAlpha_of_mem_spelling c hMem
      rw [not_isAlpha_of_delimited hAfter] at hAlpha
      exact Bool.false_ne_true hAlpha
  · rw [List.take_append_of_le_length hLong] at h
    exact hName.2 word (h ▸ List.take_prefix _ _)

/-- The text in front of which a token stands is read as this token. -/
theorem read_eq_of_reads {position : Nat} {c : Char} {rest after : List Char} {token : Token}
    {taken : Nat} (h : Reads (c :: rest) token taken after) :
    read position c rest = .ok (token, taken) := by
  obtain ⟨tail, hSpelling⟩ := h.exists_tail
  have hTaken : token.spelling.toList.length - 1 = taken := by
    rw [h.length_eq, Nat.add_sub_cancel]
  cases token with
  | keyword word =>
    have hWidth : Keyword.width = taken + 1 := word.length_spelling.symm.trans h.length_eq
    have hTake : (c :: rest).take Keyword.width = word.spelling.toList := by
      rw [h.text_eq, hWidth, ← h.length_eq]
      exact List.take_left
    have hAlpha : c.isAlpha = true := by
      apply word.isAlpha_of_mem_spelling
      rw [show word.spelling.toList = c :: tail from hSpelling]
      exact List.mem_cons_self
    rw [read_of_isAlphabetic position rest (Text.isAlphabetic_of_isAlpha hAlpha),
      Keyword.ofSpelling?_eq_some_iff.2 hTake, hWidth]
    rfl
  | number value =>
    have hMem : c ∈ Numeral.write value.toInt := by
      rw [← Numeral.toList_ofWord, show (Numeral.ofWord value).toList = c :: tail from hSpelling]
      exact List.mem_cons_self
    have hNumber := Numeral.isDigit_or_dash_of_mem_write hMem
    have hRead : readNumber position (number value).spelling.toList = .ok (number value) :=
      readNumber_eq_ok_iff.2 ⟨value, rfl, rfl⟩
    rw [read_of_isDigit position rest hNumber, h.run_eq rfl, hTaken, hRead]
    rfl
  | var name =>
    have hReadable := h.legible name rfl
    obtain ⟨⟨first, others, hName, hFirst, hOthers⟩, -⟩ := hReadable
    have hCons : first :: others = c :: tail := hName.symm.trans hSpelling
    have hAlpha : c.isAlpha = true := (List.cons.inj hCons).1 ▸ hFirst
    have hKeyword : Keyword.ofSpelling? ((c :: rest).take Keyword.width) = none := by
      rw [Keyword.ofSpelling?_eq_none_iff, h.text_eq]
      exact take_ne_spelling (h.legible name rfl) (h.delimited rfl)
    have hRead : readName position (var name).spelling.toList = .ok (var name) := by
      refine readName_eq_ok_iff.2 ⟨isName_of_readable (h.legible name rfl), ?_⟩
      rw [spelling, String.ofList_toList]
    rw [read_of_isAlphabetic position rest (Text.isAlphabetic_of_isAlpha hAlpha), hKeyword,
      h.run_eq rfl]
    simp only [hTaken, hRead]
    rfl
  | comma =>
    obtain rfl : c = ',' := (List.cons.inj hSpelling).1.symm
    obtain rfl : 0 = taken := hTaken
    rfl
  | opening =>
    obtain rfl : c = '(' := (List.cons.inj hSpelling).1.symm
    obtain rfl : 0 = taken := hTaken
    rfl
  | closing =>
    obtain rfl : c = ')' := (List.cons.inj hSpelling).1.symm
    obtain rfl : 0 = taken := hTaken
    rfl

theorem map_eq_ok_iff {ε α β : Type} {f : α → β} {x : Except ε α} {b : β} :
    x.map f = .ok b ↔ ∃ a, x = .ok a ∧ f a = b := by
  cases x <;> simp [Except.map]

theorem map_eq_error_iff {ε α β : Type} {f : α → β} {x : Except ε α} {error : ε} :
    x.map f = .error error ↔ x = .error error := by
  cases x <;> simp [Except.map]

/-- An operand whose spelling is the whole run is in front of the text. -/
theorem reads_of_run {c : Char} {rest : List Char} {token : Token}
    (hBlank : Text.isBlank c = false) (hComma : c ≠ ',') (hClosing : c ≠ ')')
    (hLegible : token.Legible) (hRun : token.spelling.toList = run (c :: rest)) :
    ∃ after, Reads (c :: rest) token ((run (c :: rest)).length - 1) after := by
  obtain ⟨after, hText, hAfter⟩ := exists_delimited_of_run rest hBlank hComma hClosing
  obtain ⟨first, tail, hSpelling, -⟩ := exists_spelling_eq_cons hLegible
  refine ⟨after, ?_, ?_, hLegible, fun _ => hAfter⟩
  · rw [hRun]
    exact hText
  · rw [← hRun, hSpelling]
    rfl

theorem readable_of_isName {c : Char} {rest name after : List Char}
    (hLetter : Text.isAlphabetic c = true) (hText : c :: rest = name ++ after)
    (hName : isName name = true)
    (hWord : ∀ word : Keyword, (c :: rest).take Keyword.width ≠ word.spelling.toList) :
    Readable (String.ofList name) := by
  rw [Readable, String.toList_ofList]
  cases name with
  | nil => exact absurd hName (by simp [isName])
  | cons first others =>
    obtain rfl : c = first := (List.cons.inj hText).1
    obtain ⟨hFirst, hOthers⟩ := isAlpha_of_isName hName hLetter
    refine ⟨⟨c, others, rfl, hFirst, hOthers⟩, ?_⟩
    -- A keyword in front of the name would have been read instead of it.
    intro word hPrefix
    apply hWord word
    obtain ⟨tail, hTail⟩ := hPrefix
    rw [hText, ← hTail, List.append_assoc, ← word.length_spelling]
    exact List.take_left

/-- A token that is read stands in front of the text. -/
theorem reads_of_read {position : Nat} {c : Char} {rest : List Char} {token : Token} {taken : Nat}
    (hBlank : Text.isBlank c = false) (h : read position c rest = .ok (token, taken)) :
    ∃ after, Reads (c :: rest) token taken after := by
  unfold read at h
  split_ifs at h with hComma hOpening hClosing hNumber hLetter
  · cases h
    exact ⟨rest, reads_mark rest (by rw [hComma]; rfl) rfl (by simp [Legible])⟩
  · cases h
    exact ⟨rest, reads_mark rest (by rw [hOpening]; rfl) rfl (by simp [Legible])⟩
  · cases h
    exact ⟨rest, reads_mark rest (by rw [hClosing]; rfl) rfl (by simp [Legible])⟩
  · obtain ⟨number, hRead, hPair⟩ := map_eq_ok_iff.1 h
    obtain ⟨value, rfl, hRun⟩ := readNumber_eq_ok_iff.1 hRead
    cases hPair
    exact reads_of_run hBlank hComma hClosing (by simp [Legible]) hRun.symm
  · split at h
    · next word hWord =>
      cases h
      have hTake := Keyword.ofSpelling?_eq_some_iff.1 hWord
      refine ⟨(c :: rest).drop Keyword.width, ?_, word.length_spelling, by simp [Legible],
        fun hOperand => absurd hOperand (by simp [isOperand])⟩
      rw [spelling, ← hTake, List.take_append_drop]
    · next hWord =>
      obtain ⟨name, hRead, hPair⟩ := map_eq_ok_iff.1 h
      obtain ⟨hName, rfl⟩ := readName_eq_ok_iff.1 hRead
      cases hPair
      refine reads_of_run hBlank hComma hClosing ?_ String.toList_ofList
      obtain ⟨after, hText, -⟩ := exists_delimited_of_run rest hBlank hComma hClosing
      rintro _ ⟨rfl⟩
      exact readable_of_isName hLetter hText hName (Keyword.ofSpelling?_eq_none_iff.1 hWord)

/-! ## All tokens -/

/-- Among the first characters of legible tokens, `,` and `)` are the marks alone. -/
theorem spelling_starts_with_mark_iff {token : Token} {c : Char} {rest : List Char}
    (hLegible : token.Legible) (hSpelling : token.spelling.toList = c :: rest) :
    (c = ',' ∨ c = ')') ↔ token = comma ∨ token = closing := by
  have hMem : c ∈ token.spelling.toList := by
    rw [hSpelling]
    exact List.mem_cons_self
  by_cases hOperand : token.isOperand = true
  · have hMark := (isWordChar_of_mem_spelling hOperand hLegible c hMem).not_mark
    constructor
    · rintro (h | h)
      · exact absurd h hMark.1
      · exact absurd h hMark.2.2
    · rintro (rfl | rfl) <;> exact absurd hOperand (by decide)
  · cases token with
    | keyword word =>
      have hMark := ne_of_isAlpha (word.isAlpha_of_mem_spelling c hMem)
      simp [hMark.1, hMark.2.2.1]
    | number _ => exact absurd rfl hOperand
    | var _ => exact absurd rfl hOperand
    | comma =>
      obtain rfl : c = ',' := (List.cons.inj hSpelling).1.symm
      simp
    | opening =>
      obtain rfl : c = '(' := (List.cons.inj hSpelling).1.symm
      simp
    | closing =>
      obtain rfl : c = ')' := (List.cons.inj hSpelling).1.symm
      simp

/-- A written form is delimited when the first token of it is `,` or `)`, or when there is none. -/
theorem Spells.delimited_iff {tokens : List Token} {text : List Char} (h : Spells tokens text)
    (hLegible : ∀ token ∈ tokens, token.Legible) :
    Delimited text ↔ ∀ next ∈ tokens.head?, next = comma ∨ next = closing := by
  cases h with
  | nil hGap =>
    have hNothing : Delimited [] := Text.isGap_nil
    have hDelimited : Delimited (text ++ []) := (delimited_gap_append hGap).2 hNothing
    rw [List.append_nil] at hDelimited
    simp [hDelimited]
  | @cons gap token tokens rest hGap _ =>
    have hFirst := hLegible token List.mem_cons_self
    obtain ⟨c, tail, hSpelling, hBlank⟩ := exists_spelling_eq_cons hFirst
    rw [List.append_assoc, delimited_gap_append hGap, hSpelling, List.cons_append,
      delimited_cons_iff hBlank, spelling_starts_with_mark_iff hFirst hSpelling]
    simp

/-- Reading goes on behind a token that is in front of the text. -/
theorem readAll_of_reads {position : Nat} {text after : List Char} {token : Token} {taken : Nat}
    (h : Reads text token taken after) :
    readAll position text =
      (readAll (position + 1 + taken) after).map fun tokens => token :: tokens := by
  obtain ⟨c, tail, hSpelling, hBlank⟩ := exists_spelling_eq_cons h.legible
  obtain rfl : text = c :: (tail ++ after) := by rw [h.text_eq, hSpelling, List.cons_append]
  rw [readAll_cons_of_not_isBlank position _ hBlank, read_eq_of_reads h]
  simp only [h.drop_eq]

/-- What has been read from a text that does not start with a blank starts with a token in front of
the text. -/
theorem exists_reads_of_readAll {position : Nat} {c : Char} {rest : List Char}
    {tokens : List Token} (hBlank : Text.isBlank c = false)
    (h : readAll position (c :: rest) = .ok tokens) :
    ∃ token taken after others, Reads (c :: rest) token taken after ∧
      readAll (position + 1 + taken) after = .ok others ∧ tokens = token :: others := by
  rw [readAll_cons_of_not_isBlank position rest hBlank] at h
  split at h
  · exact absurd h (by simp)
  · next token taken hRead =>
    obtain ⟨others, hOthers, rfl⟩ := map_eq_ok_iff.1 h
    obtain ⟨after, hReads⟩ := reads_of_read hBlank hRead
    rw [hReads.drop_eq] at hOthers
    exact ⟨token, taken, after, others, hReads, hOthers, rfl⟩

/-- What has been read is a written form of the tokens. -/
theorem spells_of_readAll {position : Nat} {text : List Char} {tokens : List Token}
    (h : readAll position text = .ok tokens) :
    (∀ token ∈ tokens, token.Legible) ∧ Separated tokens ∧ Spells tokens text := by
  -- By the length, for what is left behind a token may start anywhere further on.
  induction hLength : text.length using Nat.strongRecOn generalizing position text tokens with
  | ind n ih =>
    cases text with
    | nil =>
      rw [readAll_nil] at h
      cases h
      exact ⟨by simp, List.isChain_nil, .nil Text.isGap_nil⟩
    | cons c rest =>
      cases hBlank : Text.isBlank c with
      | true =>
        rw [readAll_cons_of_isBlank position rest hBlank] at h
        obtain ⟨hLegible, hSeparated, hSpells⟩ := ih rest.length (by simp [← hLength]) h rfl
        have hGap : Text.IsGap [c] := by
          intro d hd
          rw [List.mem_singleton.1 hd, hBlank]
        exact ⟨hLegible, hSeparated, hSpells.gap_append hGap⟩
      | false =>
        obtain ⟨token, taken, after, others, hReads, hOthers, rfl⟩ :=
          exists_reads_of_readAll hBlank h
        have hShorter : after.length < n := by
          have hText := hReads.length_text
          omega
        obtain ⟨hLegible, hSeparated, hSpells⟩ := ih after.length hShorter hOthers rfl
        refine ⟨?_, ?_, ?_⟩
        · exact List.forall_mem_cons.2 ⟨hReads.legible, hLegible⟩
        · refine List.isChain_cons.2 ⟨fun next hNext hOperand => ?_, hSeparated⟩
          exact (hSpells.delimited_iff hLegible).1 (hReads.delimited hOperand) next hNext
        · rw [hReads.text_eq]
          exact hSpells.cons_append

/-- Every written form is read as the tokens it was written for. -/
theorem readAll_of_spells {position : Nat} {text : List Char} {tokens : List Token}
    (hLegible : ∀ token ∈ tokens, token.Legible) (hSeparated : Separated tokens)
    (hSpells : Spells tokens text) : readAll position text = .ok tokens := by
  induction hSpells generalizing position with
  | @nil gap hGap =>
    have hRead := readAll_append_of_isBlank position [] hGap
    rwa [List.append_nil, readAll_nil] at hRead
  | @cons gap token tokens rest hGap hRest ih =>
    obtain ⟨hFirst, hOthers⟩ := List.forall_mem_cons.1 hLegible
    obtain ⟨hNext, hTail⟩ := List.isChain_cons.1 hSeparated
    obtain ⟨_, tail, hSpelling, -⟩ := exists_spelling_eq_cons hFirst
    -- The rest is a written form as well, so its first token tells whether it is delimited.
    have hReads : Reads (token.spelling.toList ++ rest) token tail.length rest := by
      refine ⟨rfl, ?_, hFirst, ?_⟩
      · rw [hSpelling, List.length_cons]
      · intro hOperand
        exact (hRest.delimited_iff hOthers).2 fun next hMem => hNext next hMem hOperand
    rw [List.append_assoc, readAll_append_of_isBlank position _ hGap, readAll_of_reads hReads,
      ih hOthers hTail]
    rfl

/-- A text reads as a list of tokens exactly when it is a written form of the list, all names are
readable and every operand is separated from what follows. -/
theorem readAll_eq_ok_iff {position : Nat} {text : List Char} {tokens : List Token} :
    readAll position text = .ok tokens ↔
      (∀ token ∈ tokens, token.Legible) ∧ Separated tokens ∧ Spells tokens text :=
  ⟨spells_of_readAll, fun h => readAll_of_spells h.1 h.2.1 h.2.2⟩

theorem forall_legible_iff {tokens : List Token} :
    (∀ token ∈ tokens, token.Legible) ↔ ∀ name, var name ∈ tokens → Readable name := by
  constructor
  · intro h name hMem
    exact h (var name) hMem name rfl
  · rintro h _ hMem name rfl
    exact h name hMem

/-- Another layout of the tokens of a source text is read alike. -/
theorem tokenize_of_spells {source other : String} {tokens : List Token}
    (h : tokenize source = .ok tokens) (hSpells : Spells tokens other.toList) :
    tokenize other = .ok tokens := by
  obtain ⟨hLegible, hSeparated, -⟩ := readAll_eq_ok_iff.1 h
  exact readAll_of_spells hLegible hSeparated hSpells

/-- The texts that read as a given list of tokens are its written forms, provided the names in it
are readable and its operands separated.  So showing the tokens of a source text, with a space
between them or with nothing, gives a text that reads as the same tokens. -/
theorem tokenize_eq_ok_iff (source : String) (tokens : List Token) :
    (tokenize source = .ok tokens ↔
      (∀ name, var name ∈ tokens → Readable name) ∧ Separated tokens ∧
        Spells tokens source.toList) ∧
    (tokenize source = .ok tokens →
      tokenize (render tokens) = .ok tokens ∧
        tokenize (String.join (tokens.map spelling)) = .ok tokens) := by
  constructor
  · rw [tokenize, readAll_eq_ok_iff, forall_legible_iff]
  · intro h
    exact ⟨tokenize_of_spells h (spells_render tokens), tokenize_of_spells h (spells_join tokens)⟩

/-- A keyword needs no blank behind it, and a no-break space is a blank. -/
theorem tokenize_keyword_before_name :
    tokenize " address\u00a0" = .ok [keyword (.op .add), var "ress"] ∧
      tokenize "add ress" = .ok [keyword (.op .add), var "ress"] ∧
      tokenize "address" = .ok [keyword (.op .add), var "ress"] := by
  have hSource : tokenize " address\u00a0" = .ok [keyword (.op .add), var "ress"] := by cbv
  exact ⟨hSource, (tokenize_eq_ok_iff _ _).2 hSource⟩

end Token
end PrefixCalc
