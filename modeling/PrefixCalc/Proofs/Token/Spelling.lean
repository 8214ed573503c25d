import PrefixCalc.Proofs.Text.Gap
import PrefixCalc.Token.Lexer

/-!
# How tokens are written

The written forms of a list of tokens, said without the reader: the spellings of the tokens in
order, with blanks of any kind and number before, between and after them, or with none.  Not every
list has a form that can be read again.  A name must not look like something else (`Readable`), and
an operand takes everything up to the next `,` or `)`, so that nothing else can follow it
(`Separated`).
-/

namespace PrefixCalc
namespace Keyword

theorem ofSpelling?_eq_some_iff {text : List Char} {word : Keyword} :
    ofSpelling? text = some word ↔ text = word.spelling.toList := by
  constructor
  · intro h
    have hEq := List.find?_some h
    exact (beq_iff_eq.1 hEq).symm
  · rintro rfl
    rcases word with (_ | _ | _ | _) | _ <;> decide

theorem ofSpelling?_eq_none_iff {text : List Char} :
    ofSpelling? text = none ↔ ∀ word : Keyword, text ≠ word.spelling.toList := by
  constructor
  · intro h word hText
    rw [ofSpelling?_eq_some_iff.2 hText] at h
    exact absurd h (by simp)
  · intro h
    cases hFound : ofSpelling? text with
    | none => rfl
    | some word => exact absurd (ofSpelling?_eq_some_iff.1 hFound) (h word)

/-- A keyword is written in letters alone. -/
theorem isAlpha_of_mem_spelling (word : Keyword) :
    ∀ c ∈ word.spelling.toList, c.isAlpha = true := by
  have hAll : word.spelling.toList.all Char.isAlpha = true := by
    rcases word with (_ | _ | _ | _) | _ <;> decide
  exact List.all_eq_true.1 hAll

end Keyword

namespace Token

/-- A name that the reader takes for a name: a letter, then letters, digits and `_`, and no keyword
in front. -/
def Readable (name : String) : Prop :=
  (∃ first rest, name.toList = first :: rest ∧ first.isAlpha = true ∧
    ∀ c ∈ rest, c.isAlphanum = true ∨ c = '_') ∧
  ∀ word : Keyword, ¬ word.spelling.toList <+: name.toList

/-- An operand is the last of the tokens or is followed by `,` or `)`. -/
def Separated (tokens : List Token) : Prop :=
  tokens.IsChain fun token next => token.isOperand = true → next = comma ∨ next = closing

/-- In front of separated tokens a token that is no operand is separated too. -/
theorem Separated.cons_of_not_isOperand {token : Token} {tokens : List Token}
    (h : Separated tokens) (hToken : token.isOperand = false) : Separated (token :: tokens) :=
  List.isChain_cons.2 ⟨fun _ _ hOperand => absurd hOperand (by simp [hToken]), h⟩

/-- The text is the spellings of the tokens in order, with blanks around and between them. -/
inductive Spells : List Token → List Char → Prop
  | nil {gap : List Char} : Text.IsGap gap → Spells [] gap
  | cons {gap : List Char} {token : Token} {tokens : List Token} {rest : List Char} :
      Text.IsGap gap → Spells tokens rest →
        Spells (token :: tokens) (gap ++ token.spelling.toList ++ rest)

/-- Blanks in front of a written form change nothing. -/
theorem Spells.gap_append {gap : List Char} {tokens : List Token} {text : List Char}
    (hGap : Text.IsGap gap) (h : Spells tokens text) : Spells tokens (gap ++ text) := by
  cases h with
  | nil hRest => exact .nil (Text.isGap_append.2 ⟨hGap, hRest⟩)
  | cons hFirst hRest =>
    rw [← List.append_assoc, ← List.append_assoc]
    exact .cons (Text.isGap_append.2 ⟨hGap, hFirst⟩) hRest

/-- A token written without a blank in front of it. -/
theorem Spells.cons_append {token : Token} {tokens : List Token} {rest : List Char}
    (h : Spells tokens rest) : Spells (token :: tokens) (token.spelling.toList ++ rest) :=
  .cons Text.isGap_nil h

theorem spells_singleton (token : Token) : Spells [token] token.spelling.toList := by
  have h : Spells [token] (token.spelling.toList ++ []) := Spells.cons_append (.nil Text.isGap_nil)
  rwa [List.append_nil] at h

/-- Written forms of two lists in a row are a written form of both. -/
theorem Spells.append {first second : List Token} {before after : List Char}
    (hBefore : Spells first before) (hAfter : Spells second after) :
    Spells (first ++ second) (before ++ after) := by
  induction hBefore with
  | nil hGap => exact hAfter.gap_append hGap
  | cons hGap _ ih =>
    rw [List.append_assoc]
    exact .cons hGap ih

/-- The spellings without any blanks are a written form. -/
theorem spells_join (tokens : List Token) :
    Spells tokens (String.join (tokens.map spelling)).toList := by
  rw [String.toList_join]
  induction tokens with
  | nil => exact .nil Text.isGap_nil
  | cons token tokens ih => exact ih.cons_append

/-- The spellings with one space between them are a written form. -/
theorem spells_render (tokens : List Token) : Spells tokens (render tokens).toList := by
  rw [render, String.toList_intercalate]
  induction tokens with
  | nil => exact .nil Text.isGap_nil
  | cons token tokens ih =>
    cases tokens with
    | nil => simpa using spells_singleton token
    | cons next tokens =>
      have hSpace : Text.IsGap " ".toList := by
        intro c hc
        obtain rfl : c = ' ' := by simpa using hc
        decide
      have h : Spells (token :: next :: tokens) _ := (ih.gap_append hSpace).cons_append
      simpa [List.intercalate, List.intersperse] using h

end Token
end PrefixCalc
