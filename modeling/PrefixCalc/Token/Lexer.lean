import PrefixCalc.Error
import PrefixCalc.Text.Alphabetic
import PrefixCalc.Text.Blank
import PrefixCalc.Token

/-!
# Reading tokens from text

Blanks between tokens are skipped.  A mark `,` `(` `)` is a token of one character.  A keyword is
recognised by its three characters alone, whatever follows them.  Numbers and names are not read
greedily by class: they extend to the next `,` or `)` and lose the blanks at their end, and the
whole of that run has to be a numeral or a name.  So `1 2` is one bad number and not two good ones,
and `add1` is a keyword and a number.

Each token takes as many characters as its spelling has.  The reader stops at the first error.
-/

namespace PrefixCalc
namespace Token

/-- Whether a character may start a name. -/
def isNameStart (c : Char) : Bool :=
  c.isAlpha || c == '_'

/-- Whether a character may stand inside a name. -/
def isNamePart (c : Char) : Bool :=
  c.isAlphanum || c == '_'

/-- Whether a text is a name: ASCII letters, digits and `_`, the first not a digit. -/
def isName : List Char → Bool
  | [] => false
  | c :: cs => isNameStart c && cs.all isNamePart

/-- The text up to the next `,` or `)`, or up to the end, without the blanks around it. -/
def run (text : List Char) : List Char :=
  Text.trim (text.takeWhile fun c => c != ',' && c != ')')

/-- A run that has to be a numeral, and the value it has as a word. -/
def readNumber (position : Nat) (literal : List Char) : Except LexicalError Token :=
  match Numeral.read? literal with
  | none => .error (.invalidNumber (String.ofList literal) position)
  | some value =>
    match Numeral.toWord? value with
    | none => .error (.numberOutOfRange (String.ofList literal) position)
    | some word => .ok (.number word)

/-- A run that has to be a name. -/
def readName (position : Nat) (name : List Char) : Except LexicalError Token :=
  if isName name then .ok (.var (String.ofList name))
  else .error (.invalidIdentifier (String.ofList name) position)

/-- The token that starts with the non-blank character `c`, and how many of the characters after
`c` belong to it. -/
def read (position : Nat) (c : Char) (rest : List Char) : Except LexicalError (Token × Nat) :=
  if c = ',' then .ok (.comma, 0)
  else if c = '(' then .ok (.opening, 0)
  else if c = ')' then .ok (.closing, 0)
  else if c.isDigit || c == '-' then
    let literal := run (c :: rest)
    (readNumber position literal).map fun token => (token, literal.length - 1)
  else if Text.isAlphabetic c then
    match Keyword.ofSpelling? ((c :: rest).take Keyword.width) with
    | some word => .ok (.keyword word, Keyword.width - 1)
    | none =>
      let name := run (c :: rest)
      (readName position name).map fun token => (token, name.length - 1)
  else .error (.unexpectedCharacter c position)

/-- The tokens of a text whose first character has the given position. -/
def readAll (position : Nat) (text : List Char) : Except LexicalError (List Token) :=
  match text with
  | [] => .ok []
  | c :: rest =>
    if Text.isBlank c then readAll (position + 1) rest
    else
      match read position c rest with
      | .error error => .error error
      | .ok (token, taken) =>
        (readAll (position + 1 + taken) (rest.drop taken)).map fun tokens => token :: tokens
termination_by text.length
decreasing_by
  · simp
  · simp only [List.length_drop, List.length_cons]
    omega

@[simp]
theorem readAll_nil (position : Nat) : readAll position [] = .ok [] := by
  rw [readAll]

/-- A blank is skipped. -/
theorem readAll_cons_of_isBlank (position : Nat) {c : Char} (rest : List Char)
    (h : Text.isBlank c = true) : readAll position (c :: rest) = readAll (position + 1) rest := by
  rw [readAll, if_pos h]

/-- Blanks in a row are skipped. -/
theorem readAll_append_of_isBlank (position : Nat) {gap : List Char} (rest : List Char)
    (h : ∀ c ∈ gap, Text.isBlank c = true) :
    readAll position (gap ++ rest) = readAll (position + gap.length) rest := by
  induction gap generalizing position with
  | nil => rfl
  | cons c gap ih =>
    rw [List.cons_append, readAll_cons_of_isBlank position (gap ++ rest) (h c List.mem_cons_self),
      ih (position + 1) fun d hd => h d (List.mem_cons_of_mem c hd), List.length_cons,
      Nat.add_right_comm, Nat.add_assoc]

/-- A character that is not blank starts a token, or the reading fails there. -/
theorem readAll_cons_of_not_isBlank (position : Nat) {c : Char} (rest : List Char)
    (h : Text.isBlank c = false) :
    readAll position (c :: rest) =
      match read position c rest with
      | .error error => .error error
      | .ok (token, taken) =>
        (readAll (position + 1 + taken) (rest.drop taken)).map fun tokens => token :: tokens := by
  rw [readAll, if_neg (by simp [h])]

/-- The tokens of a source text. -/
def tokenize (source : String) : Except LexicalError (List Token) :=
  readAll 0 source.toList

end Token
end PrefixCalc
