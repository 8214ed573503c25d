import Mathlib
import PrefixCalc.Text.Lines

/-!
# Lines under a change of alphabet

Splitting a text into lines and writing its characters in another alphabet may change places, if the
code keeps the marks of a line's end apart: newline and return are written as one letter each, and
no other character has these letters in its code (`KeepsLines`).  `lines_flatMap` says so.  In the
other direction `of_forall_lines` leads from the lines of a text to the text itself, for any
property that pieces in a row inherit.

Both go by `lines_induction`, which takes a text apart at its first newline.
-/

namespace PrefixCalc
namespace Text

variable {α β : Type}

/-- A text is a last line without a newline, or a line, a newline and a text. -/
theorem lines_induction (newline : α) {motive : List α → Prop}
    (last : ∀ piece, newline ∉ piece → motive piece)
    (more : ∀ piece rest, newline ∉ piece → motive rest → motive (piece ++ newline :: rest))
    (text : List α) : motive text := by
  induction hLength : text.length using Nat.strongRecOn generalizing text with
  | ind n ih =>
    by_cases hMem : newline ∈ text
    · obtain ⟨piece, rest, rfl, hPiece⟩ := List.eq_append_cons_of_mem hMem
      refine more piece rest hPiece (ih rest.length ?_ rest rfl)
      rw [List.length_append, List.length_cons] at hLength
      omega
    · exact last text hMem

variable [DecidableEq α] [DecidableEq β]

/-- A return at the end of a line is dropped, any other last character stays. -/
theorem endLine_reverse_concat (ret last : α) (line : List α) :
    endLine ret (line ++ [last]).reverse = if last = ret then line else line ++ [last] := by
  rw [List.reverse_append, List.reverse_singleton, List.singleton_append, endLine,
    List.reverse_cons, List.reverse_reverse]

/-- A property that pieces in a row inherit, and that the marks of a line's end have, holds of a
text when it holds of its lines. -/
theorem of_forall_lines {newline ret : α} {P : List α → Prop} (hNil : P [])
    (hAppend : ∀ first second, P first → P second → P (first ++ second))
    (hNewline : P [newline]) (hRet : P [ret]) {text : List α}
    (h : ∀ line ∈ lines newline ret text, P line) : P text := by
  induction text using lines_induction newline with
  | last piece hPiece =>
    rw [lines_of_not_mem newline ret hPiece] at h
    cases piece with
    | nil => exact hNil
    | cons x piece => exact h (x :: piece) (List.mem_singleton.2 rfl)
  | more piece rest hPiece ih =>
    rw [lines_append_newline newline ret rest hPiece, List.forall_mem_cons] at h
    have hWhole : P piece := by
      rcases List.eq_nil_or_concat' piece with rfl | ⟨line, last, rfl⟩
      · exact hNil
      · have hLine := h.1
        rw [endLine_reverse_concat] at hLine
        split at hLine
        · next hLast =>
          rw [hLast]
          exact hAppend line [ret] hLine hRet
        · exact hLine
    exact hAppend piece (newline :: rest) hWhole (hAppend [newline] rest hNewline (ih h.2))

/-- A code that writes the marks of a line's end as one letter each, which stand in the code of no
other character. -/
structure KeepsLines (code : α → List β) (newline ret : α) (newline' ret' : β) : Prop where
  newline_eq : code newline = [newline']
  ret_eq : code ret = [ret']
  eq_newline : ∀ x, newline' ∈ code x → x = newline
  eq_ret : ∀ x, ret' ∈ code x → x = ret
  ne_nil : ∀ x, code x ≠ []

namespace KeepsLines

variable {code : α → List β} {newline ret : α} {newline' ret' : β}

omit [DecidableEq α] [DecidableEq β] in
/-- The code of a text without a newline has none either. -/
theorem not_mem_flatMap (h : KeepsLines code newline ret newline' ret') {piece : List α}
    (hPiece : newline ∉ piece) : newline' ∉ piece.flatMap code := by
  intro hMem
  obtain ⟨x, hx, hCode⟩ := List.mem_flatMap.1 hMem
  exact hPiece (h.eq_newline x hCode ▸ hx)

theorem endLine_flatMap (h : KeepsLines code newline ret newline' ret') (line : List α) :
    endLine ret' (line.flatMap code).reverse = (endLine ret line.reverse).flatMap code := by
  rcases List.eq_nil_or_concat' line with rfl | ⟨line, last, rfl⟩
  · rfl
  · rw [endLine_reverse_concat, List.flatMap_append, List.flatMap_singleton]
    by_cases hRet : last = ret
    · rw [if_pos hRet, hRet, h.ret_eq, endLine_reverse_concat, if_pos rfl]
    · -- The code of the last character ends in some letter, and that is not the return.
      obtain hNil | ⟨front, letter, hCode⟩ := List.eq_nil_or_concat' (code last)
      · exact absurd hNil (h.ne_nil last)
      · have hLetter : letter ≠ ret' := by
          rintro rfl
          exact hRet (h.eq_ret last (by simp [hCode]))
        rw [if_neg hRet, hCode, ← List.append_assoc, endLine_reverse_concat, if_neg hLetter,
          List.flatMap_append, List.flatMap_singleton, hCode, List.append_assoc]

/-- The lines of an encoded text are its lines, encoded. -/
theorem lines_flatMap (h : KeepsLines code newline ret newline' ret') (text : List α) :
    lines newline' ret' (text.flatMap code) = (lines newline ret text).map (List.flatMap code) := by
  induction text using lines_induction newline with
  | last piece hPiece =>
    rw [lines_of_not_mem newline ret hPiece,
      lines_of_not_mem newline' ret' (h.not_mem_flatMap hPiece)]
    cases piece with
    | nil => rfl
    | cons x piece => simp [h.ne_nil x]
  | more piece rest hPiece ih =>
    rw [List.flatMap_append, List.flatMap_cons, h.newline_eq, List.singleton_append,
      lines_append_newline newline' ret' _ (h.not_mem_flatMap hPiece), ih, h.endLine_flatMap,
      lines_append_newline newline ret rest hPiece, List.map_cons]

end KeepsLines

end Text
end PrefixCalc
