/-!
# Splitting into lines

A line ends at a newline, and a return right before that newline belongs to the line's end.  A last
line without a newline counts unless it is empty, and a return at its end is part of it.  The
splitting works on any alphabet, so that text can be split as characters or as bytes.
-/

namespace PrefixCalc
namespace Text

variable {α : Type} [DecidableEq α]

/-- The line whose content, read backwards, is given: a return at its end is dropped. -/
def endLine (ret : α) (backwards : List α) : List α :=
  match backwards with
  | [] => []
  | last :: earlier => if last = ret then earlier.reverse else backwards.reverse

/-- The lines of `backwards.reverse ++ rest`, where `backwards` holds no newline. -/
def linesFrom (newline ret : α) (backwards : List α) : List α → List (List α)
  | [] => if backwards.isEmpty then [] else [backwards.reverse]
  | x :: rest =>
    if x = newline then endLine ret backwards :: linesFrom newline ret [] rest
    else linesFrom newline ret (x :: backwards) rest

/-- The lines of a text, without what ends them. -/
def lines (newline ret : α) (text : List α) : List (List α) :=
  linesFrom newline ret [] text

/-- Text that holds no newline is gathered. -/
theorem linesFrom_append (newline ret : α) (backwards : List α) {piece : List α} (rest : List α)
    (h : newline ∉ piece) :
    linesFrom newline ret backwards (piece ++ rest) =
      linesFrom newline ret (piece.reverse ++ backwards) rest := by
  induction piece generalizing backwards with
  | nil => rfl
  | cons x piece ih =>
    rw [List.mem_cons, not_or] at h
    rw [List.cons_append, linesFrom, if_neg (Ne.symm h.1), ih (x :: backwards) h.2]
    simp

/-- The first line ends at the first newline, and the rest is split on its own. -/
theorem lines_append_newline (newline ret : α) {piece : List α} (rest : List α)
    (h : newline ∉ piece) :
    lines newline ret (piece ++ newline :: rest) =
      endLine ret piece.reverse :: lines newline ret rest := by
  rw [lines, linesFrom_append newline ret [] (newline :: rest) h, List.append_nil, linesFrom,
    if_pos rfl, lines]

/-- A text without a newline is one line, or none when it is empty. -/
theorem lines_of_not_mem (newline ret : α) {piece : List α} (h : newline ∉ piece) :
    lines newline ret piece = if piece.isEmpty then [] else [piece] := by
  have hGather := linesFrom_append newline ret [] [] h
  rw [List.append_nil] at hGather
  rw [lines, hGather, linesFrom]
  simp

end Text
end PrefixCalc
