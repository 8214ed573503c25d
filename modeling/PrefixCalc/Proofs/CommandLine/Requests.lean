import PrefixCalc.CommandLine.Request

/-!
# Every batch can be asked for

A limit that fits into a machine word is written in decimal, a trace is a switch, and an operand
stands behind `--`, where it may begin with a dash.  Reading these arguments gives the request back
(`ofArguments_arguments`), so what holds of all command lines that ask for a batch is said of every
limit, with and without a trace, and of every path.
-/

namespace PrefixCalc
namespace CommandLine

/-- A decimal numeral is the value of `--max-depth`, if it is not too large. -/
theorem depthOf?_repr {depth : Nat} (h : depth ≤ largestDepth) :
    depthOf? depth.repr = some depth := by
  have hDigits : (Nat.toDigits 10 depth).all Char.isDigit = true :=
    List.all_eq_true.2 fun _ hMem => Nat.isDigit_of_mem_toDigits (by decide) (by decide) hMem
  have hNotEmpty : (Nat.toDigits 10 depth).isEmpty = false :=
    List.isEmpty_eq_false_iff.2 Nat.toDigits_ne_nil
  rw [depthOf?, Nat.toList_repr]
  split
  · next rest hPlus =>
    rw [hPlus] at hDigits
    exact absurd hDigits (by simp [Char.isDigit])
  · simp only [hDigits, hNotEmpty, Nat.ofDigitChars_ten_toDigits, if_pos h]
    rfl

/-- A decimal numeral does not look like an option. -/
theorem looksLikeOption_repr (depth : Nat) : looksLikeOption depth.repr = false := by
  rw [looksLikeOption, Nat.toList_repr]
  split
  · next hDash =>
    have hDigit : ('-').isDigit = true :=
      Nat.isDigit_of_mem_toDigits (by decide) (by decide) (hDash ▸ List.mem_cons_self)
    exact absurd hDigit (by decide)
  · rfl

/-- The arguments for a source of lines. -/
def Source.arguments : Source → List String
  | .argument line => ["--", line]
  | .file path => ["--file", "--", path]
  | .standard => []

/-- Arguments that ask for a batch. -/
def Request.arguments (request : Request) : List String :=
  "--max-depth" :: request.options.maxDepth.repr ::
    (if request.options.trace then ["--trace"] else []) ++ request.source.arguments

/-- The arguments that are written for a request ask for it. -/
theorem ofArguments_arguments {request : Request} (h : request.options.maxDepth ≤ largestDepth) :
    Request.ofArguments request.arguments = .ok request := by
  obtain ⟨⟨depth, trace⟩, source⟩ := request
  have hDepth : Settings.withMaxDepth {} depth.repr = .ok { maxDepth := some depth } := by
    rw [Settings.withMaxDepth, depthOf?_repr h]
  rw [Request.ofArguments, Request.arguments]
  simp only [List.cons_append, Settings.read, looksLikeOption_repr, hDepth]
  cases trace <;> cases source <;> rfl

end CommandLine
end PrefixCalc
