import PrefixCalc.Proofs.CallTree.Drawing
import PrefixCalc.Proofs.Sketch.Peak

/-!
# Building call notation

What becomes of a call with a keyword in front when it is all there is to read.  The first token
lends its keyword to the root, which is what writing it on an empty root comes to, so the rest is the
drawing of a tree on an empty sketch.

Main statement: `build_tokens`, building a call gives what the recursion on the tree says, unless
the calls are nested more deeply than the limit allows.
-/

namespace PrefixCalc
namespace CallTree

mutual

/-- The groups of a tree are nested as deeply as its calls. -/
theorem peak_tokens (tree : CallTree) (height : Nat) (more : List Token) :
    Token.peak height (tree.tokens ++ more) =
      max (height + tree.nesting) (Token.peak height more) := by
  have hMore := Token.le_peak height more
  cases tree with
  | number _ | var _ | absent =>
    rw [nesting, Nat.add_zero, Nat.max_eq_right hMore]
    rfl
  | call head first rest =>
    have hHead : Token.peak height ((call head first rest).tokens ++ more) =
        Token.peak (height + 1) (first.tokens ++ (restTokens rest ++ (.closing :: more))) := by
      cases head <;> simp [tokens, Token.peak]
    have hClosing : Token.peak (height + 1) (.closing :: more) =
        max (height + 1) (Token.peak height more) := by
      rw [Token.peak, if_neg (Nat.succ_ne_zero height)]
      rfl
    rw [hHead, peak_tokens first, peak_restTokens rest, hClosing, nesting]
    omega

theorem peak_restTokens (arguments : List CallTree) (height : Nat) (more : List Token) :
    Token.peak (height + 1) (restTokens arguments ++ more) =
      max (height + 1 + restNesting arguments) (Token.peak (height + 1) more) := by
  have hMore := Token.le_peak (height + 1) more
  cases arguments with
  | nil =>
    rw [restNesting, Nat.add_zero, Nat.max_eq_right hMore]
    rfl
  | cons argument rest =>
    have hComma : Token.peak (height + 1) (restTokens (argument :: rest) ++ more) =
        Token.peak (height + 1) (argument.tokens ++ (restTokens rest ++ more)) := by
      simp [restTokens, Token.peak]
    rw [hComma, peak_tokens argument, peak_restTokens rest, restNesting]
    omega

end

/-- A sketch with nothing on it. -/
def blank : Sketch where
  drafts := #[{}]
  owners := []
  cursor := Sketch.root

/-- A keyword in the first place does what it would do on an empty root. -/
theorem draw_keyword (limit : Nat) (word : Keyword) (tokens : List Token) :
    Sketch.draw limit (.keyword word :: tokens) = blank.walk limit (.keyword word :: tokens) :=
  rfl

/-- Building a call that has a keyword in front. -/
theorem build_tokens (limit : Nat) (word : Keyword) (first : CallTree) (rest : List CallTree) :
    Sketch.build limit (call (some word) first rest).tokens =
      if limit < (call (some word) first rest).nesting then .error (.tooDeep limit)
      else (call (some word) first rest).expr.mapError fun fault => .malformed fault.details := by
  obtain ⟨tree, hTree⟩ : ∃ tree, tree = call (some word) first rest := ⟨_, rfl⟩
  obtain ⟨tokens, hTokens⟩ : ∃ tokens, tree.tokens = .keyword word :: tokens :=
    ⟨_, by rw [hTree, CallTree.tokens]; rfl⟩
  rw [← hTree, hTokens]
  split
  · next hDeep =>
    have hPeak : Token.peak 0 tokens = tree.nesting := by
      have h : Token.peak 0 tokens = max (0 + tree.nesting) 0 := by
        have hAll := peak_tokens tree 0 []
        rw [List.append_nil, hTokens] at hAll
        exact hAll
      omega
    rw [Sketch.build_eq, if_pos (hPeak ▸ hDeep)]
  · next hRoom =>
    obtain ⟨next, hWalk, hDrawn⟩ := exists_walk_tokens limit tree blank rfl (by
      show 0 + tree.nesting ≤ limit
      omega)
    have hHolds : Holds next.drafts Sketch.root tree := hDrawn.holds _ fun _ _ => rfl
    rw [hTokens, ← draw_keyword] at hWalk
    have hOrdered : next.Ordered := (Sketch.ordered_start (.keyword word)).walk hWalk
    rw [Sketch.build, hWalk]
    simp only [hOrdered.toExpr_eq hHolds.exprWithin_eq]

end CallTree
end PrefixCalc
