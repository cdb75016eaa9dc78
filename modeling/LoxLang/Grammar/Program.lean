import LoxLang.Grammar.Statement
import LoxLang.Source.Scan

/-!
# Programs from text

`parse` reads a list of tokens as a program, `Program.ofSource` a source text, and `parseExpression`
a list of tokens that is one expression. All take the limit on nesting; a program that is nested
deeper has a declaration dropped and reported.
-/

namespace LoxLang.Grammar

open Rule

/-- The tokens in front of the one that ends the text, with the line of that one. Tokens behind it
do not count; a list without it is not closed. -/
def closed? : List Token → Option (List Token × Int)
  | [] => none
  | token :: rest =>
    if token.kind = .endOfFile then some ([], token.line)
    else (closed? rest).map fun (tokens, line) => (token :: tokens, line)

/-- A list is closed by the first token that ends the text. -/
theorem closed?_eq_some_iff {tokens front : List Token} {endLine : Int} :
    closed? tokens = some (front, endLine) ↔
      ∃ last behind, tokens = front ++ last :: behind ∧
        (∀ token ∈ front, token.kind ≠ .endOfFile) ∧ last.kind = .endOfFile ∧
        last.line = endLine := by
  constructor
  · intro closed
    induction tokens generalizing front with
    | nil => cases closed
    | cons token tokens inductionHypothesis =>
      rw [closed?] at closed
      split at closed
      next isEnd =>
        cases closed
        exact ⟨token, tokens, rfl, List.forall_mem_nil _, isEnd, rfl⟩
      next noEnd =>
        obtain ⟨⟨further, line⟩, isFurther, same⟩ := Option.map_eq_some_iff.mp closed
        cases same
        obtain ⟨last, behind, rfl, noneEnds, isLast⟩ := inductionHypothesis isFurther
        exact ⟨last, behind, rfl, List.forall_mem_cons.mpr ⟨noEnd, noneEnds⟩, isLast⟩
  · rintro ⟨last, behind, rfl, noEnd, isEnd, rfl⟩
    induction front with
    | nil => exact if_pos isEnd
    | cons token front inductionHypothesis =>
      obtain ⟨isNoEnd, noneEnds⟩ := List.forall_mem_cons.mp noEnd
      rw [List.cons_append, closed?, if_neg isNoEnd, inductionHypothesis noneEnds]
      rfl

/-- The statements that were read, and the errors in order. -/
structure Parsed where
  statements : List Stmt
  errors : List SyntaxError

/-- How deep a text may be nested. The limit counts from where a declaration can still recover, so
that the declarations of a program always can. -/
def depthOf (limit : Nat) : Nat := limit + recoveryDepth

/-- Reads tokens as a program. -/
def parse (limit : Nat) (tokens : List Token) (endLine : Int) : Parsed :=
  let reply := declarations hasNext (declaration (depthOf limit + 1)) ⟨endLine, false⟩ tokens
  match reply.result with
  | .ok statements => ⟨statements, reply.errors⟩
  | .error _ => ⟨[], reply.errors⟩

/-- An expression and nothing behind it. -/
def wholeExpression (limit : Nat) : Rule Expr := do
  let value ← expression (depthOf limit)
  if ← hasNext then fail .endOfExpression
  else return value

/-- Reads tokens as one expression; if they are none, the errors may be empty because nesting is
not reported here. -/
def parseExpression (limit : Nat) (tokens : List Token) (endLine : Int) :
    Option Expr × List SyntaxError :=
  let reply := wholeExpression limit ⟨endLine, false⟩ tokens
  (reply.result.toOption, reply.errors)

end LoxLang.Grammar

namespace LoxLang

/-- A program with everything that was found wrong with its text. -/
structure Program where
  statements : List Stmt
  /-- The scan errors in order, then the syntax errors in order. -/
  diagnostics : List Diagnostic

namespace Program

/-- Nothing is wrong with the text of the program. -/
def isClean (program : Program) : Bool := program.diagnostics.isEmpty

/-- Scans and parses a source text. -/
def ofSource (limit : Nat) (source : String) : Program :=
  let scan := Source.scan source
  let parsed := Grammar.parse limit scan.tokens scan.endLine
  ⟨parsed.statements, scan.errors.map (·.diagnostic) ++ parsed.errors.map (·.diagnostic)⟩

end Program
end LoxLang
