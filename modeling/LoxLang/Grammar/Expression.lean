import LoxLang.Grammar.Rule
import LoxLang.Syntax.Tree

/-!
# Expression grammar

From the loosest to the tightest form, an expression is an assignment, a chain of operators of one
of six levels, a unary operator with its operand, a call, or a primary expression. Chains of
operators group to the left, assignments to the right.

The rules recurse on a nesting limit: every nested expression and every unary operator takes one
unit of it.
-/

namespace LoxLang.Grammar

open Rule

/-- A level of binary operators that bind equally tight. -/
structure Level where
  operators : List TokenKind
  combine : Expr → Token → Expr → Expr

/-- The levels of operators, the loosest first. -/
def levels : List Level := [
  ⟨[.keyOr], .logical⟩,
  ⟨[.keyAnd], .logical⟩,
  ⟨[.bangEqual, .equalEqual], .binary⟩,
  ⟨[.greater, .greaterEqual, .less, .lessEqual], .binary⟩,
  ⟨[.minus, .plus], .binary⟩,
  ⟨[.slash, .star], .binary⟩]

/-- Operands with operators of one level between them, grouped to the left. -/
def chain (level : Level) (operand : Rule Expr) : Rule Expr := do
  let first ← operand
  repeated first fun left => do
    match ← accept level.operators with
    | none => return none
    | some operator =>
      let right ← operand
      return some (level.combine left operator right)

/-- Operators of the given levels, the loosest first, over operands that bind tighter than all. -/
def operations (levels : List Level) (operand : Rule Expr) : Rule Expr :=
  levels.foldr chain operand

/-- One or more items with commas between them. An item beyond the limit is reported before it is
read, and kept. -/
def listed {α : Type} (tooMany : Problem) (item : Rule α) : Rule (List α) := do
  let first ← item
  let (_, found) ← repeated (1, [first]) fun (count, found) => do
    match ← accept [.comma] with
    | none => return none
    | some _ =>
      if listLimit ≤ count then reportNext tooMany
      let further ← item
      return some (count + 1, further :: found)
  return found.reverse

/-- A parenthesized argument list, or several, after an expression. -/
def calls (expression : Rule Expr) (callee : Expr) : Rule Expr :=
  repeated callee fun callee => do
    match ← accept [.leftParen] with
    | none => return none
    | some _ =>
      let arguments ←
        if ← nextIs .rightParen then pure []
        else listed .tooManyArguments expression
      let paren ← expect .rightParen .parenAfterArguments
      return some (.call callee paren arguments)

/-- A literal, a name, or an expression in parentheses. -/
def primary (expression : Rule Expr) : Rule Expr := do
  match ← next with
  | none => fail .expression
  | some token =>
    match token.kind with
    | .keyFalse => do
      skip
      return .literal (.bool false)
    | .keyTrue => do
      skip
      return .literal (.bool true)
    | .keyNil => do
      skip
      return .literal .nil
    | .number | .string => do
      skip
      return .literal token.literal
    | .identifier => do
      skip
      return .reference token
    | .leftParen => do
      skip
      let inner ← expression
      let _ ← expect .rightParen .parenAfterExpression
      return .grouping inner
    | _ => fail .expression

mutual

/-- A unary operator with its operand, or a call or primary expression. -/
def unary : Nat → Rule Expr
  | 0 => tooDeep
  | depth + 1 => do
    match ← accept [.bang, .minus] with
    | some operator =>
      let right ← unary depth
      return .unary operator right
    | none =>
      let callee ← primary (expression depth)
      calls (expression depth) callee

/-- An expression. What stands left of an equals sign is read as an expression first; if it is no
name, that is reported and the value is dropped. -/
def expression : Nat → Rule Expr
  | 0 => tooDeep
  | depth + 1 => do
    let target ← operations levels (unary depth)
    match ← accept [.equal] with
    | none => return target
    | some equals =>
      let value ← expression depth
      match target with
      | .reference name => return .assign name value
      | _ =>
        reportAt equals .invalidTarget
        return target

end

end LoxLang.Grammar
