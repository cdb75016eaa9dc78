import LoxLang.Syntax.Node

/-!
# Printed trees

The parenthesized form of a tree, in which the word or operator that names a node stands before its
parts: the statement `print 1 + 2 * 3;` is printed as `(print (+ 1 (* 2 3)))`. Any node may stand
at any place, but a list, a token and an absent node have no printed form.
-/

namespace LoxLang

/-- The printed form of a literal: strings stand in quotes, as they are. -/
def Literal.printed : Literal → String
  | .nil => "nil"
  | .bool value => if value then "true" else "false"
  | .number value => Number.display value
  | .text value => "\"" ++ value ++ "\""

/-- A name with its parts, in parentheses. -/
def parenthesized (name : String) (parts : List String) : String :=
  "(" ++ " ".intercalate (name :: parts) ++ ")"

namespace Node

mutual

/-- The printed form of a node, or the kind of the first part that has none. -/
def printed : Node → Except NodeKind String
  | literal value => .ok value.printed
  | reference name => .ok name.lexeme
  | assign name value => do
    return parenthesized "=" [name.lexeme, ← value.printed]
  | binary left operator right => do
    return parenthesized operator.lexeme [← left.printed, ← right.printed]
  | logical left operator right => do
    return parenthesized operator.lexeme [← left.printed, ← right.printed]
  | unary operator right => do
    return parenthesized operator.lexeme [← right.printed]
  | grouping inner => do
    return parenthesized "group" [← inner.printed]
  | call callee _ arguments => do
    return parenthesized "call" ((← callee.printed) :: (← printedAll arguments))
  | expression value => do
    return parenthesized ";" [← value.printed]
  | print value => do
    return parenthesized "print" [← value.printed]
  | var name absent => .ok (parenthesized "var" [name.lexeme])
  | var name start => do
    return parenthesized "var" [name.lexeme, "=", ← start.printed]
  | block statements => do
    return parenthesized "block" (← printedAll statements)
  | conditional condition consequent absent => do
    return parenthesized "if" [← condition.printed, ← consequent.printed]
  | conditional condition consequent alternative => do
    return parenthesized "if-else"
      [← condition.printed, ← consequent.printed, ← alternative.printed]
  | loop condition body => do
    return parenthesized "while" [← condition.printed, ← body.printed]
  | function name parameters body => do
    let names := "(" ++ " ".intercalate (parameters.map (·.lexeme)) ++ ")"
    return parenthesized "fun" (name.lexeme :: names :: (← printedAll body))
  | ret _ absent => .ok "(return)"
  | ret _ value => do
    return parenthesized "return" [← value.printed]
  | absent => .error .absent
  | list _ => .error .list
  | token _ => .error .token

/-- The printed forms of nodes, or the kind of the first part that has none. -/
def printedAll : List Node → Except NodeKind (List String)
  | [] => .ok []
  | node :: nodes => do
    return (← node.printed) :: (← printedAll nodes)

end

/-- The report that a node has no printed form. -/
def unprintable (kind : NodeKind) : String := "Unsupported node for printing: " ++ kind.name

end Node
end LoxLang
