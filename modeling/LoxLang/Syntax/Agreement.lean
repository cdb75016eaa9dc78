import LoxLang.Syntax.Node

/-!
# Agreement of trees

Two trees agree if they have the same shape, their tokens agree and their literals are of one kind
and equal in value.
-/

namespace LoxLang

namespace Token

/-- Two lists of tokens agree one by one. -/
def allAgree : List Token → List Token → Bool
  | [], [] => true
  | left :: lefts, right :: rights => left.agrees right && allAgree lefts rights
  | _, _ => false

end Token

namespace Node

mutual

/-- Two nodes agree. -/
def agrees : Node → Node → Bool
  | absent, absent => true
  | list items, list items' => allAgree items items'
  | token value, token value' => value.agrees value'
  | literal value, literal value' => value.agrees value'
  | reference name, reference name' => name.agrees name'
  | assign name value, assign name' value' => name.agrees name' && value.agrees value'
  | binary left operator right, binary left' operator' right' =>
    left.agrees left' && operator.agrees operator' && right.agrees right'
  | logical left operator right, logical left' operator' right' =>
    left.agrees left' && operator.agrees operator' && right.agrees right'
  | unary operator right, unary operator' right' =>
    operator.agrees operator' && right.agrees right'
  | grouping inner, grouping inner' => inner.agrees inner'
  | call callee paren arguments, call callee' paren' arguments' =>
    callee.agrees callee' && paren.agrees paren' && allAgree arguments arguments'
  | expression value, expression value' => value.agrees value'
  | print value, print value' => value.agrees value'
  | var name start, var name' start' => name.agrees name' && start.agrees start'
  | block statements, block statements' => allAgree statements statements'
  | conditional condition consequent alternative,
      conditional condition' consequent' alternative' =>
    condition.agrees condition' && consequent.agrees consequent' && alternative.agrees alternative'
  | loop condition body, loop condition' body' =>
    condition.agrees condition' && body.agrees body'
  | function name parameters body, function name' parameters' body' =>
    name.agrees name' && Token.allAgree parameters parameters' && allAgree body body'
  | ret keyword value, ret keyword' value' => keyword.agrees keyword' && value.agrees value'
  | _, _ => false

/-- Two lists of nodes agree one by one. -/
def allAgree : List Node → List Node → Bool
  | [], [] => true
  | left :: lefts, right :: rights => left.agrees right && allAgree lefts rights
  | _, _ => false

end

/-- The nodes without those that agree with an earlier one. -/
def distinct (nodes : List Node) : List Node :=
  nodes.foldl (fun kept node => if kept.any (agrees node) then kept else kept ++ [node]) []

end Node

namespace Stmt

/-- Two statements agree. -/
def agrees (left right : Stmt) : Bool := left.toNode.agrees right.toNode

/-- Two programs agree statement by statement. -/
def allAgree (left right : List Stmt) : Bool := Node.allAgree (toNodes left) (toNodes right)

/-- How many statements there are, of statements that agree only the first one counted. -/
def distinctCount (statements : List Stmt) : Nat := (Node.distinct (toNodes statements)).length

end Stmt
end LoxLang
