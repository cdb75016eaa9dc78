import LoxLang.Syntax.Tree

/-!
# Exchanged trees

A tree in a file may hold any node at any place: a statement where an expression belongs, a list, a
token, or nothing. `Node` is this loose form. Expressions and statements embed into it, and it is
read back as either one, with `unexpected` at each place where a node has no meaning.
-/

namespace LoxLang

/-- A node of a tree in which nothing is known of what its children are. -/
inductive Node where
  | absent
  | list (items : List Node)
  | token (value : Token)
  | literal (value : Literal)
  | reference (name : Token)
  | assign (name : Token) (value : Node)
  | binary (left : Node) (operator : Token) (right : Node)
  | logical (left : Node) (operator : Token) (right : Node)
  | unary (operator : Token) (right : Node)
  | grouping (inner : Node)
  | call (callee : Node) (paren : Token) (arguments : List Node)
  | expression (value : Node)
  | print (value : Node)
  | var (name : Token) (start : Node)
  | block (statements : List Node)
  | conditional (condition consequent alternative : Node)
  | loop (condition body : Node)
  | function (name : Token) (parameters : List Token) (body : List Node)
  | ret (keyword : Token) (value : Node)

namespace Node

instance : Inhabited Node := ⟨absent⟩

/-- The kind of a node. -/
def kind : Node → NodeKind
  | absent => .absent
  | list _ => .list
  | token _ => .token
  | literal _ => .literal
  | reference _ => .reference
  | assign _ _ => .assign
  | binary _ _ _ => .binary
  | logical _ _ _ => .logical
  | unary _ _ => .unary
  | grouping _ => .grouping
  | call _ _ _ => .call
  | expression _ => .expression
  | print _ => .print
  | var _ _ => .var
  | block _ => .block
  | conditional _ _ _ => .conditional
  | loop _ _ => .loop
  | function _ _ _ => .function
  | ret _ _ => .ret

mutual

/-- The node read as an expression. -/
def toExpr : Node → Expr
  | literal value => .literal value
  | reference name => .reference name
  | assign name value => .assign name value.toExpr
  | binary left operator right => .binary left.toExpr operator right.toExpr
  | logical left operator right => .logical left.toExpr operator right.toExpr
  | unary operator right => .unary operator right.toExpr
  | grouping inner => .grouping inner.toExpr
  | call callee paren arguments => .call callee.toExpr paren (toExprs arguments)
  | other => .unexpected other.kind

/-- Nodes read as expressions. -/
def toExprs : List Node → List Expr
  | [] => []
  | node :: nodes => node.toExpr :: toExprs nodes

end

/-- The node read as an expression that may be left out. -/
def toExpr? : Node → Option Expr
  | absent => none
  | node => some node.toExpr

mutual

/-- The node read as a statement. -/
def toStmt : Node → Stmt
  | expression value => .expression value.toExpr
  | print value => .print value.toExpr
  | var name start => .var name start.toExpr?
  | block statements => .block (toStmts statements)
  | conditional condition consequent absent =>
    .conditional condition.toExpr consequent.toStmt none
  | conditional condition consequent alternative =>
    .conditional condition.toExpr consequent.toStmt (some alternative.toStmt)
  | loop condition body => .loop condition.toExpr body.toStmt
  | function name parameters body => .function name parameters (toStmts body)
  | ret keyword value => .ret keyword value.toExpr?
  | other => .unexpected other.kind

/-- Nodes read as statements. -/
def toStmts : List Node → List Stmt
  | [] => []
  | node :: nodes => node.toStmt :: toStmts nodes

end

/-- The list node read as a program; other nodes are none. -/
def toProgram? : Node → Option (List Stmt)
  | list items => some (toStmts items)
  | _ => none

end Node

namespace Expr

mutual

/-- The node of an expression. -/
def toNode : Expr → Node
  | literal value => .literal value
  | reference name => .reference name
  | assign name value => .assign name value.toNode
  | binary left operator right => .binary left.toNode operator right.toNode
  | logical left operator right => .logical left.toNode operator right.toNode
  | unary operator right => .unary operator right.toNode
  | grouping inner => .grouping inner.toNode
  | call callee paren arguments => .call callee.toNode paren (toNodes arguments)
  | unexpected _ => .absent

/-- The nodes of expressions. -/
def toNodes : List Expr → List Node
  | [] => []
  | value :: values => value.toNode :: toNodes values

end

/-- The node of an expression that may be left out. -/
def optionNode : Option Expr → Node
  | none => .absent
  | some value => value.toNode

end Expr

namespace Stmt

mutual

/-- The node of a statement. -/
def toNode : Stmt → Node
  | expression value => .expression value.toNode
  | print value => .print value.toNode
  | var name start => .var name (Expr.optionNode start)
  | block statements => .block (toNodes statements)
  | conditional condition consequent alternative =>
    .conditional condition.toNode consequent.toNode (optionNode alternative)
  | loop condition body => .loop condition.toNode body.toNode
  | function name parameters body => .function name parameters (toNodes body)
  | ret keyword value => .ret keyword (Expr.optionNode value)
  | unexpected _ => .absent

/-- The nodes of statements. -/
def toNodes : List Stmt → List Node
  | [] => []
  | statement :: statements => statement.toNode :: toNodes statements

/-- The node of a statement that may be left out. -/
def optionNode : Option Stmt → Node
  | none => .absent
  | some statement => statement.toNode

end

end Stmt

/-- The list node of a program. -/
def Node.ofProgram (statements : List Stmt) : Node := .list (Stmt.toNodes statements)

end LoxLang
