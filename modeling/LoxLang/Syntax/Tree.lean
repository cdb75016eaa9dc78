import LoxLang.Token.Basic

/-!
# Syntax trees

Programs as the parser builds them and the interpreter runs them: expressions, which have a value,
and statements, which have an effect. Tokens are kept where a later phase needs a name, an operator
or a place to report at.

A tree that was read from a file may hold a node that has no meaning where it stands. `unexpected`
keeps its place: running it is a fault that names the kind of node that was found.
-/

namespace LoxLang

/-- What kind of node a syntax tree holds at some place. -/
inductive NodeKind where
  | absent | list | token
  | literal | reference | assign | binary | logical | unary | grouping | call
  | expression | print | var | block | conditional | loop | function | ret
deriving DecidableEq, Repr

/-- The name of a kind of node in files and messages. -/
def NodeKind.name : NodeKind → String
  | absent => "NoneType"
  | list => "list"
  | token => "Token"
  | literal => "Literal"
  | reference => "Variable"
  | assign => "Assign"
  | binary => "Binary"
  | logical => "Logical"
  | unary => "Unary"
  | grouping => "Grouping"
  | call => "Call"
  | expression => "ExprStmt"
  | print => "PrintStmt"
  | var => "VarStmt"
  | block => "Block"
  | conditional => "IfStmt"
  | loop => "WhileStmt"
  | function => "FunctionStmt"
  | ret => "ReturnStmt"

/-- An expression. -/
inductive Expr where
  | literal (value : Literal)
  | reference (name : Token)
  | assign (name : Token) (value : Expr)
  | binary (left : Expr) (operator : Token) (right : Expr)
  /-- An `and` or `or`, which may leave its right operand alone. -/
  | logical (left : Expr) (operator : Token) (right : Expr)
  | unary (operator : Token) (right : Expr)
  | grouping (inner : Expr)
  /-- A call; problems with it are reported at its closing parenthesis. -/
  | call (callee : Expr) (paren : Token) (arguments : List Expr)
  | unexpected (kind : NodeKind)

/-- A statement. -/
inductive Stmt where
  | expression (value : Expr)
  | print (value : Expr)
  | var (name : Token) (start : Option Expr)
  | block (statements : List Stmt)
  | conditional (condition : Expr) (consequent : Stmt) (alternative : Option Stmt)
  | loop (condition : Expr) (body : Stmt)
  | function (name : Token) (parameters : List Token) (body : List Stmt)
  | ret (keyword : Token) (value : Option Expr)
  | unexpected (kind : NodeKind)

instance : Inhabited Expr := ⟨.literal .nil⟩

instance : Inhabited Stmt := ⟨.block []⟩

end LoxLang
