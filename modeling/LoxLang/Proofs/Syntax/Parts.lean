import Mathlib.Logic.Relation
import LoxLang.Proofs.Grammar.Yield
import LoxLang.Proofs.Number.Display

/-!
# Parts of trees

The statements and expressions that stand anywhere in a tree. What holds of a tree that was built
from tokens holds of its parts.
-/

namespace LoxLang

/-- The expressions that the expression is put together from. -/
def Expr.parts : Expr → List Expr
  | .assign _ value => [value]
  | .binary left _ right | .logical left _ right => [left, right]
  | .unary _ right => [right]
  | .grouping inner => [inner]
  | .call callee _ arguments => callee :: arguments
  | .literal _ | .reference _ | .unexpected _ => []

/-- The statements that the statement is put together from. -/
def Stmt.parts : Stmt → List Stmt
  | .block statements => statements
  | .conditional _ consequent alternative => consequent :: alternative.toList
  | .loop _ body => [body]
  | .function _ _ body => body
  | .expression _ | .print _ | .var _ _ | .ret _ _ | .unexpected _ => []

/-- The expressions that the statement is put together from. -/
def Stmt.values : Stmt → List Expr
  | .expression value | .print value => [value]
  | .var _ start => start.toList
  | .conditional condition _ _ | .loop condition _ => [condition]
  | .ret _ value => value.toList
  | .block _ | .function _ _ _ | .unexpected _ => []

/-- The part stands anywhere in the expression; every expression stands in itself. -/
def Expr.Holds : Expr → Expr → Prop :=
  Relation.ReflTransGen fun whole part => part ∈ whole.parts

/-- The part stands anywhere in the statement; every statement stands in itself. -/
def Stmt.Holds : Stmt → Stmt → Prop :=
  Relation.ReflTransGen fun whole part => part ∈ whole.parts

/-- The expression stands anywhere in the statement. -/
def Stmt.HoldsExpr (stmt : Stmt) (expr : Expr) : Prop :=
  ∃ part value, stmt.Holds part ∧ value ∈ part.values ∧ value.Holds expr

namespace Program

/-- The statement stands anywhere in the program. -/
def Holds (program : Program) (stmt : Stmt) : Prop := ∃ whole ∈ program.statements, whole.Holds stmt

/-- The expression stands anywhere in the program. -/
def HoldsExpr (program : Program) (expr : Expr) : Prop :=
  ∃ whole ∈ program.statements, whole.HoldsExpr expr

end Program

/-! ## Parts of trees that were built -/

variable {known : Token → Prop}

/-- The parts of an expression that was built were built. -/
theorem Expr.Built.part {expr part : Expr} (built : expr.Built known) (isPart : part ∈ expr.parts) :
    part.Built known := by
  cases built with
  | literal | reference => cases isPart
  | assign _ isValue => exact List.mem_singleton.mp isPart ▸ isValue
  | binary isLeft _ isRight | logical isLeft _ isRight =>
    rcases List.mem_pair.mp isPart with rfl | rfl
    · exact isLeft
    · exact isRight
  | unary _ isRight => exact List.mem_singleton.mp isPart ▸ isRight
  | grouping isInner => exact List.mem_singleton.mp isPart ▸ isInner
  | call isCallee _ areArguments =>
    rcases List.mem_cons.mp isPart with rfl | isArgument
    · exact isCallee
    · exact areArguments part isArgument

/-- The parts of a statement that was built were built. -/
theorem Stmt.Built.part {stmt part : Stmt} (built : stmt.Built known) (isPart : part ∈ stmt.parts) :
    part.Built known := by
  cases built with
  | expression | print | var | ret => cases isPart
  | block areBuilt => exact areBuilt part isPart
  | conditional _ isConsequent isAlternative =>
    rcases List.mem_cons.mp isPart with rfl | isPart
    · exact isConsequent
    · exact isAlternative part (Option.mem_toList.mp isPart)
  | loop _ isBody => exact List.mem_singleton.mp isPart ▸ isBody
  | function _ _ isBody => exact isBody part isPart

/-- The expressions of a statement that was built were built. -/
theorem Stmt.Built.value {stmt : Stmt} {value : Expr} (built : stmt.Built known)
    (isPart : value ∈ stmt.values) : value.Built known := by
  cases built with
  | block | function => cases isPart
  | expression isValue | print isValue => exact List.mem_singleton.mp isPart ▸ isValue
  | var _ isStart => exact isStart value (Option.mem_toList.mp isPart)
  | conditional isCondition | loop isCondition =>
    exact List.mem_singleton.mp isPart ▸ isCondition
  | ret _ isValue => exact isValue value (Option.mem_toList.mp isPart)

/-- Whatever an expression that was built holds was built. -/
theorem Expr.Built.held {expr part : Expr} (built : expr.Built known) (holds : expr.Holds part) :
    part.Built known := by
  induction holds with
  | refl => exact built
  | tail _ isPart inductionHypothesis => exact inductionHypothesis.part isPart

/-- Whatever a statement that was built holds was built. -/
theorem Stmt.Built.held {stmt part : Stmt} (built : stmt.Built known) (holds : stmt.Holds part) :
    part.Built known := by
  induction holds with
  | refl => exact built
  | tail _ isPart inductionHypothesis => exact inductionHypothesis.part isPart

namespace Program

variable {limit : Nat} {text : String}

/-- Every statement in a program is built from the tokens of its text. -/
theorem built_of_holds (areKnown : ∀ token ∈ (Source.scan text).tokens, known token) {stmt : Stmt}
    (holds : (ofSource limit text).Holds stmt) : stmt.Built known := by
  obtain ⟨whole, isIn, holds⟩ := holds
  exact (built_of_mem_ofSource areKnown isIn).held holds

/-- Every expression in a program is built from the tokens of its text. -/
theorem built_of_holdsExpr (areKnown : ∀ token ∈ (Source.scan text).tokens, known token)
    {expr : Expr} (holds : (ofSource limit text).HoldsExpr expr) : expr.Built known := by
  obtain ⟨whole, isIn, part, value, isPart, isValue, holds⟩ := holds
  exact (((built_of_mem_ofSource areKnown isIn).held isPart).value isValue).held holds

end Program

/-! ## Finite trees -/

/-- All number literals in the expression are finite. -/
def Expr.IsFinite (expr : Expr) : Prop :=
  ∀ number, expr.Holds (.literal (.number number)) → Number.IsFinite number

/-- All number literals in the statement are finite. -/
def Stmt.IsFinite (stmt : Stmt) : Prop :=
  ∀ number, stmt.HoldsExpr (.literal (.number number)) → Number.IsFinite number

/-- If the value of the token is a number, it is finite. -/
def Token.IsFinite (token : Token) : Prop :=
  ∀ number, token.literal = .number number → Number.IsFinite number

/-- An expression that was built from finite tokens is finite. -/
theorem Expr.Built.isFinite {expr : Expr} (built : expr.Built Token.IsFinite) : expr.IsFinite := by
  intro number holds
  cases built.held holds with
  | literal isValue =>
    cases isValue with
    | ofToken serves isLiteral => exact serves.isKnown number isLiteral

/-- A statement that was built from finite tokens is finite. -/
theorem Stmt.Built.isFinite {stmt : Stmt} (built : stmt.Built Token.IsFinite) :
    stmt.IsFinite := by
  rintro number ⟨part, value, holds, isValue, holdsNumber⟩
  exact ((built.held holds).value isValue).isFinite number holdsNumber

/-- The parts of a finite expression are finite. -/
theorem Expr.IsFinite.part {expr part : Expr} (isFinite : expr.IsFinite)
    (isPart : part ∈ expr.parts) : part.IsFinite :=
  fun number holds => isFinite number (.head isPart holds)

/-- The parts of a finite statement are finite. -/
theorem Stmt.IsFinite.part {stmt part : Stmt} (isFinite : stmt.IsFinite)
    (isPart : part ∈ stmt.parts) : part.IsFinite := by
  rintro number ⟨inner, value, holds, isValue, holdsNumber⟩
  exact isFinite number ⟨inner, value, .head isPart holds, isValue, holdsNumber⟩

/-- The expressions of a finite statement are finite. -/
theorem Stmt.IsFinite.value {stmt : Stmt} {value : Expr} (isFinite : stmt.IsFinite)
    (isValue : value ∈ stmt.values) : value.IsFinite :=
  fun number holds => isFinite number ⟨stmt, value, .refl, isValue, holds⟩

end LoxLang
