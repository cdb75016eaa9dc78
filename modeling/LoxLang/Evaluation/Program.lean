import LoxLang.Evaluation.Basic
import LoxLang.Grammar.Program

/-!
# Running programs

A program runs statement by statement in the global scope until a runtime error ends it. A
program whose text has errors does not run at all. A line of a dialogue may also be one expression,
whose value is printed by the host.
-/

namespace LoxLang

/-- What bounds a run. -/
structure Limits where
  /-- How deep expressions, statements and calls may be nested. -/
  nesting : Nat
  /-- How often one loop may turn. -/
  turns : Nat
deriving DecidableEq, Repr

namespace Limits

/-- The limits of the command line. -/
def standard : Limits := ⟨500, Nat.pow 2 60⟩

/-- The settings of a run at a debug level. -/
def settings (limits : Limits) (debugLevel : Nat) : Settings := ⟨debugLevel, limits.turns⟩

end Limits

namespace Run

/-- Executes all statements of a program. What a `return` outside of every function gives is
dropped, and the next statement is executed. -/
def statements (settings : Settings) (nesting : Nat) : List Stmt → Run Unit
  | [] => pure ()
  | statement :: rest => fun machine =>
    match execute settings nesting Store.globals statement machine with
    | .done _ machine => statements settings nesting rest machine
    | .halted halt machine => .halted halt machine

/-- A program is its first statement and the statements behind that. -/
theorem statements_cons (settings : Settings) (nesting : Nat) (stmt : Stmt)
    (stmts : List Stmt) :
    statements settings nesting (stmt :: stmts) = (do
      let _ ← execute settings nesting Store.globals stmt
      statements settings nesting stmts) := by
  funext machine
  change _ = Run.bind (execute settings nesting Store.globals stmt) _ machine
  simp only [statements, Run.bind]
  cases execute settings nesting Store.globals stmt machine <;> rfl

/-- Executes a program. A runtime error ends it and is traced. -/
def program (limits : Limits) (debugLevel : Nat) (program : List Stmt) :
    Run (Option RuntimeError) := fun machine =>
  match statements (limits.settings debugLevel) limits.nesting program machine with
  | .done _ machine => .done none machine
  | .halted (.failed error) machine =>
    .done (some error) (machine.trace debugLevel (.failed error.message error.token.line))
  | .halted halt machine => .halted halt machine

/-- The value of an expression in the global scope. -/
def expression (limits : Limits) (debugLevel : Nat) (expr : Expr) : Run Value :=
  evaluate (limits.settings debugLevel) limits.nesting Store.globals expr

/-- Runs a source text and gives what is to be reported: everything that is wrong with the text, or
the runtime error that ended the program. -/
def source (limits : Limits) (debugLevel : Nat) (text : String) : Run (List Diagnostic) := do
  let program := Program.ofSource limits.nesting text
  if program.isClean then
    let error ← Run.program limits debugLevel program.statements
    return error.toList.map (·.diagnostic)
  else return program.diagnostics

/-- The expression that a text consists of, if it is one and nothing was found wrong with it. -/
def bareExpression? (limits : Limits) (text : String) : Option Expr :=
  let scan := Source.scan text
  if scan.errors.isEmpty then
    match Grammar.parseExpression limits.nesting scan.tokens scan.endLine with
    | (some expr, []) => some expr
    | _ => none
  else none

/-- Prints the value of an expression, and gives the runtime error if there is one. -/
def echo (limits : Limits) (debugLevel : Nat) (expr : Expr) : Run (List Diagnostic) :=
  fun machine =>
    match expression limits debugLevel expr machine with
    | .done value machine => .done [] (machine.emit (.echoed value.display))
    | .halted (.failed error) machine => .done [error.diagnostic] machine
    | .halted halt machine => .halted halt machine

/-- Runs one line of a dialogue and gives what is to be reported. A line that is no program but an
expression has its value printed. -/
def line (limits : Limits) (debugLevel : Nat) (text : String) : Run (List Diagnostic) := do
  let program := Program.ofSource limits.nesting text
  if program.isClean then
    let error ← Run.program limits debugLevel program.statements
    return error.toList.map (·.diagnostic)
  else
    match bareExpression? limits text with
    | some expr => echo limits debugLevel expr
    | none => return program.diagnostics

end Run
end LoxLang
