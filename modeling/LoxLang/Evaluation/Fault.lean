import LoxLang.Value.Basic
import LoxLang.Diagnostic

/-!
# Runtime faults

What can go wrong while a program runs, by cause. A runtime error is a fault at a token of the
program; it is reported, and the program ends. The other ways for a run to halt are not faults of
the program: a tree that is no program, a callable that cannot be run, an exception of the host, or
a limit of the machine.
-/

namespace LoxLang

/-- What is wrong with the running program. -/
inductive Fault where
  | undefinedVariable
  | operandNotNumber
  | operandsNotNumbers
  | operandsNotAlike
  | unknownUnary
  | unknownBinary
  | notCallable
  | wrongCount (expected given : Nat)
  | stackOverflow
deriving DecidableEq, Repr

/-- A fault at a token: a name, an operator, or the closing parenthesis of a call. -/
structure RuntimeError where
  fault : Fault
  token : Token
deriving DecidableEq

namespace RuntimeError

/-- The wording of a runtime error. -/
def message (error : RuntimeError) : String :=
  match error.fault with
  | .undefinedVariable => "Undefined variable '" ++ error.token.lexeme ++ "'."
  | .operandNotNumber => "Operand must be a number."
  | .operandsNotNumbers => "Operands must be numbers."
  | .operandsNotAlike => "Operands must be two numbers or two strings."
  | .unknownUnary => "Unknown unary operator '" ++ error.token.lexeme ++ "'."
  | .unknownBinary => "Unknown binary operator '" ++ error.token.lexeme ++ "'."
  | .notCallable => "Can only call functions and classes."
  | .wrongCount expected given =>
    "Expected " ++ toString expected ++ " arguments but got " ++ toString given ++ "."
  | .stackOverflow => "Stack overflow."

/-- The report of a runtime error. -/
def diagnostic (error : RuntimeError) : Diagnostic :=
  ⟨.running, error.token.line, error.message, error.token.place⟩

end RuntimeError

/-- What the interpreter was about to do with a node. -/
inductive Activity where
  | evaluate
  | execute
deriving DecidableEq, Repr

/-- Why a run comes to no regular end. -/
inductive Halt where
  | failed (error : RuntimeError)
  /-- The stack is used up, and no enclosing expression has reported it. -/
  | overflow
  /-- A node has no meaning where it stands. -/
  | unexpectedNode (activity : Activity) (kind : NodeKind)
  /-- An abstract callable was called. -/
  | notImplemented
  /-- A native function raised an exception. -/
  | raised (exception : String)
  /-- A loop has turned as often as the machine lets it. -/
  | endless
deriving DecidableEq

/-- The wording of a halt that is no runtime error. -/
def Halt.message : Halt → String
  | failed error => error.message
  | unexpectedNode .evaluate kind => "evaluate: unexpected node type " ++ kind.name
  | unexpectedNode .execute kind => "execute: unexpected node type " ++ kind.name
  | raised exception => exception
  | overflow | notImplemented | endless => ""

end LoxLang
