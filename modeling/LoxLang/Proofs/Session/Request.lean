import LoxLang.Session.Basic

/-!
# Requests to a session

What a host can ask of a session, as data, so that properties of sessions can be stated over every
sequence of requests. Trees come from a text or from the host itself; values that the host binds are
literals and native functions, which may be any functions and may capture values that are bound
already.
-/

namespace LoxLang

/-- What a host asks of a session. -/
inductive Request where
  /-- To run a source text. -/
  | source (text : String)
  /-- To run one line of a dialogue. -/
  | line (text : String)
  /-- To run the statements of a program. -/
  | program (statements : List Stmt)
  /-- To execute one statement in the global scope. -/
  | statement (stmt : Stmt)
  /-- To evaluate an expression in the global scope. -/
  | expression (expr : Expr)
  /-- To give the value of a global name. -/
  | get (name : Token)
  /-- To bind a global name to a value. -/
  | define (name : String) (value : Literal)
  /-- To bind a global name to a native function, which captures the values of other names. -/
  | native (name : String) (arity : Nat) (captured : List String) (function : NativeFunction)
  /-- To bind a global name to a callable that cannot be run. -/
  | abstract (name : String) (arity : Nat)
  /-- To close the debug file. -/
  | close

/-- What a session answers to a request that did not halt. -/
inductive Answer where
  /-- Everything that is to be reported. -/
  | reported (diagnostics : List Diagnostic)
  | completed (completion : Completion)
  | evaluated (value : Value)
  | done

/-- The request brings no tree of its own, and no callable that cannot be run. -/
def Request.isText : Request → Bool
  | source _ | line _ | get _ | define _ _ | native _ _ _ _ | close => true
  | program _ | statement _ | expression _ | abstract _ _ => false

namespace Session

variable {α β : Type}

/-- A step with its result changed. -/
def Step.map (change : α → β) (step : Step α) : Step β := ⟨step.result.map change, step.transcript⟩

/-- The answer that a step gives, and the session after it. -/
def answering (answer : α → Answer) (served : Step α × Session) : Step Answer × Session :=
  (served.1.map answer, served.2)

/-- A step that runs nothing. -/
def silently (session : Session) : Step Answer × Session := (⟨.ok .done, .silent⟩, session)

/-- Serves a request. -/
def serve (session : Session) : Request → Step Answer × Session
  | .source text => answering .reported (session.runSource text)
  | .line text => answering .reported (session.runLine text)
  | .program statements =>
    answering (fun error => .reported (error.toList.map (·.diagnostic)))
      (session.runStatements statements)
  | .statement stmt => answering .completed (session.runStatement stmt)
  | .expression expr => answering .evaluated (session.evaluateExpression expr)
  | .get name => answering .evaluated (session.get name)
  | .define name value => silently (session.define name (.ofLiteral value))
  | .native name arity captured function =>
    silently (session.defineNative name arity captured function)
  | .abstract name arity => silently (session.defineCallable name (.abstract arity))
  | .close => silently session.close

/-- The session after requests, whichever way each of them ended. -/
def after (session : Session) (requests : List Request) : Session :=
  requests.foldl (fun session request => (session.serve request).2) session

end Session
end LoxLang
