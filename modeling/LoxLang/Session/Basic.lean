import LoxLang.Evaluation.Program
import LoxLang.Syntax.Node
import LoxLang.Text.Lines

/-!
# Sessions

A session is a machine that is used again and again: its globals live on from one step to the next,
whichever way a step ended. What a step prints and traces is collected in a transcript. Messages go
to the debug file while it is open, and to standard output once it is closed. So do the lines that
the host prints itself; those of the program go to an output of the machine's own if it has one.
-/

namespace LoxLang

/-- What a step wrote. -/
structure Transcript where
  /-- What was written to standard output. -/
  output : String
  /-- What was written to an output of the machine's own. -/
  own : String
  /-- The lines added to the debug file. -/
  trace : String
deriving DecidableEq, Repr

namespace Transcript

/-- The transcript of a step that wrote nothing. -/
def silent : Transcript := ⟨"", "", ""⟩

/-- Writes a line to standard output. -/
def write (written : Transcript) (line : String) : Transcript :=
  { written with output := written.output ++ line ++ "\n" }

/-- Writes down an event, where the debug file is open or closed, and the machine has an output of
its own or has none. -/
def add (traceOpen ownOutput : Bool) (written : Transcript) : Event → Transcript
  | .printed line =>
    if ownOutput then { written with own := written.own ++ line ++ "\n" } else written.write line
  | .echoed line => written.write line
  | .traced entry =>
    if traceOpen then { written with trace := written.trace ++ entry.text ++ "\n" }
    else written.write entry.text

/-- The transcript of events. -/
def ofEvents (traceOpen ownOutput : Bool) (events : Array Event) : Transcript :=
  events.foldl (add traceOpen ownOutput) silent

/-- The lines added to the debug file. -/
def traceLines (transcript : Transcript) : List String :=
  (Text.splitLines transcript.trace.toList).map .ofList

end Transcript

/-- The text of a report: each diagnostic on lines of its own. -/
def reportText (diagnostics : List Diagnostic) : String :=
  "".intercalate (diagnostics.map fun diagnostic => diagnostic.text ++ "\n")

/-- A machine between two steps. -/
structure Session where
  machine : Machine
  limits : Limits
  debugLevel : Nat
  traceOpen : Bool
  /-- Whether what the program prints goes to an output of its own. -/
  ownOutput : Bool

namespace Session

variable {α : Type}

/-- A session before its first step. -/
def start (limits : Limits) (debugLevel : Nat) (clock : Nat → Float) (ownOutput : Bool) : Session :=
  ⟨.initial clock, limits, debugLevel, 0 < debugLevel, ownOutput⟩

/-- What a step gave, or why it halted, with what it wrote. -/
structure Step (α : Type) where
  result : Except Halt α
  transcript : Transcript

/-- Runs one step on the machine of a session. -/
def perform (session : Session) (run : Run α) : Step α × Session :=
  let fresh := { session.machine with events := #[] }
  let transcript := Transcript.ofEvents session.traceOpen session.ownOutput
  match run fresh with
  | .done value machine => (⟨.ok value, transcript machine.events⟩, { session with machine })
  | .halted halt machine => (⟨.error halt, transcript machine.events⟩, { session with machine })

/-- Runs a source text. -/
def runSource (session : Session) (text : String) : Step (List Diagnostic) × Session :=
  session.perform (.source session.limits session.debugLevel text)

/-- Runs one line of a dialogue. -/
def runLine (session : Session) (text : String) : Step (List Diagnostic) × Session :=
  session.perform (.line session.limits session.debugLevel text)

/-- Runs the statements of a program. -/
def runStatements (session : Session) (statements : List Stmt) :
    Step (Option RuntimeError) × Session :=
  session.perform (.program session.limits session.debugLevel statements)

/-- Executes one statement in the global scope. -/
def runStatement (session : Session) (statement : Stmt) : Step Completion × Session :=
  session.perform (execute (session.limits.settings session.debugLevel) session.limits.nesting
    Store.globals statement)

/-- The expression that a text consists of, whatever was reported about it. -/
def expressionOf? (session : Session) (text : String) : Option Expr :=
  let scan := Source.scan text
  if scan.errors.isEmpty then
    (Grammar.parseExpression session.limits.nesting scan.tokens scan.endLine).1
  else none

/-- Evaluates an expression in the global scope. -/
def evaluateExpression (session : Session) (expr : Expr) : Step Value × Session :=
  session.perform (.expression session.limits session.debugLevel expr)

/-- Binds a global name to a value. -/
def define (session : Session) (name : String) (value : Value) : Session :=
  { session with machine := session.machine.defineGlobal name value }

/-- Binds a global name to a new callable. -/
def defineCallable (session : Session) (name : String) (behaviour : Behaviour) : Session :=
  { session with machine := session.machine.defineCallable name behaviour }

/-- Binds a global name to a native function, which captures the values of other global names. -/
def defineNative (session : Session) (name : String) (arity : Nat) (captured : List String)
    (function : NativeFunction) : Session :=
  { session with machine := session.machine.defineNative name arity captured function }

/-- The value of a global name, asked for at a token. -/
def get (session : Session) (name : Token) : Step Value × Session :=
  session.perform (.readVariable Store.globals name)

/-- The description of the global scope. -/
def describedGlobals (session : Session) : String :=
  session.machine.store.described Store.globals

/-- Closes the debug file. -/
def close (session : Session) : Session := { session with traceOpen := false }

end Session
end LoxLang
