import LoxLang.Command.Directory
import LoxLang.Command.Invocation
import LoxLang.Session.Basic
import LoxLang.Syntax.Exchange
import LoxLang.Syntax.Printer
import LoxLang.Json.Reader
import LoxLang.Json.Writer

/-!
# Runs of the command

What one run of the command writes and how it exits. Everything here is a function of the command
line, of what stands under a path and of the text of standard input; reading and writing files is
left to the caller.

The exit codes are 64 for a wrong use of the options, 65 for errors in the source text, 66 for a
missing file and 70 for a runtime error. A fault that is none of these ends the run with code 1.
-/

namespace LoxLang.Command

/-- A fault that ends a run of the command. -/
inductive CommandFault where
  /-- A file that should be read or written is a directory. -/
  | isDirectory
  /-- A file does not hold UTF-8 text. -/
  | notText
  | notJson (error : Json.ReadError)
  | notTree (error : DecodeError)
  /-- The tree is no list of statements. -/
  | notProgram
  | halted (halt : Halt)

/-- The exit codes. -/
inductive ExitCode where
  | success
  | fault
  | usage
  | badSource
  | noInput
  | runtimeError
deriving DecidableEq, Repr

/-- The number of an exit code. -/
def ExitCode.toNat : ExitCode → Nat
  | success => 0
  | fault => 1
  | usage => 64
  | badSource => 65
  | noInput => 66
  | runtimeError => 70

/-- What a run wrote, and how it ended. -/
structure Report where
  exit : ExitCode
  output : String
  /-- What was written to standard error. -/
  errors : String
  /-- The files written, in order. -/
  files : List (Path × String)
  fault : Option CommandFault

namespace Report

/-- A run that ends well and writes this to standard output. -/
def success (output : String) : Report := ⟨.success, output, "", [], none⟩

/-- A run that ends with a report on standard error. -/
def failure (exit : ExitCode) (errors : String) : Report := ⟨exit, "", errors, [], none⟩

/-- A run that ends with a fault. -/
def ofFault (fault : CommandFault) : Report := ⟨.fault, "", "", [], some fault⟩

/-- The run of a program whose text is wrong. -/
def badSource (diagnostics : List Diagnostic) : Report :=
  failure .badSource (reportText diagnostics)

end Report

/-- The file that takes the debug messages. -/
def debugFile : Path := ⟨.relative, ["debug.txt"]⟩

/-- The ending of the file that takes a tree. -/
def treeEnding : String := ".ast.json"

/-- The file with debug messages, which is written at every debug level but zero. -/
def debugFiles (debugLevel : Nat) (trace : String) : List (Path × String) :=
  if debugLevel = 0 then [] else [(debugFile, trace)]

/-- The surroundings of a run. -/
structure World where
  limits : Limits
  /-- What the clock tells at each reading. -/
  clock : Nat → Float
  /-- What stands under a path. -/
  find : Path → Found

namespace World

/-- Goes on with the text of a file, in which every line ends with a line feed. -/
def withText (world : World) (path : Path) (next : String → Report) : Report :=
  match world.find path with
  | .missing => .failure .noInput ("Error: file " ++ path.text ++ " not found\n")
  | .directory => .ofFault .isDirectory
  | .file content =>
    match String.fromUTF8? content with
    | some text => next (.ofList (Text.normalizeNewlines text.toList))
    | none => .ofFault .notText

/-- Goes on with the program of a source file that has no errors. -/
def withProgram (world : World) (path : Path) (next : List Stmt → Report) : Report :=
  world.withText path fun text =>
    let program := Program.ofSource world.limits.nesting text
    if program.isClean then next program.statements else .badSource program.diagnostics

/-- A path can be written to. -/
def isWritable (world : World) (path : Path) : Bool :=
  match world.find path with
  | .directory => false
  | _ => true

/-- Goes on with a session, whose debug file has to be writable. -/
def withSession (world : World) (debugLevel : Nat) (next : Session → Report) : Report :=
  if 0 < debugLevel && !world.isWritable debugFile then .ofFault .isDirectory
  else next (.start world.limits debugLevel world.clock false)

/-- Runs a program from its first statement on. -/
def runProgram (world : World) (debugLevel : Nat) (statements : List Stmt) : Report :=
  world.withSession debugLevel fun session =>
    let step := (session.runStatements statements).1
    let files := debugFiles debugLevel step.transcript.trace
    match step.result with
    | .ok none => ⟨.success, step.transcript.output, "", files, none⟩
    | .ok (some error) =>
      ⟨.runtimeError, step.transcript.output, reportText [error.diagnostic], files, none⟩
    | .error halt => ⟨.fault, step.transcript.output, "", files, some (.halted halt)⟩

/-- The text of the tree file of a program. -/
def treeText (statements : List Stmt) : String :=
  (Node.ofProgram statements).toJson.indented

/-- Writes the tree of a source file beside it. -/
def emitTree (world : World) (path : Path) : Report :=
  world.withProgram path fun statements =>
    let target := path.addEnding treeEnding
    if world.isWritable target then
      ⟨.success, target.text ++ "\n", "", [(target, treeText statements)], none⟩
    else .ofFault .isDirectory

/-- The printed trees of statements, up to one that has no printed form. -/
def printedTrees (statements : List Stmt) : String :=
  match Node.printedAll (Stmt.toNodes statements) with
  | .ok lines => "".intercalate (lines.map (· ++ "\n"))
  | .error _ => ""

/-- Prints the tree of a source file. -/
def printTree (world : World) (path : Path) : Report :=
  world.withProgram path fun statements => .success (printedTrees statements)

/-- Runs the tree in the text of a file. -/
def runTreeText (world : World) (debugLevel : Nat) (text : String) : Report :=
  match Json.ofText text with
  | .error error => .ofFault (.notJson error)
  | .ok document =>
    match Node.ofJson document with
    | .error error => .ofFault (.notTree error)
    | .ok node =>
      match node.toProgram? with
      | some statements => world.runProgram debugLevel statements
      | none =>
        world.withSession debugLevel fun _ =>
          { Report.ofFault .notProgram with files := debugFiles debugLevel "" }

end World

/-- The text that asks for the next line of a dialogue. -/
def prompt : String := "> "

/-- A dialogue between two lines: its session, what was written so far, and the fault that ended it,
if one did. -/
structure Dialogue where
  session : Session
  output : String
  errors : String
  trace : String
  fault : Option Halt

namespace Dialogue

/-- A dialogue before its first line. -/
def start (session : Session) : Dialogue := ⟨session, "", "", "", none⟩

/-- Asks for a line and runs it; a dialogue that has ended stays as it is. -/
def answer (dialogue : Dialogue) (line : String) : Dialogue :=
  match dialogue.fault with
  | some _ => dialogue
  | none =>
    let (step, session) := dialogue.session.runLine line
    let next : Dialogue :=
      { dialogue with
        session
        output := dialogue.output ++ prompt ++ step.transcript.output
        trace := dialogue.trace ++ step.transcript.trace }
    match step.result with
    | .ok diagnostics => { next with errors := next.errors ++ reportText diagnostics }
    | .error halt => { next with fault := some halt }

/-- The dialogue after the end of the input. -/
def report (dialogue : Dialogue) (debugLevel : Nat) : Report :=
  let files := debugFiles debugLevel dialogue.trace
  match dialogue.fault with
  | some halt => ⟨.fault, dialogue.output, dialogue.errors, files, some (.halted halt)⟩
  | none => ⟨.success, dialogue.output ++ prompt ++ "\n", dialogue.errors, files, none⟩

end Dialogue

namespace World

/-- Runs the lines of an input one by one. -/
def runDialogue (world : World) (debugLevel : Nat) (input : String) : Report :=
  world.withSession debugLevel fun session =>
    let lines := Text.splitLines (Text.normalizeNewlines input.toList)
    let dialogue := lines.foldl (fun (dialogue : Dialogue) line => dialogue.answer (.ofList line))
      (.start session)
    dialogue.report debugLevel

/-- Carries out an invocation. -/
def run (world : World) (invocation : Invocation) (input : String) : Report :=
  match invocation.task with
  | .emitTree path => world.emitTree path
  | .printTree path => world.printTree path
  | .runTree path => world.withText path (world.runTreeText invocation.debugLevel)
  | .runScript path =>
    world.withProgram path (world.runProgram invocation.debugLevel)
  | .dialogue => world.runDialogue invocation.debugLevel input

end World

/-- How a command line is answered: by a run, or with the help text or a note on wrong use. -/
inductive Answer where
  | help
  | wrongUse
  | ran (report : Report)

/-- Answers a command line. -/
def answer (world : World) (words : List String) (input : String) : Answer :=
  match readOptions words with
  | .help => .help
  | .wrongUse => .wrongUse
  | .accepted options => .ran (world.run options.invocation input)

end LoxLang.Command
