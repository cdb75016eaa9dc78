import LoxLang.Command.Report
import Std.Time

/-!
# The command

Reads the command line, looks up the one file that a task needs, and writes what the run reports.
What is written and how the command exits is settled by `LoxLang.Command`; here are only the reading
and writing. A dialogue is answered line by line.

The time is read when a run or a line begins. The readings of the program itself move on from there
by a thousandth of a second each, since a computation cannot look at the clock of the host.
-/

namespace LoxLang.Command

/-- The note on a command line that is not understood. -/
def usageText : String :=
  "usage: lox [-h] [-v] [--emit-ast LOX_FILE | --ast AST_JSON_FILE | --print-ast LOX_FILE]
           [script]
"

/-- The text for `-h`. -/
def helpText : String :=
  usageText ++ "
Lox language interpreter

  script                 Lox script to run; without one, lines are run as they are typed
  -h, --help             show this text
  -v                     write debug messages to debug.txt; repeat it for more of them
  --emit-ast LOX_FILE    write the tree of a script beside it
  --ast AST_JSON_FILE    run a tree
  --print-ast LOX_FILE   print the tree of a script
"

/-- The note on a fault. -/
def CommandFault.text : CommandFault → String
  | isDirectory => "is a directory"
  | notText => "not UTF-8 text"
  | notJson _ => "not a JSON document"
  | notTree error => error.message.getD "not a tree"
  | notProgram => "not a list of statements"
  | halted .overflow => "stack overflow"
  | halted .endless => "a loop did not end"
  | halted halt => halt.message

/-- Looks up what stands under a path. What cannot be opened is missing, and what can be opened but
not read is a directory. -/
def lookUp (path : Path) : IO Found := do
  match ← (IO.FS.Handle.mk path.text .read).toBaseIO with
  | .error _ => return .missing
  | .ok handle =>
    match ← handle.readBinToEnd.toBaseIO with
    | .ok content => return .file content
    | .error _ => return .directory

/-- Writes what a run reports, and gives its exit code. -/
def publish (report : Report) : IO UInt32 := do
  for (path, text) in report.files do
    IO.FS.writeFile path.text text
  IO.print report.output
  IO.eprint report.errors
  match report.fault with
  | some fault => IO.eprintln fault.text
  | none => pure ()
  return .ofNat report.exit.toNat

/-- The seconds since the beginning of 1970. -/
def readTime : IO Float := do
  let now ← Std.Time.Timestamp.now
  return .ofInt now.toNanosecondsSinceUnixEpoch.val / 1000000000

/-- What the clock tells at each reading, where the next reading is the one with this number and
tells this time. -/
def clockFrom (time : Float) (reading : Nat) : Nat → Float :=
  fun later => time + .ofNat (later - reading) * 0.001

/-- Sets the clock of a dialogue. -/
def setClock (dialogue : Dialogue) (time : Float) : Dialogue :=
  let machine := dialogue.session.machine
  let session := { dialogue.session with
    machine := { machine with clock := clockFrom time machine.readings } }
  { dialogue with session }

/-- Answers the lines of standard input until it ends. -/
partial def converse (input : IO.FS.Stream) (dialogue : Dialogue) : IO Dialogue := do
  IO.print prompt
  (← IO.getStdout).flush
  let line ← input.getLine
  if line.isEmpty then return dialogue
  let silent := setClock { dialogue with output := "", errors := "" } (← readTime)
  let next := (Text.splitLines (Text.normalizeNewlines line.toList)).foldl
    (fun (dialogue : Dialogue) line => dialogue.answer (.ofList line)) silent
  IO.print (next.output.drop prompt.length).toString
  IO.eprint next.errors
  if next.fault.isSome then return next else converse input next

/-- The world of the command: what the path of its task leads to. -/
def worldFor (invocation : Invocation) : IO World := do
  let clock := clockFrom (← readTime) 0
  match invocation.task.path? with
  | some path =>
    let found ← lookUp path
    return ⟨.standard, clock, fun other => if other = path then found else .missing⟩
  | none => return ⟨.standard, clock, fun _ => .missing⟩

end LoxLang.Command

open LoxLang LoxLang.Command

/-- Runs the command. -/
def main (words : List String) : IO UInt32 := do
  match readOptions words with
  | .help =>
    IO.print helpText
    return 0
  | .wrongUse =>
    IO.eprint usageText
    return .ofNat ExitCode.usage.toNat
  | .accepted options =>
    let invocation := options.invocation
    match invocation.task with
    | .dialogue =>
      let clock := clockFrom (← readTime) 0
      let session := Session.start .standard invocation.debugLevel clock false
      let dialogue ← converse (← IO.getStdin) (.start session)
      IO.println ""
      publish { dialogue.report invocation.debugLevel with output := "", errors := "" }
    | _ => publish ((← worldFor invocation).run invocation "")
