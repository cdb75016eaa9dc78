import LoxLang.Command.Options
import LoxLang.Command.Path

/-!
# Invocations

What a command line asks the program to do. A tree option or a script with an empty name counts as
left out; with nothing left, the program starts a dialogue.
-/

namespace LoxLang.Command

/-- The task of a run. -/
inductive Task where
  /-- Writes the tree of a source file into a file beside it. -/
  | emitTree (path : Path)
  /-- Prints the tree of a source file. -/
  | printTree (path : Path)
  /-- Runs a tree from a file. -/
  | runTree (path : Path)
  /-- Runs a source file. -/
  | runScript (path : Path)
  /-- Runs the lines of standard input one by one. -/
  | dialogue
deriving DecidableEq, Repr

namespace Task

/-- The file that a task reads. -/
def path? : Task → Option Path
  | emitTree path | printTree path | runTree path | runScript path => some path
  | dialogue => none

end Task

/-- A task with the level of debug messages. -/
structure Invocation where
  task : Task
  debugLevel : Nat
deriving DecidableEq, Repr

/-- A name that is not empty. -/
def nonempty? (name : String) : Option String := if name = "" then none else some name

/-- The task of options. -/
def Options.task (options : Options) : Task :=
  match options.tree.bind fun (flag, name) => (nonempty? name).map ((flag, .ofText ·)) with
  | some (.emitTree, path) => .emitTree path
  | some (.printTree, path) => .printTree path
  | some (_, path) => .runTree path
  | none =>
    match options.script.bind nonempty? with
    | some name => .runScript (.ofText name)
    | none => .dialogue

/-- The invocation of options. -/
def Options.invocation (options : Options) : Invocation := ⟨options.task, options.verbosity⟩

end LoxLang.Command
