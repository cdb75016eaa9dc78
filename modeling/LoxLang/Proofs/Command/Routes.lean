import Mathlib
import LoxLang.Proofs.Grammar.Yield
import LoxLang.Proofs.Syntax.Document
import LoxLang.Proofs.Syntax.RoundTrip
import LoxLang.Command.Report

/-!
# Two ways to run a script

A script can be run as it is, or its tree can be written to a file and run from there. Both runs
report the same: what was printed, which runtime error ended the program and at which token, what
was traced, and how the command exits. A script with errors is reported alike either way, and no
file is written.

Both runs of the program start at the same time on the clock, which may be any other than that at
which the tree was written.
-/

namespace LoxLang.Command

/-- The text of a program in a file. -/
def programText (source : String) : String := .ofList (Text.normalizeNewlines source.toList)

namespace World

variable {world : World} {path : Path}

/-- The world after files were written: each stands under its path, and everything else stands where
it was. -/
def after (world : World) (files : List (Path × String)) : World :=
  { world with
    find := fun path =>
      match files.lookup path with
      | some text => .file text.toUTF8
      | none => world.find path }

/-- A file that was written is found. -/
theorem find_after_single (world : World) (path : Path) (text : String) :
    (world.after [(path, text)]).find path = .file text.toUTF8 := by
  simp [after]

/-- Writing to a path that can be written to leaves all paths as writable as they were. -/
theorem isWritable_after_single (writable : world.isWritable path = true) (text : String)
    (other : Path) : (world.after [(path, text)]).isWritable other = world.isWritable other := by
  by_cases same : other = path
  · subst same
    rw [writable, isWritable, find_after_single]
  · have differs : (other == path) = false := beq_eq_false_iff_ne.mpr same
    have missed : [(path, text)].lookup other = none := by simp [List.lookup, differs]
    simp only [isWritable, after, missed]

/-- A text comes back from its bytes. -/
private theorem fromUTF8?_toUTF8 (text : String) : String.fromUTF8? text.toUTF8 = some text := by
  rw [String.fromUTF8?, String.toUTF8_eq_toByteArray, dif_pos text.isValidUTF8]
  rfl

/-- A file that holds a text is read as this text. -/
theorem withText_of_find {source : String} (isFile : world.find path = .file source.toUTF8)
    (next : String → Report) : world.withText path next = next (programText source) := by
  simp only [withText, isFile, fromUTF8?_toUTF8, programText]

/-- A run of a program depends on the limits, the clock and the debug file alone. -/
theorem runProgram_congr {other : World} (sameLimits : other.limits = world.limits)
    (sameClock : other.clock = world.clock)
    (sameDebug : other.isWritable debugFile = world.isWritable debugFile) (debugLevel : Nat)
    (statements : List Stmt) :
    other.runProgram debugLevel statements = world.runProgram debugLevel statements := by
  simp only [runProgram, withSession, sameLimits, sameClock, sameDebug]

/-- The tree text of a clean program is read as it was written, and run as the program. -/
theorem runTreeText_treeText {limit : Nat} {text : String}
    (clean : (Program.ofSource limit text).isClean = true)
    (fewLines : (Source.scan text).endLine < (10 : Int) ^ Json.digitLimit) (debugLevel : Nat) :
    world.runTreeText debugLevel
        (programText (treeText (Program.ofSource limit text).statements)) =
      world.runProgram debugLevel (Program.ofSource limit text).statements := by
  have short : ∀ token ∈ Stmt.allTokens (Program.ofSource limit text).statements,
      token.LineIsReadable := fun _ isIn =>
    Program.lineIsReadable_of_mem_allTokens clean fewLines isIn
  have readable := Node.readable_ofProgram short
  have proper := Program.proper_ofSource limit text
  rw [programText, treeText, Json.normalizeNewlines_indented readable, runTreeText,
    Json.ofText_indented readable]
  simp only [Node.ofJson_toJson, Node.toProgram?_ofProgram proper]

end World

/-- Writing the tree of a script and running it reports what running the script reports: a script
without errors leaves its tree beside it, and the run of this tree, whenever it starts, has the
report of a run of the script that starts then; a script with errors has its errors reported with
the exit code of a direct run, and leaves no file. The tree can be read as long as the number of
the last line of the script is not longer than the whole numbers that are read. -/
theorem emitted_tree_runs_alike (world : World) {path : Path} {source : String}
    (isScript : world.find path = .file source.toUTF8) (emitLevel debugLevel : Nat)
    (input : String) :
    let tree := path.addEnding treeEnding
    let program := Program.ofSource world.limits.nesting (programText source)
    let emitted := world.run ⟨.emitTree path, emitLevel⟩ input
    (program.isClean = true → world.isWritable tree = true →
      (Source.scan (programText source)).endLine < (10 : Int) ^ Json.digitLimit →
      emitted =
        ⟨.success, tree.text ++ "\n", "", [(tree, World.treeText program.statements)], none⟩ ∧
      ∀ clock, { world.after emitted.files with clock }.run ⟨.runTree tree, debugLevel⟩ input =
        { world with clock }.run ⟨.runScript path, debugLevel⟩ input) ∧
    (program.isClean = false →
      emitted = ⟨.badSource, "", reportText program.diagnostics, [], none⟩ ∧
      emitted = world.run ⟨.runScript path, debugLevel⟩ input) := by
  intro tree program emitted
  constructor
  · intro clean writable fewLines
    have isEmitted : emitted =
        ⟨.success, tree.text ++ "\n", "", [(tree, World.treeText program.statements)], none⟩ := by
      simp only [emitted, World.run, World.emitTree, World.withProgram,
        World.withText_of_find isScript]
      rw [if_pos clean, if_pos writable]
    refine ⟨isEmitted, fun clock => ?_⟩
    rw [isEmitted]
    have sameDebug := World.isWritable_after_single writable
      (World.treeText program.statements) debugFile
    let later : World := { world.after [(tree, World.treeText program.statements)] with clock }
    let direct : World := { world with clock }
    calc later.run ⟨.runTree tree, debugLevel⟩ input
        = later.runTreeText debugLevel (programText (World.treeText program.statements)) :=
          World.withText_of_find (world.find_after_single tree _) _
      _ = later.runProgram debugLevel program.statements :=
          World.runTreeText_treeText clean fewLines debugLevel
      _ = direct.runProgram debugLevel program.statements :=
          @World.runProgram_congr direct later rfl rfl sameDebug _ _
      _ = direct.run ⟨.runScript path, debugLevel⟩ input := by
          have isDirect : direct.find path = .file source.toUTF8 := isScript
          simp only [World.run, World.withProgram, World.withText_of_find isDirect]
          exact (if_pos clean).symm
  · intro unclean
    have notClean : ¬program.isClean = true := by simp [unclean]
    simp only [emitted, World.run, World.emitTree, World.withProgram,
      World.withText_of_find isScript]
    rw [if_neg notClean, if_neg notClean]
    exact ⟨rfl, rfl⟩

/-- A script that fails on its second line, and one with an error in its text. -/
theorem emitted_tree_runs_alike_failure :
    let path : Path := ⟨.relative, ["a.lox"]⟩
    let broken : Path := ⟨.relative, ["b.lox"]⟩
    let tree : Path := ⟨.relative, ["a.lox.ast.json"]⟩
    let source := "print true;\nprint -nil;"
    let world : World := ⟨⟨8, 5⟩, 0, fun other =>
      if other = path then .file source.toUTF8
      else if other = broken then .file "print;".toUTF8
      else .missing⟩
    let emitted := world.run ⟨.emitTree path, 0⟩ ""
    (world.find path = .file source.toUTF8 ∧ world.find broken = .file "print;".toUTF8 ∧
      (Program.ofSource 8 (programText source)).isClean = true ∧
      (Program.ofSource 8 (programText "print;")).isClean = false ∧
      world.isWritable tree = true ∧
      (Source.scan (programText source)).endLine < (10 : Int) ^ Json.digitLimit) ∧
    (∀ clock, { world.after emitted.files with clock }.run ⟨.runTree tree, 0⟩ "" =
      ⟨.runtimeError, "true\n", "Operand must be a number.\n[line 2]\n", [], none⟩) ∧
    world.run ⟨.emitTree broken, 0⟩ "" =
      ⟨.badSource, "", "[line 1] Error at ';': Expect expression.\n", [], none⟩ := by
  intro path broken tree source world emitted
  have isScript : world.find path = .file source.toUTF8 := rfl
  have isBroken : world.find broken = .file "print;".toUTF8 := rfl
  have clean : (Program.ofSource 8 (programText source)).isClean = true := by
    decide +kernel
  have diagnostics : (Program.ofSource 8 (programText "print;")).diagnostics =
      [⟨.parsing, 1, "Expect expression.", "at ';'"⟩] := by
    decide +kernel
  have unclean : (Program.ofSource 8 (programText "print;")).isClean = false := by
    rw [Program.isClean, diagnostics]
    rfl
  have writable : world.isWritable tree = true := rfl
  have isEnd : (Source.scan (programText source)).endLine = 2 := by decide +kernel
  have fewLines : (Source.scan (programText source)).endLine < (10 : Int) ^ Json.digitLimit := by
    rw [isEnd]
    -- The power is too large to be evaluated, but larger than its exponent.
    exact Int.lt_trans (by decide) (Int.lt_toNat.mp (Nat.lt_pow_self (by decide)))
  refine ⟨⟨isScript, isBroken, clean, unclean, writable, fewLines⟩, fun clock => ?_, ?_⟩
  · have alike := (emitted_tree_runs_alike world isScript 0 0 "").1 clean writable fewLines
    refine (alike.2 clock).trans ?_
    cbv
  · obtain ⟨-, reported⟩ := emitted_tree_runs_alike world isBroken 0 0 ""
    obtain ⟨isReported, -⟩ := reported unclean
    rw [isReported, diagnostics]
    rfl

end LoxLang.Command
