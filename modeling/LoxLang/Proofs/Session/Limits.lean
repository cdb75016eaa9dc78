import LoxLang.Proofs.Evaluation.Readings
import LoxLang.Proofs.Evaluation.Stability
import LoxLang.Proofs.Grammar.Nesting
import LoxLang.Proofs.Safety.Runtime

/-!
# Limits show in nothing but their own reports

The limits of a run bound how deep the text may be nested, how deep evaluation goes, and how often a
loop turns. None of them can be told from a larger one by a program, unless it is reported: neither
by what is found wrong with the text nor by what the program prints, binds or fails with.
-/

namespace LoxLang

open BigStep

namespace Limits

/-- The smaller limits allow no more than the larger ones. -/
structure Within (small large : Limits) : Prop where
  nesting : small.nesting ≤ large.nesting
  turns : small.turns ≤ large.turns

/-- Settings are within larger ones if limits are. -/
theorem Within.settings {small large : Limits} (within : small.Within large) (debugLevel : Nat) :
    (small.settings debugLevel).Within (large.settings debugLevel) :=
  ⟨rfl, within.turns⟩

end Limits

/-- Statements of a program do the same with larger limits, unless they reach one. -/
theorem Run.Refined.statements {small large : Settings} (within : small.Within large)
    {nesting more : Nat} (le : nesting ≤ more) (stmts : List Stmt) :
    Run.Refined (Run.statements small nesting stmts) (Run.statements large more stmts) := by
  induction stmts with
  | nil => exact .refl _
  | cons stmt stmts inductionHypothesis =>
    rw [Run.statements_cons, Run.statements_cons]
    exact .bind ((stable within le).execute Store.globals stmt) fun _ => inductionHypothesis

/-- What a program gives if it is stopped by a limit: the report of a used up stack, or nothing. -/
theorem program_of_limited {limits : Limits} {debugLevel : Nat} {stmts : List Stmt}
    {machine : Machine}
    (limited : Limited (Run.statements (limits.settings debugLevel) limits.nesting stmts machine))
    {error : Option RuntimeError} {final : Machine}
    (ends : Run.program limits debugLevel stmts machine = .done error final) :
    ∃ token, error = some ⟨.stackOverflow, token⟩ := by
  obtain ⟨halt, isHalt, isLimit⟩ := limited
  unfold Run.program at ends
  cases result : Run.statements (limits.settings debugLevel) limits.nesting stmts machine with
  | done value middle =>
    rw [result] at isHalt
    cases isHalt
  | halted other middle =>
    rw [result] at isHalt ends
    obtain rfl := Except.error.inj isHalt
    cases other with
    | failed found =>
      obtain ⟨fault, token⟩ := found
      obtain rfl : fault = .stackOverflow := isLimit
      cases ends
      exact ⟨token, rfl⟩
    | _ => cases ends

/-- A program that ends without the report of a used up stack ends so under larger limits. -/
theorem program_of_within {limits larger : Limits} (within : limits.Within larger)
    {debugLevel : Nat} {stmts : List Stmt} {machine final : Machine} {error : Option RuntimeError}
    (ends : Run.program limits debugLevel stmts machine = .done error final)
    (unlimited : ∀ token, error ≠ some ⟨.stackOverflow, token⟩) :
    Run.program larger debugLevel stmts machine = .done error final := by
  have refined := Run.Refined.statements (within.settings debugLevel) within.nesting stmts machine
  obtain limited | same := refined
  · obtain ⟨token, isError⟩ := program_of_limited limited ends
    exact absurd isError (unlimited token)
  · rw [← ends]
    unfold Run.program
    rw [same]

/-- A text in which no nesting is reported as too deep is within the limit. -/
theorem Grammar.withinNesting_of_diagnostics {limit : Nat} {text : String}
    (within : ∀ diagnostic ∈ (Program.ofSource limit text).diagnostics,
      diagnostic.message ≠ "Too much nesting.") :
    WithinNesting limit (Source.scan text).tokens (Source.scan text).endLine := by
  intro error member isNesting
  refine within error.diagnostic (List.mem_append_right _ (List.mem_map_of_mem member)) ?_
  rw [SyntaxError.diagnostic, isNesting]
  rfl

/-- A text in which nothing is nested too deep is read alike under larger limits. -/
theorem Program.ofSource_of_le {limit larger : Nat} (le : limit ≤ larger) {text : String}
    (within : ∀ diagnostic ∈ (ofSource limit text).diagnostics,
      diagnostic.message ≠ "Too much nesting.") :
    ofSource larger text = ofSource limit text := by
  unfold ofSource
  dsimp only
  rw [Grammar.parse_mono le (Grammar.withinNesting_of_diagnostics within)]

/-- A clean text reports the same with larger limits, unless it reaches one. -/
theorem source_clean_of_within {limits larger : Limits} (within : limits.Within larger)
    {debugLevel : Nat} {text : String} {machine final : Machine} {diagnostics : List Diagnostic}
    (clean : (Program.ofSource limits.nesting text).isClean = true)
    (ends : Run.source limits debugLevel text machine = .done diagnostics final)
    (unlimited : ∀ diagnostic ∈ diagnostics, diagnostic.message ≠ "Stack overflow.") :
    Run.source larger debugLevel text machine = .done diagnostics final := by
  have same : Program.ofSource larger.nesting text = Program.ofSource limits.nesting text := by
    refine Program.ofSource_of_le within.nesting fun diagnostic member => ?_
    rw [List.isEmpty_iff.mp clean] at member
    cases member
  have stillClean : (Program.ofSource larger.nesting text).isClean = true := by rw [same, clean]
  rw [source_of_isClean clean] at ends
  rw [source_of_isClean stillClean, same]
  change Run.bind (Run.program limits debugLevel _) _ machine = _ at ends
  change Run.bind (Run.program larger debugLevel _) _ machine = _
  unfold Run.bind at ends ⊢
  cases result : Run.program limits debugLevel (Program.ofSource limits.nesting text).statements
    machine with
  | halted halt middle =>
    rw [result] at ends
    cases ends
  | done error middle =>
    rw [result] at ends
    cases ends
    rw [program_of_within within result]
    · rfl
    · rintro token rfl
      exact unlimited _ (List.mem_singleton.mpr rfl) rfl

/-- A text reports the same with larger limits, unless it reaches one or is nested too deeply. -/
theorem source_eq_of_within {limits larger : Limits} (within : limits.Within larger)
    {debugLevel : Nat} {text : String} {machine final : Machine} {diagnostics : List Diagnostic}
    (ends : Run.source limits debugLevel text machine = .done diagnostics final)
    (unlimited : ∀ diagnostic ∈ diagnostics,
      diagnostic.message ≠ "Stack overflow." ∧ diagnostic.message ≠ "Too much nesting.") :
    Run.source larger debugLevel text machine = .done diagnostics final := by
  cases clean : (Program.ofSource limits.nesting text).isClean with
  | true =>
    exact source_clean_of_within within clean ends
      fun diagnostic member => (unlimited diagnostic member).1
  | false =>
    rw [source_of_not_isClean clean] at ends
    cases ends
    have same := Program.ofSource_of_le within.nesting
      fun diagnostic member => (unlimited diagnostic member).2
    rw [source_of_not_isClean (by rw [same, clean]), same]

/-- A text that is run to its end without the report of a limit has the same diagnostics, the same
events and the same bindings under all larger limits, from whatever state. The clock has to tell the
second run what it tells the first one: any clock will do where that does not read it. -/
theorem source_of_within {limits larger : Limits} (within : limits.Within larger)
    (debugLevel : Nat) (text : String) {machine final : Machine} {diagnostics : List Diagnostic}
    (ends : Run.source limits debugLevel text machine = .done diagnostics final)
    (unlimited : ∀ diagnostic ∈ diagnostics,
      diagnostic.message ≠ "Stack overflow." ∧ diagnostic.message ≠ "Too much nesting.")
    {clock : Nat → Float} (alike : machine.TellsAlike final clock) :
    Run.source larger debugLevel text (machine.withClock clock) =
      .done diagnostics (final.withClock clock) := by
  have same := source_eq_of_within within ends unlimited
  have isAlike : machine.TellsAlike (Run.source larger debugLevel text machine).machine clock := by
    rw [same]
    exact alike
  rw [(Run.ReadsOnly.source larger debugLevel text).withClock machine clock isAlike, same]
  rfl

/-- A text that prints and then fails on a small stack does just that on the stack of the command
line, at whatever time. -/
theorem source_of_within_undefined :
    let text := "print \"a\"; b;"
    let undefined : Diagnostic := ⟨.running, 1, "Undefined variable 'b'.", "at 'b'"⟩
    let final (clock : Nat → Float) := (Machine.initial clock).emit (.printed "a")
    Limits.Within ⟨4, 0⟩ .standard ∧
      Run.source ⟨4, 0⟩ 0 text (.initial fun _ => 0) = .done [undefined] (final fun _ => 0) ∧
      Run.source .standard 0 text (.initial fun _ => 1) = .done [undefined] (final fun _ => 1) := by
  have within : Limits.Within ⟨4, 0⟩ .standard := ⟨by decide, Nat.zero_le _⟩
  have ends : Run.source ⟨4, 0⟩ 0 "print \"a\"; b;" (.initial fun _ => 0) =
      .done [⟨.running, 1, "Undefined variable 'b'.", "at 'b'"⟩]
        ((Machine.initial fun _ => 0).emit (.printed "a")) := by cbv
  refine ⟨within, ends, source_of_within within 0 _ ends ?_
    (Machine.tellsAlike_of_readings_eq rfl fun _ => 1)⟩
  exact List.forall_mem_singleton.mpr ⟨by decide, by decide⟩

/-- Where the clock has gone on from one run to the next, a text that prints it tells them apart,
whatever the limits are. -/
theorem source_at_another_time :
    let final (clock : Nat → Float) : Machine := { Machine.initial clock with readings := 1 }
    Limits.Within ⟨8, 0⟩ ⟨9, 0⟩ ∧
      Run.source ⟨8, 0⟩ 0 "print clock();" (.initial fun _ => 0) =
        .done [] ((final fun _ => 0).emit (.printed "0")) ∧
      Run.source ⟨9, 0⟩ 0 "print clock();" (.initial fun _ => 1) =
        .done [] ((final fun _ => 1).emit (.printed "1")) := by
  intro final
  have small : Program.ofSource 8 "print clock();" = ⟨[.printTime], []⟩ := by cbv
  have large : Program.ofSource 9 "print clock();" = ⟨[.printTime], []⟩ := by cbv
  refine ⟨⟨by decide, Nat.le_refl _⟩, ?_, ?_⟩
  · rw [Run.source, small, ← display_reading.1]
    rfl
  · rw [Run.source, large, ← display_reading.2]
    rfl

end LoxLang
