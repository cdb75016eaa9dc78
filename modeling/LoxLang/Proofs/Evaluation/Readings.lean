import LoxLang.Proofs.Evaluation.Law

/-!
# What a run reads of the clock

Of the clock, a run depends on nothing but the readings that it takes. With another clock that tells
the same at these readings it does the same, and leaves the other clock behind. A run that takes no
reading does the same with every clock.
-/

namespace LoxLang

open BigStep

variable {α β : Type}

namespace Machine

/-- The machine with another clock. -/
def withClock (machine : Machine) (clock : Nat → Float) : Machine := { machine with clock }

/-- The clock tells the same as that of the machine, at every reading that was taken until a later
machine was left. -/
def TellsAlike (machine later : Machine) (clock : Nat → Float) : Prop :=
  ∀ reading, machine.readings ≤ reading → reading < later.readings →
    clock reading = machine.clock reading

/-- Where no reading was taken, every clock will do. -/
theorem tellsAlike_of_readings_eq {machine later : Machine}
    (same : later.readings = machine.readings) (clock : Nat → Float) :
    machine.TellsAlike later clock := by
  intro reading isTaken isBefore
  rw [same] at isBefore
  exact absurd isTaken (Nat.not_le.mpr isBefore)

/-- A message leaves the clock as it is. -/
theorem clock_trace (machine : Machine) (level : Nat) (entry : TraceEntry) :
    (machine.trace level entry).clock = machine.clock := by
  unfold trace
  split <;> rfl

/-- A message takes no reading. -/
theorem readings_trace (machine : Machine) (level : Nat) (entry : TraceEntry) :
    (machine.trace level entry).readings = machine.readings := by
  unfold trace
  split <;> rfl

/-- Whether a message is taken down does not depend on the clock. -/
theorem withClock_trace (machine : Machine) (clock : Nat → Float) (level : Nat)
    (entry : TraceEntry) :
    (machine.withClock clock).trace level entry = (machine.trace level entry).withClock clock := by
  unfold trace
  split <;> rfl

end Machine

namespace Outcome

/-- The outcome on the machine with another clock. -/
def withClock (outcome : Outcome α) (clock : Nat → Float) : Outcome α :=
  match outcome with
  | .done value machine => .done value (machine.withClock clock)
  | .halted halt machine => .halted halt (machine.withClock clock)

/-- What is left of an outcome if a used up stack is reported at a token. -/
def reportingOverflow (token : Token) : Outcome α → Outcome α
  | .halted .overflow machine => .halted (.failed ⟨.stackOverflow, token⟩) machine
  | outcome => outcome

/-- What is left of an outcome if `nil` stands for a value that could not be had. -/
def orNil : Outcome Value → Outcome Value
  | .done value machine => .done value machine
  | .halted _ machine => .done .nil machine

/-- What a program makes of the outcome of its statements. -/
def ofStatements (debugLevel : Nat) : Outcome Unit → Outcome (Option RuntimeError)
  | .done _ machine => .done none machine
  | .halted (.failed error) machine =>
    .done (some error) (machine.trace debugLevel (.failed error.message error.token.line))
  | .halted halt machine => .halted halt machine

/-- What a line makes of the outcome of the expression that it consists of. -/
def ofExpression : Outcome Value → Outcome (List Diagnostic)
  | .done value machine => .done [] (machine.emit (.echoed value.display))
  | .halted (.failed error) machine => .done [error.diagnostic] machine
  | .halted halt machine => .halted halt machine

end Outcome

/-- A program is what it makes of the outcome of its statements. -/
theorem Run.program_eq (limits : Limits) (debugLevel : Nat) (stmts : List Stmt) :
    Run.program limits debugLevel stmts = fun machine =>
      (Run.statements (limits.settings debugLevel) limits.nesting stmts machine).ofStatements
        debugLevel := by
  funext machine
  unfold Run.program
  cases Run.statements (limits.settings debugLevel) limits.nesting stmts machine with
  | done value final => rfl
  | halted halt final => cases halt <;> rfl

/-- A line is what it makes of the outcome of the expression that it consists of. -/
theorem Run.echo_eq (limits : Limits) (debugLevel : Nat) (expr : Expr) :
    Run.echo limits debugLevel expr = fun machine =>
      (Run.expression limits debugLevel expr machine).ofExpression := by
  funext machine
  unfold Run.echo
  cases Run.expression limits debugLevel expr machine with
  | done value final => rfl
  | halted halt final => cases halt <;> rfl

/-- A clock does not change while it is read, and the run depends on none of its other readings. -/
structure Run.ReadsOnly (run : Run α) : Prop where
  clock : ∀ machine, (run machine).machine.clock = machine.clock
  readings : ∀ machine, machine.readings ≤ (run machine).machine.readings
  withClock : ∀ machine clock, machine.TellsAlike (run machine).machine clock →
    run (machine.withClock clock) = (run machine).withClock clock

namespace Run.ReadsOnly

/-- With the clock put back, a run on the other clock ends as the run on the first one. -/
theorem putBack {run : Run α} (reads : run.ReadsOnly) {machine : Machine} {clock : Nat → Float}
    (alike : machine.TellsAlike (run machine).machine clock) :
    (run (machine.withClock clock)).withClock machine.clock = run machine := by
  rw [reads.withClock machine clock alike, ← reads.clock machine]
  cases run machine <;> rfl

/-- A run that does not look at the clock. -/
theorem blind {run : Run α} (clock : ∀ machine, (run machine).machine.clock = machine.clock)
    (readings : ∀ machine, (run machine).machine.readings = machine.readings)
    (withClock : ∀ machine clock,
      run (machine.withClock clock) = (run machine).withClock clock) : run.ReadsOnly :=
  ⟨clock, fun machine => Nat.le_of_eq (readings machine).symm,
    fun machine clock _ => withClock machine clock⟩

/-- A computation that only gives a value reads nothing. -/
protected theorem pure (value : α) : Run.ReadsOnly (pure value) :=
  blind (fun _ => rfl) (fun _ => rfl) fun _ _ => rfl

/-- A computation that halts reads nothing. -/
theorem halt (halt : Halt) : Run.ReadsOnly (Run.halt halt : Run α) :=
  blind (fun _ => rfl) (fun _ => rfl) fun _ _ => rfl

/-- What a run reads before another one and what that reads is what both read together. -/
protected theorem bind {first : Run α} {next : α → Run β} (reads : first.ReadsOnly)
    (readsNext : ∀ value, (next value).ReadsOnly) : (first >>= next).ReadsOnly := by
  have isBind (machine : Machine) : (first >>= next) machine = Run.bind first next machine := rfl
  constructor
  case clock =>
    intro machine
    have kept := reads.clock machine
    rw [isBind]
    unfold Run.bind
    cases result : first machine with
    | halted halt middle => rwa [result] at kept
    | done value middle =>
      rw [result] at kept
      exact ((readsNext value).clock middle).trans kept
  case readings =>
    intro machine
    have grows := reads.readings machine
    rw [isBind]
    unfold Run.bind
    cases result : first machine with
    | halted halt middle => rwa [result] at grows
    | done value middle =>
      rw [result] at grows
      exact Nat.le_trans grows ((readsNext value).readings middle)
  case withClock =>
    intro machine clock alike
    have kept := reads.clock machine
    have grows := reads.readings machine
    have sameFirst := reads.withClock machine clock
    rw [isBind] at alike ⊢
    rw [isBind]
    unfold Run.bind at alike ⊢
    cases result : first machine with
    | halted halt middle =>
      rw [result] at alike sameFirst
      rw [sameFirst alike]
      rfl
    | done value middle =>
      rw [result] at alike kept grows sameFirst
      have growsOn := (readsNext value).readings middle
      have alikeFirst : machine.TellsAlike middle clock := fun reading isTaken isBefore =>
        alike reading isTaken (Nat.lt_of_lt_of_le isBefore growsOn)
      have alikeNext : middle.TellsAlike (next value middle).machine clock := by
        intro reading isTaken isBefore
        rw [show middle.clock = machine.clock from kept]
        exact alike reading (Nat.le_trans grows isTaken) isBefore
      rw [sameFirst alikeFirst]
      exact (readsNext value).withClock middle clock alikeNext

/-- What is done at the end of a run does not matter, as long as it does not look at the clock. -/
theorem withEnd {run : Run α} (reads : run.ReadsOnly) (finish : Outcome α → Outcome β)
    (clock : ∀ outcome, (finish outcome).machine.clock = outcome.machine.clock)
    (readings : ∀ outcome, (finish outcome).machine.readings = outcome.machine.readings)
    (withClock : ∀ outcome clock, finish (outcome.withClock clock) =
      (finish outcome).withClock clock) :
    Run.ReadsOnly fun machine => finish (run machine) where
  clock machine := (clock _).trans (reads.clock machine)
  readings machine := (readings (run machine)).symm ▸ reads.readings machine
  withClock machine other alike := by
    have alikeRun : machine.TellsAlike (run machine).machine other := by
      intro reading isTaken isBefore
      exact alike reading isTaken (Nat.lt_of_lt_of_eq isBefore (readings _).symm)
    exact (congrArg finish (reads.withClock machine other alikeRun)).trans (withClock _ other)

/-- A change of the machine that does not look at the clock reads nothing. -/
theorem change {step : Machine → Machine} (clock : ∀ machine, (step machine).clock = machine.clock)
    (readings : ∀ machine, (step machine).readings = machine.readings)
    (withClock : ∀ machine clock, step (machine.withClock clock) = (step machine).withClock clock) :
    Run.ReadsOnly (Run.change step) :=
  blind clock readings fun machine other =>
    congrArg (Outcome.done ()) (withClock machine other)

/-- To read a variable is to read the store alone. -/
theorem readVariable (scope : ScopeId) (name : Token) :
    Run.ReadsOnly (Run.readVariable scope name) := by
  refine blind ?_ ?_ fun machine clock => ?_
  case _ | _ =>
    intro machine
    unfold Run.readVariable
    split <;> rfl
  case _ =>
    unfold Run.readVariable
    dsimp only [Machine.withClock]
    split <;> rfl

/-- To change a variable is to change the store alone. -/
theorem assignVariable (scope : ScopeId) (name : Token) (value : Value) :
    Run.ReadsOnly (Run.assignVariable scope name value) := by
  refine blind ?_ ?_ fun machine clock => ?_
  case _ | _ =>
    intro machine
    unfold Run.assignVariable
    split <;> rfl
  case _ =>
    unfold Run.assignVariable
    dsimp only [Machine.withClock]
    split <;> rfl

/-- A used up stack is reported without a look at the clock. -/
theorem reportingOverflow (token : Token) {run : Run α} (reads : run.ReadsOnly) :
    Run.ReadsOnly (Run.reportingOverflow token run) := by
  refine reads.withEnd (Outcome.reportingOverflow token) ?_ ?_ ?_
  all_goals
    rintro (⟨value, machine⟩ | ⟨halt, machine⟩)
    · intros
      rfl
    · cases halt <;> intros <;> rfl

/-- What stands for a missing value is found without a look at the clock. -/
theorem orNil {run : Run Value} (reads : run.ReadsOnly) : Run.ReadsOnly (Run.orNil run) := by
  refine reads.withEnd Outcome.orNil ?_ ?_ ?_
  all_goals rintro (_ | _) <;> intros <;> rfl

/-- What is read is the one reading that the run depends on. -/
theorem readClock : Run.ReadsOnly Run.readClock where
  clock _ := rfl
  readings _ := Nat.le_succ _
  withClock machine clock alike := by
    have told : clock machine.readings = machine.clock machine.readings :=
      alike machine.readings (Nat.le_refl _) (Nat.lt_succ_self _)
    change Outcome.done (Value.number (clock machine.readings)) _ =
      .done (.number (machine.clock machine.readings)) _
    rw [told]
    rfl

/-- To bind a name is to change the store alone. -/
theorem define (scope : ScopeId) (name : String) (value : Value) :
    Run.ReadsOnly (Run.define scope name value) :=
  .change (fun _ => rfl) (fun _ => rfl) fun _ _ => rfl

/-- A message reads nothing. -/
theorem trace (level : Nat) (entry : TraceEntry) : Run.ReadsOnly (Run.trace level entry) :=
  .change (fun machine => machine.clock_trace level entry)
    (fun machine => machine.readings_trace level entry)
    fun machine clock => machine.withClock_trace clock level entry

/-- Every step reads only what it depends on. The clock is the one that reads. -/
theorem stepLaw (settings : Settings) : Run.StepLaw settings Run.ReadsOnly where
  pure := .pure
  bind := .bind
  failed _ := .halt _
  endless := .halt _
  halt := .halt
  reportingOverflow token _ := .reportingOverflow token
  readVariable := .readVariable
  assignVariable := .assignVariable
  define := .define
  openScope outer := .blind (fun _ => rfl) (fun _ => rfl) fun _ _ => rfl
  readClock := .readClock
  readCaptured closure name := by
    cases closure with
    | none => exact .pure _
    | some scope => exact .orNil (.readVariable scope _)
  print line := .change (fun _ => rfl) (fun _ => rfl) fun _ _ => rfl
  trace _ := .trace _ _
  function stack scope name parameters body := by
    have made : Run.ReadsOnly (Run.makeCallable (.function ⟨name, parameters, body⟩ scope)) :=
      .blind (fun _ => rfl) (fun _ => rfl) fun _ _ => rfl
    exact .bind made fun _ => .bind (.define _ _ _) fun _ => .bind (.trace _ _) fun _ => .pure _

/-- Of the clock, every task depends on its readings alone. -/
theorem task (settings : Settings) (stack : Nat) (task : Task) :
    Run.ReadsOnly (task.run settings stack) := (stepLaw settings).task stack task

/-- Runtime errors are told at the end of a program, which takes no reading. -/
theorem program (limits : Limits) (debugLevel : Nat) (stmts : List Stmt) :
    Run.ReadsOnly (Run.program limits debugLevel stmts) := by
  have reads := (stepLaw (limits.settings debugLevel)).statements limits.nesting stmts
  rw [Run.program_eq]
  refine reads.withEnd (Outcome.ofStatements debugLevel) ?clock ?readings ?withClock
  case clock | readings =>
    rintro (⟨value, machine⟩ | ⟨halt, machine⟩)
    · rfl
    · cases halt with
      | failed error => first | exact machine.clock_trace _ _ | exact machine.readings_trace _ _
      | _ => rfl
  case withClock =>
    rintro (⟨value, machine⟩ | ⟨halt, machine⟩) clock
    · rfl
    · cases halt with
      | failed error => exact congrArg (Outcome.done _) (machine.withClock_trace clock _ _)
      | _ => rfl

/-- The value of a line is printed without a look at the clock. -/
theorem echo (limits : Limits) (debugLevel : Nat) (expr : Expr) :
    Run.ReadsOnly (Run.echo limits debugLevel expr) := by
  have reads : Run.ReadsOnly (Run.expression limits debugLevel expr) :=
    task (limits.settings debugLevel) limits.nesting (.evaluate Store.globals expr)
  rw [Run.echo_eq]
  refine reads.withEnd Outcome.ofExpression ?_ ?_ ?_
  all_goals
    rintro (⟨value, machine⟩ | ⟨halt, machine⟩)
    · intros
      rfl
    · cases halt <;> intros <;> rfl

/-- A source text depends on the readings of its program. -/
theorem source (limits : Limits) (debugLevel : Nat) (text : String) :
    Run.ReadsOnly (Run.source limits debugLevel text) := by
  unfold Run.source
  dsimp only
  split
  · exact .bind (program _ _ _) fun _ => .pure _
  · exact .pure _

/-- A line depends on the readings of its program or of its expression. -/
theorem line (limits : Limits) (debugLevel : Nat) (text : String) :
    Run.ReadsOnly (Run.line limits debugLevel text) := by
  unfold Run.line
  dsimp only
  split
  · exact .bind (program _ _ _) fun _ => .pure _
  · split
    · exact echo _ _ _
    · exact .pure _

end Run.ReadsOnly

/-- The statement that prints what the clock tells. -/
def Stmt.printTime : Stmt :=
  .print (.call (.reference ⟨.identifier, "clock", .nil, 1⟩) ⟨.rightParen, ")", .nil, 1⟩ [])

/-- Two readings that differ are printed as different texts. -/
theorem display_reading : Number.display 0 = "0" ∧ Number.display 1 = "1" := by decide +kernel

end LoxLang
