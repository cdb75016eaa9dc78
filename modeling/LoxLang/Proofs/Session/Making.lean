import LoxLang.Proofs.Evaluation.Law
import LoxLang.Proofs.Session.Tracing

/-!
# Callables are made by function declarations

Where function declarations are traced, a run makes exactly as many callables as it traces function
declarations. Nothing else that a program does makes a callable.
-/

namespace LoxLang

open BigStep

variable {α β : Type}

/-- How many messages tell that a function declaration was executed. -/
def Machine.functionsTraced (machine : Machine) : Nat :=
  machine.messages.countP (·.isFunction)

/-- A message counts if it is seen and tells of a function. -/
theorem Machine.functionsTraced_trace (machine : Machine) (level : Nat) (entry : TraceEntry) :
    (machine.trace level entry).functionsTraced =
      machine.functionsTraced + if entry.level ≤ level ∧ entry.isFunction then 1 else 0 := by
  rw [functionsTraced, messages_trace, List.countP_append, functionsTraced]
  by_cases isSeen : entry.level ≤ level
  · rw [if_pos isSeen, List.countP_singleton]
    simp only [isSeen, true_and]
  · rw [if_neg isSeen, if_neg fun both => isSeen both.1]
    rfl

/-- A message makes no callable. -/
theorem Machine.callables_trace (machine : Machine) (level : Nat) (entry : TraceEntry) :
    (machine.trace level entry).callables = machine.callables :=
  congrArg State.callables (view_trace machine level entry)

/-- A printed line tells of no function. -/
theorem Machine.functionsTraced_print (machine : Machine) (line : String) :
    (machine.emit (.printed line)).functionsTraced = machine.functionsTraced := by
  rw [functionsTraced, messages_emit]
  exact congrArg _ (List.append_nil _)

/-- The later machine has as many callables more than the earlier one as it tells function
declarations more. -/
def Machine.AccountsFor (later machine : Machine) : Prop :=
  later.callables + machine.functionsTraced = machine.callables + later.functionsTraced

/-- The run makes as many callables as it traces function declarations, however it ends. -/
def Run.Accounts (run : Run α) : Prop := ∀ machine, (run machine).machine.AccountsFor machine

namespace Run.Accounts

/-- A computation that only gives a value makes nothing. -/
protected theorem pure (value : α) : Run.Accounts (pure value) := fun _ => rfl

/-- A computation that halts makes nothing. -/
theorem halt (halt : Halt) : Run.Accounts (Run.halt halt : Run α) := fun _ => rfl

/-- Computations one after the other account for what each of them makes. -/
protected theorem bind {first : Run α} {next : α → Run β} (accounts : Run.Accounts first)
    (accountsNext : ∀ value, Run.Accounts (next value)) : Run.Accounts (first >>= next) := by
  intro machine
  have made := accounts machine
  change (Run.bind first next machine).machine.AccountsFor machine
  unfold Run.bind
  cases result : first machine with
  | halted halt middle =>
    rw [result] at made
    exact made
  | done value middle =>
    rw [result] at made
    have madeNext := accountsNext value middle
    unfold Machine.AccountsFor at made madeNext ⊢
    simp only [Outcome.machine] at made madeNext ⊢
    omega

/-- A change of the machine accounts for what it makes. -/
theorem change {step : Machine → Machine}
    (accounts : ∀ machine, (step machine).AccountsFor machine) : Run.Accounts (Run.change step) :=
  accounts

/-- All messages but those of function declarations can be traced. -/
theorem trace (level : Nat) {entry : TraceEntry} (noFunction : entry.isFunction = false) :
    Run.Accounts (Run.trace level entry) := by
  refine .change fun machine => ?_
  rw [Machine.AccountsFor, Machine.functionsTraced_trace, Machine.callables_trace, noFunction]
  simp

/-- A printed line makes nothing. -/
theorem print (line : String) : Run.Accounts (Run.print line) := by
  refine .change fun machine => ?_
  rw [Machine.AccountsFor, Machine.functionsTraced_print]
  rfl

/-- To read a variable makes nothing. -/
theorem readVariable (scope : ScopeId) (name : Token) :
    Run.Accounts (Run.readVariable scope name) := by
  intro machine
  unfold Run.readVariable
  split <;> rfl

/-- To change a variable makes nothing. -/
theorem assignVariable (scope : ScopeId) (name : Token) (value : Value) :
    Run.Accounts (Run.assignVariable scope name value) := by
  intro machine
  unfold Run.assignVariable
  split <;> rfl

/-- To report a used up stack makes nothing. -/
theorem reportingOverflow (token : Token) {run : Run α} (accounts : Run.Accounts run) :
    Run.Accounts (Run.reportingOverflow token run) := by
  intro machine
  have made := accounts machine
  unfold Run.reportingOverflow
  split
  next isOverflow =>
    rw [isOverflow] at made
    exact made
  next => exact made

/-- To stand in for a missing value makes nothing. -/
theorem orNil {run : Run Value} (accounts : Run.Accounts run) : Run.Accounts (Run.orNil run) := by
  intro machine
  have made := accounts machine
  unfold Run.orNil
  split
  next isDone =>
    rw [isDone] at made
    exact made
  next isHalted =>
    rw [isHalted] at made
    exact made

/-- A function declaration makes one callable and traces it. -/
theorem function {settings : Settings} (isTraced : 2 ≤ settings.debugLevel) (stack : Nat)
    (scope : ScopeId) (name : Token) (parameters : List Token) (body : List Stmt) :
    Run.Accounts (execute settings (stack + 1) scope (.function name parameters body)) := by
  intro machine
  change Machine.AccountsFor (Machine.trace _ settings.debugLevel
    (.definedFunction name.lexeme parameters.length)) machine
  have isSeen : (TraceEntry.definedFunction name.lexeme parameters.length).level ≤
      settings.debugLevel := isTraced
  rw [Machine.AccountsFor, Machine.functionsTraced_trace, Machine.callables_trace,
    if_pos ⟨isSeen, rfl⟩]
  exact Nat.add_right_comm machine.callables 1 machine.functionsTraced

/-- Function declarations are the only steps that make a callable or trace that. -/
theorem stepLaw {settings : Settings} (isTraced : 2 ≤ settings.debugLevel) :
    Run.StepLaw settings Run.Accounts where
  pure := .pure
  bind := .bind
  failed _ := .halt _
  endless := .halt _
  halt := .halt
  reportingOverflow token _ := .reportingOverflow token
  readVariable := .readVariable
  assignVariable := .assignVariable
  define _ _ _ _ := rfl
  openScope _ _ := rfl
  readClock _ := rfl
  readCaptured closure name := by
    cases closure with
    | none => exact .pure _
    | some scope => exact .orNil (.readVariable scope _)
  print := .print
  trace := .trace _
  function := .function isTraced

/-- Every task makes as many callables as function declarations are executed in it. -/
theorem task {settings : Settings} (isTraced : 2 ≤ settings.debugLevel) (stack : Nat)
    (task : Task) : Run.Accounts (task.run settings stack) := (stepLaw isTraced).task stack task

end Run.Accounts

end LoxLang
