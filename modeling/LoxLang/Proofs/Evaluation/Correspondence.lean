import LoxLang.Proofs.Evaluation.Matching

/-!
# Two runs that correspond

A correspondence is a matching that also says, in each world, which machines stand for each other.
Computations that begin on such machines are to end in the same way, on machines that stand for each
other in a later world. One lemma for each way to put computations together says so of them. What is
left to be shown of a correspondence is that the few steps that touch the machines keep it.
-/

namespace LoxLang

open BigStep

/-- Which statements stand for each other in two runs, and which scopes and machines do. -/
structure Correspondence (World : Type) [Preorder World] extends Matching World where
  OnMachine : World → Machine → Machine → Prop

namespace Correspondence

open Matching

variable {World : Type} [Preorder World] {relation : Correspondence World} {world later : World}
  {α β : Type}

/-- The computations ended in the same way, in a later world. -/
inductive OnOutcome (relation : Correspondence World) (world : World)
    (alike : World → α → α → Prop) : Outcome α → Outcome α → Prop where
  | done {later : World} {value other : α} {machine otherMachine : Machine}
      (grows : world ≤ later) (values : alike later value other)
      (machines : relation.OnMachine later machine otherMachine) :
      OnOutcome relation world alike (.done value machine) (.done other otherMachine)
  | halted {later : World} (halt : Halt) {machine otherMachine : Machine}
      (grows : world ≤ later) (machines : relation.OnMachine later machine otherMachine) :
      OnOutcome relation world alike (.halted halt machine) (.halted halt otherMachine)

/-- Begun on machines that stand for each other, the computations end in the same way. -/
def OnRun (relation : Correspondence World) (world : World) (alike : World → α → α → Prop)
    (run other : Run α) : Prop :=
  ∀ ⦃machine otherMachine⦄, relation.OnMachine world machine otherMachine →
    relation.OnOutcome world alike (run machine) (other otherMachine)

variable {alike : World → α → α → Prop} {similar : World → β → β → Prop} {run other : Run α}

/-- What stands for each other in a later world is what an earlier world grows to. -/
theorem OnOutcome.earlier {outcome otherOutcome : Outcome α}
    (ended : relation.OnOutcome later alike outcome otherOutcome) (grows : world ≤ later) :
    relation.OnOutcome world alike outcome otherOutcome := by
  cases ended with
  | done growsOn values machines => exact .done (le_trans grows growsOn) values machines
  | halted halt growsOn machines => exact .halted halt (le_trans grows growsOn) machines

namespace OnRun

/-- Both computations give values that stand for each other. -/
theorem pure {value otherValue : α} (values : alike world value otherValue) :
    relation.OnRun world alike (Pure.pure value : Run α) (Pure.pure otherValue) :=
  fun _ _ machines => .done (le_refl world) values machines

/-- Both computations halt for the same reason. -/
theorem halt (reason : Halt) :
    relation.OnRun world alike (Run.halt reason : Run α) (Run.halt reason) :=
  fun _ _ machines => .halted reason (le_refl world) machines

/-- The second computations begin in the world that the first ones grew to. -/
theorem bind {next further : α → Run β} (runs : relation.OnRun world alike run other)
    (nexts : ∀ {later}, world ≤ later → ∀ value otherValue, alike later value otherValue →
      relation.OnRun later similar (next value) (further otherValue)) :
    relation.OnRun world similar (run >>= next) (other >>= further) := by
  intro machine otherMachine machines
  change relation.OnOutcome world similar (Run.bind run next machine)
    (Run.bind other further otherMachine)
  have ended := runs machines
  unfold Run.bind
  generalize run machine = outcome, other otherMachine = otherOutcome at ended ⊢
  cases ended with
  | done grows values machines => exact (nexts grows _ _ values machines).earlier grows
  | halted reason grows machines => exact .halted reason grows machines

/-- A change of both machines keeps the world. -/
theorem change {step otherStep : Machine → Machine}
    (keeps : ∀ {machine otherMachine}, relation.OnMachine world machine otherMachine →
      relation.OnMachine world (step machine) (otherStep otherMachine)) :
    relation.OnRun world (fun _ _ _ => True) (Run.change step) (Run.change otherStep) :=
  fun _ _ machines => .done (le_refl world) trivial (keeps machines)

/-- The result of an operation is the same plain value or the same failure. -/
theorem ofExcept {result otherResult : Except RuntimeError Value} (same : otherResult = result)
    (isPlain : ∀ value, result = .ok value → value.isCallable = false) :
    relation.OnRun world relation.OnValue (Run.ofExcept result) (Run.ofExcept otherResult) := by
  subst same
  cases otherResult with
  | ok value => exact .pure (.plain (isPlain value rfl))
  | error error => exact .halt _

/-- A used up stack is reported on both machines or on none. -/
theorem reportingOverflow (token : Token) (runs : relation.OnRun world alike run other) :
    relation.OnRun world alike (Run.reportingOverflow token run)
      (Run.reportingOverflow token other) := by
  intro machine otherMachine machines
  have ended := runs machines
  unfold Run.reportingOverflow
  generalize run machine = outcome, other otherMachine = otherOutcome at ended ⊢
  cases ended with
  | done grows values machines => exact .done grows values machines
  | halted reason grows machines => cases reason <;> exact .halted _ grows machines

/-- Where no value could be had, `nil` stands for it on both machines. -/
theorem orNil {run other : Run Value} (runs : relation.OnRun world relation.OnValue run other) :
    relation.OnRun world relation.OnValue (Run.orNil run) (Run.orNil other) := by
  intro machine otherMachine machines
  have ended := runs machines
  unfold Run.orNil
  generalize run machine = outcome, other otherMachine = otherOutcome at ended ⊢
  cases ended with
  | done grows values machines => exact .done grows values machines
  | halted _ grows machines => exact .done grows onValue_nil machines

/-- Computations over a list give values that stand for each other, one by one. -/
theorem each {run other : β → Run Value} {items : List β}
    (runs : ∀ {later}, world ≤ later → ∀ item,
      relation.OnRun later relation.OnValue (run item) (other item)) :
    relation.OnRun world (fun later => List.Forall₂ (relation.OnValue later))
      (Run.each run items) (Run.each other items) := by
  induction items generalizing world with
  | nil => exact .pure .nil
  | cons item items inductionHypothesis =>
    refine .bind (runs (le_refl world) item) fun grows _ _ first => ?_
    refine .bind (inductionHypothesis fun growsOn => runs (le_trans grows growsOn)) ?_
    exact fun growsOn _ _ further => .pure (.cons (first.mono growsOn) further)

/-- Statements that return do so on both sides, and what follows them is not executed. -/
theorem sequence {execute otherExecute : Stmt → Run Completion} {stmts others : List Stmt}
    (all : Stmt.InTurn relation.OnStmt stmts others)
    (noNormal : ∀ stmt : Stmt, stmt.Returns → ∀ machine final,
      execute stmt machine ≠ .done .normal final)
    (runs : ∀ {later}, world ≤ later → ∀ {stmt other}, relation.OnStmt stmt other →
      relation.OnRun later relation.OnCompletion (execute stmt) (otherExecute other)) :
    relation.OnRun world relation.OnCompletion (Run.sequence execute stmts)
      (Run.sequence otherExecute others) := by
  induction all generalizing world with
  | nil => exact .pure .normal
  | cons first _ inductionHypothesis =>
    rw [sequence_cons, sequence_cons]
    refine .bind (runs (le_refl world) first) fun grows _ _ completions => ?_
    cases completions with
    | normal => exact inductionHypothesis fun growsOn => runs (le_trans grows growsOn)
    | returned values => exact .pure (.returned values)
  | @last stmt other first returns stmts others =>
    intro machine otherMachine machines
    have ended := runs (le_refl world) first machines
    have returned := noNormal stmt returns machine
    simp only [Run.sequence]
    generalize execute stmt machine = outcome, otherExecute other otherMachine = otherOutcome at *
    cases ended with
    | halted reason grows machines => exact .halted reason grows machines
    | done grows completions machines =>
      cases completions with
      | normal => exact absurd rfl (returned _)
      | returned values => exact .done grows (.returned values) machines

/-- Loops turn equally often while the world grows, by induction on the turns that are left. -/
theorem loop {turn otherTurn : Run (Option Completion)}
    (runs : ∀ {later}, world ≤ later →
      relation.OnRun later (fun after => Option.Rel (relation.OnCompletion after)) turn otherTurn)
    (turns : Nat) :
    relation.OnRun world relation.OnCompletion (Run.loop turns turn)
      (Run.loop turns otherTurn) := by
  induction turns generalizing world with
  | zero => exact .halt .endless
  | succ turns inductionHypothesis =>
    rw [loop_succ, loop_succ]
    refine .bind (runs (le_refl world)) fun grows ends otherEnds completions => ?_
    cases completions with
    | none => exact inductionHypothesis fun growsOn => runs (le_trans grows growsOn)
    | some completions => exact .pure completions

end OnRun

/-- The steps that touch the machines keep a correspondence of runs with these settings. -/
structure Kept (relation : Correspondence World) (settings other : Settings) : Prop where
  turns : other.turns = settings.turns
  readVariable : ∀ {world scope otherScope} name, relation.Sees world scope otherScope →
    relation.OnRun world relation.OnValue (Run.readVariable scope name)
      (Run.readVariable otherScope name)
  assignVariable : ∀ {world scope otherScope value otherValue} name,
    relation.Sees world scope otherScope → relation.OnValue world value otherValue →
    relation.OnRun world (fun _ _ _ => True) (Run.assignVariable scope name value)
      (Run.assignVariable otherScope name otherValue)
  define : ∀ {world scope otherScope value otherValue} name,
    relation.Owns world scope otherScope → relation.OnValue world value otherValue →
    relation.OnRun world (fun _ _ _ => True) (Run.define scope name value)
      (Run.define otherScope name otherValue)
  openScope : ∀ {world scope otherScope}, relation.Sees world scope otherScope →
    relation.OnRun world relation.Owns (Run.openScope scope) (Run.openScope otherScope)
  makeCallable : ∀ {world behaviour otherBehaviour},
    relation.OnBehaviour world behaviour otherBehaviour →
    relation.OnRun world relation.OnCallable (Run.makeCallable behaviour)
      (Run.makeCallable otherBehaviour)
  readClock : ∀ {world}, relation.OnRun world relation.OnValue Run.readClock Run.readClock
  print : ∀ {world} line,
    relation.OnRun world (fun _ _ _ => True) (Run.print line) (Run.print line)
  trace : ∀ {world entry otherEntry}, relation.OnTraceEntry world entry otherEntry →
    relation.OnRun world (fun _ _ _ => True) (Run.trace settings.debugLevel entry)
      (Run.trace other.debugLevel otherEntry)

end Correspondence
end LoxLang
