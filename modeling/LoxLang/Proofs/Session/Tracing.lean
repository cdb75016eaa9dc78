import LoxLang.Proofs.Session.CorrespondingSession
import LoxLang.Proofs.Session.Readings

/-!
# Tracing does not interfere

A run at one debug level and a run at the highest one do the same step by step, and the machine of
the first is that of the second without the messages of higher levels. In all else the debug level
leaves a run as it is. A runtime error is traced at the end of a program and nowhere else.
-/

namespace LoxLang

open BigStep

/-! ## Machines without the messages of higher levels -/

/-- The event is seen at the debug level. -/
def Event.isSeenAt (level : Nat) : Event → Bool
  | .printed _ | .echoed _ => true
  | .traced entry => entry.level ≤ level

/-- A message is seen at the debug levels from its own on. -/
@[simp] theorem Event.isSeenAt_traced (level : Nat) (entry : TraceEntry) :
    (traced entry).isSeenAt level = decide (entry.level ≤ level) := rfl

/-- The machine without the messages of higher levels. -/
def Machine.seenAt (machine : Machine) (level : Nat) : Machine :=
  { machine with events := machine.events.filter (·.isSeenAt level) }

/-- No message has a level above the third. -/
theorem TraceEntry.level_le (entry : TraceEntry) : entry.level ≤ 3 := by
  cases entry <;> simp [level]

/-- Every message has a level from the first on. -/
theorem TraceEntry.one_le_level (entry : TraceEntry) : 1 ≤ entry.level := by
  cases entry <;> simp [level]

/-- What is emitted can be left out at once, where it is not seen. -/
theorem Machine.seenAt_emit (machine : Machine) (event : Event) (level : Nat) :
    (machine.emit event).seenAt level =
      if event.isSeenAt level then (machine.seenAt level).emit event
      else machine.seenAt level := by
  unfold seenAt emit
  rw [Array.filter_push]
  split <;> rfl

/-- A message that is traced at the highest level is traced at a lower one if it is seen there. -/
theorem Machine.seenAt_trace (machine : Machine) (entry : TraceEntry) (level : Nat) :
    (machine.trace 3 entry).seenAt level = (machine.seenAt level).trace level entry := by
  unfold trace
  rw [if_pos entry.level_le, seenAt_emit]
  simp only [Event.isSeenAt_traced, decide_eq_true_eq]

/-- A message that is emitted is the last one. -/
theorem Machine.messages_emit (machine : Machine) (event : Event) :
    (machine.emit event).messages = machine.messages ++ event.entry?.toList := by
  unfold messages emit
  rw [Array.toList_push, List.filterMap_append]
  cases event <;> rfl

/-- A message that is traced is the last one, if the debug level asks for it. -/
theorem Machine.messages_trace (machine : Machine) (level : Nat) (entry : TraceEntry) :
    (machine.trace level entry).messages =
      machine.messages ++ if entry.level ≤ level then [entry] else [] := by
  unfold trace
  split
  next => exact machine.messages_emit (.traced entry)
  next => exact (List.append_nil _).symm

/-- The messages that are seen at a level are those of at most that level. -/
theorem Machine.messages_seenAt (machine : Machine) (level : Nat) :
    (machine.seenAt level).messages = machine.messages.filter (·.level ≤ level) := by
  unfold messages seenAt
  rw [Array.toList_filter]
  induction machine.events.toList with
  | nil => rfl
  | cons event events inductionHypothesis =>
    cases event with
    | printed line | echoed line => exact inductionHypothesis
    | traced entry =>
      by_cases isSeen : entry.level ≤ level <;>
        simp [Event.entry?, isSeen, inductionHypothesis]

/-- Whatever is not read off messages is read off the machine as it is seen at any level. -/
theorem Machine.filterMap_seenAt {α : Type} {read : Event → Option α}
    (readsNone : ∀ entry, read (.traced entry) = none) (machine : Machine) (level : Nat) :
    (machine.seenAt level).events.toList.filterMap read =
      machine.events.toList.filterMap read := by
  unfold seenAt
  rw [Array.toList_filter]
  induction machine.events.toList with
  | nil => rfl
  | cons event events inductionHypothesis =>
    cases event with
    | printed line | echoed line =>
      rw [List.filter_cons_of_pos rfl, List.filterMap_cons, List.filterMap_cons,
        inductionHypothesis]
    | traced entry =>
      by_cases isSeen : entry.level ≤ level <;>
        simp [readsNone, isSeen, inductionHypothesis]

/-! ## Runs at two debug levels -/

/-- The first machine is the second one as it is seen at the debug level, and no runtime error was
traced so far. -/
def tracing (level : Nat) : Correspondence Unit where
  toMatching := .sameScopes Eq Eq Stmt.sameForm_of_eq Stmt.inTurn_of_eq
  OnMachine _ machine full := machine = full.seenAt level ∧ ∀ entry ∈ full.messages, 1 < entry.level

section Values

variable {level : Nat}

/-- Only the same callable stands for a callable, since both runs execute the same trees. -/
theorem onCallable_tracing_iff {callable other : Callable} :
    (tracing level).OnCallable () callable other ↔ other = callable := by
  constructor
  · obtain ⟨identity, behaviour⟩ := callable
    obtain ⟨otherIdentity, otherBehaviour⟩ := other
    rintro ⟨sameIdentity, behaviours⟩
    obtain rfl : otherIdentity = identity := sameIdentity
    cases behaviours with
    | @function declaration otherDeclaration _ _ declarations closures =>
      obtain ⟨name, parameters, body⟩ := declaration
      obtain ⟨rfl, rfl, bodies⟩ := declarations
      obtain rfl : body = otherDeclaration.body := bodies
      cases closures
      rfl
    | @native arity closure otherClosure closures function =>
      cases closures with
      | none => rfl
      | some same =>
        cases same
        rfl
    | clock | abstract => rfl
  · rintro rfl
    refine ⟨rfl, ?_⟩
    cases other.behaviour with
    | function declaration closure => exact .function ⟨rfl, rfl, rfl⟩ rfl
    | clock => exact .clock
    | native arity closure function =>
      cases closure with
      | none => exact .native arity .none function
      | some closure => exact .native arity (.some rfl) function
    | abstract arity => exact .abstract arity

/-- Only the same value stands for a value. -/
theorem onValue_tracing_iff {value other : Value} :
    (tracing level).OnValue () value other ↔ other = value := by
  constructor
  · rintro (_ | callables)
    · rfl
    · exact congrArg Value.callable (onCallable_tracing_iff.mp callables)
  · rintro rfl
    cases other with
    | callable callable => exact .callable (onCallable_tracing_iff.mpr rfl)
    | _ => exact .plain rfl

/-- Only the same message stands for a message above the first level. -/
theorem onTraceEntry_tracing {entry other : TraceEntry}
    (entries : (tracing level).OnTraceEntry () entry other) :
    other = entry ∧ 1 < entry.level := by
  constructor
  · cases entries with
    | definedFunction => rfl
    | defined name values | ifCondition values | whileCondition values =>
      rw [onValue_tracing_iff.mp values]
    | called callables => rw [onCallable_tracing_iff.mp callables]
  · cases entries <;> simp [TraceEntry.level]

end Values

section Machines

variable {level : Nat} {machine full : Machine}

/-- Both runs have the same store. -/
theorem store_eq_of_tracing (machines : (tracing level).OnMachine () machine full) :
    machine.store = full.store := by
  obtain ⟨rfl, -⟩ := machines
  rfl

/-- Both machines may be given the same store. -/
theorem onMachine_tracing_withStore (machines : (tracing level).OnMachine () machine full)
    (store : Store Value) :
    (tracing level).OnMachine () { machine with store } { full with store } := by
  obtain ⟨rfl, noError⟩ := machines
  exact ⟨rfl, noError⟩

end Machines

/-- What touches the machine does the same at every debug level, but for the messages. -/
theorem kept_tracing (level turns : Nat) : (tracing level).Kept ⟨level, turns⟩ ⟨3, turns⟩ where
  turns := rfl
  readVariable := by
    rintro _ scope _ name rfl machine full machines
    unfold Run.readVariable
    rw [store_eq_of_tracing machines]
    split
    next => exact .done le_rfl (onValue_tracing_iff.mpr rfl) machines
    next => exact .halted _ le_rfl machines
  assignVariable := by
    rintro _ scope _ value otherValue name rfl values machine full machines
    obtain rfl := onValue_tracing_iff.mp values
    unfold Run.assignVariable
    rw [store_eq_of_tracing machines]
    split
    next => exact .done le_rfl trivial (onMachine_tracing_withStore machines _)
    next => exact .halted _ le_rfl machines
  define := by
    rintro _ scope _ value otherValue name rfl values
    obtain rfl := onValue_tracing_iff.mp values
    refine .change fun {machine full} machines => ?_
    rw [store_eq_of_tracing machines]
    exact onMachine_tracing_withStore machines _
  openScope := by
    rintro _ scope _ rfl machine full machines
    unfold Run.openScope
    rw [store_eq_of_tracing machines]
    exact .done le_rfl rfl (onMachine_tracing_withStore machines _)
  makeCallable := by
    rintro _ behaviour otherBehaviour behaviours machine full machines
    have sameCount : full.callables = machine.callables := by rw [machines.1, Machine.seenAt]
    refine .done le_rfl ⟨sameCount, behaviours⟩ ?_
    obtain ⟨rfl, noError⟩ := machines
    exact ⟨rfl, noError⟩
  readClock := by
    rintro _ machine full machines
    obtain ⟨rfl, noError⟩ := machines
    exact .done le_rfl (onValue_tracing_iff.mpr rfl) ⟨rfl, noError⟩
  print := by
    rintro _ line
    refine .change fun {machine full} machines => ?_
    obtain ⟨rfl, noError⟩ := machines
    refine ⟨(full.seenAt_emit (.printed line) level).symm, ?_⟩
    rw [Machine.messages_emit]
    simpa [Event.entry?] using noError
  trace := by
    rintro _ entry other entries
    obtain ⟨rfl, isProgress⟩ := onTraceEntry_tracing entries
    refine .change fun {machine full} machines => ?_
    obtain ⟨rfl, noError⟩ := machines
    refine ⟨(full.seenAt_trace other level).symm, ?_⟩
    rw [Machine.messages_trace, List.forall_mem_append, if_pos other.level_le]
    exact ⟨noError, List.forall_mem_singleton.mpr isProgress⟩

/-! ## Programs -/

/-- The session at another debug level. As at its start, the debug file is open at every level but
zero. -/
def Session.atLevel (session : Session) (level : Nat) : Session :=
  { session with debugLevel := level, traceOpen := 0 < level }

/-- The message that a program ends with: its runtime error, if it ended with one. -/
def closingMessages : Except Halt (Option RuntimeError) → List TraceEntry
  | .ok (some error) => [.failed error.message error.token.line]
  | _ => []

/-- A step at a debug level is a step at level zero with messages: those of a step at the highest
level, without the messages of higher levels. -/
structure Session.Traces (level : Nat)
    (traced silent full : Step (Option RuntimeError) × Session) : Prop where
  result : traced.1.result = silent.1.result
  output : traced.1.transcript.output = silent.1.transcript.output
  own : traced.1.transcript.own = silent.1.transcript.own
  /-- All that the step leaves behind is the same, but for the clock. -/
  machine :
    { traced.2.machine with clock := silent.2.machine.clock, events := silent.2.machine.events } =
      silent.2.machine
  messages : traced.2.machine.messages = full.2.machine.messages.filter (·.level ≤ level)
  /-- The debug file takes these messages and nothing else. -/
  trace : traced.1.transcript.trace =
    Transcript.appending "" (traced.2.machine.messages.map (·.text))
  /-- A runtime error is traced last, and no other one is. -/
  ending : ∃ earlier, (∀ entry ∈ earlier, 1 < entry.level) ∧ traced.2.machine.messages =
    earlier ++ (closingMessages traced.1.result).filter (·.level ≤ level)

/-- How a program at a debug level stands to the program at the highest level: it gives the same,
and its machine is the other one as it is seen at the level. -/
inductive OnProgram (level : Nat) : Outcome (Option RuntimeError) →
    Outcome (Option RuntimeError) → Prop where
  | done (error : Option RuntimeError) {full : Machine} (earlier : List TraceEntry)
      (noError : ∀ entry ∈ earlier, 1 < entry.level)
      (messages : full.messages = earlier ++ closingMessages (.ok error)) :
      OnProgram level (.done error (full.seenAt level)) (.done error full)
  | halted (halt : Halt) {full : Machine} (noError : ∀ entry ∈ full.messages, 1 < entry.level) :
      OnProgram level (.halted halt (full.seenAt level)) (.halted halt full)

/-- A program at any level ends as at the third one, with the messages of its level. -/
theorem onProgram_program (limits : Limits) (level : Nat) (stmts : List Stmt) {machine : Machine}
    (noEvents : machine.events = #[]) :
    OnProgram level (Run.program limits level stmts machine)
      (Run.program limits 3 stmts machine) := by
  have machines : (tracing level).OnMachine () machine machine := by
    obtain ⟨store, callables, clock, readings, events⟩ := machine
    obtain rfl : events = #[] := noEvents
    exact ⟨rfl, List.forall_mem_nil _⟩
  have all : List.Forall₂ (tracing level).OnStmt stmts stmts :=
    List.forall₂_same.mpr fun _ _ => rfl
  have ended := (kept_tracing level limits.turns).statements limits.nesting rfl all machines
  unfold Run.program Limits.settings
  generalize Run.statements ⟨level, limits.turns⟩ limits.nesting stmts machine = outcome at ended ⊢
  generalize Run.statements ⟨3, limits.turns⟩ limits.nesting stmts machine = full at ended ⊢
  cases ended with
  | done _ _ machines =>
    obtain ⟨rfl, noError⟩ := machines
    exact .done none _ noError (List.append_nil _).symm
  | halted halt _ machines =>
    obtain ⟨rfl, noError⟩ := machines
    cases halt with
    | failed error =>
      dsimp only
      rw [← Machine.seenAt_trace]
      refine .done (some error) _ noError ?_
      rw [Machine.messages_trace, if_pos (TraceEntry.level_le _)]
      rfl
    | _ => exact .halted _ noError

/-- What a program at a debug level gives and leaves, told from the program at the highest one. -/
theorem runStatements_atLevel_eq (session : Session) (level : Nat) (stmts : List Stmt) :
    let full := (session.atLevel 3).runStatements stmts
    (session.atLevel level).runStatements stmts =
      (⟨full.1.result,
          .ofEvents (0 < level) session.ownOutput (full.2.machine.seenAt level).events⟩,
        { session.atLevel level with machine := full.2.machine.seenAt level }) ∧
      ∃ earlier, (∀ entry ∈ earlier, 1 < entry.level) ∧
        full.2.machine.messages = earlier ++ closingMessages full.1.result := by
  have ended : OnProgram level
      (Run.program session.limits level stmts { session.machine with events := #[] })
      (Run.program session.limits 3 stmts { session.machine with events := #[] }) :=
    onProgram_program session.limits level stmts rfl
  unfold Session.runStatements Session.perform Session.atLevel
  dsimp only
  generalize Run.program session.limits level stmts { session.machine with events := #[] } =
    outcome at ended ⊢
  generalize Run.program session.limits 3 stmts { session.machine with events := #[] } =
    full at ended ⊢
  cases ended with
  | done error earlier noError messages => exact ⟨rfl, earlier, noError, messages⟩
  | halted halt noError => exact ⟨rfl, _, noError, (List.append_nil _).symm⟩

/-- No message is seen at level zero. -/
theorem filter_level_zero (entries : List TraceEntry) :
    entries.filter (·.level ≤ 0) = [] :=
  List.filter_eq_nil_iff.mpr fun entry _ isSeen =>
    Nat.not_le_of_lt entry.one_le_level (of_decide_eq_true isSeen)

/-- On one clock, what a session prints, gives and leaves at a debug level is what it does at level
zero, and its messages are those of the highest level without the messages of higher levels. -/
theorem Session.traces_atLevel (session : Session) (level : Nat) (stmts : List Stmt) :
    Session.Traces level ((session.atLevel level).runStatements stmts)
      ((session.atLevel 0).runStatements stmts) ((session.atLevel 3).runStatements stmts) := by
  obtain ⟨traced, earlier, noError, closing⟩ := runStatements_atLevel_eq session level stmts
  obtain ⟨silent, -⟩ := runStatements_atLevel_eq session 0 stmts
  rw [traced, silent]
  generalize (session.atLevel 3).runStatements stmts = full at closing ⊢
  have apart (level : Nat) : decide (0 < level) = true ∨
      (full.2.machine.seenAt level).events.toList.filterMap Event.entry? = [] := by
    cases level with
    | zero => exact .inr ((full.2.machine.messages_seenAt 0).trans (filter_level_zero _))
    | succ level => exact .inl (decide_eq_true level.succ_pos)
  have messages := full.2.machine.messages_seenAt level
  constructor
  case result => rfl
  case output | own =>
    dsimp only
    rw [Transcript.ofEvents_eq_appending (apart level), Transcript.ofEvents_eq_appending (apart 0)]
    dsimp only
    rw [Machine.filterMap_seenAt fun _ => rfl, Machine.filterMap_seenAt fun _ => rfl]
  case machine => rfl
  case messages => exact messages
  case trace =>
    dsimp only
    rw [Transcript.ofEvents_eq_appending (apart level)]
    rfl
  case ending =>
    refine ⟨earlier.filter (·.level ≤ level), ?_, ?_⟩
    · exact fun entry member => noError entry (List.mem_of_mem_filter member)
    · exact messages.trans ((congrArg _ closing).trans (List.filter_append _ _))

namespace Session.Traces

variable {level : Nat} {traced silent full : Step (Option RuntimeError) × Session}

/-- A run takes as many readings with messages as without. -/
theorem readings (traces : Traces level traced silent full) :
    silent.2.machine.readings = traced.2.machine.readings :=
  (congrArg Machine.readings traces.machine).symm

/-- The clocks of the runs that are compared do not matter. -/
theorem withClocks (traces : Traces level traced silent full)
    (silentClock fullClock : Nat → Float) :
    Traces level traced (silent.1, silent.2.withClock silentClock)
      (full.1, full.2.withClock fullClock) :=
  { traces with machine := congrArg (Machine.withClock · silentClock) traces.machine }

end Session.Traces

/-- Whatever a session runs at whatever debug level: it prints, gives and leaves what it does at
level zero, and its messages are those of the highest level without the messages of higher levels.
A program ends with one message about a runtime error if it gives one, and with none if it does
not. The clock has to tell the other runs what it tells the first one: any clock will do where that
does not read it. -/
theorem traces_runStatements (session : Session) (level : Nat) (stmts : List Stmt)
    {silentClock fullClock : Nat → Float}
    (alikeSilent : session.machine.TellsAlike
      ((session.atLevel level).runStatements stmts).2.machine silentClock)
    (alikeFull : session.machine.TellsAlike
      ((session.atLevel level).runStatements stmts).2.machine fullClock) :
    Session.Traces level ((session.atLevel level).runStatements stmts)
      (((session.withClock silentClock).atLevel 0).runStatements stmts)
      (((session.withClock fullClock).atLevel 3).runStatements stmts) := by
  have traces := session.traces_atLevel level stmts
  have sameSilent := traces.readings
  have sameFull : ((session.atLevel 3).runStatements stmts).2.machine.readings =
      ((session.atLevel level).runStatements stmts).2.machine.readings :=
    (session.traces_atLevel 3 stmts).readings.symm.trans sameSilent
  have isSilent := @Session.runStatements_withClock (session.atLevel 0) stmts silentClock
    fun reading isTaken isBefore =>
      alikeSilent reading isTaken (Nat.lt_of_lt_of_eq isBefore sameSilent)
  have isFull := @Session.runStatements_withClock (session.atLevel 3) stmts fullClock
    fun reading isTaken isBefore =>
      alikeFull reading isTaken (Nat.lt_of_lt_of_eq isBefore sameFull)
  change Session.Traces level _
    (((session.atLevel 0).withClock silentClock).runStatements stmts)
    (((session.atLevel 3).withClock fullClock).runStatements stmts)
  rw [isSilent, isFull]
  exact traces.withClocks silentClock fullClock

/-- A definition, a condition, a call and a runtime error in one program, which reads the clock
once: the other runs may have a clock that tells the same at that reading alone. -/
theorem traces_runStatements_levels :
    let name (lexeme : String) : Token := ⟨.identifier, lexeme, .nil, 1⟩
    let a : Expr := .reference (name "a")
    let stmts : List Stmt := [.var (name "a") (some (.literal (.text "x"))),
      .conditional a (.expression (.call (.reference (name "clock")) (name ")") [])) none,
      .expression (.unary ⟨.minus, "-", .nil, 1⟩ a)]
    let session := Session.start ⟨4, 0⟩ 0 (fun _ => 0) false
    let other (reading : Nat) : Float := if reading = 0 then 0 else 1
    let traced (level : Nat) := (session.atLevel level).runStatements stmts
    let defined : TraceEntry := .defined "a" (.text "x")
    let failed : TraceEntry := .failed "Operand must be a number." 1
    (∀ level, Session.Traces level (traced level)
      (((session.withClock other).atLevel 0).runStatements stmts)
      (((session.withClock other).atLevel 3).runStatements stmts)) ∧
      (traced 0).2.machine.messages = [] ∧ (traced 1).2.machine.messages = [failed] ∧
      (traced 2).2.machine.messages = [defined, failed] ∧
      (traced 3).2.machine.messages =
        [defined, .ifCondition (.text "x"), .called ⟨0, .clock⟩ 0 1, failed] := by
  intro name a stmts session other traced defined failed
  have readings (level : Nat) : (traced level).2.machine.readings = 1 :=
    (session.traces_atLevel level stmts).readings.symm
  have alike (level : Nat) : session.machine.TellsAlike (traced level).2.machine other := by
    intro reading _ isBefore
    rw [readings] at isBefore
    exact if_pos (Nat.lt_one_iff.mp isBefore)
  exact ⟨fun level => traces_runStatements session level stmts (alike level) (alike level),
    rfl, rfl, rfl, rfl⟩

/-- Where the clock has gone on from one run to the next, a program that prints it tells them apart,
at whatever debug levels they are. -/
theorem traced_at_another_time :
    let session := Session.start ⟨4, 0⟩ 0 (fun _ => 0) false
    let traced := (session.atLevel 2).runStatements [.printTime]
    let silent := ((session.withClock fun _ => 1).atLevel 0).runStatements [.printTime]
    traced.1.transcript.output = "0\n" ∧ silent.1.transcript.output = "1\n" ∧
      ∀ full, ¬ Session.Traces 2 traced silent full := by
  intro session traced silent
  have isTraced : traced.1.transcript.output = "" ++ Number.display 0 ++ "\n" := rfl
  have isSilent : silent.1.transcript.output = "" ++ Number.display 1 ++ "\n" := rfl
  rw [display_reading.1] at isTraced
  rw [display_reading.2] at isSilent
  refine ⟨isTraced, isSilent, fun full traces => ?_⟩
  have same := traces.output
  rw [isTraced, isSilent] at same
  exact absurd same (by decide)

end LoxLang
