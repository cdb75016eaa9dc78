import LoxLang.Proofs.Evaluation.Confinement
import LoxLang.Proofs.Session.Layout

/-!
# Programs in two runs

A program can be run in two parts, one after the other on the same machine. What the second part
finds there is what the first part left, in one run as in two; only the lines of its tokens differ,
which count on from those of the first part: `source_joined`.
-/

namespace LoxLang

open Source Grammar

/-! ## Reading -/

/-- Each of the tokens stands for itself on a later line. -/
def Pairing.later (tokens : List Token) (lines : Int) : Pairing where
  Pairs token other := token ∈ tokens ∧ other = token.moved lines
  sameButLine := by
    rintro token _ ⟨-, rfl⟩
    exact token.sameButLine_moved lines

/-- A token that is moved by no line stays where it is. -/
@[simp] theorem Token.moved_zero (token : Token) : token.moved 0 = token := by
  simp [moved]

/-- A token that is moved further down stands for itself. -/
theorem Pairing.later_moved {tokens : List Token} (lines : Int) {token : Token}
    (isIn : token ∈ tokens) : (later tokens lines).Pairs (token.moved 0) (token.moved lines) := by
  rw [Token.moved_zero]
  exact ⟨isIn, rfl⟩

/-- On how many lines a text in front of another puts that one further. -/
def linesOf (former : String) : Int := former.toList.count '\n' + 1

/-- What the tokens of a text are read as on lines that are further on. -/
def Source.Scan.parseMoved (scan : Scan) (limit : Nat) (lines : Int) : Parsed :=
  parse limit (scan.tokens.map (·.moved lines)) (scan.endLine + lines)

/-- A scan that is moved by no line is read as it is. -/
theorem Source.Scan.parseMoved_zero (scan : Scan) (limit : Nat) :
    scan.parseMoved limit 0 = parse limit scan.tokens scan.endLine := by
  simp [parseMoved]

/-- The same tokens on other lines are read as the same trees over them. -/
theorem Source.Scan.parseMoved_companions {pairing : Pairing} (scan : Scan) (limit : Nat)
    {lines others : Int}
    (all : ∀ token ∈ scan.closedTokens, pairing.Pairs (token.moved lines) (token.moved others)) :
    List.Forall₂ pairing.OnStmt (scan.parseMoved limit lines).statements
        (scan.parseMoved limit others).statements ∧
      List.Forall₂ pairing.OnError (scan.parseMoved limit lines).errors
        (scan.parseMoved limit others).errors := by
  refine parse_companions limit ?_ (all _ (List.mem_append_right _ (List.mem_singleton_self _)))
  simp only [List.forall₂_map_left_iff, List.forall₂_map_right_iff]
  exact List.forall₂_same.mpr fun token isIn => all token (List.mem_append_left _ isIn)

/-- The statements of a text are those that are read from its tokens. -/
theorem Program.statements_ofSource (limit : Nat) (source : String) :
    (Program.ofSource limit source).statements = ((scan source).parseMoved limit 0).statements := by
  rw [Scan.parseMoved_zero]
  rfl

/-- Nothing is wrong with a text if nothing is wrong with its lexemes and its statements. -/
theorem Program.diagnostics_eq_nil_iff {limit : Nat} {source : String} :
    (Program.ofSource limit source).diagnostics = [] ↔ (scan source).errors = [] ∧
      (parse limit (scan source).tokens (scan source).endLine).errors = [] := by
  simp [ofSource]

/-- Two programs without errors, the second from the next line on, are read as the statements of
both, those of the second over the same tokens on later lines. -/
theorem Program.ofSource_joined {limit : Nat} {former latter : String}
    (formerClean : (Program.ofSource limit former).diagnostics = [])
    (latterClean : (Program.ofSource limit latter).diagnostics = [])
    (notElse : Stops [.keyElse] (scan latter).tokens) :
    Program.ofSource limit (former ++ "\n" ++ latter) =
      ⟨(Program.ofSource limit former).statements ++
        ((scan latter).parseMoved limit (linesOf former)).statements, []⟩ := by
  obtain ⟨formerScanned, formerParsed⟩ := diagnostics_eq_nil_iff.mp formerClean
  obtain ⟨latterScanned, latterParsed⟩ := diagnostics_eq_nil_iff.mp latterClean
  have movedParsed : ((scan latter).parseMoved limit (linesOf former)).errors = [] := by
    obtain ⟨-, errors⟩ := (scan latter).parseMoved_companions limit fun _ isIn =>
      Pairing.later_moved (linesOf former) isIn
    rw [Scan.parseMoved_zero, latterParsed] at errors
    exact List.forall₂_nil_left_iff.mp errors
  have movedNotElse : Stops [.keyElse] ((scan latter).tokens.map (·.moved (linesOf former))) := by
    intro token isFirst
    rw [List.head?_map] at isFirst
    obtain ⟨first, isHead, rfl⟩ := Option.map_eq_some_iff.mp isFirst
    exact notElse first isHead
  have joined : parse limit
      ((scan former).tokens ++ (scan latter).tokens.map (·.moved (linesOf former)))
      ((scan latter).endLine + linesOf former) = _ :=
    parse_append_of_clean formerParsed movedNotElse _
  have isScan := @scan_joined former (by simp [formerScanned]) latter
  rw [formerScanned, latterScanned] at isScan
  change scan (former ++ "\n" ++ latter) = ⟨(scan former).tokens ++
    (scan latter).tokens.map (·.moved (linesOf former)), (scan latter).endLine + linesOf former, []⟩
    at isScan
  unfold ofSource
  rw [isScan]
  dsimp only
  rw [joined, Parsed.errors_append, formerParsed]
  unfold Scan.parseMoved at movedParsed
  rw [movedParsed]
  rfl

/-! ## Running -/

namespace Run

variable {machine between : Machine}

/-- Statements run on the machine that those in front of them left. -/
theorem statements_append (settings : Settings) (nesting : Nat) {former : List Stmt}
    (runs : statements settings nesting former machine = .done () between) (latter : List Stmt) :
    statements settings nesting (former ++ latter) machine =
      statements settings nesting latter between := by
  induction former generalizing machine with
  | nil =>
    cases runs
    rfl
  | cons stmt former inductionHypothesis =>
    rw [statements_cons] at runs
    rw [List.cons_append, statements_cons]
    change Run.bind _ _ machine = _ at runs
    change Run.bind _ _ machine = _
    unfold Run.bind at runs ⊢
    generalize execute settings nesting Store.globals stmt machine = outcome at runs ⊢
    cases outcome with
    | done completion next => exact inductionHypothesis runs
    | halted => cases runs

/-- A program goes on with further statements where the former ones came to their end. -/
theorem program_append {limits : Limits} {debugLevel : Nat} {former : List Stmt}
    (runs : program limits debugLevel former machine = .done none between) (latter : List Stmt) :
    program limits debugLevel (former ++ latter) machine =
      program limits debugLevel latter between := by
  have ends : statements (limits.settings debugLevel) limits.nesting former machine =
      .done () between := by
    unfold program at runs
    split at runs <;> first | cases runs; assumption | cases runs
  unfold program
  rw [statements_append _ _ ends]

/-- A run that reports nothing ran the program to its end. -/
theorem program_of_report {limits : Limits} {debugLevel : Nat} {stmts : List Stmt}
    (ends : report limits debugLevel stmts machine = .done [] between) :
    program limits debugLevel stmts machine = .done none between := by
  change Run.bind (program limits debugLevel stmts) _ machine = _ at ends
  unfold Run.bind at ends
  generalize program limits debugLevel stmts machine = outcome at ends ⊢
  cases outcome with
  | done error final =>
    cases error with
    | none =>
      cases ends
      rfl
    | some error => cases ends
  | halted halt final => cases ends

/-- A program with further statements reports what those report, if the former ones came to their
end. -/
theorem report_append {limits : Limits} {debugLevel : Nat} {former : List Stmt}
    (runs : report limits debugLevel former machine = .done [] between) (latter : List Stmt) :
    report limits debugLevel (former ++ latter) machine =
      report limits debugLevel latter between := by
  change Run.bind (program _ _ _) _ machine = Run.bind (program _ _ _) _ between
  unfold Run.bind
  rw [program_append (program_of_report runs)]

/-- A text without errors has its statements run. -/
theorem source_of_clean {limits : Limits} {text : String}
    (clean : (Program.ofSource limits.nesting text).diagnostics = []) (debugLevel : Nat) :
    source limits debugLevel text =
      report limits debugLevel (Program.ofSource limits.nesting text).statements := by
  have isClean : (Program.ofSource limits.nesting text).isClean := by
    rw [Program.isClean, clean]
    rfl
  unfold source
  exact if_pos isClean

end Run

/-! ## Lines that stand apart -/

/-- The functions that a machine holds are finitely many, so some line lies behind all their
tokens. -/
theorem Machine.exists_bound (machine : Machine) :
    ∃ bound : Int, ∀ token, machine.Holds token → token.line ≤ bound := by
  let held := (List.range machine.store.size).flatMap fun scope =>
    (machine.store.bindings scope).flatMap fun binding => binding.2.tokens
  have isHeld (token : Token) (holds : machine.Holds token) : token ∈ held := by
    obtain ⟨scope, binding, isBound, isKept⟩ := holds
    have isScope : scope < machine.store.size := by
      by_contra isNew
      rw [Store.bindings_of_size_le (Nat.not_lt.mp isNew)] at isBound
      cases isBound
    simp only [held, List.mem_flatMap, List.mem_range]
    exact ⟨scope, isScope, binding, isBound, isKept⟩
  have isBounded : ∃ bound : Int, ∀ token ∈ held, token.line ≤ bound := by
    induction held with
    | nil => exact ⟨0, List.forall_mem_nil _⟩
    | cons token tokens inductionHypothesis =>
      obtain ⟨bound, below⟩ := inductionHypothesis
      refine ⟨max bound token.line, List.forall_mem_cons.mpr ⟨Int.le_max_right _ _, ?_⟩⟩
      exact fun other isIn => Int.le_trans (below other isIn) (Int.le_max_left _ _)
  obtain ⟨bound, below⟩ := isBounded
  exact ⟨bound, fun token holds => below token (isHeld token holds)⟩

/-- A text begins on its first line. -/
theorem Source.line_of_mem_closedTokens {source : String} {token : Token}
    (isIn : token ∈ (scan source).closedTokens) : 1 ≤ token.line := by
  rcases List.mem_append.mp isIn with isToken | isEnd
  · exact (line_of_mem_scan isToken).1
  · obtain rfl := List.mem_singleton.mp isEnd
    have isEndLine :
        (scan source).endLine = lineAfter 1 ((pieces source.toList).flatMap (·.text)) :=
      placeOnto_line [] 1 _
    rw [Token.endOfText, isEndLine]
    exact le_lineAfter 1 _

/-- Where a line stands that was moved behind the bound, if it is moved by `lines` instead. Lines up
to the bound stay. -/
def putBack (bound lines line : Int) : Int :=
  if line ≤ bound then line else line - bound + lines

/-- A token in front of the bound stays where it is. -/
theorem Pairing.relined_of_le {bound lines : Int} {token : Token} (isBelow : token.line ≤ bound) :
    (relined (putBack bound lines)).Pairs token token := by
  change token = { token with line := putBack bound lines token.line }
  rw [putBack, if_pos isBelow]

/-- A token that was moved behind the bound stands for the one that was moved on. -/
theorem Pairing.relined_moved {bound lines : Int} {token : Token} (isLine : 1 ≤ token.line) :
    (relined (putBack bound lines)).Pairs (token.moved bound) (token.moved lines) := by
  change token.moved lines =
    { token.moved bound with line := putBack bound lines (token.line + bound) }
  have isBehind : ¬ token.line + bound ≤ bound := by omega
  rw [putBack, if_neg isBehind, Int.add_sub_cancel]
  rfl

/-! ## Two runs and one -/

/-- What one run of two texts, on a clock of its own, has in common with a run of the second one on
the machine that a run of the first one left. -/
structure Continues (limits : Limits) (debugLevel : Nat) (former latter : String)
    (machine between : Machine) (clock : Nat → Float) : Prop where
  /-- The statements are those of both texts. -/
  program : Program.ofSource limits.nesting (former ++ "\n" ++ latter) =
    ⟨(Program.ofSource limits.nesting former).statements ++
      ((scan latter).parseMoved limits.nesting (linesOf former)).statements, []⟩
  /-- Those of the second text are the same over the same tokens on later lines. -/
  statements : List.Forall₂ (Pairing.later (scan latter).closedTokens (linesOf former)).OnStmt
    (Program.ofSource limits.nesting latter).statements
    ((scan latter).parseMoved limits.nesting (linesOf former)).statements
  /-- The runs end alike, with the tokens of the second text on later lines. Functions that the
  first text left keep their tokens. -/
  outcome :
    let pairing := (Pairing.later (scan latter).closedTokens (linesOf former)).holding between
    let joined := Run.source limits debugLevel (former ++ "\n" ++ latter) (machine.withClock clock)
    pairing.OnOutcome (List.Forall₂ pairing.OnDiagnostic)
      (Run.source limits debugLevel latter between) (joined.withClock machine.clock)
  /-- A token of the second text may be the same as one that the first text left. To tell them
  apart, the second text is run behind all lines that are held: this run ends as both others do,
  once the lines that stand behind are put back. -/
  apart : ∃ bound : Int, (∀ token, between.Holds token → token.line ≤ bound) ∧
    (∀ token ∈ (scan latter).closedTokens, bound < (token.moved bound).line) ∧
    let behind := Run.report limits debugLevel
      ((scan latter).parseMoved limits.nesting bound).statements between
    let split := Pairing.relined (putBack bound 0)
    let together := Pairing.relined (putBack bound (linesOf former))
    let joined := Run.source limits debugLevel (former ++ "\n" ++ latter) (machine.withClock clock)
    split.OnOutcome (List.Forall₂ split.OnDiagnostic) behind
        (Run.source limits debugLevel latter between) ∧
      together.OnOutcome (List.Forall₂ together.OnDiagnostic) behind
        (joined.withClock machine.clock)
  printed :
    (Run.source limits debugLevel (former ++ "\n" ++ latter)
      (machine.withClock clock)).machine.printed =
      (Run.source limits debugLevel latter between).machine.printed

/-- The text is run alike on whatever lines its tokens stand. -/
theorem Source.Scan.onOutcome_moved {pairing : Pairing} (scan : Scan) (limits : Limits)
    (debugLevel : Nat) {machine : Machine} {lines others : Int}
    (machines : pairing.OnMachine machine machine)
    (all : ∀ token ∈ scan.closedTokens, pairing.Pairs (token.moved lines) (token.moved others)) :
    pairing.OnOutcome (List.Forall₂ pairing.OnDiagnostic)
      (Run.report limits debugLevel (scan.parseMoved limits.nesting lines).statements machine)
      (Run.report limits debugLevel (scan.parseMoved limits.nesting others).statements machine) :=
  Pairing.onRun_report limits debugLevel (scan.parseMoved_companions limits.nesting all).1 machines

/-- Two programs without errors can be run together: if the first one ends without a runtime error,
one run of both does what two runs do. The clock has to tell the one run what it tells both others:
any clock will do where they do not read it. -/
theorem source_joined {limits : Limits} {debugLevel : Nat} {former latter : String}
    {machine between : Machine} {clock : Nat → Float}
    (formerClean : (Program.ofSource limits.nesting former).diagnostics = [])
    (latterClean : (Program.ofSource limits.nesting latter).diagnostics = [])
    (notElse : Stops [.keyElse] (scan latter).tokens)
    (runs : Run.source limits debugLevel former machine = .done [] between)
    (alike : machine.TellsAlike (Run.source limits debugLevel latter between).machine clock) :
    Continues limits debugLevel former latter machine between clock := by
  have program := Program.ofSource_joined formerClean latterClean notElse
  have joinedClean :
      (Program.ofSource limits.nesting (former ++ "\n" ++ latter)).diagnostics = [] := by
    rw [program]
  rw [Run.source_of_clean formerClean] at runs
  have isSplit : Run.source limits debugLevel latter = Run.report limits debugLevel
      ((scan latter).parseMoved limits.nesting 0).statements := by
    rw [Run.source_of_clean latterClean, Program.statements_ofSource]
  have isJoined : Run.source limits debugLevel (former ++ "\n" ++ latter) machine =
      Run.report limits debugLevel
        ((scan latter).parseMoved limits.nesting (linesOf former)).statements between := by
    rw [Run.source_of_clean joinedClean, program, Run.report_append runs]
  let pairing := (Pairing.later (scan latter).closedTokens (linesOf former)).holding between
  have outcome : pairing.OnOutcome (List.Forall₂ pairing.OnDiagnostic)
      (Run.source limits debugLevel latter between)
      (Run.source limits debugLevel (former ++ "\n" ++ latter) machine) := by
    rw [isSplit, isJoined]
    exact (scan latter).onOutcome_moved limits debugLevel (Pairing.onMachine_holding _ between)
      fun _ isIn => .inl (Pairing.later_moved _ isIn)
  -- The one run takes the readings that both others take.
  have alikeJoined : machine.TellsAlike
      (Run.source limits debugLevel (former ++ "\n" ++ latter) machine).machine clock :=
    fun reading isTaken isBefore =>
      alike reading isTaken (Nat.lt_of_lt_of_eq isBefore outcome.machine.readings)
  have reads := Run.ReadsOnly.source limits debugLevel (former ++ "\n" ++ latter)
  have isPutBack := reads.putBack alikeJoined
  refine ⟨program, ?statements, ?outcome, ?apart, ?printed⟩
  case statements =>
    rw [Program.statements_ofSource]
    exact ((scan latter).parseMoved_companions _ fun _ isIn => Pairing.later_moved _ isIn).1
  case outcome =>
    dsimp only
    rwa [isPutBack]
  case apart =>
    obtain ⟨bound, below⟩ := between.exists_bound
    have putsBack (lines : Int) :=
      have machines : (Pairing.relined (putBack bound lines)).OnMachine between between :=
        Pairing.onMachine_self fun token isHeld => Pairing.relined_of_le (below token isHeld)
      (scan latter).onOutcome_moved limits debugLevel machines fun token isIn =>
        Pairing.relined_moved (line_of_mem_closedTokens isIn)
    dsimp only
    rw [isPutBack, isSplit, isJoined]
    refine ⟨bound, below, fun token isIn => ?_, putsBack 0, putsBack (linesOf former)⟩
    have isLine := line_of_mem_closedTokens isIn
    change bound < token.line + bound
    omega
  case printed =>
    rw [reads.withClock machine clock alikeJoined, Outcome.printed_withClock]
    exact outcome.machine.printed

/-- A function is declared in one run and called in the next, where it asks for a name that is not
bound: in one run of both texts the call stands on the second line, the name still on the first.
Nothing reads the clock. -/
theorem source_joined_call :
    let name : Token := ⟨.identifier, "f", .nil, 1⟩
    let body : Stmt :=
      .ret ⟨.keyReturn, "return", .nil, 1⟩ (some (.reference ⟨.identifier, "x", .nil, 1⟩))
    let machine := Machine.initial fun _ => 0
    Continues ⟨6, 0⟩ 0 "fun f() \x7b return x; \x7d" "f();" machine
      (machine.defineCallable "f" (.function ⟨name, [], [body]⟩ Store.globals)) fun _ => 1 := by
  intro name body machine
  have former :
      Program.ofSource 6 "fun f() \x7b return x; \x7d" = ⟨[.function name [] [body]], []⟩ := by
    cbv
  have formerClean : (Program.ofSource 6 "fun f() \x7b return x; \x7d").diagnostics = [] := by
    rw [former]
  have notElse : Stops [.keyElse] (scan "f();").tokens := by
    rintro _ ⟨⟩
    decide
  have latter : Program.ofSource 6 "f();" = ⟨[.expression (.call (.reference name)
      ⟨.rightParen, ")", .nil, 1⟩ [])], []⟩ := by cbv
  have latterClean : (Program.ofSource 6 "f();").diagnostics = [] := by rw [latter]
  refine source_joined formerClean latterClean notElse ?_ (Machine.tellsAlike_of_readings_eq ?_ _)
  · rw [Run.source, former]
    rfl
  · rw [Run.source, latter]
    rfl

/-- Where the clock has gone on from two runs to the one of both texts, a program that prints it
tells them apart. -/
theorem joined_at_another_time :
    let between : Machine :=
      { Machine.initial fun _ => 0 with readings := 1, events := #[.printed "0"] }
    (Program.ofSource 8 "print clock();").diagnostics = [] ∧
      (Program.ofSource 8 "nil;").diagnostics = [] ∧
      Run.source ⟨8, 0⟩ 0 "print clock();" (.initial fun _ => 0) = .done [] between ∧
      (Run.source ⟨8, 0⟩ 0 "nil;" between).machine.printed = ["0"] ∧
      (Run.source ⟨8, 0⟩ 0 ("print clock();" ++ "\n" ++ "nil;")
        (.initial fun _ => 1)).machine.printed = ["1"] := by
  intro between
  have former : Program.ofSource 8 "print clock();" = ⟨[.printTime], []⟩ := by cbv
  have latter : Program.ofSource 8 "nil;" = ⟨[.expression (.literal .nil)], []⟩ := by cbv
  have joined : Program.ofSource 8 ("print clock();" ++ "\n" ++ "nil;") =
      ⟨[.printTime, .expression (.literal .nil)], []⟩ := by cbv
  refine ⟨by rw [former], by rw [latter], ?_, ?_, ?_⟩
  · rw [Run.source, former]
    simp only [between, ← display_reading.1]
    rfl
  · rw [Run.source, latter]
    rfl
  · rw [Run.source, joined, ← display_reading.2]
    rfl

end LoxLang
