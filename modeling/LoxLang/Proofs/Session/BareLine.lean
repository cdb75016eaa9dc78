import LoxLang.Proofs.Grammar.BareExpression
import LoxLang.Proofs.Session.Continuation
import LoxLang.Proofs.Session.Limits
import LoxLang.Proofs.Session.Readings

/-!
# Bare lines

A line of a dialogue may be one bare expression. It is that exactly if it is an expression statement
with a semicolon on a line of its own behind it, and then it is no program: `isBare_iff_statement`.
Its value is written as a statement would print it: `runLine_echoes`. The host writes it to standard
output also where the program has an output of its own.
-/

namespace LoxLang

open BigStep Grammar Rule Source

/-! ## Texts -/

/-- A semicolon on a line of its own is one more token. -/
theorem Source.scan_semicolon {line : String}
    (closed : ∀ error ∈ (scan line).errors, error.problem ≠ .unterminatedString) :
    ∃ semicolon : Token, semicolon.kind = .semicolon ∧
      scan (line ++ "\n" ++ ";") =
        ⟨(scan line).tokens ++ [semicolon], semicolon.line, (scan line).errors⟩ := by
  let semicolon : Token := ⟨.semicolon, ";", .nil, 1⟩
  have isSemicolon : scan ";" = ⟨[semicolon], 1, []⟩ := by cbv
  have joined := scan_joined closed ";"
  rw [isSemicolon] at joined
  refine ⟨semicolon.moved (linesOf line), rfl, joined.trans ?_⟩
  simp [linesOf, Token.moved, semicolon]

/-- A text is scanned without an error if it is so in front of a semicolon. -/
theorem Source.scanned_of_semicolon {line : String}
    (scanned : (scan (line ++ "\n" ++ ";")).errors = []) : (scan line).errors = [] := by
  by_cases closed : ∀ error ∈ (scan line).errors, error.problem ≠ .unterminatedString
  · obtain ⟨semicolon, -, joined⟩ := scan_semicolon closed
    rwa [joined] at scanned
  · -- The string goes on to the end of the longer text, where it is reported as well.
    push Not at closed
    have noQuote : '"' ∉ ['\n', ';'] := by decide
    have unclosed := unclosed_append (.inr (.inl rfl)) noQuote (unterminated_iff.mp closed)
    have isText : (line ++ "\n" ++ ";").toList = line.toList ++ ['\n', ';'] := by
      simp [String.toList_append]
    rw [← isText] at unclosed
    obtain ⟨error, isIn, -⟩ := unterminated_iff.mpr unclosed
    have isReported : error ∈ (scan (line ++ "\n" ++ ";")).errors := isIn
    rw [scanned] at isReported
    cases isReported

/-- The keyword of a print statement in front of a text is one more token. -/
theorem Source.scan_print (line : String) :
    scan ("print " ++ line) =
      ⟨⟨.keyPrint, "print", .nil, 1⟩ :: (scan line).tokens, (scan line).endLine,
        (scan line).errors⟩ := by
  have isKeyword : pieces "print".toList = [⟨.lexeme .keyPrint, "print".toList⟩] := by cbv
  have separates : ∀ piece ∈ (pieces "print".toList).getLast?, Separates ' ' piece := by
    rw [isKeyword]
    rintro _ ⟨⟩
    exact ⟨by decide, by decide, by decide⟩
  have whole := pieces_append (.inl (.inl rfl)) separates line.toList
  have isBlank : cut ' ' line.toList = (⟨.blank, [' ']⟩, line.toList) :=
    front_iff.mp (.blank rfl (.inl rfl))
  rw [pieces_cons, isBlank, isKeyword] at whole
  have isText : ("print " ++ line).toList = "print".toList ++ ' ' :: line.toList := by
    rw [String.toList_append]
    rfl
  have isLine : scanOf 1 (pieces line.toList) = scan line := rfl
  have sameLine : lineAfter (lineAfter 1 "print".toList) [' '] = 1 := by decide
  rw [scan, scanFrom_eq, isText, whole]
  simp only [List.cons_append, List.nil_append, scanOf_cons, sameLine, isLine]
  rfl

/-! ## Bare expressions -/

/-- A text is scanned and read as one expression without an error. -/
structure IsBare (limit : Nat) (text : String) (expr : Expr) : Prop where
  scanned : (scan text).errors = []
  parsed : parseExpression limit (scan text).tokens (scan text).endLine = (some expr, [])

/-- A line is taken for an expression if it consists of that expression and of nothing else. -/
theorem bareExpression?_eq_some_iff {limits : Limits} {text : String} {expr : Expr} :
    Run.bareExpression? limits text = some expr ↔ IsBare limits.nesting text expr := by
  unfold Run.bareExpression?
  dsimp only
  constructor
  · intro isBare
    split at isBare
    next scanned =>
      split at isBare
      next found parsed =>
        obtain rfl := Option.some.inj isBare
        exact ⟨List.isEmpty_iff.mp scanned, parsed⟩
      next => exact nomatch isBare
    next => exact nomatch isBare
  · rintro ⟨scanned, parsed⟩
    rw [scanned, parsed]
    rfl

/-- A text is a clean program if its tokens are read as one and nothing is wrong with its lexemes.
-/
theorem Program.ofSource_eq_iff {limit : Nat} {text : String} {statements : List Stmt} :
    ofSource limit text = ⟨statements, []⟩ ↔ (scan text).errors = [] ∧
      parse limit (scan text).tokens (scan text).endLine = ⟨statements, []⟩ := by
  unfold ofSource
  dsimp only
  obtain ⟨found, errors⟩ := parse limit (scan text).tokens (scan text).endLine
  simp only [mk.injEq, Parsed.mk.injEq, List.append_eq_nil_iff, List.map_eq_nil_iff]
  exact and_left_comm

/-- A text with a semicolon behind it is a program if the grammar derives it and nothing in it is
nested too deep. -/
theorem Program.ofSource_semicolon {limit : Nat} {text : String} {statements : List Stmt}
    (scanned : (scan text).errors = [])
    (derives : ∀ semicolon : Token, semicolon.kind = .semicolon →
      Derives ((scan text).tokens ++ [semicolon]) statements)
    (within : ∀ diagnostic ∈ (ofSource limit (text ++ "\n" ++ ";")).diagnostics,
      diagnostic.message ≠ "Too much nesting.") :
    ofSource limit (text ++ "\n" ++ ";") = ⟨statements, []⟩ := by
  obtain ⟨semicolon, ends, joined⟩ := @scan_semicolon text (by simp [scanned])
  have isDerived : Derives (scan (text ++ "\n" ++ ";")).tokens statements := by
    rw [joined]
    exact derives semicolon ends
  refine ofSource_eq_iff.mpr ⟨by rw [joined, scanned], ?_⟩
  exact parse_eq_of_withinNesting (withinNesting_of_diagnostics within) isDerived

namespace IsBare

variable {limit : Nat} {line : String} {expr : Expr}

/-- A bare line is a phrase of the grammar. -/
theorem phrase (isBare : IsBare limit line expr) : Phrase .assignment (scan line).tokens expr :=
  phrase_of_parseExpression isBare.parsed

/-- A bare expression is no program. -/
theorem not_clean (isBare : IsBare limit line expr) :
    (Program.ofSource limit line).diagnostics ≠ [] := by
  intro clean
  have parsed := (Program.diagnostics_eq_nil_iff.mp clean).2
  exact not_derives_of_phrase isBare.phrase _ (derives_of_parse (congrArg (Parsed.mk _) parsed))

/-- With a semicolon behind it, a bare expression is a statement. -/
theorem statement (isBare : IsBare limit line expr)
    (within : ∀ diagnostic ∈ (Program.ofSource limit (line ++ "\n" ++ ";")).diagnostics,
      diagnostic.message ≠ "Too much nesting.") :
    Program.ofSource limit (line ++ "\n" ++ ";") = ⟨[.expression expr], []⟩ :=
  Program.ofSource_semicolon isBare.scanned
    (fun _ ends => (derives_expression_iff ends).mpr isBare.phrase) within

/-- A line is a bare expression if it is a statement with a semicolon behind it. -/
theorem of_statement
    (isStatement : Program.ofSource limit (line ++ "\n" ++ ";") = ⟨[.expression expr], []⟩) :
    IsBare limit line expr := by
  obtain ⟨scannedWhole, parsed⟩ := Program.ofSource_eq_iff.mp isStatement
  have scanned := scanned_of_semicolon scannedWhole
  obtain ⟨semicolon, ends, joined⟩ := @scan_semicolon line (by simp [scanned])
  rw [joined] at parsed
  exact ⟨scanned, parseExpression_of_parse ends parsed _⟩

/-- Between the keyword and the semicolon of a print statement, a bare expression is printed. -/
theorem printed (isBare : IsBare limit line expr)
    (within : ∀ diagnostic ∈ (Program.ofSource limit ("print " ++ line ++ "\n" ++ ";")).diagnostics,
      diagnostic.message ≠ "Too much nesting.") :
    Program.ofSource limit ("print " ++ line ++ "\n" ++ ";") = ⟨[.print expr], []⟩ := by
  refine Program.ofSource_semicolon (by rw [scan_print, isBare.scanned]) ?_ within
  intro semicolon ends
  rw [scan_print]
  exact derives_singleton (.statement (.print rfl isBare.phrase ends))

/-- A print statement is no bare expression. -/
theorem not_print (limit : Nat) (line : String) (expr : Expr) :
    ¬ IsBare limit ("print " ++ line ++ "\n" ++ ";") expr := by
  intro isBare
  have scanned := scanned_of_semicolon isBare.scanned
  obtain ⟨semicolon, -, joined⟩ := @scan_semicolon ("print " ++ line) (by simp [scanned])
  have starts := isBare.phrase.startsWith
  rw [joined, scan_print] at starts
  obtain ⟨first, more, isFirst, isStart⟩ := starts
  obtain ⟨rfl, -⟩ := List.cons.inj isFirst
  exact absurd isStart (by decide)

end IsBare

/-- A line is a bare expression exactly if it is the statement of that expression with a semicolon
behind it, on condition that this is not nested too deep. A bare expression is no program. -/
theorem isBare_iff_statement {limit : Nat} {line : String}
    (within : ∀ diagnostic ∈ (Program.ofSource limit (line ++ "\n" ++ ";")).diagnostics,
      diagnostic.message ≠ "Too much nesting.") (expr : Expr) :
    (IsBare limit line expr ↔
      Program.ofSource limit (line ++ "\n" ++ ";") = ⟨[.expression expr], []⟩) ∧
    (IsBare limit line expr → (Program.ofSource limit line).diagnostics ≠ []) :=
  ⟨⟨fun isBare => isBare.statement within, .of_statement⟩, fun isBare => isBare.not_clean⟩

/-- A sum with a comment behind it, which the semicolon does not go into. -/
theorem isBare_iff_statement_comment :
    let a : Token := ⟨.identifier, "a", .nil, 1⟩
    let sum : Expr := .binary (.reference a) ⟨.plus, "+", .nil, 1⟩ (.reference a)
    IsBare 6 "a + a // b" sum ∧
      Program.ofSource 6 ("a + a // b" ++ "\n" ++ ";") = ⟨[.expression sum], []⟩ ∧
      (Program.ofSource 6 "a + a // b").diagnostics ≠ [] := by
  intro a sum
  have isStatement :
      Program.ofSource 6 ("a + a // b" ++ "\n" ++ ";") = ⟨[.expression sum], []⟩ := by
    cbv
  have within : ∀ diagnostic ∈ (Program.ofSource 6 ("a + a // b" ++ "\n" ++ ";")).diagnostics,
      diagnostic.message ≠ "Too much nesting." := by
    rw [isStatement]
    exact List.forall_mem_nil _
  obtain ⟨iff, disjoint⟩ := isBare_iff_statement within sum
  have isBare := iff.mpr isStatement
  exact ⟨isBare, isStatement, disjoint isBare⟩

/-! ## Lines of a dialogue -/

namespace Run

/-- Writes what a computation gives as the line of an event, and gives the runtime error if there
is one. -/
def showing (event : String → Event) (run : Run Value) : Run (List Diagnostic) := fun machine =>
  match run machine with
  | .done value machine => .done [] (machine.emit (event value.display))
  | .halted (.failed error) machine => .done [error.diagnostic] machine
  | .halted halt machine => .halted halt machine

variable {limits : Limits} {debugLevel : Nat} {text : String}

/-- A clean line runs its program. -/
theorem line_of_clean {statements : List Stmt}
    (clean : Program.ofSource limits.nesting text = ⟨statements, []⟩) :
    line limits debugLevel text = (do
      let error ← program limits debugLevel statements
      return error.toList.map (·.diagnostic)) := by
  unfold line
  rw [clean]
  rfl

/-- A bare line shows the value of its expression. -/
theorem line_of_isBare {expr : Expr} (isBare : IsBare limits.nesting text expr) :
    line limits debugLevel text = showing .echoed
      (evaluate (limits.settings debugLevel) limits.nesting Store.globals expr) := by
  have broken : (Program.ofSource limits.nesting text).isClean = false :=
    List.isEmpty_eq_false_iff.mpr isBare.not_clean
  unfold line
  dsimp only
  rw [broken, bareExpression?_eq_some_iff.mpr isBare]
  change echo limits debugLevel expr = _
  funext machine
  unfold echo showing expression
  cases evaluate (limits.settings debugLevel) limits.nesting Store.globals expr machine with
  | done value final => rfl
  | halted halt final => cases halt <;> rfl

/-- A line that is neither a program nor an expression reports what is wrong with it. -/
theorem line_of_broken (broken : (Program.ofSource limits.nesting text).diagnostics ≠ [])
    (notBare : ∀ expr, ¬ IsBare limits.nesting text expr) :
    line limits debugLevel text = pure (Program.ofSource limits.nesting text).diagnostics := by
  have notClean : (Program.ofSource limits.nesting text).isClean = false :=
    List.isEmpty_eq_false_iff.mpr broken
  have isNone : bareExpression? limits text = none :=
    Option.eq_none_iff_forall_ne_some.mpr fun expr isSome =>
      notBare expr (bareExpression?_eq_some_iff.mp isSome)
  unfold line
  dsimp only
  rw [notClean, isNone]
  rfl

/-- Without messages, a print statement does what is done with a bare expression, on a stack that is
smaller by one. -/
theorem program_print {stack : Nat} (deep : limits.nesting = stack + 1) (expr : Expr)
    (machine : Machine) :
    (do
      let error ← program limits 0 [.print expr]
      return error.toList.map (·.diagnostic) : Run (List Diagnostic)) machine =
      showing .printed (evaluate (limits.settings 0) stack Store.globals expr) machine := by
  change Run.bind (program limits 0 [.print expr]) _ machine = _
  unfold Run.bind program showing
  rw [deep]
  simp only [statements, execute, bind, Run.bind]
  cases evaluate (limits.settings 0) stack Store.globals expr machine with
  | done value final => rfl
  | halted halt final => cases halt <;> rfl

/-- What a step gave was neither cut off by a limit nor is it the report of one. -/
inductive WithinLimits : Except Halt (List Diagnostic) → Prop where
  | ok {diagnostics : List Diagnostic}
      (unlimited : ∀ diagnostic ∈ diagnostics,
        diagnostic.message ≠ "Stack overflow." ∧ diagnostic.message ≠ "Too much nesting.") :
      WithinLimits (.ok diagnostics)
  | error {halt : Halt} (noLimit : ¬ IsLimit halt) : WithinLimits (.error halt)

/-- A larger stack changes nothing of what is shown within the limits, by whatever event. -/
theorem Refined.showing {small large : Run Value} (refined : Run.Refined small large)
    {machine : Machine} {event : String → Event}
    (within : WithinLimits (ending (small.showing event machine))) (other : String → Event) :
    large.showing other machine = small.showing other machine := by
  unfold Run.showing at within ⊢
  obtain ⟨halt, isHalt, isLimit⟩ | same := refined machine
  · cases result : small machine with
    | done value final =>
      rw [result] at isHalt
      cases isHalt
    | halted other final =>
      rw [result] at isHalt within
      obtain rfl := Except.error.inj isHalt
      cases other with
      | failed error =>
        have isOverflow : error.fault = .stackOverflow := isLimit
        cases within with
        | ok unlimited =>
          refine absurd ?_ (unlimited error.diagnostic (List.mem_singleton_self _)).1
          rw [RuntimeError.diagnostic, RuntimeError.message, isOverflow]
      | _ =>
        cases within with
        | error noLimit => exact absurd isLimit noLimit
  · rw [same]

end Run

namespace Session

variable {α : Type}

/-- A step of a session ends as its run does. -/
theorem result_perform (session : Session) (run : Run α) :
    (session.perform run).1.result = ending (run { session.machine with events := #[] }) := by
  unfold perform
  dsimp only
  cases run { session.machine with events := #[] } <;> rfl

/-- Runs that do the same on the machine of a session are the same step of it. -/
theorem perform_congr {session : Session} {run other : Run α}
    (same : run { session.machine with events := #[] } =
      other { session.machine with events := #[] }) :
    session.perform run = session.perform other := by
  unfold perform
  dsimp only
  rw [same]

/-- A step that only gives a value writes nothing. -/
theorem perform_pure (session : Session) (value : α) :
    session.perform (pure value) = (⟨.ok value, .silent⟩, session.fresh) := rfl

/-- A line that the host writes is written where the program prints, if the program has no output of
its own. -/
theorem perform_showing (session : Session) (run : Run Value) :
    let echoed := session.perform (run.showing .echoed)
    let printed := session.perform (run.showing .printed)
    echoed.1.result = printed.1.result ∧
      (session.ownOutput = false → echoed.1.transcript = printed.1.transcript) ∧
      echoed.2.fresh = printed.2.fresh := by
  unfold perform Run.showing
  dsimp only
  cases run { session.machine with events := #[] } with
  | done value final =>
    refine ⟨rfl, fun noOwn => ?_, rfl⟩
    simp only [Machine.emit, Transcript.ofEvents, Array.foldl_push, Transcript.add, noOwn]
    rfl
  | halted halt final => cases halt <;> exact ⟨rfl, fun _ => rfl, rfl⟩

variable {session : Session} {line : String} {expr : Expr}

/-- A line within the limits has no report of too much nesting, even if it is not run. -/
theorem notNested_of_within
    (within : Run.WithinLimits (session.runLine line).1.result)
    (notBare : ∀ expr, ¬ IsBare session.limits.nesting line expr) :
    ∀ diagnostic ∈ (Program.ofSource session.limits.nesting line).diagnostics,
      diagnostic.message ≠ "Too much nesting." := by
  intro diagnostic member
  have broken := List.ne_nil_of_mem member
  rw [runLine, Run.line_of_broken broken notBare, perform_pure] at within
  cases within with
  | ok unlimited => exact (unlimited diagnostic member).2

/-- Without a stack no statement is run. -/
theorem nesting_pos {statement : Stmt}
    (clean : Program.ofSource session.limits.nesting line = ⟨[statement], []⟩)
    (within : Run.WithinLimits (session.runLine line).1.result) : 0 < session.limits.nesting := by
  refine Nat.pos_of_ne_zero fun isZero => ?_
  have overflows (machine : Machine) :
      Run.program session.limits session.debugLevel [statement] machine =
        .halted .overflow machine := by
    unfold Run.program
    rw [isZero]
    rfl
  rw [runLine, result_perform, Run.line_of_clean clean] at within
  change Run.WithinLimits (ending (Run.bind _ _ _)) at within
  unfold Run.bind at within
  rw [overflows] at within
  cases within with
  | error noLimit => exact noLimit trivial

/-- The value of a bare expression is written as a print statement prints it. -/
theorem runLine_of_isBare (isBare : IsBare session.limits.nesting line expr)
    (quiet : session.debugLevel = 0)
    (within : Run.WithinLimits (session.runLine ("print " ++ line ++ "\n" ++ ";")).1.result) :
    let echoed := session.runLine line
    let printed := session.runLine ("print " ++ line ++ "\n" ++ ";")
    echoed.1.result = printed.1.result ∧
      (session.ownOutput = false → echoed.1.transcript = printed.1.transcript) ∧
      echoed.2.fresh = printed.2.fresh := by
  have notNested := notNested_of_within within (IsBare.not_print _ line)
  have clean := isBare.printed notNested
  obtain ⟨stack, deep⟩ := Nat.exists_eq_add_one.mpr (nesting_pos clean within)
  let evaluated := evaluate (session.limits.settings 0) stack Store.globals expr
  have isPrinted :
      Run.line session.limits session.debugLevel ("print " ++ line ++ "\n" ++ ";") =
        evaluated.showing .printed := by
    rw [Run.line_of_clean clean, quiet]
    funext machine
    exact Run.program_print deep expr machine
  rw [runLine, result_perform, isPrinted] at within
  have larger : stack ≤ session.limits.nesting := deep ▸ Nat.le_succ stack
  have same : (session.limits.settings 0).Within (session.limits.settings 0) := ⟨rfl, Nat.le_refl _⟩
  have isEchoed : session.runLine line = session.perform (evaluated.showing .echoed) := by
    refine perform_congr ?_
    rw [Run.line_of_isBare isBare, quiet]
    exact ((stable same larger).evaluate Store.globals expr).showing within .echoed
  rw [isEchoed, runLine, isPrinted]
  exact session.perform_showing evaluated

/-- A line that is neither a program nor a bare expression is reported and does nothing. -/
theorem runLine_of_broken
    (broken : (Program.ofSource session.limits.nesting line).diagnostics ≠ [])
    (notBare : ∀ expr, ¬ IsBare session.limits.nesting line expr) :
    session.runLine line =
      (⟨.ok (Program.ofSource session.limits.nesting line).diagnostics, .silent⟩,
        session.fresh) := by
  rw [runLine, Run.line_of_broken broken notBare, perform_pure]

end Session

/-- A bare expression is echoed as a print statement prints it: without messages, the line and the
print statement around it report the same and leave the same session behind, also where a runtime
error ends both, and they write the same to the same output if the program has none of its own. The
clock has to tell the line what it tells the statement: any clock will do where the statement does
not read it. A line that is neither a program nor a bare expression writes nothing, has everything
reported that is wrong with it as a program, and leaves the session as it is, with nothing written
in this step. -/
theorem runLine_echoes (session : Session) (line : String) :
    (∀ expr, IsBare session.limits.nesting line expr → session.debugLevel = 0 →
      let printed := session.runLine ("print " ++ line ++ "\n" ++ ";")
      Run.WithinLimits printed.1.result →
      ∀ clock, session.machine.TellsAlike printed.2.machine clock →
        let echoed := (session.withClock clock).runLine line
        echoed.1.result = printed.1.result ∧
          (session.ownOutput = false → echoed.1.transcript = printed.1.transcript) ∧
          echoed.2.fresh = (printed.2.withClock clock).fresh) ∧
    ((Program.ofSource session.limits.nesting line).diagnostics ≠ [] →
      (∀ expr, ¬ IsBare session.limits.nesting line expr) →
        session.runLine line =
          (⟨.ok (Program.ofSource session.limits.nesting line).diagnostics, .silent⟩,
            session.fresh)) := by
  refine ⟨fun expr isBare quiet => ?_, Session.runLine_of_broken⟩
  have isEchoed := @Session.runLine_of_isBare session line expr isBare quiet
  dsimp only at isEchoed ⊢
  generalize session.runLine ("print " ++ line ++ "\n" ++ ";") = printed at isEchoed ⊢
  intro within clock alike
  obtain ⟨sameResult, sameTranscript, sameSession⟩ := isEchoed within
  have sameReadings := Session.readings_eq_of_fresh sameSession
  have alikeLine : session.machine.TellsAlike (session.runLine line).2.machine clock :=
    fun reading isTaken isBefore => alike reading isTaken (Nat.lt_of_lt_of_eq isBefore sameReadings)
  have isMoved : (session.withClock clock).runLine line =
      ((session.runLine line).1, (session.runLine line).2.withClock clock) :=
    Session.perform_withClock (.line _ _ _) alikeLine
  rw [isMoved]
  refine ⟨sameResult, sameTranscript, ?_⟩
  rw [Session.fresh_withClock, Session.fresh_withClock, sameSession]

/-- An assignment, the same under an operator that then fails, and a line with a further name behind
one. Nothing reads the clock. -/
theorem runLine_echoes_assignment :
    let session := (Session.start ⟨8, 0⟩ 0 (fun _ => 0) false).define "a" .nil
    let later := session.withClock fun _ => 1
    let assigned := later.runLine "a = \"x\""
    let failed := later.runLine "-(a = \"x\")"
    assigned.1 = ⟨.ok [], "x\n", "", ""⟩ ∧
      assigned.2.machine.store.lookup? Store.globals "a" = some (.text "x") ∧
      failed.1 = ⟨.ok [⟨.running, 1, "Operand must be a number.", "at '-'"⟩], .silent⟩ ∧
      failed.2.machine.store.lookup? Store.globals "a" = some (.text "x") ∧
      session.runLine "a a" =
        (⟨.ok [⟨.parsing, 1, "Expect ';' after expression.", "at 'a'"⟩], .silent⟩, session) := by
  intro session later assigned failed
  have isNesting : session.limits.nesting = 8 := rfl
  let assignment : Expr := .assign ⟨.identifier, "a", .nil, 1⟩ (.literal (.text "x"))
  have isBare : IsBare 8 "a = \"x\"" assignment := ⟨by cbv, by cbv⟩
  have isBareFailing :
      IsBare 8 "-(a = \"x\")" (.unary ⟨.minus, "-", .nil, 1⟩ (.grouping assignment)) :=
    ⟨by cbv, by cbv⟩
  -- Both lines are told from the statements that print them, which are run here. The session is any
  -- one, so that it is not run again where its parts are compared.
  have echoes (session : Session) {line : String} {expr : Expr}
      (isBare : IsBare session.limits.nesting line expr) (quiet : session.debugLevel = 0)
      (noOwn : session.ownOutput = false) {diagnostics : List Diagnostic} {written : Transcript}
      (prints : (session.runLine ("print " ++ line ++ "\n" ++ ";")).1 = ⟨.ok diagnostics, written⟩)
      (unlimited : ∀ diagnostic ∈ diagnostics,
        diagnostic.message ≠ "Stack overflow." ∧ diagnostic.message ≠ "Too much nesting.")
      (unread : (session.runLine ("print " ++ line ++ "\n" ++ ";")).2.machine.readings =
        session.machine.readings) :
      ((session.withClock fun _ => 1).runLine line).1 = ⟨.ok diagnostics, written⟩ ∧
        ((session.withClock fun _ => 1).runLine line).2.machine.store =
          (session.runLine ("print " ++ line ++ "\n" ++ ";")).2.machine.store := by
    have within : Run.WithinLimits
        (session.runLine ("print " ++ line ++ "\n" ++ ";")).1.result := by
      rw [prints]
      exact .ok unlimited
    obtain ⟨sameResult, sameTranscript, sameSession⟩ := (runLine_echoes session line).1 expr isBare
      quiet within (fun _ => 1) (Machine.tellsAlike_of_readings_eq unread _)
    have sameStore := Session.store_eq_of_fresh sameSession
    rw [Session.store_withClock] at sameStore
    refine ⟨?_, sameStore⟩
    generalize (session.withClock fun _ => 1).runLine line = echoed at sameResult sameTranscript ⊢
    change Session.Step.mk echoed.1.result echoed.1.transcript = _
    rw [sameResult, sameTranscript noOwn, prints]
  have prints : (session.runLine ("print " ++ "a = \"x\"" ++ "\n" ++ ";")).1 =
      ⟨.ok [], "x\n", "", ""⟩ := by cbv
  have printsFailing : (session.runLine ("print " ++ "-(a = \"x\")" ++ "\n" ++ ";")).1 =
      ⟨.ok [⟨.running, 1, "Operand must be a number.", "at '-'"⟩], .silent⟩ := by cbv
  have unread : (session.runLine
      ("print " ++ "a = \"x\"" ++ "\n" ++ ";")).2.machine.readings = 0 := by cbv
  have unreadFailing : (session.runLine
      ("print " ++ "-(a = \"x\")" ++ "\n" ++ ";")).2.machine.readings = 0 := by cbv
  obtain ⟨assigns, sameStore⟩ :=
    echoes session isBare rfl rfl prints (List.forall_mem_nil _) unread
  obtain ⟨fails, sameStoreFailing⟩ := echoes session isBareFailing rfl rfl printsFailing
    (List.forall_mem_singleton.mpr ⟨by decide, by decide⟩) unreadFailing
  refine ⟨assigns, ?_, fails, ?_, ?_⟩
  · rw [sameStore]
    cbv
  · rw [sameStoreFailing]
    cbv
  · obtain ⟨-, reports⟩ := runLine_echoes session "a a"
    rw [isNesting] at reports
    have diagnostics : (Program.ofSource 8 "a a").diagnostics =
        [⟨.parsing, 1, "Expect ';' after expression.", "at 'a'"⟩] := rfl
    have notExpression :
        (parseExpression 8 (scan "a a").tokens (scan "a a").endLine).1 = none := rfl
    rw [diagnostics] at reports
    refine reports (List.cons_ne_nil _ _) fun expr isBare => ?_
    rw [isBare.parsed] at notExpression
    cases notExpression

/-- Where the clock has gone on from the statement to the line, a line that reads it shows another
time. Where the program has an output of its own, the statement writes to it and the line does
not. -/
theorem line_unlike_statement :
    let session := Session.start ⟨8, 0⟩ 0 (fun _ => 0) false
    let apart := Session.start ⟨8, 0⟩ 0 (fun _ => 0) true
    IsBare 8 "clock()" (.call (.reference ⟨.identifier, "clock", .nil, 1⟩)
        ⟨.rightParen, ")", .nil, 1⟩ []) ∧
      ((session.withClock fun _ => 1).runLine "clock()").1.transcript.output = "1\n" ∧
      (session.runLine ("print " ++ "clock()" ++ "\n" ++ ";")).1.transcript.output = "0\n" ∧
      IsBare 8 "nil" (.literal .nil) ∧
      (apart.runLine "nil").1.transcript.output = "nil\n" ∧
      (apart.runLine ("print " ++ "nil" ++ "\n" ++ ";")).1.transcript.output = "" := by
  intro session apart
  have isBare : IsBare 8 "clock()" (.call (.reference ⟨.identifier, "clock", .nil, 1⟩)
      ⟨.rightParen, ")", .nil, 1⟩ []) := ⟨by cbv, by cbv⟩
  have isStatement : Program.ofSource 8 ("print " ++ "clock()" ++ "\n" ++ ";") =
      ⟨[.printTime], []⟩ := by cbv
  have isBareNil : IsBare 8 "nil" (.literal .nil) := ⟨by cbv, by cbv⟩
  have isStatementNil : Program.ofSource 8 ("print " ++ "nil" ++ "\n" ++ ";") =
      ⟨[.print (.literal .nil)], []⟩ := by cbv
  have echoed : ((session.withClock fun _ => 1).runLine "clock()").1.transcript.output =
      "" ++ Number.display 1 ++ "\n" := by
    rw [Session.runLine, Run.line_of_isBare isBare]
    rfl
  have printed : (session.runLine
      ("print " ++ "clock()" ++ "\n" ++ ";")).1.transcript.output =
        "" ++ Number.display 0 ++ "\n" := by
    rw [Session.runLine, Run.line_of_clean isStatement]
    rfl
  rw [display_reading.2] at echoed
  rw [display_reading.1] at printed
  refine ⟨isBare, echoed, printed, isBareNil, ?_, ?_⟩
  · rw [Session.runLine, Run.line_of_isBare isBareNil]
    rfl
  · rw [Session.runLine, Run.line_of_clean isStatementNil]
    rfl

end LoxLang
