import LoxLang.Proofs.Evaluation.Stability
import LoxLang.Proofs.Grammar.Completeness
import LoxLang.Proofs.Session.BlankScope

/-!
# What a `for` loop means

A `for` loop is read as a block with a `while` loop in it. `executeFor` says what it is to do, with
no such tree: one scope is opened for the loop, the initializer is executed in it once, and then, as
long as the condition holds there, the body is executed and the increment evaluated, all in the same
scope. The tree opens one more scope in each turn that has an increment, and none at all for a loop
without an initializer. Its body, which is a statement and no declaration, binds nothing in these
scopes, so that nothing shows of them.
-/

namespace LoxLang

open BigStep Matching

/-! ## The loops of the grammar -/

namespace Grammar

/-- The tokens are a `for` loop with these clauses and this body. -/
inductive ForStatement : List Token → ForClauses → Stmt → Prop where
  | intro {inFunction isOpen : Bool} {keyword opening semicolon closing : Token}
      {starts conditions increments bodies : List Token} {clauses : ForClauses} {body : Stmt}
      (isFor : keyword.kind = .keyFor) (opens : opening.kind = .leftParen)
      (initializes : ForInitializer starts clauses.start)
      (tested : OptionalPhrase conditions clauses.condition) (ends : semicolon.kind = .semicolon)
      (increases : OptionalPhrase increments clauses.increment)
      (closes : closing.kind = .rightParen)
      (repeats : Sentence inFunction (.statement isOpen) bodies body) :
      ForStatement (keyword :: opening :: starts ++ conditions ++ semicolon :: increments
        ++ closing :: bodies) clauses body

/-- A sentence that begins with `for` is a for loop of the grammar, with its clauses and its body.
-/
theorem forStatement_of_sentence {inFunction isOpen : Bool} {keyword : Token} {tokens : List Token}
    {tree : Stmt} (isFor : keyword.kind = .keyFor)
    (sentence : Sentence inFunction (.statement isOpen) (keyword :: tokens) tree) :
    ∃ clauses body, ForStatement (keyword :: tokens) clauses body ∧ tree = clauses.around body := by
  generalize same : keyword :: tokens = all at sentence
  cases sentence with
  | expression evaluated =>
    obtain ⟨first, more, rfl, isFirst⟩ := evaluated.startsWith
    obtain ⟨rfl, -⟩ := List.cons.inj same
    rw [isFor] at isFirst
    exact absurd isFirst (by decide)
  | @forLoop _ _ _ _ _ _ _ _ _ _ start condition increment body _ opens initializes tested ends
      increases closes repeats =>
    obtain ⟨rfl, -⟩ := List.cons.inj same
    exact ⟨⟨start, condition, increment⟩, body,
      .intro isFor opens initializes tested ends increases closes repeats, forTree_eq ..⟩
  | print isOther | ret isOther | block isOther | loop isOther | ifThen isOther | ifElse isOther =>
    obtain ⟨rfl, -⟩ := List.cons.inj same
    cases isFor.symm.trans isOther

/-- A statement that is no declaration binds nothing in its own scope. -/
theorem Sentence.bindsNothing {inFunction : Bool} {form : Form} {tokens : List Token} {tree : Stmt}
    (sentence : Sentence inFunction form tokens tree) (notDeclaration : form ≠ .declaration) :
    tree.BindsNothing := by
  induction sentence with
  | function | var | statement => exact absurd rfl notDeclaration
  | expression evaluated =>
    obtain ⟨phrase, ends⟩ := evaluated
    exact .expression _
  | print => exact .print _
  | ret => exact .ret _ _
  | block => exact .block _
  | loop _ _ _ _ _ inductionHypothesis => exact .loop _ (inductionHypothesis nofun)
  | @forLoop _ _ _ _ _ _ _ _ _ _ start condition increment body _ _ _ _ _ _ _ _
      inductionHypothesis =>
    have bodyBindsNothing := inductionHypothesis nofun
    cases start with
    | some start => exact .block _
    | none =>
      refine .loop _ ?_
      cases increment with
      | some increment => exact .block _
      | none => exact bodyBindsNothing
  | ifThen _ _ _ _ _ inductionHypothesis =>
    exact .conditional _ (inductionHypothesis nofun) nofun
  | ifElse _ _ _ _ _ _ _ firstHypothesis secondHypothesis =>
    refine .conditional _ (firstHypothesis nofun) ?_
    rintro _ ⟨⟩
    exact secondHypothesis nofun

end Grammar

/-! ## What the loops are to do -/

/-- A body, and the increment after a body that came to its end. -/
def Run.followedBy (body : Run Completion) (increment : Run Unit) : Run Completion := do
  match ← body with
  | .normal => do
    increment
    return .normal
  | .returned value => return .returned value

/-- One turn of a loop: how the loop ends, if this turn ends it. -/
def Run.forTurn (debugLevel : Nat) (condition : Run Value) (step : Run Completion) :
    Run (Option Completion) := do
  let holds ← condition
  trace debugLevel (.whileCondition holds)
  if holds.isTruthy then
    match ← step with
    | .normal => return none
    | .returned value => return some (.returned value)
  else return some .normal

/-- The stacks on which the parts of a `for` loop are executed. -/
structure ForStacks where
  start : Nat
  condition : Nat
  body : Nat
  increment : Nat

/-- The same stack for all parts. -/
def ForStacks.uniform (stack : Nat) : ForStacks := ⟨stack, stack, stack, stack⟩

namespace Grammar.ForClauses

/-- Executes the initializer, if there is one. -/
def runStart (clauses : ForClauses) (settings : Settings) (stack : Nat) (inner : ScopeId) :
    Run Unit :=
  match clauses.start with
  | some start => do
    let _ ← execute settings stack inner start
    return ()
  | none => pure ()

/-- The value of the condition, which is true if it is missing. -/
def runCondition (clauses : ForClauses) (settings : Settings) (stack : Nat) (inner : ScopeId) :
    Run Value :=
  match clauses.condition with
  | some condition => evaluate settings stack inner condition
  | none => pure (.bool true)

/-- Evaluates the increment, if there is one. -/
def runIncrement (clauses : ForClauses) (settings : Settings) (stack : Nat) (inner : ScopeId) :
    Run Unit :=
  match clauses.increment with
  | some increment => do
    let _ ← evaluate settings stack inner increment
    return ()
  | none => pure ()

end Grammar.ForClauses

open Grammar

/-- A `for` loop as it is meant: the initializer, and then turn by turn the condition, the body and
the increment, all in one scope that is opened for the loop. -/
def executeFor (settings : Settings) (room : ForStacks) (scope : ScopeId) (clauses : ForClauses)
    (body : Stmt) : Run Completion := do
  let inner ← Run.openScope scope
  clauses.runStart settings room.start inner
  Run.loop settings.turns
    (Run.forTurn settings.debugLevel (clauses.runCondition settings room.condition inner)
      ((execute settings room.body inner body).followedBy
        (clauses.runIncrement settings room.increment inner)))

/-! ## The tree does the same -/

/-- Computations may be put together from either side. -/
theorem Run.bind_assoc {α β γ : Type} (run : Run α) (next : α → Run β) (last : β → Run γ) :
    (run >>= next) >>= last = run >>= fun value => next value >>= last := by
  funext machine
  change Run.bind (Run.bind run next) last machine =
    Run.bind run (fun value => Run.bind (next value) last) machine
  simp only [Run.bind]
  cases run machine <;> rfl

/-- One statement in turn is that statement. -/
theorem sequence_singleton (execute : Stmt → Run Completion) (stmt : Stmt) :
    Run.sequence execute [stmt] = execute stmt := by
  funext machine
  simp only [Run.sequence]
  cases execute stmt machine with
  | done completion final => cases completion <;> rfl
  | halted halt final => rfl

/-- A body that is followed by nothing is that body. -/
theorem followedBy_pure (body : Run Completion) : body.followedBy (pure ()) = body := by
  funext machine
  change Run.bind body _ machine = body machine
  unfold Run.bind
  cases body machine with
  | done completion final => cases completion <;> rfl
  | halted halt final => rfl

/-- All stacks lie between the bounds. -/
structure ForStacks.Between (least most : Nat) (room : ForStacks) : Prop where
  start : least ≤ room.start ∧ room.start ≤ most
  condition : least ≤ room.condition ∧ room.condition ≤ most
  body : least ≤ room.body ∧ room.body ≤ most
  increment : least ≤ room.increment ∧ room.increment ≤ most

section Tree

variable {settings : Settings} {alignment : Alignment} {scope another : ScopeId}

/-- The initializer of a loop never returns. -/
theorem onRun_start {tokens : List Token} {start : Stmt}
    (initializes : ForInitializer tokens (some start)) (stack : Nat)
    (isPair : alignment.Pairs scope another) :
    passingBlank.OnRun alignment (fun _ completion other => completion = .normal ∧ other = .normal)
      (execute settings stack scope start) (execute settings stack another start) := by
  have neverReturns (machine final : Machine) (value : Value) :
      execute settings stack scope start machine ≠ .done (.returned value) final := by
    intro ends
    cases stack with
    | zero => cases ends
    | succ stack =>
      cases initializes with
      | evaluated statement =>
        obtain ⟨phrase, -⟩ := statement
        obtain ⟨_, _, -, isLast⟩ := Run.bind_eq_done ends
        cases isLast
      | declared declaration =>
        cases declaration with
        | bare => cases ends
        | initialized =>
          obtain ⟨_, _, -, isDefinition⟩ := Run.bind_eq_done ends
          cases isDefinition
  intro machine other machines
  have runs : passingBlank.OnRun alignment passingBlank.OnCompletion
      (execute settings stack scope start) (execute settings stack another start) :=
    ((kept_passingBlank settings).holdsAt stack).execute rfl (.inl isPair)
  have ended := runs machines
  have noReturn := neverReturns machine
  generalize execute settings stack scope start machine = outcome at ended noReturn ⊢
  generalize execute settings stack another start other = otherOutcome at ended ⊢
  cases ended with
  | halted halt grows machines => exact .halted halt grows machines
  | done grows completions machines =>
    cases completions with
    | normal => exact .done grows ⟨rfl, rfl⟩ machines
    | returned values => exact absurd rfl (noReturn _ _)

/-- The condition, where a missing one is a literal in the tree. -/
theorem onRun_condition (clauses : ForClauses) (stack : Nat)
    (sees : alignment.Sees scope another) :
    passingBlank.OnRun alignment passingBlank.OnValue
      (evaluate settings (stack + 1) scope (clauses.condition.getD (.literal (.bool true))))
      (clauses.runCondition settings (stack + 1) another) := by
  unfold ForClauses.runCondition
  cases clauses.condition with
  | some condition => exact ((kept_passingBlank settings).holdsAt _).evaluate condition sees
  | none => exact .pure (.plain rfl)

/-- A body with the increment behind it, in a scope of their own. -/
theorem onRun_step {body : Stmt} (bindsNothing : body.BindsNothing) (increment : Expr)
    (stack : Nat) (sees : alignment.Sees scope another) :
    passingBlank.OnRun alignment passingBlank.OnCompletion
      (execute settings (stack + 2) scope (.block [body, .expression increment]))
      ((execute settings (stack + 1) another body).followedBy do
        let _ ← evaluate settings stack another increment
        return ()) := by
  refine onRun_passed sees fun {grown inner} _ seesInner => ?_
  rw [sequence_cons]
  have holds (stack : Nat) := (kept_passingBlank settings).holdsAt stack
  refine .bind ((holds (stack + 1)).execute rfl (.inr ⟨seesInner, bindsNothing⟩)) ?_
  intro later grows _ _ completions
  cases completions with
  | returned values => exact .pure (.returned values)
  | normal =>
    dsimp only
    rw [sequence_singleton]
    have seesNow := seesInner.mono grows
    change passingBlank.OnRun later _ (do
        let _ ← evaluate settings stack inner increment
        return Completion.normal) (do
      (do
        let _ ← evaluate settings stack another increment
        return ())
      return Completion.normal)
    rw [Run.bind_assoc]
    exact .bind ((holds stack).evaluate increment seesNow) fun _ _ _ _ => .pure .normal

/-- What the tree of a loop executes in each turn. -/
theorem exists_onRun_step (clauses : ForClauses) {body : Stmt} (bindsNothing : body.BindsNothing)
    (settings : Settings) (stack : Nat) :
    ∃ first second, (stack ≤ first ∧ first ≤ stack + 2) ∧ (stack ≤ second ∧ second ≤ stack + 2) ∧
      ∀ {alignment : Alignment} {scope another : ScopeId}, alignment.Sees scope another →
        passingBlank.OnRun alignment passingBlank.OnCompletion
          (execute settings (stack + 2) scope (match clauses.increment with
            | some increment => .block [body, .expression increment]
            | none => body))
          ((execute settings first another body).followedBy
            (clauses.runIncrement settings second another)) := by
  unfold ForClauses.runIncrement
  cases clauses.increment with
  | some increment =>
    exact ⟨stack + 1, stack, by omega, by omega,
      fun sees => onRun_step bindsNothing increment stack sees⟩
  | none =>
    refine ⟨stack + 2, stack, by omega, by omega, fun sees => ?_⟩
    rw [followedBy_pure]
    exact ((kept_passingBlank settings).holdsAt _).execute rfl (.inr ⟨sees, bindsNothing⟩)

/-- The `while` loop in the tree of a loop. -/
theorem onRun_loop (clauses : ForClauses) {step : Stmt} {otherStep : Run Completion} (stack : Nat)
    (sees : alignment.Sees scope another)
    (runs : ∀ {later : Alignment}, later.Sees scope another →
      passingBlank.OnRun later passingBlank.OnCompletion (execute settings (stack + 1) scope step)
        otherStep) :
    passingBlank.OnRun alignment passingBlank.OnCompletion
      (execute settings (stack + 2) scope
        (.loop (clauses.condition.getD (.literal (.bool true))) step))
      (Run.loop settings.turns (Run.forTurn settings.debugLevel
        (clauses.runCondition settings (stack + 1) another) otherStep)) := by
  rw [execute_loop]
  refine .loop (fun {later} grows => ?_) _
  have seesNow := sees.mono grows
  refine .bind (onRun_condition clauses stack seesNow) fun growsOn _ _ values => ?_
  refine .bind ((kept_passingBlank settings).trace (.whileCondition values)) ?_
  intro traced growsFurther _ _ _
  rw [values.isTruthy]
  split
  next =>
    refine .bind (runs ((seesNow.mono growsOn).mono growsFurther)) fun _ _ _ completions => ?_
    cases completions with
    | normal => exact .pure .none
    | returned values => exact .pure (.some (.returned values))
  next => exact .pure (.some .normal)

/-- The tree of a loop does what the loop is to do, on stacks that are at most so much smaller than
that of the tree. -/
theorem exists_onRun_around {clauses : ForClauses} {tokens : List Token}
    (initializes : ForInitializer tokens clauses.start) {body : Stmt}
    (bindsNothing : body.BindsNothing) (settings : Settings) (stack : Nat) :
    ∃ room : ForStacks, room.Between stack (stack + 4) ∧
      ∀ {alignment : Alignment} {scope another : ScopeId}, alignment.Sees scope another →
        passingBlank.OnRun alignment passingBlank.OnCompletion
          (execute settings (stack + 4) scope (clauses.around body))
          (executeFor settings room another clauses body) := by
  unfold executeFor ForClauses.around ForClauses.runStart
  cases isStart : clauses.start with
  | none =>
    obtain ⟨first, second, inFirst, inSecond, runs⟩ :=
      exists_onRun_step clauses bindsNothing settings (stack + 1)
    refine ⟨⟨stack, stack + 3, first, second⟩, ?_, fun sees => ?_⟩
    · constructor <;> dsimp only <;> omega
    · refine onRun_passedOther sees fun _ seesInner => ?_
      exact onRun_loop clauses (stack + 2) seesInner fun seesNow => runs seesNow
  | some start =>
    rw [isStart] at initializes
    obtain ⟨first, second, inFirst, inSecond, runs⟩ :=
      exists_onRun_step clauses bindsNothing settings stack
    refine ⟨⟨stack + 3, stack + 2, first, second⟩, ?_, fun sees => ?_⟩
    · constructor <;> dsimp only <;> omega
    · refine .bind ((kept_passingBlank settings).openScope sees) fun _ inner other isPair => ?_
      dsimp only
      rw [sequence_cons, Run.bind_assoc]
      refine .bind (onRun_start initializes (stack + 3) isPair) fun grows _ _ ends => ?_
      obtain ⟨rfl, rfl⟩ := ends
      have seesInner := Alignment.sees_of_pairs (grows.pairs _ _ isPair)
      dsimp only
      rw [sequence_singleton]
      exact onRun_loop clauses (stack + 1) seesInner fun seesNow => runs seesNow

end Tree

/-! ## More stack -/

/-- Every part has at least as much stack. -/
structure ForStacks.Within (small large : ForStacks) : Prop where
  start : small.start ≤ large.start
  condition : small.condition ≤ large.condition
  body : small.body ≤ large.body
  increment : small.increment ≤ large.increment

/-- A for loop with more room does the same, unless a limit was reached with less. -/
theorem Run.Refined.executeFor {room more : ForStacks} (within : room.Within more)
    (settings : Settings) (scope : ScopeId) (clauses : ForClauses) (body : Stmt) :
    Run.Refined (executeFor settings room scope clauses body)
      (executeFor settings more scope clauses body) := by
  have same : settings.Within settings := ⟨rfl, Nat.le_refl _⟩
  refine .bind (.refl _) fun inner => .bind ?start fun _ => .loop ?turn (Nat.le_refl _)
  case start =>
    unfold ForClauses.runStart
    cases clauses.start with
    | some start => exact .bind ((stable same within.start).execute inner start) fun _ => .refl _
    | none => exact .refl _
  case turn =>
    refine .bind ?condition fun holds => .bind (.refl _) fun _ => ?_
    case condition =>
      unfold ForClauses.runCondition
      cases clauses.condition with
      | some condition => exact (stable same within.condition).evaluate inner condition
      | none => exact .refl _
    split
    next =>
      refine .bind (.bind ((stable same within.body).execute inner body) fun completion => ?_)
        fun _ => .refl _
      cases completion with
      | returned value => exact .refl _
      | normal =>
        refine .bind ?_ fun _ => .refl _
        unfold ForClauses.runIncrement
        cases clauses.increment with
        | some increment =>
          exact .bind ((stable same within.increment).evaluate inner increment) fun _ => .refl _
        | none => exact .refl _
    next => exact .refl _

/-! ## What can be told of a loop from outside -/

/-- The values are the same, or one function that closes over scopes of different numbers, be it one
of the program or of the host. -/
inductive Value.Resembles : Value → Value → Prop where
  | same (value : Value) : Resembles value value
  | function (identity : Nat) (declaration : Declaration) (closure otherClosure : ScopeId) :
      Resembles (.callable ⟨identity, .function declaration closure⟩)
        (.callable ⟨identity, .function declaration otherClosure⟩)
  | native (identity arity : Nat) (closure otherClosure : ScopeId) (function : NativeFunction) :
      Resembles (.callable ⟨identity, .native arity (some closure) function⟩)
        (.callable ⟨identity, .native arity (some otherClosure) function⟩)

/-- Whatever programs run next, they give the same and write the same. -/
def Machine.Indistinguishable (machine other : Machine) : Prop :=
  ∀ limits debugLevel traceOpen ownOutput programs,
    (Session.mk other limits debugLevel traceOpen ownOutput).runAll programs =
      (Session.mk machine limits debugLevel traceOpen ownOutput).runAll programs

/-- The machines wrote the same, and have the same variables in the scopes up to this number. -/
structure Machine.SameOutside (size : Nat) (machine other : Machine) : Prop where
  written : ∀ traceOpen ownOutput, Transcript.ofEvents traceOpen ownOutput other.events =
    Transcript.ofEvents traceOpen ownOutput machine.events
  bound : ∀ scope < size, ∀ name, Option.Rel Value.Resembles
    ((machine.store.bindings scope).get? name) ((other.store.bindings scope).get? name)
  callables : other.callables = machine.callables
  clock : other.clock = machine.clock
  readings : other.readings = machine.readings
  further : machine.Indistinguishable other

/-- The statements ended in the same way, on machines that are the same from outside. A value that
was returned may be passed on to any program. -/
inductive Outcome.SameOutside (size : Nat) : Outcome Completion → Outcome Completion → Prop where
  | normal {machine other : Machine} (machines : machine.SameOutside size other) :
      SameOutside size (.done .normal machine) (.done .normal other)
  | returned {value otherValue : Value} {machine other : Machine}
      (values : value.Resembles otherValue) (machines : machine.SameOutside size other)
      (further : ∀ name, (machine.defineGlobal name value).Indistinguishable
        (other.defineGlobal name otherValue)) :
      SameOutside size (.done (.returned value) machine) (.done (.returned otherValue) other)
  | halted (halt : Halt) {machine other : Machine} (machines : machine.SameOutside size other) :
      SameOutside size (.halted halt machine) (.halted halt other)

section Outside

variable {alignment : Alignment} {machine other : Machine} {value otherValue : Value}

/-- Values that stand for each other cannot be told apart from outside. -/
theorem resembles_of_aligning (values : aligning.OnValue alignment value otherValue) :
    value.Resembles otherValue := by
  cases values with
  | plain => exact .same _
  | @callable callable otherCallable callables =>
    obtain ⟨identity, behaviour⟩ := callable
    obtain ⟨otherIdentity, otherBehaviour⟩ := otherCallable
    obtain ⟨sameIdentity, behaviours⟩ := callables
    obtain rfl : otherIdentity = identity := sameIdentity
    cases behaviours with
    | @function declaration otherDeclaration closure otherClosure declarations closures =>
      obtain ⟨name, parameters, body⟩ := declaration
      obtain ⟨rfl, rfl, bodies⟩ := declarations
      obtain rfl : body = otherDeclaration.body := bodies
      exact .function _ _ _ _
    | native arity closures function =>
      cases closures with
      | none => exact .same _
      | some => exact .native _ _ _ _ _
    | clock | abstract => exact .same _

/-- Machines that stand for each other cannot be told apart from outside. -/
theorem indistinguishable_of_onMachine (machines : alignment.OnMachine machine other)
    (isPair : alignment.Pairs Store.globals Store.globals) : machine.Indistinguishable other := by
  intro limits debugLevel traceOpen ownOutput programs
  have sessions : passingBlank.OnMachine alignment
      (Session.mk machine limits debugLevel traceOpen ownOutput).machine other := machines
  exact shows_passingBlank.runAll kept_passingBlank sessions isPair
    (List.forall₂_same.mpr fun _ _ => List.forall₂_same.mpr fun _ _ => rfl)

/-- Machines that stand for each other are the same outside, where scopes are matched with
themselves. -/
theorem sameOutside_of_onMachine {size : Nat} (machines : alignment.OnMachine machine other)
    (pairs : ∀ scope < size, alignment.Pairs scope scope)
    (isPair : alignment.Pairs Store.globals Store.globals) : machine.SameOutside size other where
  written := Transcript.ofEvents_eq_of_looksLike machines.events
  bound scope isOpen name := by
    have values := machines.store.get? (pairs scope isOpen) name
    generalize (machine.store.bindings scope).get? name = value at values ⊢
    generalize (other.store.bindings scope).get? name = otherValue at values ⊢
    cases values with
    | none => exact .none
    | some values => exact .some (resembles_of_aligning values)
  callables := machines.callables
  clock := machines.clock
  readings := machines.readings
  further := indistinguishable_of_onMachine machines isPair

/-- Outcomes that stand for each other are the same outside. -/
theorem sameOutside_of_onOutcome {size : Nat} {outcome otherOutcome : Outcome Completion}
    (ended : passingBlank.OnOutcome alignment passingBlank.OnCompletion outcome otherOutcome)
    (pairs : ∀ scope < size, alignment.Pairs scope scope)
    (isPair : alignment.Pairs Store.globals Store.globals) :
    outcome.SameOutside size otherOutcome := by
  cases ended with
  | halted halt grows machines =>
    exact .halted halt (sameOutside_of_onMachine machines
      (fun scope isOpen => grows.pairs _ _ (pairs scope isOpen)) (grows.pairs _ _ isPair))
  | @done later _ _ machine other grows completions machines =>
    have machinesOutside : machine.SameOutside size other :=
      sameOutside_of_onMachine machines
        (fun scope isOpen => grows.pairs _ _ (pairs scope isOpen)) (grows.pairs _ _ isPair)
    cases completions with
    | normal => exact .normal machinesOutside
    | returned values =>
      refine .returned (resembles_of_aligning values) machinesOutside fun name => ?_
      have isPairNow := grows.pairs _ _ isPair
      exact indistinguishable_of_onMachine
        (machines.withStore (machines.store.define isPairNow name values)) isPairNow

end Outside

/-- The tree of a loop and the loop do the same, unless the one with less stack is stopped by a
limit. The tree takes at most four units more. -/
structure AgreesFor (tree : Stmt) (clauses : ForClauses) (body : Stmt) : Prop where
  ofTree : ∀ (settings : Settings) (machine : Machine) (scope : ScopeId), machine.InOrder →
    scope < machine.store.size → ∀ stack more, stack + 4 ≤ more →
      let outcome := execute settings stack scope tree machine
      Limited outcome ∨ outcome.SameOutside machine.store.size
        (executeFor settings (.uniform more) scope clauses body machine)
  ofLoop : ∀ (settings : Settings) (machine : Machine) (scope : ScopeId), machine.InOrder →
    scope < machine.store.size → ∀ stack more, stack + 4 ≤ more →
      let outcome := executeFor settings (.uniform stack) scope clauses body machine
      Limited outcome ∨
        (execute settings more scope tree machine).SameOutside machine.store.size outcome

/-- Outcomes that are the same outside reach limits together. -/
theorem limited_of_sameOutside {size : Nat} {outcome otherOutcome : Outcome Completion}
    (same : outcome.SameOutside size otherOutcome) (limited : Limited otherOutcome) :
    Limited outcome := by
  obtain ⟨halt, isHalt, isLimit⟩ := limited
  cases same with
  | halted reason => exact ⟨halt, isHalt, isLimit⟩
  | normal | returned => cases isHalt

/-- The tree of a loop, on a stack of which four units are set aside, does exactly what the loop
does on stacks of at most so many units less. -/
theorem exists_sameOutside_around {used : List Token} {clauses : ForClauses} {body : Stmt}
    (loop : ForStatement used clauses body) (settings : Settings) (stack : Nat) :
    ∃ room : ForStacks, room.Between stack (stack + 4) ∧
      ∀ {machine : Machine} {scope : ScopeId}, machine.InOrder → scope < machine.store.size →
        (execute settings (stack + 4) scope (clauses.around body) machine).SameOutside
          machine.store.size (executeFor settings room scope clauses body machine) := by
  obtain ⟨-, -, initializes, -, -, -, -, repeats⟩ := loop
  obtain ⟨room, between, runs⟩ :=
    exists_onRun_around initializes (repeats.bindsNothing nofun) settings stack
  refine ⟨room, between, fun {machine scope} inOrder isOpen => ?_⟩
  have sees := Alignment.sees_of_pairs (Alignment.pairs_same inOrder isOpen)
  have ended := runs sees (Alignment.onMachine_same inOrder)
  exact sameOutside_of_onOutcome ended (fun _ isOpen => Alignment.pairs_same inOrder isOpen)
    (Alignment.pairs_same inOrder inOrder.rooted.isOpen)

/-- The tree of a for loop agrees with its meaning, from either side. -/
theorem agreesFor_around {used : List Token} {clauses : ForClauses} {body : Stmt}
    (loop : ForStatement used clauses body) : AgreesFor (clauses.around body) clauses body where
  ofTree settings machine scope inOrder isOpen stack more enough := by
    intro outcome
    obtain ⟨room, between, sameOutside⟩ := exists_sameOutside_around loop settings stack
    have exactly := sameOutside inOrder isOpen
    have same : settings.Within settings := ⟨rfl, Nat.le_refl _⟩
    obtain limited | stillSame := (stable same (Nat.le_add_right stack 4)).execute scope
      (clauses.around body) machine
    · exact .inl limited
    rw [stillSame] at exactly
    have within : room.Within (.uniform more) :=
      ⟨between.start.2.trans enough, between.condition.2.trans enough,
        between.body.2.trans enough, between.increment.2.trans enough⟩
    obtain limited | sameLoop := Run.Refined.executeFor within settings scope clauses body machine
    · exact .inl (limited_of_sameOutside exactly limited)
    · rw [← sameLoop] at exactly
      exact .inr exactly
  ofLoop settings machine scope inOrder isOpen stack more enough := by
    intro outcome
    obtain ⟨further, rfl⟩ : ∃ further, more = further + 4 :=
      Nat.exists_eq_add_of_le' ((Nat.le_add_left 4 stack).trans enough)
    obtain ⟨room, between, sameOutside⟩ := exists_sameOutside_around loop settings further
    have least : stack ≤ further := Nat.le_of_add_le_add_right enough
    have within : (ForStacks.uniform stack).Within room :=
      ⟨least.trans between.start.1, least.trans between.condition.1,
        least.trans between.body.1, least.trans between.increment.1⟩
    obtain limited | sameLoop := Run.Refined.executeFor within settings scope clauses body machine
    · exact .inl limited
    · have exactly := sameOutside inOrder isOpen
      rw [sameLoop] at exactly
      exact .inr exactly

/-- Whatever `for` loop the parser accepts, the tree that it builds does what the loop is to do:
from every state whose scopes are in order it writes the same, ends in the same way and leaves the
same variables in all scopes outside, and no program can tell the two apart ever after. -/
theorem agreesFor_statement {depth : Nat} {surroundings : Surroundings} {keyword : Token}
    {tokens rest : List Token} {tree : Stmt} (isFor : keyword.kind = .keyFor)
    (accepted : Rule.Reads (Grammar.statement depth) surroundings (keyword :: tokens) tree rest) :
    ∃ used clauses body, keyword :: tokens = used ++ rest ∧ ForStatement used clauses body ∧
      tree = clauses.around body ∧ AgreesFor tree clauses body := by
  obtain ⟨used, isOpen, sameTokens, sentence, -⟩ :=
    (sound_statement_declaration depth).1 accepted
  obtain ⟨first, more, rfl, -⟩ := sentence.startsWith
  obtain ⟨rfl, rfl⟩ := List.cons.inj sameTokens
  obtain ⟨clauses, body, loop, rfl⟩ := forStatement_of_sentence isFor sentence
  exact ⟨_, clauses, body, rfl, loop, rfl, agreesFor_around loop⟩

/-- A loop that turns once: its body prints, and its increment changes the variable of the loop. -/
theorem agreesFor_statement_once :
    let token (kind : TokenKind) (lexeme : String) : Token := ⟨kind, lexeme, .nil, 1⟩
    let keyword := token .keyFor "for"
    let go := token .identifier "go"
    let tokens := [token .leftParen "(", token .keyVar "var", go, token .equal "=",
      token .keyTrue "true", token .semicolon ";", go, token .semicolon ";", go,
      token .equal "=", token .keyFalse "false", token .rightParen ")", token .keyPrint "print",
      go, token .semicolon ";"]
    let tree := Stmt.block [.var go (some (.literal (.bool true))),
      .loop (.reference go)
        (.block [.print (.reference go), .expression (.assign go (.literal (.bool false)))])]
    keyword.kind = .keyFor ∧
      Rule.Reads (Grammar.statement 8) ⟨1, false⟩ (keyword :: tokens) tree [] ∧
      (∃ used clauses body, keyword :: tokens = used ++ [] ∧ ForStatement used clauses body ∧
        tree = clauses.around body ∧ AgreesFor tree clauses body) ∧
      (Machine.initial fun _ => 0).InOrder ∧
      (view (execute ⟨0, 2⟩ 8 Store.globals tree (.initial fun _ => 0)).machine).printed =
        ["true"] := by
  refine ⟨rfl, ?accepted, agreesFor_statement rfl ?accepted, ?inOrder, ?printed⟩
  case accepted =>
    unfold Rule.Reads
    cbv
  case inOrder => exact inOrder_after.1 ⟨0, 0⟩ 0 (fun _ => 0) false [] |>.1
  case printed => cbv

end LoxLang
