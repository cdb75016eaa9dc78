import LoxLang.Proofs.Evaluation.Confinement

/-!
# What is kept up along a run

While a run goes on, scopes are opened and callables are made, and values are passed on between the
scopes. An invariant of such a run speaks of what there is so far: it is stated relative to a world,
which tells what scopes are open and what values are about, and which only grows.

A task keeps up an invariant if each of the few steps that touch the state does: a definition, the
opening of a scope, and the making of a callable. This is proved here once, over every way in which
a task can end. A task on a limited machine can be stopped anywhere, so that what holds at the end
of every task holds all along.
-/

namespace LoxLang.BigStep

/-- An invariant of states relative to worlds that grow. -/
structure Upkeep (World : Type) [Preorder World] where
  /-- The invariant holds of a state. -/
  Fits : World → State → Prop
  /-- The scope is open. -/
  Opens : World → ScopeId → Prop
  /-- The value is about. -/
  Knows : World → Value → Prop
  opensLater : ∀ {world later scope}, world ≤ later → Opens world scope → Opens later scope
  knowsLater : ∀ {world later value}, world ≤ later → Knows world value → Knows later value
  globals : ∀ {world state}, Fits world state → Opens world Store.globals
  plain : ∀ {world value}, value.isCallable = false → Knows world value
  closes : ∀ {world value closure}, Knows world value → value.closure? = some closure →
    Opens world closure
  binds : ∀ {world state scope name holder value}, Fits world state → Opens world scope →
    Binds state.store scope name holder value → Opens world holder ∧ Knows world value
  /-- The clock and the printed lines do not matter. -/
  tells : ∀ {world state}, Fits world state →
    ∀ clock readings printed, Fits world { state with clock, readings, printed }
  define : ∀ {world state scope value}, Fits world state → Opens world scope →
    Knows world value → ∀ name, Fits world (state.define scope name value)
  inside : ∀ {world state outer}, Fits world state → Opens world outer →
    ∃ later, world ≤ later ∧ Fits later (state.inside outer) ∧ Opens later state.fresh
  make : ∀ {world state behaviour}, Fits world state →
    (∀ closure, Value.closure? (.callable ⟨state.callables, behaviour⟩) = some closure →
      Opens world closure) →
    ∃ later, world ≤ later ∧ Fits later { state with callables := state.callables + 1 } ∧
      Knows later (.callable ⟨state.callables, behaviour⟩)

/-- The result of an ending that is no halt is as it should be. -/
def Ending.Yields {α : Type} (good : α → Prop) : Ending α → Prop
  | .ok result => good result
  | .error _ => True

namespace Upkeep

variable {World : Type} [Preorder World] (upkeep : Upkeep World)

/-- The scope that a task begins in is open, and its values are about. -/
def Admits (world : World) : Task → Prop
  | .evaluate scope _ | .evaluateAll scope _ => upkeep.Opens world scope
  | .call _ callee arguments =>
    upkeep.Knows world callee ∧ ∀ argument ∈ arguments, upkeep.Knows world argument
  | .execute scope _ | .executeAll scope _ => upkeep.Opens world scope

/-- What the end of a statement gives is about. -/
def KnowsCompletion (world : World) : Completion → Prop
  | .normal => True
  | .returned value => upkeep.Knows world value

/-- The values that a task results in are about. -/
def KnowsResult (world : World) : (task : Task) → task.Result → Prop
  | .evaluate _ _, value => upkeep.Knows world value
  | .evaluateAll _ _, values => ∀ value ∈ values, upkeep.Knows world value
  | .call _ _ _, value => upkeep.Knows world value
  | .execute _ _, completion => upkeep.KnowsCompletion world completion
  | .executeAll _ _, completion => upkeep.KnowsCompletion world completion

/-- The invariant holds in a later world, in which the result is as it should be. -/
def Kept {α : Type} (world : World) (good : World → α → Prop) (ending : Ending α)
    (after : State) : Prop :=
  ∃ later, world ≤ later ∧ upkeep.Fits later after ∧ ending.Yields (good later)

variable {upkeep}

section Worlds

variable {α β : Type} {world later : World} {state after : State} {good : World → α → Prop}

/-- What fits the world fits it without any growth. -/
theorem Kept.here (fits : upkeep.Fits world state) {ending : Ending α}
    (yields : ending.Yields (good world)) : upkeep.Kept world good ending state :=
  ⟨world, le_refl world, fits, yields⟩

/-- What is kept in a later world is kept in the earlier one. -/
theorem Kept.earlier {ending : Ending α} (kept : upkeep.Kept later good ending after)
    (grows : world ≤ later) : upkeep.Kept world good ending after := by
  obtain ⟨last, growsOn, fits, yields⟩ := kept
  exact ⟨last, le_trans grows growsOn, fits, yields⟩

/-- A halt is passed on as it is, or as another one. -/
theorem Kept.halts {halt otherHalt : Halt}
    (kept : upkeep.Kept world good (.error halt : Ending α) after) {other : World → β → Prop} :
    upkeep.Kept world other (.error otherHalt : Ending β) after := by
  obtain ⟨later, grows, fits, -⟩ := kept
  exact ⟨later, grows, fits, trivial⟩

/-- What is kept may be weakened. -/
theorem Kept.mono {ending : Ending α} {otherEnding : Ending β} {other : World → β → Prop}
    (kept : upkeep.Kept world good ending after)
    (mono : ∀ later, ending.Yields (good later) → otherEnding.Yields (other later)) :
    upkeep.Kept world other otherEnding after := by
  obtain ⟨later, grows, fits, yields⟩ := kept
  exact ⟨later, grows, fits, mono later yields⟩

/-- To print a line keeps the state fitting. -/
theorem Fits.print (fits : upkeep.Fits world state) (line : String) :
    upkeep.Fits world (state.print line) :=
  upkeep.tells fits state.clock state.readings _

/-- To bind parameters keeps the state fitting, if the arguments are known. -/
theorem bound (fits : upkeep.Fits world state) {scope : ScopeId}
    (isOpen : upkeep.Opens world scope) (parameters : List Token) {arguments : List Value}
    (known : ∀ argument ∈ arguments, upkeep.Knows world argument) :
    upkeep.Fits world (state.bound scope parameters arguments) := by
  induction parameters generalizing state arguments with
  | nil => exact fits
  | cons parameter parameters inductionHypothesis =>
    cases arguments with
    | nil => exact fits
    | cons argument arguments =>
      obtain ⟨isKnown, furtherKnown⟩ := List.forall_mem_cons.mp known
      exact inductionHypothesis (upkeep.define fits isOpen isKnown parameter.lexeme) furtherKnown

/-- A call begins in a new scope, with its parameters bound. -/
theorem enters (fits : upkeep.Fits world state) {callable : Callable} {closure : ScopeId}
    {declaration : Declaration} {arguments : List Value}
    (isFunction : callable.behaviour = .function declaration closure)
    (isKnown : upkeep.Knows world (.callable callable))
    (known : ∀ argument ∈ arguments, upkeep.Knows world argument) :
    ∃ later, world ≤ later ∧ upkeep.Opens later state.fresh ∧ upkeep.Fits later
      ((state.inside closure).bound state.fresh declaration.parameters arguments) := by
  have closes : Value.closure? (.callable callable) = some closure := by
    obtain ⟨identity, behaviour⟩ := callable
    obtain rfl : behaviour = .function declaration closure := isFunction
    rfl
  obtain ⟨later, grows, fitsInside, isOpen⟩ := upkeep.inside fits (upkeep.closes isKnown closes)
  refine ⟨later, grows, isOpen, bound fitsInside isOpen declaration.parameters ?_⟩
  exact fun argument member => upkeep.knowsLater grows (known argument member)

end Worlds

end Upkeep

variable {World : Type} [Preorder World] {upkeep : Upkeep World} {limited : Bool}

/-- What a unary operator gives is no callable. -/
theorem Unary.isCallable_of_ok {operator : Token} {operand value : Value}
    (operates : Unary operator operand (.ok value)) : value.isCallable = false := by
  cases operates <;> rfl

/-- What a binary operator gives is no callable. -/
theorem Binary.isCallable_of_ok {operator : Token} {left right value : Value}
    (operates : Binary operator left right (.ok value)) : value.isCallable = false := by
  cases operates with
  | arithmetic table =>
    generalize operator.kind = kind at table
    cases table <;> rfl
  | _ => rfl

/-- Operators make no callables. -/
theorem Upkeep.yields_of_plain (world : World) {ending : Ending Value}
    (isPlain : ∀ value, ending = .ok value → value.isCallable = false) :
    ending.Yields (upkeep.Knows world) := by
  cases ending with
  | ok value => exact upkeep.plain (isPlain value rfl)
  | error halt => trivial

/-- A native function gives what it is given, what it has captured, or a plain value. -/
theorem Answers.kept {function : NativeFunction} {closure : Option ScopeId}
    {arguments : List Value} {state : State} {ending : Ending Value}
    (answers : Answers function closure arguments state ending) {world : World}
    (fits : upkeep.Fits world state) (isOpen : ∀ scope ∈ closure, upkeep.Opens world scope)
    (known : ∀ argument ∈ arguments, upkeep.Knows world argument) :
    ending.Yields (upkeep.Knows world) := by
  cases answers with
  | @literal value => exact upkeep.plain (by cases value <;> rfl)
  | argument _ stands => exact known _ (List.mem_of_getElem? stands)
  | captured _ isClosure binds => exact (upkeep.binds fits (isOpen _ isClosure) binds).2
  | noArgument | notCaptured => exact upkeep.plain rfl
  | raises => trivial

/-- Every task keeps up the invariant. The worlds of its parts follow each other in the order in
which the parts are run, and what was open or about in one of them still is in the next. -/
theorem Ends.kept {task : Task} {before after : State} {ending : Ending task.Result}
    (ends : Ends limited task before ending after) {world : World}
    (fits : upkeep.Fits world before) (admits : upkeep.Admits world task) :
    upkeep.Kept world (upkeep.KnowsResult · task) ending after := by
  induction ends generalizing world with
  | @literal _ literal =>
    exact .here fits (upkeep.plain (by cases literal <;> rfl))
  | grouping _ inner => exact inner fits admits
  | reference binds => exact .here fits (upkeep.binds fits admits binds).2
  | undefined | notCallable | wrongCount | noExpression | abstract | noStatement | overflow
  | endless => exact .here fits trivial
  | assign _ binds value =>
    obtain ⟨later, grows, fitsLater, known⟩ := value fits admits
    obtain ⟨isOpen, -⟩ := upkeep.binds fitsLater (upkeep.opensLater grows admits) binds
    exact ⟨later, grows, upkeep.define fitsLater isOpen known _, known⟩
  | assignUndefined _ _ value =>
    obtain ⟨later, grows, fitsLater, -⟩ := value fits admits
    exact ⟨later, grows, fitsLater, trivial⟩
  | assignFails _ inner | logicalFails _ inner | unaryFails _ inner | leftFails _ inner
  | calleeFails _ inner | firstFails _ inner | expressionFails _ inner | printFails _ inner
  | varFails _ inner | conditionalFails _ inner | loopFails _ inner | retFails _ inner
  | executeFails _ inner | operatorReports _ _ inner | callReports _ inner =>
    exact (inner fits admits).halts
  | decided _ _ left => exact left fits admits
  | undecided _ _ _ left right =>
    obtain ⟨later, grows, fitsLater, -⟩ := left fits admits
    exact (right fitsLater (upkeep.opensLater grows admits)).earlier grows
  | unary _ operates right =>
    obtain ⟨later, grows, fitsLater, -⟩ := right fits admits
    refine ⟨later, grows, fitsLater, upkeep.yields_of_plain later ?_⟩
    rintro value rfl
    exact operates.isCallable_of_ok
  | binary _ _ operates left right =>
    obtain ⟨between, grows, fitsBetween, -⟩ := left fits admits
    obtain ⟨later, growsOn, fitsLater, -⟩ := right fitsBetween (upkeep.opensLater grows admits)
    refine ⟨later, le_trans grows growsOn, fitsLater, upkeep.yields_of_plain later ?_⟩
    rintro value rfl
    exact operates.isCallable_of_ok
  | rightFails _ _ left right | furtherFails _ _ left right | loopBodyFails _ _ _ left right =>
    obtain ⟨later, grows, fitsLater, -⟩ := left fits admits
    exact (right fitsLater (upkeep.opensLater grows admits)).halts.earlier grows
  | call _ _ _ callee arguments calls =>
    obtain ⟨between, grows, fitsBetween, calleeKnown⟩ := callee fits admits
    obtain ⟨called, growsOn, fitsCalled, argumentsKnown⟩ :=
      arguments fitsBetween (upkeep.opensLater grows admits)
    -- The arguments were evaluated since, but what was about before them still is.
    have calleeStillKnown := upkeep.knowsLater growsOn calleeKnown
    exact (calls fitsCalled ⟨calleeStillKnown, argumentsKnown⟩).earlier (le_trans grows growsOn)
  | argumentsFail _ _ callee arguments =>
    obtain ⟨later, grows, fitsLater, -⟩ := callee fits admits
    exact (arguments fitsLater (upkeep.opensLater grows admits)).halts.earlier grows
  | evaluateNone => exact .here fits (List.forall_mem_nil _)
  | evaluateMore _ _ first further =>
    obtain ⟨between, grows, fitsBetween, firstKnown⟩ := first fits admits
    obtain ⟨later, growsOn, fitsLater, furtherKnown⟩ :=
      further fitsBetween (upkeep.opensLater grows admits)
    refine ⟨later, le_trans grows growsOn, fitsLater, List.forall_mem_cons.mpr ⟨?_, furtherKnown⟩⟩
    exact upkeep.knowsLater growsOn firstKnown
  | returns _ _ body =>
    obtain ⟨inner, grows, isOpen, fitsInner⟩ := Upkeep.enters fits rfl admits.1 admits.2
    exact ((body fitsInner isOpen).mono fun later known => known).earlier grows
  | returnsNothing _ _ body =>
    obtain ⟨inner, grows, isOpen, fitsInner⟩ := Upkeep.enters fits rfl admits.1 admits.2
    obtain ⟨later, growsOn, fitsLater, -⟩ := body fitsInner isOpen
    exact ⟨later, le_trans grows growsOn, fitsLater, upkeep.plain rfl⟩
  | bodyFails _ _ body =>
    obtain ⟨inner, grows, isOpen, fitsInner⟩ := Upkeep.enters fits rfl admits.1 admits.2
    exact (body fitsInner isOpen).halts.earlier grows
  | @clock _ _ state =>
    have fitsAfter := upkeep.tells fits state.clock (state.readings + 1) state.printed
    exact .here fitsAfter (upkeep.plain rfl)
  | native answers =>
    refine .here fits (answers.kept fits (fun scope isClosure => ?_) admits.2)
    exact upkeep.closes admits.1 isClosure
  | expression _ value => exact (value fits admits).mono fun _ _ => trivial
  | print _ value =>
    obtain ⟨later, grows, fitsLater, -⟩ := value fits admits
    exact ⟨later, grows, Upkeep.Fits.print fitsLater _, trivial⟩
  | var _ value =>
    obtain ⟨later, grows, fitsLater, known⟩ := value fits admits
    exact ⟨later, grows, upkeep.define fitsLater (upkeep.opensLater grows admits) known _, trivial⟩
  | varNil => exact .here (upkeep.define fits admits (upkeep.plain rfl) _) trivial
  | block _ body =>
    obtain ⟨inner, grows, fitsInner, isOpen⟩ := upkeep.inside fits admits
    exact (body fitsInner isOpen).earlier grows
  | chosen _ _ _ condition branch | refused _ _ _ condition branch =>
    obtain ⟨later, grows, fitsLater, -⟩ := condition fits admits
    exact (branch fitsLater (upkeep.opensLater grows admits)).earlier grows
  | skipped _ _ condition | loopEnds _ _ condition =>
    exact (condition fits admits).mono fun _ _ => trivial
  | loopReturns _ _ _ condition body =>
    obtain ⟨later, grows, fitsLater, -⟩ := condition fits admits
    exact (body fitsLater (upkeep.opensLater grows admits)).earlier grows
  | loopTurns _ _ _ _ condition body further =>
    obtain ⟨between, grows, fitsBetween, -⟩ := condition fits admits
    have isOpen := upkeep.opensLater grows admits
    obtain ⟨turned, growsOn, fitsTurned, -⟩ := body fitsBetween isOpen
    exact ((further fitsTurned (upkeep.opensLater growsOn isOpen)).earlier growsOn).earlier grows
  | @function scope name parameters body state =>
    let behaviour : Behaviour := .function ⟨name, parameters, body⟩ scope
    have closesHere : ∀ closure, Value.closure? (.callable ⟨state.callables, behaviour⟩) =
        some closure → upkeep.Opens world closure := by
      rintro _ ⟨⟩
      exact admits
    obtain ⟨later, grows, fitsLater, known⟩ := upkeep.make fits closesHere
    exact ⟨later, grows, upkeep.define fitsLater (upkeep.opensLater grows admits) known _, trivial⟩
  | ret _ value => exact value fits admits
  | retNil => exact .here fits (upkeep.plain rfl)
  | executeNone => exact .here fits trivial
  | executeMore _ _ first further =>
    obtain ⟨later, grows, fitsLater, -⟩ := first fits admits
    exact (further fitsLater (upkeep.opensLater grows admits)).earlier grows
  | executeReturns _ first => exact first fits admits

end LoxLang.BigStep
