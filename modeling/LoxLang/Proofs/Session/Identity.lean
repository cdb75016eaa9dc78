import LoxLang.Proofs.Evaluation.Equality
import LoxLang.Proofs.Evaluation.Passing
import LoxLang.Proofs.Session.Making
import LoxLang.Proofs.Session.Scoping

/-!
# The identity of callables

A history tells the callables that were made so far, in the order in which they were made: one for
every native definition and one for every execution of a function declaration. Whatever programs do
and whichever way they end, every callable that is about is one of the history, and two of them are
equal only if they are of the same making.
-/

namespace LoxLang

open BigStep

/-! ## Histories -/

/-- The callables that were made, in order. -/
structure History where
  callables : List Callable

/-- The later history goes on from the earlier one. -/
instance : LE History where
  le earlier later := earlier.callables <+: later.callables

instance : Preorder History where
  le_refl history := List.prefix_refl history.callables
  le_trans _ _ _ first second := List.IsPrefix.trans first second

namespace History

/-- The value is no callable, or one of the history. -/
def Knows (history : History) (value : Value) : Prop :=
  ∀ callable, value = .callable callable → callable ∈ history.callables

/-- The history goes on with one more callable. -/
def making (history : History) (callable : Callable) : History :=
  ⟨history.callables ++ [callable]⟩

/-- The callables of the history are numbered in order, all of them have been counted, and every
callable that is bound somewhere is one of them. -/
structure Tells (history : History) (state : State) : Prop where
  counted : state.callables = history.callables.length
  numbered : ∀ position (callable : Callable), history.callables[position]? = some callable →
    callable.identity = position
  bound : ∀ scope name value, (state.store.bindings scope).get? name = some value →
    history.Knows value

/-- What is known stays known. -/
theorem Knows.later {history later : History} {value : Value} (isKnown : history.Knows value)
    (grows : history ≤ later) : later.Knows value :=
  fun callable isCallable => List.IsPrefix.subset grows (isKnown callable isCallable)

/-- A history grows by a callable that is made. -/
theorem le_making (history : History) (callable : Callable) :
    history ≤ history.making callable :=
  List.prefix_append history.callables [callable]

/-- Values that are no callables are always known. -/
theorem knows_of_plain {value : Value} (isPlain : value.isCallable = false) (history : History) :
    history.Knows value := by
  rintro callable rfl
  cases isPlain

/-- A callable that was made is known. -/
theorem knows_making (history : History) (callable : Callable) :
    (history.making callable).Knows (.callable callable) := by
  rintro _ ⟨⟩
  exact List.mem_append_right _ (List.mem_singleton_self _)

namespace Tells

variable {history : History} {state : State}

/-- A history still tells the state if a known value is bound. -/
theorem define (tells : history.Tells state) {value : Value} (isKnown : history.Knows value)
    (scope : ScopeId) (name : String) : history.Tells (state.define scope name value) where
  counted := tells.counted
  numbered := tells.numbered
  bound other seen found isBound := by
    rw [State.define, Store.bindings_define] at isBound
    split at isBound
    next =>
      rw [Bindings.get?_set] at isBound
      split at isBound
      next =>
        obtain rfl := Option.some.inj isBound
        exact isKnown
      next => exact tells.bound other seen found isBound
    next => exact tells.bound other seen found isBound

/-- A history still tells the state if a scope is opened. -/
theorem inside (tells : history.Tells state) (outer : ScopeId) :
    history.Tells (state.inside outer) where
  counted := tells.counted
  numbered := tells.numbered
  bound scope name value isBound := by
    rw [State.inside, Store.bindings_push] at isBound
    exact tells.bound scope name value isBound

/-- The next callable gets the next number. -/
theorem make (tells : history.Tells state) (behaviour : Behaviour) :
    (history.making ⟨state.callables, behaviour⟩).Tells
      { state with callables := state.callables + 1 } where
  counted := by rw [making, List.length_append, ← tells.counted, List.length_singleton]
  numbered position callable isAt := by
    rw [making, List.getElem?_append] at isAt
    split at isAt
    next => exact tells.numbered position callable isAt
    next notOld =>
      rw [List.getElem?_singleton, Option.ite_none_right_eq_some, Option.some_inj] at isAt
      obtain ⟨isFirst, rfl⟩ := isAt
      have counted := tells.counted
      change state.callables = position
      omega
  bound scope name value isBound :=
    (tells.bound scope name value isBound).later (history.le_making _)

end Tells

end History

/-- Histories are kept up along every run. -/
def recalling : Upkeep History where
  Fits := History.Tells
  Opens _ _ := True
  Knows := History.Knows
  opensLater _ isOpen := isOpen
  knowsLater grows isKnown := isKnown.later grows
  globals _ := trivial
  plain isPlain := History.knows_of_plain isPlain _
  closes _ _ := trivial
  binds := by
    rintro history state scope name holder value tells - ⟨_, _, -, isBound, -⟩
    exact ⟨trivial, tells.bound holder name value isBound⟩
  tells tells _ _ _ := ⟨tells.counted, tells.numbered, tells.bound⟩
  define tells _ isKnown name := tells.define isKnown _ name
  inside tells _ := ⟨_, le_refl _, tells.inside _, trivial⟩
  make tells _ := ⟨_, History.le_making _ _, tells.make _, History.knows_making _ _⟩

/-! ## What histories tell apart -/

/-- The callable is equal to no value that is about. -/
def History.IsNew (history : History) (callable : Callable) : Prop :=
  ∀ value, history.Knows value →
    value.equals (.callable callable) = false ∧ (Value.callable callable).equals value = false

/-- What is to be said of the callables of a machine. -/
structure Machine.TellsApart (machine : Machine) (history : History) : Prop where
  /-- Two callables are equal exactly if they are of the same making. -/
  making : ∀ (first second : Nat) callable other, history.callables[first]? = some callable →
    history.callables[second]? = some other →
    ((Value.callable callable).equals (.callable other) = true ↔ first = second)
  /-- Two callables that are about are equal exactly if they are one and the same. -/
  same : ∀ callable other, history.Knows (.callable callable) → history.Knows (.callable other) →
    ((Value.callable callable).equals (.callable other) = true ↔ callable = other)
  /-- Every execution of a function declaration makes one callable, unequal to every value that is
  about, and binds it. -/
  declaration : ∀ settings stack scope name parameters body, ∃ callable after,
    execute settings (stack + 1) scope (.function name parameters body) machine =
      .done .normal after ∧
    callable.behaviour = .function ⟨name, parameters, body⟩ scope ∧ history.IsNew callable ∧
    (history.making callable).Tells (view after) ∧
    (scope < machine.store.size → after.reads scope name = .ok (.callable callable))
  /-- So does every definition by the host. -/
  definition : ∀ name behaviour, ∃ callable, callable.behaviour = behaviour ∧
    history.IsNew callable ∧
    (history.making callable).Tells (view (machine.defineCallable name behaviour))
  /-- A native function that captures values makes none of them anew. -/
  native : ∀ name arity captured function, ∃ callable, callable.arity = arity ∧
    history.IsNew callable ∧
    (history.making callable).Tells (view (machine.defineNative name arity captured function))

/-- Callables of a history have one identity only if they are the same entry of it. -/
theorem History.Tells.identity_eq {history : History} {state : State} (tells : history.Tells state)
    {first second : Nat} {callable other : Callable}
    (isFirst : history.callables[first]? = some callable)
    (isSecond : history.callables[second]? = some other) :
    callable.identity = other.identity ↔ first = second := by
  rw [tells.numbered first callable isFirst, tells.numbered second other isSecond]

/-- A callable that is made next is in no history so far. -/
theorem History.Tells.isNew {history : History} {state : State} (tells : history.Tells state)
    (behaviour : Behaviour) : history.IsNew ⟨state.callables, behaviour⟩ := by
  intro value isKnown
  cases value with
  | callable callable =>
    obtain ⟨position, isAt⟩ := List.getElem?_of_mem (isKnown callable rfl)
    have isEarlier : position < history.callables.length :=
      (List.getElem?_eq_some_iff.mp isAt).1
    have isNumbered := tells.numbered position callable isAt
    have counted := tells.counted
    have differ : callable.identity ≠ state.callables := by omega
    exact ⟨beq_eq_false_iff_ne.mpr differ, beq_eq_false_iff_ne.mpr differ.symm⟩
  | _ => exact ⟨rfl, rfl⟩

/-- What a history tells, it tells apart. -/
theorem History.Tells.tellsApart {history : History} {machine : Machine}
    (tells : history.Tells (view machine)) : machine.TellsApart history where
  making first second callable other isFirst isSecond :=
    beq_iff_eq.trans (tells.identity_eq isFirst isSecond)
  same callable other isKnown otherKnown := by
    obtain ⟨first, isFirst⟩ := List.getElem?_of_mem (isKnown callable rfl)
    obtain ⟨second, isSecond⟩ := List.getElem?_of_mem (otherKnown other rfl)
    constructor
    · intro equal
      obtain rfl := (tells.identity_eq isFirst isSecond).mp (beq_iff_eq.mp equal)
      exact Option.some.inj (isFirst.symm.trans isSecond)
    · rintro rfl
      exact Value.lawfulEquality.equivalence.refl _
  declaration settings stack scope name parameters body := by
    let behaviour : Behaviour := .function ⟨name, parameters, body⟩ scope
    have made := (tells.make behaviour).define (knows_making history _) scope name.lexeme
    refine ⟨⟨machine.callables, behaviour⟩, _, rfl, rfl, tells.isNew behaviour, ?_, ?_⟩
    · rw [view_trace]
      exact made
    · intro isOpen
      rw [Machine.reads_eq_ok_iff, Machine.store_trace]
      exact Store.lookup?_define_self isOpen _
  definition name behaviour := by
    have made := (tells.make behaviour).define (knows_making history _) Store.globals name
    exact ⟨⟨machine.callables, behaviour⟩, rfl, tells.isNew behaviour, made⟩
  native name arity captured function := by
    unfold Machine.defineNative
    split
    next =>
      let behaviour : Behaviour := .native arity none function
      have made := (tells.make behaviour).define (knows_making history _) Store.globals name
      exact ⟨⟨machine.callables, behaviour⟩, rfl, tells.isNew behaviour, made⟩
    next =>
      let opened : Machine := { machine with store := machine.store.push (some Store.globals) }
      let behaviour : Behaviour := .native arity (some machine.store.size) function
      have fits : recalling.Fits history (view opened) := tells.inside Store.globals
      have tellsCaptured : history.Tells (view (opened.capture machine.store.size captured)) :=
        Session.kept_capture fits trivial captured
      have made := (tellsCaptured.make behaviour).define (knows_making history _) Store.globals name
      exact ⟨_, rfl, tellsCaptured.isNew behaviour, made⟩

/-- Before any program has run there is the clock. -/
theorem exists_tells_initial (clock : Nat → Float) :
    ∃ history : History, history.Tells (view (.initial clock)) := by
  have tells : History.Tells ⟨[]⟩ (view ⟨Store.empty.push none, 0, clock, 0, #[]⟩) := by
    refine ⟨rfl, fun position callable isAt => ?_, fun scope name value isBound => ?_⟩
    · cases isAt
    · change ((Store.empty.push none).bindings scope).get? name = some value at isBound
      rw [Store.bindings_push] at isBound
      cases isBound
  exact ⟨_, (tells.make .clock).define (History.knows_making _ _) Store.globals "clock"⟩

/-- The values that a task is given. -/
def BigStep.Task.givenValues : Task → List Value
  | .call _ callee arguments => callee :: arguments
  | _ => []

/-- A task that is given known values is admitted. -/
theorem admits_of_givenValues {history : History} {task : Task}
    (areKnown : ∀ value ∈ task.givenValues, history.Knows value) :
    recalling.Admits history task := by
  cases task with
  | call paren callee arguments => exact List.forall_mem_cons.mp areKnown
  | _ => exact trivial

/-- Equality is a lawful identity. It is an equivalence of all values and `!=` its negation. After
every sequence of requests, and after every part of a run, there is a history of the callables that
were made; all callables that are about are of it, and they are equal exactly if they are of the
same making. A run goes on with as many callables as function declarations were executed in it,
which is told by the messages that trace them. Every execution of a function declaration and every
native definition makes a callable that equals no value that was about; and values are passed on as
they are. -/
theorem equality_is_identity :
    Value.LawfulEquality ∧
    (∀ limits debugLevel clock ownOutput requests, ∃ history : History,
      let session := (Session.start limits debugLevel clock ownOutput).after requests
      history.Tells (view session.machine) ∧ ∀ further, ∃ later, history ≤ later ∧
        later.Tells (view (session.after further).machine)) ∧
    (∀ settings stack (task : Task) (machine : Machine) (history : History),
      history.Tells (view machine) → (∀ value ∈ task.givenValues, history.Knows value) →
      let outcome := task.run settings stack machine
      ∃ later, history ≤ later ∧ later.Tells (view outcome.machine) ∧
        (2 ≤ settings.debugLevel → later.callables.length + machine.functionsTraced =
          history.callables.length + outcome.machine.functionsTraced) ∧
        ∀ result, ending outcome = .ok result →
          ∀ value ∈ task.resultValues result, later.Knows value) ∧
    (∀ (machine : Machine) (history : History), history.Tells (view machine) →
      machine.TellsApart history) ∧
    ∀ value : Value, value.IsPassedOn := by
  refine ⟨Value.lawfulEquality, ?_, ?_, fun _ _ tells => tells.tellsApart, Value.isPassedOn⟩
  · intro limits debugLevel clock ownOutput requests
    obtain ⟨first, tellsFirst⟩ := exists_tells_initial clock
    have fitsFirst : recalling.Fits first
        (view (Session.start limits debugLevel clock ownOutput).machine) := tellsFirst
    obtain ⟨history, -, fits⟩ := Session.kept_after fitsFirst requests
    exact ⟨history, fits, Session.kept_after fits⟩
  · intro settings stack task machine history tells areKnown outcome
    have fits : recalling.Fits history (view machine) := tells
    obtain ⟨later, grows, tellsLater, knowsResult⟩ :=
      Task.kept_run settings stack fits (admits_of_givenValues areKnown)
    refine ⟨later, grows, tellsLater, fun isTraced => ?_, knowsResult⟩
    have accounts := Run.Accounts.task isTraced stack task machine
    rw [← tells.counted, ← tellsLater.counted]
    exact accounts

/-- One declaration that is executed twice makes two callables. A third variable shares one of
them. -/
theorem equality_is_identity_twice :
    let name (lexeme : String) : Token := ⟨.identifier, lexeme, .nil, 1⟩
    let read (lexeme : String) : Expr := .reference (name lexeme)
    let compares (kind : TokenKind) (left right : String) : Stmt :=
      .print (.binary (read left) ⟨kind, "", .nil, 1⟩ (read right))
    let inner : Stmt := .function (name "inner") [] []
    let outer : Stmt := .function (name "make") []
      [inner, .ret (name "return") (some (read "inner"))]
    let make : Expr := .call (read "make") (name ")") []
    let task : Task := .executeAll Store.globals
      [outer, .var (name "a") (some make), .var (name "b") (some make),
        .var (name "c") (some (read "a")), compares .equalEqual "a" "b",
        compares .bangEqual "a" "b", compares .equalEqual "a" "c"]
    let outcome := task.run ⟨2, 0⟩ 9 (.initial fun _ => 0)
    (∃ first later : History, first.Tells (view (.initial fun _ => 0)) ∧ first ≤ later ∧
      later.Tells (view outcome.machine) ∧ outcome.machine.TellsApart later ∧
      first.callables.length = 1 ∧
      later.callables.length = first.callables.length + outcome.machine.functionsTraced) ∧
    outcome.machine.functionsTraced = 3 ∧
    (view outcome.machine).printed = ["false", "true", "true"] := by
  refine ⟨?_, by cbv, by cbv⟩
  obtain ⟨-, sessions, runs, apart, -⟩ := equality_is_identity
  obtain ⟨first, tells, -⟩ := sessions ⟨9, 0⟩ 2 (fun _ => 0) false []
  obtain ⟨later, grows, tellsLater, isTraced, -⟩ :=
    runs ⟨2, 0⟩ 9 (.executeAll _ _) (.initial fun _ => 0) first tells (List.forall_mem_nil _)
  exact ⟨first, later, tells, grows, tellsLater, apart _ later tellsLater, tells.counted.symm,
    isTraced (le_refl 2)⟩

end LoxLang
