import LoxLang.Proofs.Session.CorrespondingSession
import LoxLang.Proofs.Session.Readings
import LoxLang.Proofs.Store.Alignment

/-!
# What follows a return is dead

Statements that follow a statement that returns, in a block or in the body of a function, are never
executed. Programs that differ in nothing else do the same, although functions with different bodies
may be bound, passed around and called. The top level of a program is no block: there a `return`
ends nothing.
-/

namespace LoxLang

/-- The statements are the same but for what follows a statement that returns, in the blocks and the
functions in them. -/
inductive Stmt.SameButDead : Stmt → Stmt → Prop where
  | same (stmt : Stmt) : SameButDead stmt stmt
  | block {stmts others : List Stmt} (all : InTurn SameButDead stmts others) :
      SameButDead (.block stmts) (.block others)
  | conditional (condition : Expr) {consequent other : Stmt} {alternative further : Option Stmt}
      (consequents : SameButDead consequent other)
      (alternatives : Option.Rel SameButDead alternative further) :
      SameButDead (.conditional condition consequent alternative)
        (.conditional condition other further)
  | loop (condition : Expr) {body other : Stmt} (bodies : SameButDead body other) :
      SameButDead (.loop condition body) (.loop condition other)
  | function (name : Token) (parameters : List Token) {body other : List Stmt}
      (bodies : InTurn SameButDead body other) :
      SameButDead (.function name parameters body) (.function name parameters other)

/-- Statements that are the same but for what is dead have one form. -/
theorem Stmt.SameButDead.sameForm {stmt other : Stmt} (same : stmt.SameButDead other) :
    stmt.SameForm SameButDead (InTurn SameButDead) other := by
  cases same with
  | same => exact .refl .same (InTurn.refl .same) stmt
  | block all => exact .block all
  | conditional condition consequents alternatives =>
    exact .conditional condition consequents alternatives
  | loop condition bodies => exact .loop condition bodies
  | function name parameters bodies => exact .function name parameters bodies

/-- Statements and bodies stand for each other if they are the same up to dead code. -/
def sameButDead : Matching Unit :=
  .sameScopes Stmt.SameButDead (Stmt.InTurn Stmt.SameButDead) Stmt.SameButDead.sameForm id

/-! ## Machines -/

namespace SameButDead

open Matching

/-- Every value stands for itself. -/
theorem onValue_self (value : Value) : sameButDead.OnValue () value value := by
  cases value with
  | callable callable =>
    obtain ⟨identity, behaviour⟩ := callable
    refine .callable ⟨rfl, ?_⟩
    cases behaviour with
    | function declaration closure => exact .function ⟨rfl, rfl, .refl .same _⟩ rfl
    | clock => exact .clock
    | native arity closure function =>
      cases closure with
      | none => exact .native arity .none function
      | some closure => exact .native arity (.some rfl) function
    | abstract arity => exact .abstract arity
  | _ => exact .plain rfl

/-- The same scopes bind the same names, to values that stand for each other. -/
structure OnStore (store other : Store Value) : Prop where
  size : other.size = store.size
  enclosing : ∀ scope, other.enclosing scope = store.enclosing scope
  get? : ∀ scope name, Option.Rel (sameButDead.OnValue ()) ((store.bindings scope).get? name)
    ((other.bindings scope).get? name)

/-- The machines are the same up to dead code in functions. -/
structure OnMachine (machine other : Machine) : Prop where
  store : OnStore machine.store other.store
  callables : other.callables = machine.callables
  clock : other.clock = machine.clock
  readings : other.readings = machine.readings
  events : machine.LooksLike other

/-- Every machine stands for itself. -/
theorem onMachine_self (machine : Machine) : OnMachine machine machine where
  store.size := rfl
  store.enclosing _ := rfl
  store.get? scope name := by
    cases (machine.store.bindings scope).get? name with
    | none => exact .none
    | some value => exact .some (onValue_self value)
  callables := rfl
  clock := rfl
  readings := rfl
  events := .refl machine

namespace OnStore

variable {store other : Store Value} {scope : ScopeId} {value otherValue : Value}

/-- The scopes around a scope are the same in both stores. -/
theorem aligned (stores : OnStore store other) (scope : ScopeId) :
    Aligned Eq (fun _ => False) (fun _ => False) (store.chain scope) (other.chain scope) := by
  rw [Store.chain, Store.chain, stores.enclosing]
  exact .refl fun _ _ => rfl

/-- A name is found in both stores or in none. -/
theorem lookup? (stores : OnStore store other) (scope : ScopeId) (name : String) :
    Option.Rel (sameButDead.OnValue ()) (store.lookup? scope name) (other.lookup? scope name) := by
  refine (stores.aligned scope).findSome? ?_ nofun nofun
  rintro candidate _ rfl
  exact stores.get? candidate name

/-- A name is held by the same scope in both stores. -/
theorem holder? (stores : OnStore store other) (scope : ScopeId) (name : String) :
    Option.Rel Eq (store.holder? scope name) (other.holder? scope name) := by
  refine (stores.aligned scope).find? ?_ nofun nofun
  rintro candidate _ rfl
  have found := stores.get? candidate name
  generalize (store.bindings candidate).get? name = value at found ⊢
  generalize (other.bindings candidate).get? name = otherValue at found ⊢
  cases found <;> rfl

/-- Both stores may open the same scope. -/
theorem push (stores : OnStore store other) (outer : Option ScopeId) :
    OnStore (store.push outer) (other.push outer) where
  size := by rw [Store.size_push, Store.size_push, stores.size]
  enclosing scope := by
    have sameChain : other.chain = store.chain :=
      funext fun scope => congrArg (scope :: ·) (stores.enclosing scope)
    rw [Store.enclosing_push, Store.enclosing_push, stores.size, stores.enclosing, sameChain]
  get? scope := by
    rw [Store.bindings_push, Store.bindings_push]
    exact stores.get? scope

/-- Both stores may bind the same name to values that stand for each other. -/
theorem define (stores : OnStore store other) (scope : ScopeId) (name : String)
    (values : sameButDead.OnValue () value otherValue) :
    OnStore (store.define scope name value) (other.define scope name otherValue) where
  size := by rw [Store.size_define, Store.size_define, stores.size]
  enclosing scope := by rw [Store.enclosing_define, Store.enclosing_define, stores.enclosing]
  get? candidate := by
    rw [Store.bindings_define, Store.bindings_define, stores.size]
    split
    next => exact onValue_set name (stores.get? candidate) values
    next => exact stores.get? candidate

end OnStore

namespace OnMachine

variable {machine other : Machine}

/-- Both machines may be given stores that stand for each other. -/
theorem withStore (machines : OnMachine machine other) {store otherStore : Store Value}
    (stores : OnStore store otherStore) :
    OnMachine { machine with store } { other with store := otherStore } :=
  ⟨stores, machines.callables, machines.clock, machines.readings, machines.events⟩

end OnMachine

end SameButDead

/-! ## Runs -/

open SameButDead

/-- Programs that are the same up to dead code, on machines that are. -/
def droppingDead : Correspondence Unit where
  toMatching := sameButDead
  OnMachine _ := SameButDead.OnMachine

/-- What can be told of values is the same with dead code dropped. -/
theorem shows_droppingDead : droppingDead.Shows where
  looksLike machines := machines.events
  withEvents machines _ _ alike :=
    ⟨machines.store, machines.callables, machines.clock, machines.readings, alike⟩

/-- Every step of a run is kept when dead code is dropped. -/
theorem kept_droppingDead (settings : Settings) : droppingDead.Kept settings settings where
  turns := rfl
  readVariable := by
    rintro _ scope _ name rfl machine other machines
    have found := machines.store.lookup? scope name.lexeme
    unfold Run.readVariable
    generalize machine.store.lookup? scope name.lexeme = value at found ⊢
    generalize other.store.lookup? scope name.lexeme = otherValue at found ⊢
    cases found with
    | none => exact .halted _ le_rfl machines
    | some values => exact .done le_rfl values machines
  assignVariable := by
    rintro _ scope _ value otherValue name rfl values machine other machines
    have found := machines.store.holder? scope name.lexeme
    unfold Run.assignVariable
    generalize machine.store.holder? scope name.lexeme = holder at found ⊢
    generalize other.store.holder? scope name.lexeme = otherHolder at found ⊢
    cases found with
    | none => exact .halted _ le_rfl machines
    | some same =>
      subst same
      exact .done le_rfl trivial (machines.withStore (machines.store.define _ _ values))
  define := by
    rintro _ scope _ value otherValue name rfl values
    exact .change fun machines => machines.withStore (machines.store.define scope name values)
  openScope := by
    rintro _ scope _ rfl machine other machines
    exact .done le_rfl machines.store.size.symm (machines.withStore (machines.store.push _))
  makeCallable := by
    rintro _ behaviour otherBehaviour behaviours machine other machines
    exact .done le_rfl ⟨machines.callables, behaviours⟩ ⟨machines.store,
      congrArg (· + 1) machines.callables, machines.clock, machines.readings, machines.events⟩
  readClock := by
    rintro _ machine other machines
    unfold Run.readClock
    rw [machines.clock, machines.readings]
    exact .done le_rfl (.plain rfl)
      ⟨machines.store, machines.callables, rfl, rfl, machines.events⟩
  print := shows_droppingDead.print
  trace := shows_droppingDead.trace _

/-! ## Sessions -/

/-- On one session, programs that are the same up to dead code give, print and trace the same. -/
theorem runAll_sameButDead (session : Session) {programs others : List (List Stmt)}
    (all : List.Forall₂ (List.Forall₂ Stmt.SameButDead) programs others) :
    session.runAll others = session.runAll programs := by
  have machines : droppingDead.OnMachine () session.machine session.machine :=
    SameButDead.onMachine_self session.machine
  exact shows_droppingDead.runAll kept_droppingDead machines rfl all

/-- Programs that differ in nothing but what follows a statement that returns, in blocks and bodies
of functions at any depth, give the same, print the same and trace the same, one after the other on
whatever session. The clock has to tell the second run what it tells the first one: any clock will
do where that does not read it. -/
theorem runAll_eq_of_sameButDead (session : Session) {programs others : List (List Stmt)}
    (all : List.Forall₂ (List.Forall₂ Stmt.SameButDead) programs others) {clock : Nat → Float}
    (alike : session.machine.TellsAlike (session.afterAll programs).machine clock) :
    (session.withClock clock).runAll others = session.runAll programs :=
  (runAll_sameButDead (session.withClock clock) all).trans (Session.runAll_withClock alike)

/-- A function returns from both branches of a condition, one of them a block that goes on behind
its `return`, and goes on itself behind the condition. Nothing reads the clock. -/
theorem runAll_eq_of_sameButDead_branches :
    let name (lexeme : String) : Token := ⟨.identifier, lexeme, .nil, 1⟩
    let text (value : String) : Expr := .literal (.text value)
    let returning (value : String) : Stmt := .ret (name "return") (some (text value))
    let declared (inBlock behind : List Stmt) : Stmt := .function (name "f") []
      (.conditional (.literal (.bool false)) (returning "a")
        (some (.block (.print (text "b") :: returning "c" :: inBlock))) :: behind)
    let called : Stmt := .print (.call (.reference (name "f")) (name ")") [])
    let programs := [[declared [.print (text "d")] [.unexpected .absent]], [called]]
    let others := [[declared [] []], [called]]
    let session := Session.start ⟨9, 0⟩ 0 (fun _ => 0) false
    List.Forall₂ (List.Forall₂ Stmt.SameButDead) programs others ∧
      (session.afterAll programs).machine.readings = 0 ∧
      (session.withClock fun _ => 1).runAll others = session.runAll programs ∧
      (session.runAll programs).map (·.transcript.output) = ["", "b\nc\n"] := by
  refine ⟨?all, rfl, runAll_eq_of_sameButDead _ ?all ?alike, ?prints⟩
  case all =>
    have blocks {stmt next : Stmt} (returns : next.Returns) (behind : List Stmt) :
        Stmt.SameButDead (.block (stmt :: next :: behind)) (.block [stmt, next]) :=
      .block (.cons (.same _) (.last (.same _) returns _ _))
    refine .cons (.cons (.function _ _ ?_) .nil) (.cons (.cons (.same _) .nil) .nil)
    refine .last (.conditional _ (.same _) (.some (blocks (.ret _ _) _))) ?_ _ _
    exact .conditional _ (.ret _ _) (.block (.tail _ (.head _)) (.ret _ _))
  case alike => exact Machine.tellsAlike_of_readings_eq rfl _
  case prints => cbv

/-- Where the clock has gone on from one run to the next, a program that prints it tells them apart,
with its dead code or without it. -/
theorem sameButDead_at_another_time :
    let returning : Stmt := .ret ⟨.keyReturn, "return", .nil, 1⟩ none
    let program : List Stmt := [.block [.printTime, returning, .unexpected .absent]]
    let other : List Stmt := [.block [.printTime, returning]]
    let session := Session.start ⟨5, 0⟩ 0 (fun _ => 0) false
    List.Forall₂ Stmt.SameButDead program other ∧
      (session.runAll [program]).map (·.transcript.output) = ["0\n"] ∧
      ((session.withClock fun _ => 1).runAll [other]).map (·.transcript.output) = ["1\n"] := by
  intro returning program other session
  have first : (session.runAll [program]).map (·.transcript.output) =
      ["" ++ Number.display 0 ++ "\n"] := rfl
  have second : ((session.withClock fun _ => 1).runAll [other]).map (·.transcript.output) =
      ["" ++ Number.display 1 ++ "\n"] := rfl
  rw [display_reading.1] at first
  rw [display_reading.2] at second
  refine ⟨.cons (.block ?_) .nil, first, second⟩
  exact .cons (.same _) (.last (.same _) (.ret _ _) _ _)

end LoxLang
