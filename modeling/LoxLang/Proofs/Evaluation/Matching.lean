import LoxLang.Proofs.Evaluation.Law
import LoxLang.Proofs.Evaluation.Likeness
import Mathlib.Order.Defs.PartialOrder

/-!
# What stands for what in two runs

Two runs may differ in the trees that they execute and in the numbers of the scopes that they open.
A matching says which statements stand for each other and, as the runs go on, which scopes do. What
the scopes have to do with each other is a world, and worlds grow: scopes that stand for each other
once do so ever after. Values hold bodies and scopes, so that a matching also says which values
stand for each other. Expressions are the same in both runs.
-/

namespace LoxLang

open BigStep

/-! ## Statements -/

namespace Stmt

/-- Wherever the statement is executed, it comes to no end but a return: it is a `return`, or a
block that holds such a statement, or a condition both of whose branches are such statements. -/
inductive Returns : Stmt → Prop where
  | ret (keyword : Token) (value : Option Expr) : Returns (.ret keyword value)
  | block {stmts : List Stmt} {stmt : Stmt} (member : stmt ∈ stmts) (returns : Returns stmt) :
      Returns (.block stmts)
  | conditional (condition : Expr) {consequent alternative : Stmt} (first : Returns consequent)
      (second : Returns alternative) :
      Returns (.conditional condition consequent (some alternative))

/-- The statement binds no name in the scope that it is executed in. -/
inductive BindsNothing : Stmt → Prop where
  | expression (value : Expr) : BindsNothing (.expression value)
  | print (value : Expr) : BindsNothing (.print value)
  | block (stmts : List Stmt) : BindsNothing (.block stmts)
  | conditional (condition : Expr) {consequent : Stmt} {alternative : Option Stmt}
      (first : BindsNothing consequent) (second : ∀ stmt ∈ alternative, BindsNothing stmt) :
      BindsNothing (.conditional condition consequent alternative)
  | loop (condition : Expr) {body : Stmt} (inner : BindsNothing body) :
      BindsNothing (.loop condition body)
  | ret (keyword : Token) (value : Option Expr) : BindsNothing (.ret keyword value)
  | unexpected (kind : NodeKind) : BindsNothing (.unexpected kind)

/-- Statements that stand for each other one by one. What follows a statement that returns may be
anything. -/
inductive InTurn (onStmt : Stmt → Stmt → Prop) : List Stmt → List Stmt → Prop where
  | nil : InTurn onStmt [] []
  | cons {stmt other : Stmt} {stmts others : List Stmt} (first : onStmt stmt other)
      (further : InTurn onStmt stmts others) : InTurn onStmt (stmt :: stmts) (other :: others)
  | last {stmt other : Stmt} (first : onStmt stmt other) (returns : stmt.Returns)
      (stmts others : List Stmt) : InTurn onStmt (stmt :: stmts) (other :: others)

/-- Statements of the same form, over the same expressions. Their parts and the bodies of functions
stand for each other. -/
inductive SameForm (onStmt : Stmt → Stmt → Prop) (onBody : List Stmt → List Stmt → Prop) :
    Stmt → Stmt → Prop where
  | expression (value : Expr) : SameForm onStmt onBody (.expression value) (.expression value)
  | print (value : Expr) : SameForm onStmt onBody (.print value) (.print value)
  | var (name : Token) (start : Option Expr) :
      SameForm onStmt onBody (.var name start) (.var name start)
  | block {stmts others : List Stmt} (all : InTurn onStmt stmts others) :
      SameForm onStmt onBody (.block stmts) (.block others)
  | conditional (condition : Expr) {consequent other : Stmt} {alternative further : Option Stmt}
      (consequents : onStmt consequent other)
      (alternatives : Option.Rel onStmt alternative further) :
      SameForm onStmt onBody (.conditional condition consequent alternative)
        (.conditional condition other further)
  | loop (condition : Expr) {body other : Stmt} (bodies : onStmt body other) :
      SameForm onStmt onBody (.loop condition body) (.loop condition other)
  | function (name : Token) (parameters : List Token) {body other : List Stmt}
      (bodies : onBody body other) :
      SameForm onStmt onBody (.function name parameters body) (.function name parameters other)
  | ret (keyword : Token) (value : Option Expr) :
      SameForm onStmt onBody (.ret keyword value) (.ret keyword value)
  | unexpected (kind : NodeKind) : SameForm onStmt onBody (.unexpected kind) (.unexpected kind)

section Reflexivity

variable {onStmt : Stmt → Stmt → Prop} {onBody : List Stmt → List Stmt → Prop}

/-- Statements stand for themselves in turn, if each stands for itself. -/
theorem InTurn.refl (reflexive : ∀ stmt, onStmt stmt stmt) : ∀ stmts, InTurn onStmt stmts stmts
  | [] => .nil
  | stmt :: stmts => .cons (reflexive stmt) (InTurn.refl reflexive stmts)

/-- A statement has its own form. -/
theorem SameForm.refl (reflexive : ∀ stmt, onStmt stmt stmt) (same : ∀ stmts, onBody stmts stmts)
    (stmt : Stmt) : SameForm onStmt onBody stmt stmt := by
  cases stmt with
  | expression value => exact .expression value
  | print value => exact .print value
  | var name start => exact .var name start
  | block stmts => exact .block (InTurn.refl reflexive stmts)
  | conditional condition consequent alternative =>
    refine .conditional condition (reflexive consequent) ?_
    cases alternative with
    | none => exact .none
    | some alternative => exact .some (reflexive alternative)
  | loop condition body => exact .loop condition (reflexive body)
  | function name parameters body => exact .function name parameters (same body)
  | ret keyword value => exact .ret keyword value
  | unexpected kind => exact .unexpected kind

end Reflexivity

/-- The same statements stand for each other in turn. -/
theorem inTurn_of_eq {stmts others : List Stmt} (same : stmts = others) : InTurn Eq stmts others :=
  same ▸ .refl (fun _ => rfl) stmts

/-- The same statement has the same form. -/
theorem sameForm_of_eq {stmt other : Stmt} (same : stmt = other) : SameForm Eq Eq stmt other :=
  same ▸ .refl (fun _ => rfl) (fun _ => rfl) stmt

end Stmt

/-- Statements one of which never ends normally do not do so in sequence. -/
theorem sequence_ne_normal {execute : Stmt → Run Completion} {stmts : List Stmt} {stmt : Stmt}
    (member : stmt ∈ stmts)
    (noNormal : ∀ machine final, execute stmt machine ≠ .done .normal final)
    (machine final : Machine) : Run.sequence execute stmts machine ≠ .done .normal final := by
  induction stmts generalizing machine with
  | nil => cases member
  | cons first further inductionHypothesis =>
    intro ends
    rw [sequence_cons] at ends
    obtain ⟨completion, middle, isFirst, isFurther⟩ := Run.bind_eq_done ends
    cases completion with
    | returned value => cases isFurther
    | normal =>
      cases member with
      | head => exact noNormal _ _ isFirst
      | tail _ inFurther => exact inductionHypothesis inFurther _ isFurther

/-- A statement that returns does not end normally, whatever happens before its `return`. -/
theorem Stmt.Returns.ne_normal {stmt : Stmt} (returns : stmt.Returns) (settings : Settings)
    (stack : Nat) (scope : ScopeId) (machine final : Machine) :
    execute settings stack scope stmt machine ≠ .done .normal final := by
  induction returns generalizing stack scope machine final with
  | ret keyword value =>
    intro ends
    cases stack with
    | zero => cases ends
    | succ stack =>
      cases value with
      | none => cases ends
      | some value =>
        obtain ⟨result, middle, -, isLast⟩ := Run.bind_eq_done ends
        cases isLast
  | block member _ inductionHypothesis =>
    intro ends
    cases stack with
    | zero => cases ends
    | succ stack =>
      obtain ⟨inner, middle, -, isBody⟩ := Run.bind_eq_done ends
      exact sequence_ne_normal member (inductionHypothesis stack inner) _ _ isBody
  | conditional condition _ _ firstHypothesis secondHypothesis =>
    intro ends
    cases stack with
    | zero => cases ends
    | succ stack =>
      obtain ⟨value, middle, -, isRest⟩ := Run.bind_eq_done ends
      obtain ⟨_, traced, -, isBranch⟩ := Run.bind_eq_done isRest
      split at isBranch
      next => exact firstHypothesis _ _ _ _ isBranch
      next => exact secondHypothesis _ _ _ _ isBranch

/-! ## Matchings -/

/-- Which statements stand for each other in two runs, and which scopes do. -/
structure Matching (World : Type) [Preorder World] where
  OnStmt : Stmt → Stmt → Prop
  /-- Functions with these bodies stand for each other. -/
  OnBody : List Stmt → List Stmt → Prop
  /-- Expressions may be evaluated in these scopes. -/
  Sees : World → ScopeId → ScopeId → Prop
  /-- Names may be bound in these scopes. -/
  Owns : World → ScopeId → ScopeId → Prop
  sameForm : ∀ {stmt other}, OnStmt stmt other → stmt.SameForm OnStmt OnBody other
  inTurn : ∀ {stmts others}, OnBody stmts others → Stmt.InTurn OnStmt stmts others
  sees_of_owns : ∀ {world scope other}, Owns world scope other → Sees world scope other
  seesLater : ∀ {world later scope other}, world ≤ later → Sees world scope other →
    Sees later scope other
  ownsLater : ∀ {world later scope other}, world ≤ later → Owns world scope other →
    Owns later scope other

namespace Matching

variable {World : Type} [Preorder World]

section Relations

variable (matching : Matching World) (world : World)

/-- Functions of the same name with the same parameters. -/
structure OnDeclaration (declaration other : Declaration) : Prop where
  name : other.name = declaration.name
  parameters : other.parameters = declaration.parameters
  body : matching.OnBody declaration.body other.body

/-- Calls do the same, in scopes inside of scopes that stand for each other. -/
inductive OnBehaviour : Behaviour → Behaviour → Prop where
  | function {declaration other : Declaration} {closure otherClosure : ScopeId}
      (declarations : matching.OnDeclaration declaration other)
      (closures : matching.Sees world closure otherClosure) :
      OnBehaviour (.function declaration closure) (.function other otherClosure)
  | clock : OnBehaviour .clock .clock
  | native (arity : Nat) {closure otherClosure : Option ScopeId}
      (closures : Option.Rel (matching.Sees world) closure otherClosure)
      (function : NativeFunction) :
      OnBehaviour (.native arity closure function) (.native arity otherClosure function)
  | abstract (arity : Nat) : OnBehaviour (.abstract arity) (.abstract arity)

/-- The callables have the same identity, and calls of them do the same. -/
structure OnCallable (callable other : Callable) : Prop where
  identity : other.identity = callable.identity
  behaviour : matching.OnBehaviour world callable.behaviour other.behaviour

/-- The values are the same, or callables that stand for each other. -/
inductive OnValue : Value → Value → Prop where
  | plain {value : Value} (isPlain : value.isCallable = false) : OnValue value value
  | callable {callable other : Callable} (callables : matching.OnCallable world callable other) :
      OnValue (.callable callable) (.callable other)

/-- The statements ended in the same way, with values that stand for each other. -/
inductive OnCompletion : Completion → Completion → Prop where
  | normal : OnCompletion .normal .normal
  | returned {value other : Value} (values : matching.OnValue world value other) :
      OnCompletion (.returned value) (.returned other)

/-- The same message about the course of a run, with values that stand for each other. No runtime
error is among them, which is reported at the end of a run alone. -/
inductive OnTraceEntry : TraceEntry → TraceEntry → Prop where
  | defined (name : String) {value other : Value} (values : matching.OnValue world value other) :
      OnTraceEntry (.defined name value) (.defined name other)
  | definedFunction (name : String) (arity : Nat) :
      OnTraceEntry (.definedFunction name arity) (.definedFunction name arity)
  | ifCondition {value other : Value} (values : matching.OnValue world value other) :
      OnTraceEntry (.ifCondition value) (.ifCondition other)
  | whileCondition {value other : Value} (values : matching.OnValue world value other) :
      OnTraceEntry (.whileCondition value) (.whileCondition other)
  | called {callable other : Callable} (callables : matching.OnCallable world callable other)
      (count : Nat) (line : Int) :
      OnTraceEntry (.called callable count line) (.called other count line)

/-- The statement may be executed in the scopes. It binds no name there, unless names may be bound
there. -/
def Hosts (scope other : ScopeId) (stmt : Stmt) : Prop :=
  matching.Owns world scope other ∨ matching.Sees world scope other ∧ stmt.BindsNothing

end Relations

variable {matching : Matching World} {world later : World}

/-! ## What can be told of a value -/

section Values

variable {value other left right otherLeft otherRight : Value} {callable otherCallable : Callable}

/-- The value `nil` stands for itself. -/
theorem onValue_nil : matching.OnValue world .nil .nil := .plain rfl

/-- Callables that stand for each other do so in every later world. -/
theorem OnCallable.mono (callables : matching.OnCallable world callable otherCallable)
    (grows : world ≤ later) : matching.OnCallable later callable otherCallable := by
  obtain ⟨identity, behaviour⟩ := callable
  obtain ⟨otherIdentity, otherBehaviour⟩ := otherCallable
  obtain ⟨sameIdentity, behaviours⟩ := callables
  refine ⟨sameIdentity, ?_⟩
  cases behaviours with
  | function declarations closures =>
    exact .function declarations (matching.seesLater grows closures)
  | clock => exact .clock
  | native arity closures function =>
    refine .native arity ?_ function
    cases closures with
    | none => exact .none
    | some closures => exact .some (matching.seesLater grows closures)
  | abstract arity => exact .abstract arity

/-- Values that stand for each other do so in every later world. -/
theorem OnValue.mono (values : matching.OnValue world value other) (grows : world ≤ later) :
    matching.OnValue later value other := by
  cases values with
  | plain isPlain => exact .plain isPlain
  | callable callables => exact .callable (callables.mono grows)

/-- Lists of values that stand for each other do so in every later world. -/
theorem onValues_mono {values others : List Value}
    (all : List.Forall₂ (matching.OnValue world) values others) (grows : world ≤ later) :
    List.Forall₂ (matching.OnValue later) values others :=
  all.imp fun _ _ values => values.mono grows

/-- Callables that stand for each other take as many arguments. -/
theorem OnCallable.arity (callables : matching.OnCallable world callable otherCallable) :
    otherCallable.arity = callable.arity := by
  obtain ⟨identity, behaviour⟩ := callable
  obtain ⟨otherIdentity, otherBehaviour⟩ := otherCallable
  obtain ⟨-, behaviours⟩ := callables
  cases behaviours with
  | function declarations closures =>
    exact congrArg List.length declarations.parameters
  | clock | native | abstract => rfl

/-- Callables that stand for each other are described alike. -/
theorem OnCallable.described (callables : matching.OnCallable world callable otherCallable) :
    otherCallable.described = callable.described := by
  obtain ⟨identity, behaviour⟩ := callable
  obtain ⟨otherIdentity, otherBehaviour⟩ := otherCallable
  obtain ⟨-, behaviours⟩ := callables
  cases behaviours with
  | function declarations closures => simp only [Callable.described, declarations.name]
  | clock | native | abstract => rfl

/-- Values that stand for each other are truthy alike. -/
theorem OnValue.isTruthy (values : matching.OnValue world value other) :
    other.isTruthy = value.isTruthy := by
  cases values <;> rfl

/-- Values that stand for each other are displayed alike. -/
theorem OnValue.display (values : matching.OnValue world value other) :
    other.display = value.display := by
  cases values with
  | plain => rfl
  | callable callables => exact callables.described

/-- A native function is told the same of values that stand for each other. -/
theorem OnValue.shown (values : matching.OnValue world value other) :
    other.shown = value.shown := by
  cases values with
  | plain => rfl
  | callable callables =>
    simp only [Value.shown, callables.identity, callables.arity, callables.described]

/-- Values that stand for each other are equal to the same ones, since callables keep their
identity. -/
theorem OnValue.equals (lefts : matching.OnValue world left otherLeft)
    (rights : matching.OnValue world right otherRight) :
    otherLeft.equals otherRight = left.equals right := by
  cases lefts with
  | plain =>
    cases rights with
    | plain => rfl
    | callable => cases left <;> first | rfl | contradiction
  | callable lefts =>
    cases rights with
    | plain => cases right <;> first | rfl | contradiction
    | callable rights => simp only [Value.equals, lefts.identity, rights.identity]

/-- Messages that stand for each other have the same level. -/
theorem OnTraceEntry.level {entry otherEntry : TraceEntry}
    (entries : matching.OnTraceEntry world entry otherEntry) :
    otherEntry.level = entry.level := by
  cases entries <;> rfl

/-- Messages that stand for each other have the same wording. -/
theorem OnTraceEntry.text {entry otherEntry : TraceEntry}
    (entries : matching.OnTraceEntry world entry otherEntry) :
    otherEntry.text = entry.text := by
  unfold TraceEntry.text
  cases entries with
  | defined name values =>
    dsimp only
    rw [values.display]
  | definedFunction => rfl
  | ifCondition values | whileCondition values =>
    dsimp only [TraceEntry.conditionText]
    rw [values.display, values.isTruthy]
  | called callables =>
    dsimp only
    rw [callables.described]

/-! ## Operators -/

/-- An operator on numbers gives the same. -/
theorem onNumbers_eq (operator : Token) (lefts : matching.OnValue world left otherLeft)
    (rights : matching.OnValue world right otherRight) (result : Float → Float → Value) :
    Operator.onNumbers operator otherLeft otherRight result =
      Operator.onNumbers operator left right result := by
  cases lefts with
  | plain =>
    cases rights with
    | plain => rfl
    | callable => cases left <;> rfl
  | callable => rfl

/-- A sum gives the same. -/
theorem plus_eq (operator : Token) (lefts : matching.OnValue world left otherLeft)
    (rights : matching.OnValue world right otherRight) :
    Operator.plus operator otherLeft otherRight = Operator.plus operator left right := by
  cases lefts with
  | plain =>
    cases rights with
    | plain => rfl
    | callable => cases left <;> rfl
  | callable => rfl

/-- Operators give the same result for values that stand for each other. -/
theorem binary_eq (operator : Token) (lefts : matching.OnValue world left otherLeft)
    (rights : matching.OnValue world right otherRight) :
    Operator.binary operator otherLeft otherRight = Operator.binary operator left right := by
  unfold Operator.binary
  simp only [plus_eq operator lefts rights, onNumbers_eq operator lefts rights,
    lefts.equals rights]

/-- A unary operator gives the same. -/
theorem unary_eq (operator : Token) (values : matching.OnValue world value other) :
    Operator.unary operator other = Operator.unary operator value := by
  unfold Operator.unary
  rw [values.isTruthy]
  cases values <;> rfl

/-- A logical operator decides alike. -/
theorem decides_eq (operator : Token) (values : matching.OnValue world value other) :
    Operator.decides operator other = Operator.decides operator value := by
  unfold Operator.decides
  rw [values.isTruthy]

end Values

/-- Statements that ended alike have values that stand for each other. -/
theorem OnCompletion.value {completion other : Completion}
    (completions : matching.OnCompletion world completion other) :
    matching.OnValue world completion.value other.value := by
  cases completions with
  | normal => exact onValue_nil
  | returned values => exact values

/-- A name that is set on both sides is bound to the new values, and others are as before. -/
theorem onValue_set {bindings others : Bindings Value} {value other : Value} (name : String)
    (all : ∀ bound, Option.Rel (matching.OnValue world) (bindings.get? bound) (others.get? bound))
    (values : matching.OnValue world value other) (bound : String) :
    Option.Rel (matching.OnValue world) ((bindings.set name value).get? bound)
      ((others.set name other).get? bound) := by
  rw [Bindings.get?_set, Bindings.get?_set]
  split
  next => exact .some values
  next => exact all bound

/-- Scopes that host a statement see the same names. -/
theorem Hosts.sees {scope other : ScopeId} {stmt : Stmt}
    (hosts : matching.Hosts world scope other stmt) : matching.Sees world scope other := by
  obtain owns | ⟨sees, -⟩ := hosts
  · exact matching.sees_of_owns owns
  · exact sees

/-- Scopes that host a statement do so in every later world. -/
theorem Hosts.mono {scope other : ScopeId} {stmt : Stmt}
    (hosts : matching.Hosts world scope other stmt) (grows : world ≤ later) :
    matching.Hosts later scope other stmt :=
  hosts.imp (matching.ownsLater grows) (And.imp_left (matching.seesLater grows))

end Matching
end LoxLang
