import LoxLang.Proofs.Session.Upkeep
import LoxLang.Proofs.Store.Rooting

/-!
# Scopes along a session

Whatever programs do, and whichever way they end, the store stays rooted and function values close
over scopes that are open. Scopes are never taken back or moved, so that the next one to be opened
is none that was ever there.
-/

namespace LoxLang

open BigStep

/-! ## Layouts -/

/-- How many scopes there are, and what lies around each of them. -/
structure Layout where
  size : Nat
  enclosing : ScopeId → List ScopeId

/-- The scopes of the earlier layout are there later on, in the same place. -/
instance : LE Layout where
  le earlier later := earlier.size ≤ later.size ∧
    ∀ scope < earlier.size, later.enclosing scope = earlier.enclosing scope

instance : Preorder Layout where
  le_refl layout := ⟨le_refl layout.size, fun _ _ => rfl⟩
  le_trans _ _ _ first second :=
    ⟨first.1.trans second.1, fun scope isOpen =>
      (second.2 scope (isOpen.trans_le first.1)).trans (first.2 scope isOpen)⟩

namespace Store

/-- The layout of a store. -/
def layout {α : Type} (store : Store α) : Layout := ⟨store.size, store.enclosing⟩

/-- To bind a name moves no scope. -/
@[simp] theorem layout_define {α : Type} (store : Store α) (scope : ScopeId) (name : String)
    (value : α) : (store.define scope name value).layout = store.layout :=
  congrArg₂ Layout.mk (size_define ..) (funext fun _ => enclosing_define ..)

/-- A layout grows by a scope that is opened. -/
theorem layout_le_push {α : Type} (store : Store α) (outer : Option ScopeId) :
    store.layout ≤ (store.push outer).layout := by
  refine ⟨?_, fun scope isOpen => ?_⟩
  · exact (size_push store outer).ge.trans' (Nat.le_succ _)
  · exact (enclosing_push ..).trans (if_neg (Nat.ne_of_lt isOpen))

/-- The values that are bound close over open scopes. -/
def ClosesOpen (store : Store Value) : Prop :=
  ∀ scope name value closure, (store.bindings scope).get? name = some value →
    value.closure? = some closure → closure < store.size

/-- Functions close over open scopes when one more is opened. -/
theorem ClosesOpen.push {store : Store Value} (closesOpen : store.ClosesOpen)
    (outer : Option ScopeId) : (store.push outer).ClosesOpen := by
  intro scope name value closure isBound closes
  rw [bindings_push] at isBound
  rw [size_push]
  exact Nat.lt_succ_of_lt (closesOpen scope name value closure isBound closes)

/-- Functions close over open scopes when a value is bound that does. -/
theorem ClosesOpen.define {store : Store Value} (closesOpen : store.ClosesOpen) {value : Value}
    (isKnown : ∀ closure, value.closure? = some closure → closure < store.size) (scope : ScopeId)
    (name : String) : (store.define scope name value).ClosesOpen := by
  intro other seen found closure isBound closes
  rw [size_define]
  rw [bindings_define] at isBound
  split at isBound
  next =>
    rw [Bindings.get?_set] at isBound
    split at isBound
    next =>
      obtain rfl := Option.some.inj isBound
      exact isKnown closure closes
    next => exact closesOpen other seen found closure isBound closes
  next => exact closesOpen other seen found closure isBound closes

end Store

/-! ## The invariant -/

/-- The store is rooted and its values close over open scopes. The worlds are the layouts. -/
def scoping : Upkeep Layout where
  Fits layout state :=
    state.store.layout = layout ∧ state.store.Rooted ∧ state.store.ClosesOpen
  Opens layout scope := scope < layout.size
  Knows layout value := ∀ closure, value.closure? = some closure → closure < layout.size
  opensLater grows isOpen := isOpen.trans_le grows.1
  knowsLater grows isKnown closure closes := (isKnown closure closes).trans_le grows.1
  globals := by
    rintro _ state ⟨rfl, rooted, -⟩
    exact rooted.isOpen
  plain isPlain closure closes := by
    rw [Value.closure?_of_plain isPlain] at closes
    cases closes
  closes isKnown := isKnown _
  binds := by
    rintro _ state scope name holder value ⟨rfl, rooted, closesOpen⟩ isOpen binds
    obtain ⟨_, _, around, isBound, -⟩ := binds
    have member : holder ∈ state.store.chain scope := by simp [around]
    exact ⟨rooted.lt_size_of_mem_chain isOpen member,
      fun closure => closesOpen holder name value closure isBound⟩
  tells fits _ _ _ := fits
  define := by
    rintro _ state scope value ⟨rfl, rooted, closesOpen⟩ isOpen isKnown name
    exact ⟨state.store.layout_define scope name value, rooted.define scope name value,
      closesOpen.define isKnown scope name⟩
  inside := by
    rintro _ state outer ⟨rfl, rooted, closesOpen⟩ isOpen
    refine ⟨_, state.store.layout_le_push (some outer), ⟨rfl, rooted.push isOpen,
      closesOpen.push (some outer)⟩, ?_⟩
    exact (state.store.size_push (some outer)).ge
  make fits isKnown := ⟨_, le_refl _, fits, isKnown⟩

/-- The first scope is the global one. -/
theorem fits_scoping_initial (clock : Nat → Float) :
    ∃ layout, scoping.Fits layout (view (.initial clock)) := by
  have rooted : (Store.empty.push none : Store Value).Rooted := by
    refine ⟨by decide, rfl, fun scope isOpen notRoot => absurd ?_ notRoot⟩
    exact Nat.lt_one_iff.mp isOpen
  have closesOpen : (Store.empty.push none : Store Value).ClosesOpen := by
    intro scope name value closure isBound closes
    rw [Store.bindings_push] at isBound
    cases isBound
  have fits : scoping.Fits _ (view ⟨Store.empty.push none, 0, clock, 0, #[]⟩) :=
    ⟨rfl, rooted, closesOpen⟩
  obtain ⟨layout, -, fitsInitial⟩ :=
    @Session.kept_defineCallable _ _ scoping _ _ fits "clock" .clock nofun
  exact ⟨layout, fitsInitial⟩

/-! ## What is to be said of the scopes -/

/-- The scope was never opened: it lies on no way outwards, no value closes over it, and it binds
nothing. -/
structure Store.IsNew (store : Store Value) (scope : ScopeId) : Prop where
  unopened : ∀ other < store.size, scope ∉ store.chain other
  unclosed : ∀ other name value, (store.bindings other).get? name = some value →
    value.closure? ≠ some scope
  unbound : store.bindings scope = []

/-- A scope that a block or a call opens inside another one, and the machine with it. -/
structure Machine.Opens (machine : Machine) (outer inner : ScopeId) (opened : Machine) : Prop where
  isNew : machine.store.IsNew inner
  isInside : opened.store.outer? inner = some outer
  grounded : opened.store.Grounded inner
  kept : machine.store.layout ≤ opened.store.layout
  /-- The statements of a block are executed in the scope. -/
  block : ∀ settings stack stmts, execute settings (stack + 1) outer (.block stmts) machine =
    Run.sequence (execute settings stack inner) stmts opened
  /-- The body of a function is executed in the scope, with the parameters bound there. -/
  call : ∀ settings stack identity declaration arguments,
    invoke settings (stack + 1) ⟨identity, .function declaration outer⟩ arguments machine =
      Run.bind (Run.bindParameters inner declaration.parameters arguments) (fun _ =>
        Run.bind (Run.sequence (execute settings stack inner) declaration.body) fun completion =>
          Run.pure completion.value) opened

/-- The scopes of a machine are in order. -/
structure Machine.InOrder (machine : Machine) : Prop where
  rooted : machine.store.Rooted
  /-- The way outwards from every open scope ends at the global scope. -/
  grounded : ∀ scope < machine.store.size, machine.store.Grounded scope
  /-- Function values close over open scopes. -/
  closures : ∀ scope name value closure, (machine.store.bindings scope).get? name = some value →
    value.closure? = some closure →
      closure < machine.store.size ∧ machine.store.Grounded closure
  /-- What a block or a call opens was never there. -/
  opens : ∀ outer < machine.store.size, ∃ inner opened, machine.Opens outer inner opened

/-- The scopes that a task mentions, or that its values close over. -/
def BigStep.Task.scopes : Task → List ScopeId
  | .evaluate scope _ | .evaluateAll scope _ => [scope]
  | .call _ callee arguments => (callee :: arguments).filterMap Value.closure?
  | .execute scope _ | .executeAll scope _ => [scope]

/-- The next scope to be opened is none that anything was bound in or closes over. -/
theorem Store.Rooted.isNew {store : Store Value} (rooted : store.Rooted)
    (closesOpen : store.ClosesOpen) : store.IsNew store.size where
  unopened _ isOpen member := Nat.lt_irrefl _ (rooted.lt_size_of_mem_chain isOpen member)
  unclosed other name value isBound closes :=
    Nat.lt_irrefl _ (closesOpen other name value store.size isBound closes)
  unbound := bindings_of_size_le (le_refl _)

section Laws

variable {machine : Machine}

/-- A scope that is opened inside an open one is new, and lies directly inside that. -/
theorem Machine.opens_push (rooted : machine.store.Rooted) (closesOpen : machine.store.ClosesOpen)
    {outer : ScopeId} (isOpen : outer < machine.store.size) :
    machine.Opens outer machine.store.size
      { machine with store := machine.store.push (some outer) } where
  isNew := rooted.isNew closesOpen
  isInside := (Store.outer?_push ..).trans (if_pos rfl)
  grounded := (rooted.push isOpen).grounded (by simp)
  kept := machine.store.layout_le_push (some outer)
  block _ _ _ := rfl
  call _ _ _ _ _ := rfl

/-- A state that fits its layout is in order. -/
theorem Machine.InOrder.of_fits {layout : Layout} (fits : scoping.Fits layout (view machine)) :
    machine.InOrder := by
  obtain ⟨-, rooted, closesOpen⟩ := fits
  constructor
  case rooted => exact rooted
  case grounded => exact fun scope isOpen => rooted.grounded isOpen
  case closures =>
    intro scope name value closure isBound closes
    have isOpen := closesOpen scope name value closure isBound closes
    exact ⟨isOpen, rooted.grounded isOpen⟩
  case opens => exact fun outer isOpen => ⟨_, _, Machine.opens_push rooted closesOpen isOpen⟩

/-- A machine in order fits the layout of its store. -/
theorem Machine.InOrder.fits (inOrder : machine.InOrder) :
    scoping.Fits machine.store.layout (view machine) :=
  ⟨rfl, inOrder.rooted, fun scope name value closure isBound closes =>
    (inOrder.closures scope name value closure isBound closes).1⟩

end Laws

/-- A task that names open scopes is admitted. -/
theorem admits_of_scopes {store : Store Value} {task : Task}
    (areOpen : ∀ scope ∈ task.scopes, scope < store.size) : scoping.Admits store.layout task := by
  cases task with
  | call paren callee arguments =>
    have isKnown : ∀ value ∈ callee :: arguments, scoping.Knows store.layout value :=
      fun value member closure closes =>
        areOpen closure (List.mem_filterMap.mpr ⟨value, member, closes⟩)
    exact List.forall_mem_cons.mp isKnown
  | _ => exact areOpen _ (List.mem_singleton.mpr rfl)

/-- The scopes of a session are in order after every sequence of requests, whichever way each of
them ended, and those that are there are never taken back or moved. The same holds of every part of
a run: of the tasks that begin in open scopes, on whatever machine whose scopes are in order; and a
host may bind any value that closes over an open scope. -/
theorem inOrder_after :
    (∀ limits debugLevel clock ownOutput requests,
      let session := (Session.start limits debugLevel clock ownOutput).after requests
      session.machine.InOrder ∧ ∀ further,
        session.machine.store.layout ≤ (session.after further).machine.store.layout) ∧
    (∀ settings stack (task : Task) (machine : Machine), machine.InOrder →
      (∀ scope ∈ task.scopes, scope < machine.store.size) →
      let outcome := task.run settings stack machine
      outcome.machine.InOrder ∧ machine.store.layout ≤ outcome.machine.store.layout ∧
        ∀ result, ending outcome = .ok result → ∀ value ∈ task.resultValues result,
          ∀ closure, value.closure? = some closure → closure < outcome.machine.store.size) ∧
    ∀ (machine : Machine) name value, machine.InOrder →
      (∀ closure, value.closure? = some closure → closure < machine.store.size) →
      (machine.defineGlobal name value).InOrder := by
  refine ⟨?_, ?_, ?_⟩
  · intro limits debugLevel clock ownOutput requests session
    obtain ⟨first, fitsFirst⟩ := fits_scoping_initial clock
    have kept : ∃ layout, first ≤ layout ∧ scoping.Fits layout (view session.machine) :=
      Session.kept_after fitsFirst requests
    obtain ⟨layout, -, fits⟩ := kept
    refine ⟨.of_fits fits, fun further => ?_⟩
    obtain ⟨later, grows, fitsLater⟩ := Session.kept_after fits further
    obtain rfl := fits.1
    obtain rfl := fitsLater.1
    exact grows
  · intro settings stack task machine inOrder areOpen outcome
    obtain ⟨later, grows, fitsLater, areKnown⟩ :=
      Task.kept_run settings stack inOrder.fits (admits_of_scopes areOpen)
    obtain rfl := fitsLater.1
    exact ⟨.of_fits fitsLater, grows, areKnown⟩
  · intro machine name value inOrder isKnown
    exact .of_fits (Session.kept_define inOrder.fits name isKnown)

/-- A run that used up its stack leaves the scopes of calls that never came to an end. The last one
lies inside the scope that the function closes over, and not inside the block of the caller. -/
theorem inOrder_after_overflow :
    let name (lexeme : String) : Token := ⟨.identifier, lexeme, .nil, 1⟩
    let call (lexeme : String) : Expr := .call (.reference (name lexeme)) (name ")") []
    let inner : Stmt := .function (name "g") [] [.ret (name "return") (some (call "g"))]
    let outer : Stmt := .function (name "f") []
      [inner, .ret (name "return") (some (.reference (name "g")))]
    let session := (Session.start ⟨9, 0⟩ 0 (fun _ => 0) false).after
      [.program [outer, .var (name "h") (some (call "f")), .block [.expression (call "h")]]]
    session.machine.InOrder ∧ session.machine.store.size = 5 ∧
      session.machine.store.walk? 5 4 = some [4, 1, 0] := by
  refine ⟨(inOrder_after.1 ⟨9, 0⟩ 0 _ _ _).1, ?_, ?_⟩
  · cbv
  · cbv

end LoxLang
