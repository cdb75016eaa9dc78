import Mathlib.Logic.Relation
import LoxLang.Proofs.Evaluation.Confinement
import LoxLang.Proofs.Evaluation.Frame

/-!
# How names are resolved

Scopes form a forest. From a scope the way leads outwards, to the scope that lies directly around it
and so on, and the first scope on the way that binds a name is the one that the name is resolved to.
Many scopes share the outer part of their ways, so a change in one scope can be seen from many
others, unless a scope in between binds the same name.

`Sees` and `Resolves` tell this by single steps outwards. The chains that a store keeps are not
mentioned there; that they are the ways outwards is the invariant `Layered`.
-/

namespace LoxLang

namespace Store

variable {α : Type}

/-- The scope that lies directly around a scope. -/
def outer? (store : Store α) (scope : ScopeId) : Option ScopeId := (store.enclosing scope).head?

/-! ## Stores that are built -/

/-- What can be asked of a store of scopes. -/
inductive Operation (α : Type) where
  /-- To open a scope, inside another one or outside of all. -/
  | push (outer : Option ScopeId)
  /-- To bind a name in a scope. -/
  | define (scope : ScopeId) (name : String) (value : α)
  /-- To change the value of a name, as it is resolved in a scope. -/
  | assign (scope : ScopeId) (name : String) (value : α)
  /-- To give the value of a name, as it is resolved in a scope. -/
  | lookup (scope : ScopeId) (name : String)

/-- The scopes that an operation names. -/
def Operation.scopes : Operation α → List ScopeId
  | push outer => outer.toList
  | define scope _ _ | assign scope _ _ | lookup scope _ => [scope]

/-- The store after an operation. One that fails leaves it as it is. -/
def after (store : Store α) : Operation α → Store α
  | .push outer => store.push outer
  | .define scope name value => store.define scope name value
  | .assign scope name value => (store.assign? scope name value).getD store
  | .lookup _ _ => store

/-- The stores that any sequence of operations builds, as long as each of them names scopes that are
open. -/
inductive Built : Store α → Prop where
  | empty : Built empty
  | after {store : Store α} (built : Built store) (operation : Operation α)
      (areOpen : ∀ scope ∈ operation.scopes, scope < store.size) : Built (store.after operation)

/-- Every scope lies outside of all others or directly inside an older one, whose chain it
continues. -/
def Layered (store : Store α) : Prop :=
  ∀ scope, store.enclosing scope = [] ∨
    ∃ outer < scope, store.enclosing scope = store.chain outer

/-- The chain of a scope stays what it is when another scope is opened. -/
theorem chain_push_of_lt {store : Store α} {scope : ScopeId} (isOld : scope < store.size)
    {outer : Option ScopeId} : (store.push outer).chain scope = store.chain scope := by
  rw [chain, enclosing_push, if_neg (Nat.ne_of_lt isOld), chain]

namespace Layered

variable {store : Store α}

/-- Induction along the way outwards. -/
@[elab_as_elim]
theorem induction (layered : store.Layered) {motive : ScopeId → Prop}
    (root : ∀ scope, store.enclosing scope = [] → motive scope)
    (inner : ∀ scope outer, store.enclosing scope = store.chain outer → motive outer → motive scope)
    (scope : ScopeId) : motive scope := by
  induction scope using Nat.strongRecOn with
  | _ scope inductionHypothesis =>
    obtain alone | ⟨outer, older, around⟩ := layered scope
    · exact root scope alone
    · exact inner scope outer around (inductionHypothesis outer older)

/-- Scopes stay layered when one is opened inside an older one. -/
theorem push (layered : store.Layered) {outer : Option ScopeId}
    (isOpen : ∀ scope ∈ outer, scope < store.size) : (store.push outer).Layered := by
  intro scope
  rw [enclosing_push]
  split
  next isNew =>
    subst isNew
    cases outer with
    | none => exact .inl rfl
    | some outer => exact .inr ⟨outer, isOpen outer rfl, (chain_push_of_lt (isOpen outer rfl)).symm⟩
  next notNew =>
    obtain alone | ⟨outer, older, around⟩ := layered scope
    · exact .inl alone
    · have isOld : scope < store.size := by
        by_contra isLater
        rw [enclosing_of_size_le (Nat.not_lt.mp isLater)] at around
        cases around
      exact .inr ⟨outer, older, around.trans (chain_push_of_lt (older.trans isOld)).symm⟩

/-- Scopes stay layered when a name is bound. -/
theorem define (layered : store.Layered) (scope : ScopeId) (name : String) (value : α) :
    (store.define scope name value).Layered := by
  intro other
  simpa only [enclosing_define, chain_define] using layered other

/-- Scopes stay layered in every operation that names scopes that are open. -/
theorem after (layered : store.Layered) {operation : Operation α}
    (areOpen : ∀ scope ∈ operation.scopes, scope < store.size) :
    (store.after operation).Layered := by
  cases operation with
  | push outer =>
    exact layered.push fun scope isOuter => areOpen scope (Option.mem_toList.mpr isOuter)
  | define scope name value => exact layered.define scope name value
  | assign scope name value =>
    change ((store.assign? scope name value).getD store).Layered
    unfold Store.assign?
    cases store.holder? scope name with
    | none => exact layered
    | some holder => exact layered.define holder name value
  | lookup scope name => exact layered

end Layered

/-- In every store that is built the scopes are layered, by induction on the operations. -/
theorem Built.layered {store : Store α} (built : store.Built) : store.Layered := by
  induction built with
  | empty => exact fun scope => .inl (enclosing_of_size_le (Nat.zero_le scope))
  | after _ operation areOpen layered => exact layered.after areOpen

/-- Around a scope that lies outside of all others there is none. -/
theorem outer?_of_root {store : Store α} {scope : ScopeId} (alone : store.enclosing scope = []) :
    store.outer? scope = none := by
  rw [outer?, alone]
  rfl

/-- Directly around a scope is the first scope of the chain that it continues. -/
theorem outer?_of_inner {store : Store α} {scope outer : ScopeId}
    (around : store.enclosing scope = store.chain outer) : store.outer? scope = some outer := by
  rw [outer?, around]
  rfl

/-- To bind a name moves no scope. -/
@[simp] theorem outer?_define (store : Store α) (scope other : ScopeId) (name : String)
    (value : α) : (store.define scope name value).outer? other = store.outer? other := by
  rw [outer?, enclosing_define, outer?]

/-- A new scope lies directly inside the one in which it was opened; all others stay in place. -/
theorem outer?_push (store : Store α) (outer : Option ScopeId) (scope : ScopeId) :
    (store.push outer).outer? scope = if scope = store.size then outer else store.outer? scope := by
  rw [outer?, enclosing_push]
  split
  · cases outer <;> rfl
  · rfl

/-! ## The way outwards -/

/-- The way for a name leads from a scope to the one directly around it, since the scope does not
bind the name. -/
def Passes (store : Store α) (name : String) (scope outer : ScopeId) : Prop :=
  (store.bindings scope).get? name = none ∧ store.outer? scope = some outer

/-- The way for a name leads from one scope to another, past scopes that do not bind the name. -/
def Sees (store : Store α) (name : String) : ScopeId → ScopeId → Prop :=
  Relation.ReflTransGen (store.Passes name)

/-- The nearest scope on the way outwards that binds a name, a name that is bound to nil
included. -/
def Resolves (store : Store α) (name : String) (scope holder : ScopeId) : Prop :=
  store.Sees name scope holder ∧ ((store.bindings holder).get? name).isSome

section Ways

variable {store : Store α} {name : String} {scope outer target : ScopeId}

/-- From a scope outside of all others, only itself is seen. -/
theorem sees_root_iff (alone : store.enclosing scope = []) :
    store.Sees name scope target ↔ scope = target := by
  rw [Sees, Relation.ReflTransGen.cases_head_iff]
  simp [Passes, outer?_of_root alone]

/-- From an inner scope, what is seen is itself, and from the scope around it if it does not bind
the name. -/
theorem sees_inner_iff (around : store.enclosing scope = store.chain outer) :
    store.Sees name scope target ↔ scope = target ∨
      (store.bindings scope).get? name = none ∧ store.Sees name outer target := by
  rw [Sees, Relation.ReflTransGen.cases_head_iff]
  simp [Passes, outer?_of_inner around, and_assoc]

/-- Outside of all others, a scope holds a name if it binds it. -/
theorem holder?_root (alone : store.enclosing scope = []) :
    store.holder? scope name =
      if ((store.bindings scope).get? name).isSome then some scope else none := by
  rw [holder?, chain, alone, List.find?_cons]
  split <;> simp_all

/-- Inside another one, a scope holds a name if it binds it, and else the scope around it tells. -/
theorem holder?_inner (around : store.enclosing scope = store.chain outer) :
    store.holder? scope name =
      if ((store.bindings scope).get? name).isSome then some scope
      else store.holder? outer name := by
  rw [holder?, chain, around, List.find?_cons]
  split <;> simp_all [holder?]

/-- Inside another one, a scope finds the value that it binds, and else what the scope around it
finds. -/
theorem lookup?_inner (around : store.enclosing scope = store.chain outer) :
    store.lookup? scope name =
      ((store.bindings scope).get? name).or (store.lookup? outer name) := by
  rw [lookup?, chain, around, List.findSome?_cons]
  split <;> simp_all [lookup?]

/-- Outside of all others, a name is resolved to the scope itself. -/
theorem resolves_root_iff (alone : store.enclosing scope = []) {holder : ScopeId} :
    store.Resolves name scope holder ↔
      scope = holder ∧ ((store.bindings scope).get? name).isSome := by
  rw [Resolves, sees_root_iff alone]
  exact and_congr_right fun same => by rw [same]

/-- Inside another one, a name is resolved to the scope itself or as from the scope around it. -/
theorem resolves_inner_iff (around : store.enclosing scope = store.chain outer)
    {holder : ScopeId} :
    store.Resolves name scope holder ↔
      scope = holder ∧ ((store.bindings scope).get? name).isSome ∨
        (store.bindings scope).get? name = none ∧ store.Resolves name outer holder := by
  rw [Resolves, sees_inner_iff around, or_and_right, and_assoc, Resolves]
  exact or_congr_left (and_congr_right fun same => by rw [same])

/-- The scope that holds a name is found by following the way outwards. -/
theorem resolves_iff_holder? (layered : store.Layered) {holder : ScopeId} :
    store.Resolves name scope holder ↔ store.holder? scope name = some holder := by
  induction scope using layered.induction with
  | root scope alone =>
    rw [resolves_root_iff alone, holder?_root alone]
    split
    next isBound => simp [isBound]
    next unbound => simp [unbound]
  | inner scope outer around inductionHypothesis =>
    rw [resolves_inner_iff around, holder?_inner around, inductionHypothesis]
    split
    next isBound => simp [isBound, Option.isSome_iff_ne_none.mp isBound]
    next unbound => simp [Option.not_isSome_iff_eq_none.mp unbound]

/-- A name has the value that it has in the scope that holds it. -/
theorem lookup?_eq_bind (store : Store α) (scope : ScopeId) (name : String) :
    store.lookup? scope name =
      (store.holder? scope name).bind fun holder => (store.bindings holder).get? name := by
  unfold lookup? holder?
  induction store.chain scope with
  | nil => rfl
  | cons candidate further inductionHypothesis =>
    rw [List.findSome?_cons, List.find?_cons]
    cases isBound : (store.bindings candidate).get? name <;> simp [isBound, inductionHypothesis]

/-- A name has a value if it is resolved to a scope that binds it to that. -/
theorem lookup?_eq_some_iff_resolves (layered : store.Layered) {value : α} :
    store.lookup? scope name = some value ↔ ∃ holder, store.Resolves name scope holder ∧
      (store.bindings holder).get? name = some value := by
  simp only [lookup?_eq_bind, Option.bind_eq_some_iff, resolves_iff_holder? layered]

/-- A name has no value if it is resolved to no scope. -/
theorem lookup?_eq_none_iff_resolves (layered : store.Layered) :
    store.lookup? scope name = none ↔ ∀ holder, ¬ store.Resolves name scope holder := by
  rw [Option.eq_none_iff_forall_ne_some]
  constructor
  · intro notFound holder resolves
    obtain ⟨value, isBound⟩ := Option.isSome_iff_exists.mp resolves.2
    exact notFound value ((lookup?_eq_some_iff_resolves layered).mpr ⟨holder, resolves, isBound⟩)
  · intro unresolved value isFound
    obtain ⟨holder, resolves, -⟩ := (lookup?_eq_some_iff_resolves layered).mp isFound
    exact unresolved holder resolves

/-- Outside of all others, a scope finds what it binds. -/
theorem lookup?_root (alone : store.enclosing scope = []) :
    store.lookup? scope name = (store.bindings scope).get? name := by
  rw [lookup?, chain, alone, List.findSome?_cons]
  split <;> simp_all

/-- To bind a name changes that name in that scope alone. -/
theorem get?_define (isOpen : scope < store.size) (value : α) (other : ScopeId) (seen : String) :
    ((store.define scope name value).bindings other).get? seen =
      if other = scope ∧ seen = name then some value else (store.bindings other).get? seen := by
  rw [bindings_define]
  by_cases here : other = scope
  · simp [here, isOpen, Bindings.get?_set]
  · simp [here]

open scoped Classical in
/-- A definition is seen from exactly those scopes whose way for the name leads to the scope that it
stands in. -/
theorem lookup?_define (layered : store.Layered) (isOpen : scope < store.size) (value : α)
    (observer : ScopeId) (seen : String) :
    (store.define scope name value).lookup? observer seen =
      if seen = name ∧ store.Sees name observer scope then some value
      else store.lookup? observer seen := by
  induction observer using layered.induction with
  | root observer alone =>
    have stillAlone : (store.define scope name value).enclosing observer = [] := by
      rw [enclosing_define, alone]
    rw [lookup?_root stillAlone, get?_define isOpen, lookup?_root alone, sees_root_iff alone]
    simp only [and_comm]
  | inner observer outer around inductionHypothesis =>
    have stillAround : (store.define scope name value).enclosing observer =
        (store.define scope name value).chain outer := by
      rw [enclosing_define, chain_define, around]
    rw [lookup?_inner stillAround, get?_define isOpen, inductionHypothesis, lookup?_inner around,
      sees_inner_iff around]
    by_cases isName : seen = name
    · subst isName
      by_cases here : observer = scope
      · simp [here]
      · cases (store.bindings observer).get? seen <;> simp [here]
    · simp [isName]

end Ways

/-- The later store has another value for one name in one scope, and is the same otherwise. -/
structure ChangedAt (store : Store α) (scope : ScopeId) (name : String) (value : α)
    (later : Store α) : Prop where
  size : later.size = store.size
  outer? : ∀ other, later.outer? other = store.outer? other
  bindings : ∀ other seen, (later.bindings other).get? seen =
    if other = scope ∧ seen = name then some value else (store.bindings other).get? seen

/-- To bind a name changes the scope at that name and no other. -/
theorem changedAt_define (store : Store α) {scope : ScopeId} (isOpen : scope < store.size)
    (name : String) (value : α) :
    store.ChangedAt scope name value (store.define scope name value) :=
  ⟨size_define .., fun _ => outer?_define .., get?_define isOpen value⟩

/-- A change of a name that is bound binds no name. -/
theorem names_define {store : Store α} {scope : ScopeId} {name : String}
    (isBound : ((store.bindings scope).get? name).isSome) (value : α) (other : ScopeId) :
    ((store.define scope name value).bindings other).names = (store.bindings other).names := by
  rw [bindings_define]
  split
  next here =>
    rw [here.1]
    exact Bindings.names_set_of_mem (Bindings.mem_names_of_isSome isBound) value
  next => rfl

/-- What is found from a scope stays so when another scope is opened. -/
theorem lookup?_push_of_lt {store : Store α} {scope : ScopeId} (isOld : scope < store.size)
    {outer : Option ScopeId} (name : String) :
    (store.push outer).lookup? scope name = store.lookup? scope name := by
  simp only [lookup?, chain_push_of_lt isOld, bindings_push]

/-- The scope that a name is resolved to is open. -/
theorem Resolves.lt_size {store : Store α} {name : String} {scope holder : ScopeId}
    (resolves : store.Resolves name scope holder) : holder < store.size := by
  by_contra notOpen
  have isBound := resolves.2
  rw [bindings_of_size_le (Nat.not_lt.mp notOpen)] at isBound
  cases isBound

end Store

/-! ## Reading, assigning and binding -/

open BigStep (ending)

/-- What reading a name in a scope comes to. -/
def Machine.reads (machine : Machine) (scope : ScopeId) (name : Token) : Except Halt Value :=
  ending (Run.readVariable scope name machine)

/-- The halt at a name that no scope on the way outwards binds. -/
def Halt.undefined (name : Token) : Halt := .failed ⟨.undefinedVariable, name⟩

/-- The scopes for which a change is in force read a name as the new value. Other names, and all
names in the other scopes, are read as before. -/
structure Machine.Observes (machine : Machine) (later : Store Value) (name : String)
    (value : Value) (inForce : ScopeId → Prop) : Prop where
  changed : ∀ observer seen, seen.lexeme = name → inForce observer →
    { machine with store := later }.reads observer seen = .ok value
  unchanged : ∀ observer seen, ¬ (seen.lexeme = name ∧ inForce observer) →
    { machine with store := later }.reads observer seen = machine.reads observer seen

/-- Names are resolved along the way outwards, and changes are seen along it. -/
structure Machine.Lexical (machine : Machine) : Prop where
  /-- There is one nearest scope at most. -/
  nearest : ∀ name scope holder other, machine.store.Resolves name scope holder →
    machine.store.Resolves name scope other → other = holder
  /-- A name is read as the value that it has in the nearest scope that binds it. -/
  found : ∀ scope name value, machine.reads scope name = .ok value ↔
    ∃ holder, machine.store.Resolves name.lexeme scope holder ∧
      (machine.store.bindings holder).get? name.lexeme = some value
  /-- A name cannot be read if there is no such scope, and only then. -/
  missing : ∀ scope name, machine.reads scope name = .error (.undefined name) ↔
    ∀ holder, ¬ machine.store.Resolves name.lexeme scope holder
  /-- Reading changes nothing, whether it fails or not. -/
  kept : ∀ scope name, (Run.readVariable scope name machine).machine = machine
  /-- An assignment changes the value in the nearest scope that binds the name and binds no name
  anywhere. The change is in force for all scopes in which the name is resolved to that scope. -/
  assigned : ∀ scope name value holder, machine.store.Resolves name.lexeme scope holder →
    ∃ later, machine.store.assign? scope name.lexeme value = some later ∧
      Run.assignVariable scope name value machine = .done () { machine with store := later } ∧
      machine.store.ChangedAt holder name.lexeme value later ∧
      (∀ other, (later.bindings other).names = (machine.store.bindings other).names) ∧
      machine.Observes later name.lexeme value
        fun observer => machine.store.Resolves name.lexeme observer holder
  /-- Where there is no such scope, and only there, an assignment fails and changes nothing. -/
  unassigned : ∀ scope name value, Run.assignVariable scope name value machine =
      .halted (.undefined name) machine ↔
    ∀ holder, ¬ machine.store.Resolves name.lexeme scope holder
  /-- A definition changes its own scope alone, and is in force for all scopes whose way for the
  name leads to that scope. -/
  defined : ∀ scope name value, scope < machine.store.size →
    ∃ later, Run.define scope name value machine = .done () { machine with store := later } ∧
      machine.store.ChangedAt scope name value later ∧
      machine.Observes later name value fun observer => machine.store.Sees name observer scope
  /-- A new scope lies directly inside the one in which it is opened and binds nothing. For those
  that are there nothing changes. -/
  opened : ∀ outer : Option ScopeId,
    let later := machine.store.push outer
    later.size = machine.store.size + 1 ∧
      later.outer? machine.store.size = outer ∧ later.bindings machine.store.size = [] ∧
      ∀ scope < machine.store.size, later.outer? scope = machine.store.outer? scope ∧
        later.bindings scope = machine.store.bindings scope ∧
        ∀ name, { machine with store := later }.reads scope name = machine.reads scope name

/-- What is read at a token is the value that is found, or a fault at the token. -/
theorem Machine.reads_eq (machine : Machine) (scope : ScopeId) (name : Token) :
    machine.reads scope name =
      match machine.store.lookup? scope name.lexeme with
      | some value => .ok value
      | none => .error (.undefined name) := by
  unfold reads Run.readVariable
  cases machine.store.lookup? scope name.lexeme <;> rfl

section Laws

variable {machine : Machine}

/-- A value is read if it is found. -/
theorem Machine.reads_eq_ok_iff {scope : ScopeId} {name : Token} {value : Value} :
    machine.reads scope name = .ok value ↔
      machine.store.lookup? scope name.lexeme = some value := by
  rw [reads_eq]
  cases machine.store.lookup? scope name.lexeme <;> simp

/-- A fault is read if nothing is found. -/
theorem Machine.reads_eq_undefined_iff {scope : ScopeId} {name : Token} :
    machine.reads scope name = .error (.undefined name) ↔
      machine.store.lookup? scope name.lexeme = none := by
  rw [reads_eq]
  cases machine.store.lookup? scope name.lexeme <;> simp

/-- A name that is bound anew is seen with the new value exactly from where the scope is seen. -/
theorem Machine.observes_define (layered : machine.store.Layered) {scope : ScopeId}
    (isOpen : scope < machine.store.size) (name : String) (value : Value) :
    machine.Observes (machine.store.define scope name value) name value
      fun observer => machine.store.Sees name observer scope where
  changed observer seen isName sees := by
    rw [reads_eq_ok_iff, Store.lookup?_define layered isOpen]
    exact if_pos ⟨isName, sees⟩
  unchanged observer seen notSeen := by
    rw [reads_eq, reads_eq, Store.lookup?_define layered isOpen, if_neg notSeen]

/-- Whatever operations have built the scopes of a machine, its names are resolved lexically. -/
theorem lexical_of_built (built : machine.store.Built) : machine.Lexical := by
  have layered := built.layered
  constructor
  case nearest =>
    intro name scope holder other resolves resolvesToo
    rw [Store.resolves_iff_holder? layered] at resolves resolvesToo
    exact Option.some.inj (resolvesToo.symm.trans resolves)
  case found =>
    intro scope name value
    rw [Machine.reads_eq_ok_iff, Store.lookup?_eq_some_iff_resolves layered]
  case missing =>
    intro scope name
    rw [Machine.reads_eq_undefined_iff, Store.lookup?_eq_none_iff_resolves layered]
  case kept =>
    intro scope name
    unfold Run.readVariable
    split <;> rfl
  case assigned =>
    intro scope name value holder resolves
    have isHolder := (Store.resolves_iff_holder? layered).mp resolves
    refine ⟨machine.store.define holder name.lexeme value, ?_, ?_, ?_, ?_, ?_⟩
    · rw [Store.assign?, isHolder, Option.map_some]
    · unfold Run.assignVariable
      rw [isHolder]
    · exact machine.store.changedAt_define resolves.lt_size name.lexeme value
    · exact Store.names_define resolves.2 value
    · have observes := Machine.observes_define layered resolves.lt_size name.lexeme value
      constructor
      · exact fun observer seen isName resolvesToo =>
          observes.changed observer seen isName resolvesToo.1
      · exact fun observer seen notSeen => observes.unchanged observer seen
          fun both => notSeen ⟨both.1, both.2, resolves.2⟩
  case unassigned =>
    intro scope name value
    simp only [Store.resolves_iff_holder? layered, ← Option.eq_none_iff_forall_ne_some]
    unfold Run.assignVariable
    cases machine.store.holder? scope name.lexeme <;> simp [Halt.undefined]
  case defined =>
    intro scope name value isOpen
    exact ⟨_, rfl, machine.store.changedAt_define isOpen name value,
      Machine.observes_define layered isOpen name value⟩
  case opened =>
    intro outer later
    refine ⟨Store.size_push .., ?_, ?_, fun scope isOld => ⟨?_, Store.bindings_push .., ?_⟩⟩
    · exact (Store.outer?_push ..).trans (if_pos rfl)
    · rw [Store.bindings_push, Store.bindings_of_size_le (Nat.le_refl _)]
    · exact (Store.outer?_push ..).trans (if_neg (Nat.ne_of_lt isOld))
    · intro name
      rw [Machine.reads_eq, Machine.reads_eq, Store.lookup?_push_of_lt isOld]

end Laws

/-- A name that is bound to nil in between hides the value further out from one scope and not from
another one beside it. -/
theorem lexical_of_built_shadowed :
    let name : Token := ⟨.identifier, "a", .nil, 1⟩
    let tree : Store Value := (((Store.empty.push none).push (some 0)).push (some 1)).push (some 0)
    let store := (tree.define 0 "a" (.text "outer")).define 1 "a" .nil
    let machine : Machine := ⟨store, 0, fun _ => 0, 0, #[]⟩
    store.Built ∧ machine.Lexical ∧ store.Resolves "a" 2 1 ∧ machine.reads 2 name = .ok .nil ∧
      machine.reads 3 name = .ok (.text "outer") := by
  intro name tree store machine
  have isTree : tree.Built :=
    (((Store.Built.empty.after (.push none) (by decide)).after (.push (some 0)) (by decide)).after
      (.push (some 1)) (by decide)).after (.push (some 0)) (by decide)
  have built : store.Built :=
    (isTree.after (.define 0 "a" (.text "outer")) (by decide)).after (.define 1 "a" .nil)
      (by decide)
  have lexical : machine.Lexical := lexical_of_built built
  have resolves : store.Resolves "a" 2 1 := ⟨.single ⟨rfl, rfl⟩, rfl⟩
  have resolvesToo : store.Resolves "a" 3 0 := ⟨.single ⟨rfl, rfl⟩, rfl⟩
  exact ⟨built, lexical, resolves, (lexical.found 2 name .nil).mpr ⟨1, resolves, rfl⟩,
    (lexical.found 3 name (.text "outer")).mpr ⟨0, resolvesToo, rfl⟩⟩

end LoxLang
