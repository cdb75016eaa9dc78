import Mathlib.Data.List.Basic
import Mathlib.Data.List.Find
import LoxLang.Proofs.Evaluation.Likeness

/-!
# What a call sees

A call can reach the scope that its callee closes over, those that its arguments close over, the
scopes around these, and what the functions bound in any of them close over. A native function
closes over what it has captured. The call changes no other scope that is there when it begins, and
it goes the same way whatever the other scopes bind. The scopes of the caller are no exception: they
count only as far as they are reached.

The invariant is that the scopes in sight are closed: a run that only evaluates in them comes by no
value that holds on to another one. They are the scopes that were reached when the call began and
all that are opened from then on, so the set is the same for the whole call.
-/

namespace LoxLang

namespace Store

/-- The scopes that can be reached from values, given what each value closes over. -/
inductive Reaches (closureOf : Value → Option ScopeId) (store : Store Value)
    (roots : List Value) : ScopeId → Prop where
  | root {value : Value} {closure : ScopeId} (isRoot : value ∈ roots)
      (closes : closureOf value = some closure) : Reaches closureOf store roots closure
  | outwards {scope outer : ScopeId} (isReached : Reaches closureOf store roots scope)
      (isAround : outer ∈ store.enclosing scope) : Reaches closureOf store roots outer
  | through {scope closure : ScopeId} {name : String} {value : Value}
      (isReached : Reaches closureOf store roots scope)
      (isBound : (store.bindings scope).get? name = some value)
      (closes : closureOf value = some closure) : Reaches closureOf store roots closure

/-- The same scopes are reached if the values that occur close over the same. -/
theorem Reaches.congr {closureOf other : Value → Option ScopeId} {store : Store Value}
    {roots : List Value}
    (same : ∀ value, (value ∈ roots ∨
      ∃ scope name, (store.bindings scope).get? name = some value) → closureOf value = other value)
    {scope : ScopeId} (reaches : store.Reaches closureOf roots scope) :
    store.Reaches other roots scope := by
  induction reaches with
  | root isRoot closes => exact .root isRoot (same _ (.inl isRoot) ▸ closes)
  | outwards _ isAround isReached => exact .outwards isReached isAround
  | through _ isBound closes isReached =>
    exact .through isReached isBound (same _ (.inr ⟨_, _, isBound⟩) ▸ closes)

/-- The scopes around scopes in sight are in sight, and so is what functions bound there close
over. -/
structure Closed (inSight : ScopeId → Prop) (store : Store Value) : Prop where
  outwards : ∀ {scope outer}, inSight scope → outer ∈ store.enclosing scope → inSight outer
  through : ∀ {scope name value closure}, inSight scope →
    (store.bindings scope).get? name = some value → value.closure? = some closure → inSight closure

/-- What is reached is in sight wherever the roots are and the scopes in sight are closed. -/
theorem Reaches.inSight {store : Store Value} {roots : List Value} {inSight : ScopeId → Prop}
    (closed : store.Closed inSight)
    (rootsInSight : ∀ value ∈ roots, ∀ closure, value.closure? = some closure → inSight closure)
    {scope : ScopeId} (reaches : store.Reaches Value.closure? roots scope) : inSight scope := by
  induction reaches with
  | root isRoot closes => exact rootsInSight _ isRoot _ closes
  | outwards _ isAround isReached => exact closed.outwards isReached isAround
  | through _ isBound closes isReached => exact closed.through isReached isBound closes

section Bound

variable {α : Type} {store : Store α} {scope other : ScopeId} {name key : String}
  {value found : α}

/-- What is bound after a definition is what was defined, or was bound before. -/
theorem eq_or_bound_of_define
    (isBound : ((store.define scope name value).bindings other).get? key = some found) :
    found = value ∨ (store.bindings other).get? key = some found := by
  rw [bindings_define] at isBound
  split at isBound
  next =>
    rw [Bindings.get?_set] at isBound
    split at isBound
    next => exact .inl (Option.some.inj isBound).symm
    next => exact .inr isBound
  next => exact .inr isBound

/-- A scope that was not opened yet binds nothing. -/
theorem bindings_of_size_le (isNew : store.size ≤ scope) : store.bindings scope = [] := by
  rw [bindings, Array.getElem?_eq_none isNew]

/-- A scope that was not opened yet lies in no other one. -/
theorem enclosing_of_size_le (isNew : store.size ≤ scope) : store.enclosing scope = [] := by
  rw [enclosing, Array.getElem?_eq_none isNew]

end Bound

namespace Closed

variable {store : Store Value} {inSight : ScopeId → Prop} {scope : ScopeId}

/-- The scopes around a scope in sight are in sight. -/
theorem chain (closed : store.Closed inSight) (isSeen : inSight scope) :
    ∀ candidate ∈ store.chain scope, inSight candidate := by
  refine List.forall_mem_cons.mpr ⟨isSeen, fun outer isAround => ?_⟩
  exact closed.outwards isSeen isAround

/-- A new scope inside one in sight sees nothing else. -/
theorem push (closed : store.Closed inSight) (isSeen : inSight scope) :
    (store.push (some scope)).Closed inSight where
  outwards := by
    intro inner outer isInner isAround
    rw [enclosing_push] at isAround
    split at isAround
    next => exact closed.chain isSeen outer isAround
    next => exact closed.outwards isInner isAround
  through := by
    intro inner name value closure isInner isBound
    rw [bindings_push] at isBound
    exact closed.through isInner isBound

/-- What is in sight stays so if a value that closes over something in sight is bound. -/
theorem define (closed : store.Closed inSight) {name : String} {value : Value}
    (isKnown : ∀ closure, value.closure? = some closure → inSight closure) :
    (store.define scope name value).Closed inSight where
  outwards := by
    intro inner outer isInner isAround
    rw [enclosing_define] at isAround
    exact closed.outwards isInner isAround
  through := by
    intro inner other found closure isInner isBound closes
    obtain rfl | isOld := eq_or_bound_of_define isBound
    · exact isKnown closure closes
    · exact closed.through isInner isOld closes

/-- What is read in a scope in sight holds on to scopes in sight. -/
theorem lookup (closed : store.Closed inSight) (isSeen : inSight scope) {name : String}
    {value : Value} (isFound : store.lookup? scope name = some value) (closure : ScopeId)
    (closes : value.closure? = some closure) : inSight closure := by
  obtain ⟨candidate, isIn, isBound⟩ := List.exists_of_findSome?_eq_some isFound
  exact closed.through (closed.chain isSeen candidate isIn) isBound closes

end Closed
end Store

/-! ## Machines that agree on some scopes -/

/-- The machines differ at most in what the scopes out of sight bind. -/
structure Machine.SameWithin (inSight : ScopeId → Prop) (first second : Machine) : Prop where
  size : second.store.size = first.store.size
  enclosing : ∀ scope, second.store.enclosing scope = first.store.enclosing scope
  bindings : ∀ scope, inSight scope →
    second.store.bindings scope = first.store.bindings scope
  callables : second.callables = first.callables
  clock : second.clock = first.clock
  readings : second.readings = first.readings
  events : second.events = first.events

namespace Machine.SameWithin

variable {inSight : ScopeId → Prop} {first second : Machine} {scope : ScopeId}

/-- Every machine agrees with itself. -/
theorem refl (inSight : ScopeId → Prop) (machine : Machine) : machine.SameWithin inSight machine :=
  ⟨rfl, fun _ => rfl, fun _ _ => rfl, rfl, rfl, rfl, rfl⟩

/-- Both machines have the same scopes around a scope. -/
theorem chain (same : first.SameWithin inSight second) (scope : ScopeId) :
    second.store.chain scope = first.store.chain scope :=
  congrArg (scope :: ·) (same.enclosing scope)

/-- A name in sight has the same value on both machines. -/
theorem lookup (same : first.SameWithin inSight second) (closed : first.store.Closed inSight)
    (isSeen : inSight scope) (name : String) :
    second.store.lookup? scope name = first.store.lookup? scope name := by
  unfold Store.lookup?
  rw [same.chain scope, ← List.head?_filterMap, ← List.head?_filterMap]
  refine congrArg List.head? (List.filterMap_congr fun candidate isIn => ?_)
  rw [same.bindings candidate (closed.chain isSeen candidate isIn)]

/-- A name in sight is held by the same scope on both machines. -/
theorem holder (same : first.SameWithin inSight second) (closed : first.store.Closed inSight)
    (isSeen : inSight scope) (name : String) :
    second.store.holder? scope name = first.store.holder? scope name := by
  unfold Store.holder?
  rw [same.chain scope]
  refine List.find?_congr fun candidate isIn => ?_
  rw [same.bindings candidate (closed.chain isSeen candidate isIn)]

/-- Both machines may bind the same name in the same scope. -/
theorem define (same : first.SameWithin inSight second) (scope : ScopeId) (name : String)
    (value : Value) :
    SameWithin inSight { first with store := first.store.define scope name value }
      { second with store := second.store.define scope name value } where
  size := by
    rw [Store.size_define, Store.size_define]
    exact same.size
  enclosing other := by
    rw [Store.enclosing_define, Store.enclosing_define]
    exact same.enclosing other
  bindings other isSeen := by
    rw [Store.bindings_define, Store.bindings_define, same.size, same.bindings other isSeen]
  callables := same.callables
  clock := same.clock
  readings := same.readings
  events := same.events

/-- Both machines may open the same scope. -/
theorem push (same : first.SameWithin inSight second) (outer : ScopeId) :
    SameWithin inSight { first with store := first.store.push (some outer) }
      { second with store := second.store.push (some outer) } where
  size := by
    rw [Store.size_push, Store.size_push, same.size]
  enclosing other := by
    rw [Store.enclosing_push, Store.enclosing_push, same.size, same.enclosing other,
      Option.map_some, Option.map_some, same.chain outer]
  bindings other isSeen := by
    rw [Store.bindings_push, Store.bindings_push]
    exact same.bindings other isSeen
  callables := same.callables
  clock := same.clock
  readings := same.readings
  events := same.events

/-- Both machines may take the same event down. -/
theorem emit (same : first.SameWithin inSight second) (event : Event) :
    (first.emit event).SameWithin inSight (second.emit event) :=
  { same with events := congrArg (·.push event) same.events }

end Machine.SameWithin

/-! ## Runs that keep to the scopes in sight -/

/-- Both machines of two runs, while the runs keep to the scopes in sight: they agree on these, and
what the first binds in the other scopes is what it was. -/
structure Machine.Confined (inSight : ScopeId → Prop) (before : ScopeId → Bindings Value)
    (first second : Machine) : Prop where
  same : first.SameWithin inSight second
  closed : first.store.Closed inSight
  /-- Whatever scope is opened next is in sight. -/
  new : ∀ scope, first.store.size ≤ scope → inSight scope
  unchanged : ∀ scope, ¬ inSight scope → first.store.bindings scope = before scope

namespace Machine.Confined

variable {inSight : ScopeId → Prop} {before : ScopeId → Bindings Value}
  {first second : Machine} {scope : ScopeId}

/-- A definition in a scope in sight leaves the others as they are. -/
theorem define (confined : first.Confined inSight before second)
    (isSeen : inSight scope) (name : String) {value : Value}
    (isKnown : ∀ closure, value.closure? = some closure → inSight closure) :
    Confined inSight before
      { first with store := first.store.define scope name value }
      { second with store := second.store.define scope name value } where
  same := confined.same.define scope name value
  closed := confined.closed.define isKnown
  new other isNew := by
    rw [Store.size_define] at isNew
    exact confined.new other isNew
  unchanged other notSeen := by
    have notScope : other ≠ scope := fun same => notSeen (same ▸ isSeen)
    rw [Store.bindings_define, if_neg fun both => notScope both.1]
    exact confined.unchanged other notSeen

/-- A scope that is opened inside one in sight keeps the run confined. -/
theorem push (confined : first.Confined inSight before second)
    (isSeen : inSight scope) :
    Confined inSight before { first with store := first.store.push (some scope) }
      { second with store := second.store.push (some scope) } where
  same := confined.same.push scope
  closed := confined.closed.push isSeen
  new other isNew := by
    rw [Store.size_push] at isNew
    exact confined.new other (Nat.le_of_succ_le isNew)
  unchanged other notSeen := by
    rw [Store.bindings_push]
    exact confined.unchanged other notSeen

/-- An event keeps the run confined. -/
theorem emit (confined : first.Confined inSight before second) (event : Event) :
    (first.emit event).Confined inSight before (second.emit event) :=
  { confined with same := confined.same.emit event }

/-- A message keeps the run confined. -/
theorem trace (confined : first.Confined inSight before second) (level : Nat)
    (entry : TraceEntry) :
    (first.trace level entry).Confined inSight before (second.trace level entry) := by
  unfold Machine.trace
  split
  next => exact confined.emit _
  next => exact confined

end Machine.Confined

/-- Runs from machines that agree on the scopes in sight, and keep to them. -/
def Likeness.confined (settings : Settings) (inSight : ScopeId → Prop)
    (before : ScopeId → Bindings Value) : Likeness settings settings where
  Alike first second := first.Confined inSight before second
  Known value := ∀ closure, value.closure? = some closure → inSight closure
  Seen := inSight
  Own := inSight
  seen_of_own isSeen := isSeen
  known_of_plain isPlain := by
    rw [Value.closure?_of_plain isPlain]
    nofun
  seen_of_known isKnown closes := isKnown _ closes
  readVariable name isSeen := by
    intro first second confined
    unfold Run.readVariable
    rw [confined.same.lookup confined.closed isSeen]
    split
    next value isFound => exact .done (confined.closed.lookup isSeen isFound) confined
    next => exact .halted confined
  assignVariable name isSeen isKnown := by
    intro first second confined
    unfold Run.assignVariable
    rw [confined.same.holder confined.closed isSeen]
    split
    next holder isHolder =>
      have isIn := List.mem_of_find?_eq_some isHolder
      have holderSeen := confined.closed.chain isSeen holder isIn
      exact .done trivial (confined.define holderSeen _ isKnown)
    next => exact .halted confined
  define name isSeen isKnown := .change fun confined => confined.define isSeen name isKnown
  openScope isSeen := by
    intro first second confined
    have opened := confined.push isSeen
    unfold Run.openScope
    rw [confined.same.size]
    exact .done (confined.new _ (Nat.le_refl _)) opened
  makeFunction declaration isSeen := by
    intro first second confined
    unfold Run.makeCallable
    rw [confined.same.callables]
    refine .done ?_ ⟨{ confined.same with callables := rfl }, confined.closed, confined.new,
      confined.unchanged⟩
    rintro _ ⟨⟩
    exact isSeen
  readClock := by
    intro first second confined
    unfold Run.readClock
    rw [confined.same.clock, confined.same.readings]
    exact .done nofun ⟨{ confined.same with clock := rfl, readings := rfl }, confined.closed,
      confined.new, confined.unchanged⟩
  print line := .change fun confined => confined.emit _
  trace entry := .change fun confined => confined.trace settings.debugLevel entry

open BigStep (ending)

end LoxLang
