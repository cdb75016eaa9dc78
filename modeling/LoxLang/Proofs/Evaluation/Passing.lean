import LoxLang.Proofs.Evaluation.Law
import LoxLang.Proofs.Store.Resolution

/-!
# Values are passed on as they are

A variable holds the value it was declared with or assigned last, a parameter its argument, and a
call results in what its body returns. A scope inside another one sees what that one sees.
-/

namespace LoxLang

open BigStep

namespace Store

variable {α : Type} {store : Store α} {scope observer : ScopeId} {name : String}

/-- A name that is bound in a scope has its new value there. -/
theorem lookup?_define_self (isOpen : scope < store.size) (value : α) :
    (store.define scope name value).lookup? scope name = some value := by
  rw [lookup?, chain_define, chain, List.findSome?_cons, get?_define isOpen, if_pos ⟨rfl, rfl⟩]

/-- To bind a name changes no other name, from wherever it is seen. -/
theorem lookup?_define_ne (isOpen : scope < store.size) {seen : String} (isOther : seen ≠ name)
    (value : α) : (store.define scope name value).lookup? observer seen =
      store.lookup? observer seen := by
  have sameBindings (other : ScopeId) :
      ((store.define scope name value).bindings other).get? seen =
        (store.bindings other).get? seen := by
    rw [get?_define isOpen, if_neg fun here => isOther here.2]
  simp only [lookup?, chain_define, sameBindings]

/-- After an assignment the name has the new value where it was resolved. -/
theorem lookup?_define_holder {store : Store Value} {holder : ScopeId}
    (isHolder : store.holder? scope name = some holder) (value : Value) :
    (store.define holder name value).lookup? scope name = some value := by
  obtain ⟨old, inner, outer, chain, isBound, unbound⟩ := holder?_eq_some_iff.mp isHolder
  have isOpen : holder < store.size := by
    by_contra notOpen
    rw [bindings_of_size_le (Nat.not_lt.mp notOpen)] at isBound
    cases isBound
  refine lookup?_eq_some_iff.mpr ⟨holder, inner, outer, by rw [chain_define, chain], ?_, ?_⟩
  · rw [get?_define isOpen, if_pos ⟨rfl, rfl⟩]
  · intro nearer member
    have isOther : nearer ≠ holder := by
      rintro rfl
      cases (unbound nearer member).symm.trans isBound
    rw [get?_define isOpen, if_neg fun here => isOther here.1]
    exact unbound nearer member

/-- A new scope sees what the scope around it sees. -/
theorem lookup?_push_new (outer : ScopeId) :
    (store.push (some outer)).lookup? store.size name = store.lookup? outer name := by
  have around : (store.push (some outer)).chain store.size = store.size :: store.chain outer := by
    rw [chain, enclosing_push, if_pos rfl]
    rfl
  have isEmpty : (store.bindings store.size).get? name = none := by
    rw [bindings_of_size_le (Nat.le_refl _)]
    rfl
  simp only [lookup?, around, bindings_push, List.findSome?_cons, isEmpty]

end Store

/-! ## Parameters -/

/-- The parameters hold the arguments, and all other names are as they were. -/
structure Machine.Receives (machine : Machine) (scope : ScopeId) (parameters : List Token)
    (arguments : List Value) (bound : Machine) : Prop where
  isOpen : scope < bound.store.size
  argument : ∀ position parameter argument, parameters[position]? = some parameter →
    arguments[position]? = some argument →
    (∀ later ∈ parameters.drop (position + 1), later.lexeme ≠ parameter.lexeme) →
    bound.reads scope parameter = .ok argument
  others : ∀ name, (∀ parameter ∈ parameters, parameter.lexeme ≠ name.lexeme) →
    bound.reads scope name = machine.reads scope name

/-- A message leaves the store as it is. -/
theorem Machine.store_trace (machine : Machine) (level : Nat) (entry : TraceEntry) :
    (machine.trace level entry).store = machine.store :=
  congrArg State.store (view_trace machine level entry)

/-- What is read depends on what is found alone. -/
theorem Machine.reads_congr {machine other : Machine} {scope otherScope : ScopeId} {name : Token}
    (same : other.store.lookup? otherScope name.lexeme = machine.store.lookup? scope name.lexeme) :
    other.reads otherScope name = machine.reads scope name := by
  rw [reads_eq, reads_eq, same]

/-- Parameters are bound one by one; a later one of the same name hides an earlier one. -/
theorem exists_receives {scope : ScopeId} {machine : Machine} (isOpen : scope < machine.store.size)
    (parameters : List Token) (arguments : List Value) :
    ∃ bound, Run.bindParameters scope parameters arguments machine = .done () bound ∧
      machine.Receives scope parameters arguments bound := by
  induction parameters generalizing arguments machine with
  | nil =>
    refine ⟨machine, rfl, isOpen, ?_, fun _ _ => rfl⟩
    intro position parameter argument isParameter
    cases isParameter
  | cons parameter parameters inductionHypothesis =>
    cases arguments with
    | nil =>
      refine ⟨machine, rfl, isOpen, ?_, fun _ _ => rfl⟩
      intro position parameter argument _ isArgument
      cases isArgument
    | cons argument arguments =>
      let next : Machine :=
        { machine with store := machine.store.define scope parameter.lexeme argument }
      have isOpenNext : scope < next.store.size := by rwa [Store.size_define]
      obtain ⟨bound, isBound, isOpenLater, received, others⟩ :=
        inductionHypothesis isOpenNext arguments
      refine ⟨bound, isBound, isOpenLater, ?_, ?_⟩
      · intro position name value isParameter isArgument isLast
        cases position with
        | zero =>
          obtain rfl := Option.some.inj isParameter
          obtain rfl := Option.some.inj isArgument
          rw [others parameter isLast, Machine.reads_eq_ok_iff]
          exact Store.lookup?_define_self isOpen argument
        | succ position => exact received position name value isParameter isArgument isLast
      · intro name isOther
        obtain ⟨notThis, notLater⟩ := List.forall_mem_cons.mp isOther
        rw [others name notLater]
        exact Machine.reads_congr (Store.lookup?_define_ne isOpen notThis.symm argument)

/-! ## What becomes of a value -/

/-- A value is the same wherever it is passed on. -/
structure Value.IsPassedOn (value : Value) : Prop where
  /-- A variable holds the value that it is declared with. -/
  declared : ∀ settings stack scope name start machine between,
    evaluate settings stack scope start machine = .done value between →
    scope < between.store.size →
    ∃ after, execute settings (stack + 1) scope (.var name (some start)) machine =
      .done .normal after ∧ after.reads scope name = .ok value
  /-- A variable holds the value that it is assigned, which is that of the assignment. -/
  assigned : ∀ settings stack scope name expr machine after,
    evaluate settings stack scope (.assign name expr) machine = .done value after →
    after.reads scope name = .ok value
  /-- A variable keeps its value while other names are bound. -/
  kept : ∀ (machine : Machine) scope name other otherName otherValue,
    machine.reads scope name = .ok value → other < machine.store.size → name.lexeme ≠ otherName →
    { machine with store := machine.store.define other otherName otherValue }.reads scope name =
      .ok value
  /-- What a scope sees is captured by every scope that is opened inside it. -/
  captured : ∀ (machine : Machine) scope name, machine.reads scope name = .ok value →
    { machine with store := machine.store.push (some scope) }.reads machine.store.size name =
      .ok value
  /-- A function is called with its parameters holding the arguments, in a scope inside the one that
  it closes over. What its body returns is the value of the call. -/
  called : ∀ settings stack identity declaration closure arguments (machine : Machine),
    let inner := machine.store.size
    ∃ bound, { machine with store := machine.store.push (some closure) }.Receives inner
        declaration.parameters arguments bound ∧
      ∀ after, Run.sequence (execute settings stack inner) declaration.body bound =
          .done (.returned value) after →
        invoke settings (stack + 1) ⟨identity, .function declaration closure⟩ arguments machine =
          .done value after
  /-- A return ends the statements around it with its value. -/
  returned : ∀ settings stack scope keyword expr machine after,
    evaluate settings stack scope expr machine = .done value after →
    ∀ statements, Run.sequence (execute settings (stack + 1) scope)
      (.ret keyword (some expr) :: statements) machine = .done (.returned value) after

/-- An assignment that is carried out changes the variable that the name is resolved to. -/
theorem Run.assignVariable_eq_done {scope : ScopeId} {name : Token} {value : Value}
    {machine after : Machine}
    (isDone : Run.assignVariable scope name value machine = .done () after) :
    ∃ holder, machine.store.holder? scope name.lexeme = some holder ∧
      after = { machine with store := machine.store.define holder name.lexeme value } := by
  unfold Run.assignVariable at isDone
  cases isHolder : machine.store.holder? scope name.lexeme with
  | none =>
    rw [isHolder] at isDone
    cases isDone
  | some holder =>
    rw [isHolder] at isDone
    exact ⟨holder, rfl, (Outcome.done.inj isDone).2.symm⟩

/-- Every value is passed on as it is. -/
theorem Value.isPassedOn (value : Value) : value.IsPassedOn where
  declared := by
    intro settings stack scope name start machine between isValue isOpen
    have isRun : execute settings (stack + 1) scope (.var name (some start)) machine = _ :=
      Run.bind_of_done isValue
    refine ⟨_, isRun, ?_⟩
    rw [Machine.reads_eq_ok_iff]
    change (Machine.trace _ _ _).store.lookup? _ _ = _
    rw [Machine.store_trace]
    exact Store.lookup?_define_self isOpen value
  assigned := by
    intro settings stack scope name expr machine after isValue
    cases stack with
    | zero => cases isValue
    | succ stack =>
      obtain ⟨result, between, -, isAssigned⟩ := Run.bind_eq_done isValue
      obtain ⟨_, assigned, isChanged, isLast⟩ := Run.bind_eq_done isAssigned
      obtain ⟨holder, isHolder, rfl⟩ := Run.assignVariable_eq_done isChanged
      obtain ⟨rfl, rfl⟩ := Outcome.done.inj isLast
      rw [Machine.reads_eq_ok_iff]
      exact Store.lookup?_define_holder isHolder result
  kept := by
    intro machine scope name other otherName otherValue reads isOpen isOther
    rw [← reads]
    exact Machine.reads_congr (Store.lookup?_define_ne isOpen isOther otherValue)
  captured := by
    intro machine scope name reads
    rw [← reads]
    exact Machine.reads_congr (Store.lookup?_push_new scope)
  called := by
    intro settings stack identity declaration closure arguments machine inner
    let entered : Machine := { machine with store := machine.store.push (some closure) }
    have isOpen : inner < entered.store.size := by
      rw [Store.size_push]
      exact Nat.lt_succ_self inner
    obtain ⟨bound, isBound, receives⟩ :=
      exists_receives isOpen declaration.parameters arguments
    refine ⟨bound, receives, fun after isReturned => ?_⟩
    calc invoke settings (stack + 1) ⟨identity, .function declaration closure⟩ arguments machine
        = _ := Run.bind_of_done rfl
      _ = _ := Run.bind_of_done isBound
      _ = .done value after := Run.bind_of_done isReturned
  returned := by
    intro settings stack scope keyword expr machine after isValue statements
    have isReturned : execute settings (stack + 1) scope (.ret keyword (some expr)) machine =
        .done (.returned value) after := Run.bind_of_done isValue
    unfold Run.sequence
    rw [isReturned]

end LoxLang
