import LoxLang.Proofs.Evaluation.Likeness

/-!
# What evaluation leaves as it is

A name is bound only by a declaration, in the scope in which the declaration stands, and by a call,
in the scope that the call opens. Expressions and blocks declare nothing where they stand. So every
scope that is there when one of them begins has the same names and lies in the same scopes when it
ends, in whatever way it ends. An assignment changes the value of a name that is bound already.
-/

namespace LoxLang

namespace Bindings

variable {α : Type}

/-- A name that is bound is one of the names. -/
theorem mem_names_of_isSome {name : String} {bindings : Bindings α}
    (isBound : (get? name bindings).isSome) : name ∈ names bindings := by
  induction bindings with
  | nil => cases isBound
  | cons binding rest inductionHypothesis =>
    rw [get?] at isBound
    split at isBound
    next same => exact List.mem_cons.mpr (.inl same.symm)
    next => exact List.mem_cons_of_mem _ (inductionHypothesis isBound)

/-- Setting a name that is bound changes no names. -/
theorem names_set_of_mem {name : String} {bindings : Bindings α} (isIn : name ∈ names bindings)
    (value : α) : names (bindings.set name value) = names bindings := by
  induction bindings with
  | nil => cases isIn
  | cons binding rest inductionHypothesis =>
    rw [set]
    split
    next same => rw [names, List.map_cons, names, List.map_cons, same]
    next different =>
      obtain rfl | isFurther := List.mem_cons.mp isIn
      · exact absurd rfl different
      · exact congrArg (binding.1 :: ·) (inductionHypothesis isFurther)

end Bindings

namespace Store

variable {α : Type}

/-- Every scope of the store is in the later one, with the same names in the same scopes. -/
structure Keeps (store later : Store α) : Prop where
  size_le : store.size ≤ later.size
  names : ∀ scope < store.size,
    (later.bindings scope).names = (store.bindings scope).names
  enclosing : ∀ scope < store.size, later.enclosing scope = store.enclosing scope

namespace Keeps

variable {store later : Store α}

/-- Every store keeps what it binds. -/
theorem refl (store : Store α) : store.Keeps store :=
  ⟨Nat.le_refl _, fun _ _ => rfl, fun _ _ => rfl⟩

/-- A scope may be opened besides. -/
theorem push (keeps : store.Keeps later) (outer : Option ScopeId) :
    store.Keeps (later.push outer) where
  size_le := by
    rw [size_push]
    exact Nat.le_succ_of_le keeps.size_le
  names scope isOld := by
    rw [bindings_push]
    exact keeps.names scope isOld
  enclosing scope isOld := by
    have notNew : scope ≠ later.size := Nat.ne_of_lt (Nat.lt_of_lt_of_le isOld keeps.size_le)
    rw [enclosing_push, if_neg notNew]
    exact keeps.enclosing scope isOld

/-- A definition keeps a store if it changes no names of a scope that is old. -/
theorem define (keeps : store.Keeps later) {scope : ScopeId} {name : String} {value : α}
    (sameNames : scope < store.size →
      ((later.bindings scope).set name value).names = (later.bindings scope).names) :
    store.Keeps (later.define scope name value) where
  size_le := by
    rw [size_define]
    exact keeps.size_le
  names other isOld := by
    rw [bindings_define]
    split
    next isScope =>
      obtain ⟨rfl, -⟩ := isScope
      rw [sameNames isOld, keeps.names other isOld]
    next => exact keeps.names other isOld
  enclosing other isOld := by
    rw [enclosing_define]
    exact keeps.enclosing other isOld

end Keeps

/-- The scope that holds a name binds it. -/
theorem mem_names_of_holder? {store : Store α} {scope holder : ScopeId} {name : String}
    (isHolder : store.holder? scope name = some holder) : name ∈ (store.bindings holder).names := by
  unfold holder? at isHolder
  have isBound := List.find?_some isHolder
  exact Bindings.mem_names_of_isSome isBound

end Store

/-- A machine is like itself as long as it keeps a store. Names are bound in scopes that the store
does not have. -/
def Likeness.keeping (settings : Settings) (store : Store Value) : Likeness settings settings where
  Alike first second := second = first ∧ store.Keeps first.store
  Known _ := True
  Seen _ := True
  Own scope := store.size ≤ scope
  seen_of_own _ := trivial
  known_of_plain _ := trivial
  seen_of_known _ _ := trivial
  readVariable name _ := by
    rintro machine _ ⟨rfl, keeps⟩
    unfold Run.readVariable
    split
    next => exact .done trivial ⟨rfl, keeps⟩
    next => exact .halted ⟨rfl, keeps⟩
  assignVariable name _ _ := by
    rintro machine _ ⟨rfl, keeps⟩
    unfold Run.assignVariable
    split
    next holder isHolder =>
      -- The holder may be an old scope, but the name is not new to it.
      have isBound := Store.mem_names_of_holder? isHolder
      exact .done trivial ⟨rfl, keeps.define fun _ => Bindings.names_set_of_mem isBound _⟩
    next => exact .halted ⟨rfl, keeps⟩
  define name isNew _ := by
    rintro machine _ ⟨rfl, keeps⟩
    exact .done trivial ⟨rfl, keeps.define fun isOld => absurd isOld (Nat.not_lt.mpr isNew)⟩
  openScope _ := by
    rintro machine _ ⟨rfl, keeps⟩
    exact .done keeps.size_le ⟨rfl, keeps.push _⟩
  makeFunction _ _ := by
    rintro machine _ ⟨rfl, keeps⟩
    exact .done trivial ⟨rfl, keeps⟩
  readClock := by
    rintro machine _ ⟨rfl, keeps⟩
    exact .done trivial ⟨rfl, keeps⟩
  print _ := by
    rintro machine _ ⟨rfl, keeps⟩
    exact .done trivial ⟨rfl, keeps⟩
  trace entry := by
    rintro machine _ ⟨rfl, keeps⟩
    refine .done trivial ⟨rfl, ?_⟩
    unfold Machine.trace
    split <;> exact keeps

/-- Evaluating an expression, and executing a block, leaves every scope that was there with the
names it had and in the scopes it was in. This holds on every machine, and however the run ends:
normally, with a returned value, with a runtime error or where a limit stops it. It holds whatever
the native functions are: each is told its arguments and gives a value or fails, and touches nothing
else. -/
theorem evaluation_keeps_scopes (settings : Settings) (stack : Nat) (scope : ScopeId)
    (machine : Machine) :
    (∀ expr : Expr,
      machine.store.Keeps (evaluate settings stack scope expr machine).machine.store) ∧
    ∀ stmts : List Stmt,
      machine.store.Keeps (execute settings stack scope (.block stmts) machine).machine.store := by
  let likeness := Likeness.keeping settings machine.store
  have isLike : likeness.Alike machine machine := ⟨rfl, .refl _⟩
  constructor
  · intro expr
    exact (likeness.inStep rfl (.evaluate scope expr) trivial isLike).alike_machine.2
  · intro stmts
    exact (likeness.inStep_block rfl stmts trivial isLike).alike_machine.2

end LoxLang
