import LoxLang.Store.Bindings
import LoxLang.Text.Quoted

/-!
# The store of scopes

All scopes that were ever opened, by number, with what each binds and which scopes lie around it.
Scopes are shared: whoever sees a scope sees the same bindings. A name is looked up along the chain
of a scope, from the scope itself outwards, and the first scope that binds it decides. What lies
around a scope is settled when the scope is opened and never changes.
-/

namespace LoxLang

/-- The number of a scope in the store. -/
abbrev ScopeId := Nat

/-- A scope: the scopes around it, the nearest first, and what it binds. -/
structure Scope (α : Type) where
  enclosing : List ScopeId
  bindings : Bindings α

/-- All scopes, by number. -/
structure Store (α : Type) where
  scopes : Array (Scope α)

namespace Store

variable {α : Type}

/-- The store without any scope. -/
def empty : Store α := ⟨#[]⟩

instance : Inhabited (Store α) := ⟨empty⟩

/-- The scope of program text outside of every block and function. It is the first one opened. -/
def globals : ScopeId := 0

/-- How many scopes there are; the next scope gets this number. -/
def size (store : Store α) : Nat := store.scopes.size

/-- The bindings of one scope. -/
def bindings (store : Store α) (scope : ScopeId) : Bindings α :=
  match store.scopes[scope]? with
  | some found => found.bindings
  | none => []

/-- The scopes around a scope, the nearest first. -/
def enclosing (store : Store α) (scope : ScopeId) : List ScopeId :=
  match store.scopes[scope]? with
  | some found => found.enclosing
  | none => []

/-- A scope with the scopes around it, from the inside out. -/
def chain (store : Store α) (scope : ScopeId) : List ScopeId := scope :: store.enclosing scope

/-- How many scopes lie around a scope. -/
def depth (store : Store α) (scope : ScopeId) : Nat := (store.enclosing scope).length

/-- Opens a scope that binds nothing, inside another scope or outside of all. -/
def push (store : Store α) (outer : Option ScopeId) : Store α :=
  ⟨store.scopes.push ⟨(outer.map store.chain).getD [], []⟩⟩

/-- Binds a name in one scope. -/
def define (store : Store α) (scope : ScopeId) (name : String) (value : α) : Store α :=
  ⟨store.scopes.modify scope fun found =>
    { found with bindings := found.bindings.set name value }⟩

/-- The nearest scope of a chain that binds a name. -/
def holder? (store : Store α) (scope : ScopeId) (name : String) : Option ScopeId :=
  (store.chain scope).find? fun candidate => ((store.bindings candidate).get? name).isSome

/-- The value of a name in the nearest scope that binds it. -/
def lookup? (store : Store α) (scope : ScopeId) (name : String) : Option α :=
  (store.chain scope).findSome? fun candidate => (store.bindings candidate).get? name

/-- Changes the value of a name in the nearest scope that binds it, if one does. -/
def assign? (store : Store α) (scope : ScopeId) (name : String) (value : α) : Option (Store α) :=
  (store.holder? scope name).map fun holder => store.define holder name value

/-- The bindings of one scope in the order of their names. -/
def sorted (store : Store α) (scope : ScopeId) : List (String × α) :=
  (store.bindings scope).mergeSort fun left right => left.1 ≤ right.1

/-- The description of a scope: how many scopes lie around it, and the names it binds. -/
def described (store : Store α) (scope : ScopeId) : String :=
  let names := (store.sorted scope).map fun binding => Text.quoted binding.1
  "<Environment depth=" ++ toString (store.depth scope) ++ " names=["
    ++ ", ".intercalate names ++ "]>"

/-- There is one more scope. -/
@[simp] theorem size_push (store : Store α) (outer : Option ScopeId) :
    (store.push outer).size = store.size + 1 := by
  simp [push, size]

/-- There are as many scopes. -/
@[simp] theorem size_define (store : Store α) (scope : ScopeId) (name : String) (value : α) :
    (store.define scope name value).size = store.size := by
  simp [define, size]

/-- Opening a scope leaves all bindings as they are, and the new scope binds nothing. -/
@[simp] theorem bindings_push (store : Store α) (outer : Option ScopeId) (scope : ScopeId) :
    (store.push outer).bindings scope = store.bindings scope := by
  simp only [bindings, push, Array.getElem?_push]
  by_cases isNew : scope = store.scopes.size
  · subst isNew
    simp
  · simp [isNew]

/-- A new scope lies inside the chain of the scope it was opened in; all others stay in place. -/
theorem enclosing_push (store : Store α) (outer : Option ScopeId) (scope : ScopeId) :
    (store.push outer).enclosing scope =
      if scope = store.size then (outer.map store.chain).getD [] else store.enclosing scope := by
  simp only [enclosing, push, size, Array.getElem?_push]
  by_cases isNew : scope = store.scopes.size <;> simp [isNew]

/-- A definition changes the bindings of its own scope alone. -/
theorem bindings_define (store : Store α) (scope other : ScopeId) (name : String) (value : α) :
    (store.define scope name value).bindings other =
      if other = scope ∧ scope < store.size then (store.bindings other).set name value
      else store.bindings other := by
  simp only [bindings, define, size, Array.getElem?_modify]
  by_cases same : scope = other
  · subst same
    by_cases inside : scope < store.scopes.size <;> simp [inside]
  · simp [same, Ne.symm same]

/-- A definition moves no scope. -/
@[simp] theorem enclosing_define (store : Store α) (scope other : ScopeId) (name : String)
    (value : α) : (store.define scope name value).enclosing other = store.enclosing other := by
  simp only [enclosing, define, Array.getElem?_modify]
  by_cases same : scope = other
  · subst same
    cases store.scopes[scope]? <;> simp
  · simp [same]

/-- The scopes around a scope are as before. -/
@[simp] theorem chain_define (store : Store α) (scope other : ScopeId) (name : String)
    (value : α) : (store.define scope name value).chain other = store.chain other := by
  simp [chain]

end Store
end LoxLang
