import LoxLang.Proofs.Store.Resolution

/-!
# The ways outwards end

In a store that is rooted the first scope lies outside of all others, and every other scope lies
directly inside an older one. Following the links outwards then never comes back to a scope and ends
at the first one. Nothing is said here about how the chains of the store came about: the ways are
followed link by link, with a number of steps that would be used up on a way without an end.
-/

namespace LoxLang.Store

variable {α β : Type}

/-- The scopes on the way outwards, if the way ends within so many scopes. -/
def walk? (store : Store α) : Nat → ScopeId → Option (List ScopeId)
  | 0, _ => none
  | steps + 1, scope =>
    match store.outer? scope with
    | none => some [scope]
    | some outer => (store.walk? steps outer).map (scope :: ·)

/-- What is found in the first scope on the way outwards in which something is found, if the search
ends within so many scopes. -/
def search? (store : Store α) (find : ScopeId → Option β) : Nat → ScopeId → Option (Option β)
  | 0, _ => none
  | steps + 1, scope =>
    match find scope with
    | some found => some (some found)
    | none =>
      match store.outer? scope with
      | none => some none
      | some outer => store.search? find steps outer

/-- The first scope lies outside of all others, and every other one directly inside an older one,
whose chain it continues. -/
structure Rooted (store : Store α) : Prop where
  isOpen : globals < store.size
  root : store.enclosing globals = []
  inner : ∀ scope < store.size, scope ≠ globals →
    ∃ outer < scope, store.enclosing scope = store.chain outer

/-- The way outwards from a scope leads to older and older scopes and ends at the global one, within
as many scopes as there are. What goes along it therefore comes to an end: the search for the value
of a name, the search for the scope to assign in, and the count of the scopes around. -/
structure Grounded (store : Store α) (scope : ScopeId) : Prop where
  walks : store.walk? store.size scope = some (store.chain scope)
  descends : (store.chain scope).Pairwise (· > ·)
  ends : (store.chain scope).getLast? = some globals
  reads : ∀ name, store.search? (fun candidate => (store.bindings candidate).get? name) store.size
    scope = some (store.lookup? scope name)
  assigns : ∀ name, store.search? (fun candidate =>
      if ((store.bindings candidate).get? name).isSome then some candidate else none) store.size
    scope = some (store.holder? scope name)
  counts : (store.walk? store.size scope).map List.length = some (store.depth scope + 1)

/-- The chain of an inner scope is the scope in front of the chain around it. -/
theorem chain_of_inner {store : Store α} {scope outer : ScopeId}
    (around : store.enclosing scope = store.chain outer) :
    store.chain scope = scope :: store.chain outer :=
  congrArg (scope :: ·) around

namespace Rooted

variable {store : Store α} {scope : ScopeId}

/-- The global scope lies outside of all others. -/
theorem chain_globals (rooted : store.Rooted) : store.chain globals = [globals] :=
  congrArg (globals :: ·) rooted.root

/-- Induction along the way outwards from an open scope. -/
@[elab_as_elim]
theorem induction (rooted : store.Rooted) {motive : (scope : ScopeId) → scope < store.size → Prop}
    (root : motive globals rooted.isOpen)
    (inner : ∀ scope isOpen outer (older : outer < scope), store.enclosing scope =
      store.chain outer → motive outer (older.trans isOpen) → motive scope isOpen)
    (scope : ScopeId) (isOpen : scope < store.size) : motive scope isOpen := by
  induction scope using Nat.strongRecOn with
  | _ scope inductionHypothesis =>
    by_cases isRoot : scope = globals
    · subst isRoot
      exact root
    · obtain ⟨outer, older, around⟩ := rooted.inner scope isOpen isRoot
      exact inner scope isOpen outer older around
        (inductionHypothesis outer older (older.trans isOpen))

/-- The scopes on the way are older and older. -/
theorem chain_pairwise (rooted : store.Rooted) (isOpen : scope < store.size) :
    (store.chain scope).Pairwise (· > ·) ∧ ∀ candidate ∈ store.chain scope, candidate ≤ scope := by
  induction scope, isOpen using rooted.induction with
  | root => simp [rooted.chain_globals]
  | inner scope isOpen outer older around inductionHypothesis =>
    obtain ⟨descending, below⟩ := inductionHypothesis
    rw [chain_of_inner around, List.pairwise_cons, List.forall_mem_cons]
    refine ⟨⟨fun candidate member => ?_, descending⟩, le_refl scope, fun candidate member => ?_⟩
    · exact Nat.lt_of_le_of_lt (below candidate member) older
    · exact (below candidate member).trans older.le

/-- The scopes on the way from an open scope are open. -/
theorem lt_size_of_mem_chain (rooted : store.Rooted) (isOpen : scope < store.size)
    {candidate : ScopeId} (member : candidate ∈ store.chain scope) : candidate < store.size :=
  Nat.lt_of_le_of_lt ((rooted.chain_pairwise isOpen).2 candidate member) isOpen

/-- Every chain ends with the global scope. -/
theorem getLast?_chain (rooted : store.Rooted) (isOpen : scope < store.size) :
    (store.chain scope).getLast? = some globals := by
  induction scope, isOpen using rooted.induction with
  | root => simp [rooted.chain_globals]
  | inner scope isOpen outer older around inductionHypothesis =>
    rw [chain_of_inner around, List.getLast?_cons, inductionHypothesis]
    rfl

/-- Following the links gives the chain. -/
theorem walk?_eq (rooted : store.Rooted) (isOpen : scope < store.size) {steps : Nat}
    (enough : scope < steps) : store.walk? steps scope = some (store.chain scope) := by
  induction scope, isOpen using rooted.induction generalizing steps with
  | root =>
    obtain ⟨further, rfl⟩ := Nat.exists_eq_add_one_of_ne_zero (Nat.ne_zero_of_lt enough)
    rw [walk?, outer?_of_root rooted.root, rooted.chain_globals]
  | inner scope isOpen outer older around inductionHypothesis =>
    obtain ⟨further, rfl⟩ := Nat.exists_eq_add_one_of_ne_zero (Nat.ne_zero_of_lt enough)
    have enoughFurther : outer < further := Nat.lt_of_lt_of_le older (Nat.le_of_lt_succ enough)
    rw [walk?, outer?_of_inner around]
    dsimp only
    rw [inductionHypothesis enoughFurther, chain_of_inner around, Option.map_some]

/-- A search link by link finds what a search of the chain finds. -/
theorem search?_eq (rooted : store.Rooted) (isOpen : scope < store.size) {steps : Nat}
    (enough : scope < steps) (find : ScopeId → Option β) :
    store.search? find steps scope = some ((store.chain scope).findSome? find) := by
  induction scope, isOpen using rooted.induction generalizing steps with
  | root =>
    obtain ⟨further, rfl⟩ := Nat.exists_eq_add_one_of_ne_zero (Nat.ne_zero_of_lt enough)
    rw [search?, outer?_of_root rooted.root, rooted.chain_globals, List.findSome?_cons]
    cases find globals <;> rfl
  | inner scope isOpen outer older around inductionHypothesis =>
    obtain ⟨further, rfl⟩ := Nat.exists_eq_add_one_of_ne_zero (Nat.ne_zero_of_lt enough)
    have enoughFurther : outer < further := Nat.lt_of_lt_of_le older (Nat.le_of_lt_succ enough)
    rw [search?, outer?_of_inner around]
    dsimp only
    rw [inductionHypothesis enoughFurther, chain_of_inner around, List.findSome?_cons]
    cases find scope <;> rfl

/-- All ways of a rooted store end. -/
theorem grounded (rooted : store.Rooted) (isOpen : scope < store.size) : store.Grounded scope where
  walks := rooted.walk?_eq isOpen isOpen
  descends := (rooted.chain_pairwise isOpen).1
  ends := rooted.getLast?_chain isOpen
  reads _ := rooted.search?_eq isOpen isOpen _
  assigns name := by
    rw [rooted.search?_eq isOpen isOpen, holder?, ← List.findSome?_guard]
    rfl
  counts := by
    rw [rooted.walk?_eq isOpen isOpen]
    rfl

/-- Scopes stay rooted when one is opened inside an open one. -/
theorem push (rooted : store.Rooted) {outer : ScopeId} (isOpen : outer < store.size) :
    (store.push (some outer)).Rooted where
  isOpen := by
    rw [size_push]
    exact Nat.lt_succ_of_lt rooted.isOpen
  root := by
    rw [enclosing_push, if_neg (Nat.ne_of_lt rooted.isOpen), rooted.root]
  inner scope isOpenNow notRoot := by
    rw [size_push] at isOpenNow
    rw [enclosing_push]
    split
    next isNew =>
      refine ⟨outer, isNew ▸ isOpen, ?_⟩
      rw [chain_push_of_lt isOpen]
      rfl
    next notNew =>
      have isOld : scope < store.size := Nat.lt_of_le_of_ne (Nat.le_of_lt_succ isOpenNow) notNew
      obtain ⟨older, isOlder, around⟩ := rooted.inner scope isOld notRoot
      exact ⟨older, isOlder, around.trans (chain_push_of_lt (isOlder.trans isOld)).symm⟩

/-- Scopes stay rooted when a name is bound. -/
theorem define (rooted : store.Rooted) (scope : ScopeId) (name : String) (value : α) :
    (store.define scope name value).Rooted where
  isOpen := by
    rw [size_define]
    exact rooted.isOpen
  root := by rw [enclosing_define, rooted.root]
  inner other := by simpa using rooted.inner other

end Rooted

end LoxLang.Store
