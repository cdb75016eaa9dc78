import Mathlib
import LoxLang.Proofs.Safety.Session

/-!
# Runtime safety

What running programs can and cannot lead to, whoever made their trees. Trees that a host brings may
hold operators of any kind, as long as they have expressions and statements where those belong;
trees that were read from text hold none that are unknown, and no `return` outside of a function.
-/

namespace LoxLang

open BigStep

variable {pool : List Site}

/-- A run stops with nothing but a runtime error of the kind that is expected, or at a limit that
nothing reports. -/
def Halt.OnlyFails (expected : RuntimeError → Prop) (halt : Halt) : Prop :=
  halt = .overflow ∨ halt = .endless ∨ ∃ error, halt = .failed error ∧ expected error

/-- The values of a result of a task. -/
def BigStep.Task.values : (task : Task) → task.Result → List Value
  | .evaluate _ _, value | .call _ _ _, value => [value]
  | .evaluateAll _ _, values => values
  | .execute _ _, .returned value | .executeAll _ _, .returned value => [value]
  | .execute _ _, .normal | .executeAll _ _, .normal => []

/-- Everything that is bound or was printed is a value of the language. -/
structure BigStep.State.Proper (state : State) : Prop where
  bound : ∀ scope name value, (state.store.bindings scope).get? name = some value → value.Proper
  printed : ∃ values : List Value, state.printed = values.map Value.display ∧
    ∀ value ∈ values, value.Proper

/-- The values of an answer are values of the language, and its runtime errors are expected. -/
def Answer.Proper (expected : RuntimeError → Prop) : Answer → Prop
  | .reported diagnostics => ∀ diagnostic ∈ diagnostics, Expects expected diagnostic
  | .completed completion => ∀ value, completion = .returned value → value.Proper
  | .evaluated value => value.Proper
  | .done => True

/-- A request is answered, or halts with an expected runtime error or at a limit. -/
def Serves (expected : RuntimeError → Prop) : Except Halt Answer → Prop
  | .ok answer => answer.Proper expected
  | .error halt => halt.OnlyFails expected

section Proper

variable (properPool : ∀ site ∈ pool, site.Proper)
include properPool

/-- A value whose sites are in a pool of proper sites is proper. -/
theorem proper_of_sites_subset {value : Value} (sitesWithin : value.sites ⊆ pool) : value.Proper :=
  .of_sites fun site member => properPool site (sitesWithin member)

/-- A state within a pool of proper sites is proper. -/
theorem BigStep.State.Within.proper {state : State} (isWithin : state.Within pool) :
    state.Proper where
  bound scope name value isFound :=
    proper_of_sites_subset properPool (isWithin.bound scope name value isFound)
  printed := by
    obtain ⟨values, isPrinted, valuesWithin⟩ := isWithin.printed
    refine ⟨values, isPrinted, fun value member => ?_⟩
    exact proper_of_sites_subset properPool (valuesWithin value member)

end Proper

/-! ## Sessions -/

/-- A clean text runs its program and reports the error that ended it. -/
theorem source_of_isClean {limits : Limits} {text : String}
    (clean : (Program.ofSource limits.nesting text).isClean = true) (debugLevel : Nat) :
    Run.source limits debugLevel text = (do
      let error ← Run.program limits debugLevel (Program.ofSource limits.nesting text).statements
      return error.toList.map (·.diagnostic)) :=
  if_pos clean

/-- A text that something is wrong with is not run. -/
theorem source_of_not_isClean {limits : Limits} {text : String}
    (broken : (Program.ofSource limits.nesting text).isClean = false) (debugLevel : Nat)
    (machine : Machine) : Run.source limits debugLevel text machine =
      .done (Program.ofSource limits.nesting text).diagnostics machine :=
  congrFun (if_neg (Bool.eq_false_iff.mp broken)) machine

/-- What serves with fewer expected errors serves with more. -/
theorem Serves.mono {expected wanted : RuntimeError → Prop} {result : Except Halt Answer}
    (serves : Serves expected result) (stronger : ∀ error, expected error → wanted error) :
    Serves wanted result := by
  cases result with
  | error halt =>
    rcases serves with isOverflow | isEndless | ⟨error, isFailed, isExpected⟩
    · exact .inl isOverflow
    · exact .inr (.inl isEndless)
    · exact .inr (.inr ⟨error, isFailed, stronger error isExpected⟩)
  | ok answer =>
    cases answer with
    | reported diagnostics =>
      intro diagnostic member isRunning
      obtain ⟨error, isExpected, isReport⟩ := serves diagnostic member isRunning
      exact ⟨error, stronger error isExpected, isReport⟩
    | completed | evaluated | done => exact serves

/-- Among regular sites no operator is found to be unknown. -/
theorem Explained.known {error : RuntimeError} (explained : Explained pool error)
    (regular : ∀ site ∈ pool, site.Regular) :
    error.fault ≠ .unknownUnary ∧ error.fault ≠ .unknownBinary := by
  obtain ⟨site, member, fits⟩ := explained
  exact fits.known (regular site member)

end LoxLang
