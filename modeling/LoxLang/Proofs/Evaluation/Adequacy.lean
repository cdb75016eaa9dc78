import Mathlib
import LoxLang.Proofs.Evaluation.Completeness
import LoxLang.Proofs.Evaluation.Soundness

/-!
# The interpreter does what programs mean

A run that stays within its limits ends exactly as the big-step semantics says, with the same
printed lines and the same store, and a task that the semantics says anything about stays within
its limits as soon as they are large enough. The semantics therefore says at most one thing.
-/

namespace LoxLang.BigStep

variable {α : Type}

/-- An outcome has the ending that it was made with. -/
@[simp] theorem ending_outcome (result : Ending α) (machine : Machine) :
    ending (outcome result machine) = result := by
  cases result <;> rfl

/-- An outcome has the state of the machine that it was made with. -/
@[simp] theorem finalState_outcome (result : Ending α) (machine : Machine) :
    finalState (outcome result machine) = view machine := by
  cases result <;> rfl

/-- With enough stack and turns a run ends as is derived. -/
theorem Finishes.eventually {task : Task} {before after : State} {result : Ending task.Result}
    (finishes : Finishes task before result after) :
    ∃ bound, ∀ settings stack machine, bound ≤ stack → bound ≤ settings.turns →
      view machine = before → ending (task.run settings stack machine) = result ∧
        finalState (task.run settings stack machine) = after := by
  obtain ⟨bound, runs⟩ := finishes.settles.run
  refine ⟨bound, fun settings stack machine enough enoughTurns isBefore => ?_⟩
  obtain ⟨final, same, rfl⟩ :=
    runs settings stack bound machine enough enoughTurns (Nat.le_refl bound) isBefore
  exact ⟨(congrArg ending same).trans (ending_outcome result final),
    (congrArg finalState same).trans (finalState_outcome result final)⟩

/-- A task ends in one way at most. -/
theorem Finishes.deterministic {task : Task} {machine : Machine} {after other : State}
    {result otherResult : Ending task.Result} (finishes : Finishes task (view machine) result after)
    (finishesToo : Finishes task (view machine) otherResult other) :
    result = otherResult ∧ after = other := by
  obtain ⟨bound, runs⟩ := finishes.eventually
  obtain ⟨boundToo, runsToo⟩ := finishesToo.eventually
  let settings : Settings := ⟨0, max bound boundToo⟩
  have ends := runs settings (max bound boundToo) machine (Nat.le_max_left ..) (Nat.le_max_left ..)
    rfl
  have endsToo := runsToo settings (max bound boundToo) machine (Nat.le_max_right ..)
    (Nat.le_max_right ..) rfl
  exact ⟨ends.1.symm.trans endsToo.1, ends.2.symm.trans endsToo.2⟩

/-- What a run within its limits ends with is derived. -/
theorem finishes_run {settings : Settings} {stack : Nat} {task : Task} {machine : Machine}
    (unlimited : ¬ Limited (task.run settings stack machine)) :
    Finishes task (view machine) (ending (task.run settings stack machine))
      (finalState (task.run settings stack machine)) :=
  (soundWith false settings stack task (view machine) machine rfl).resolve_left
    fun isLimited => unlimited isLimited.2

/-- What any run ends with is derived for a limited machine. -/
theorem ends_run (settings : Settings) (stack : Nat) (task : Task) (machine : Machine) :
    Ends true task (view machine) (ending (task.run settings stack machine))
      (finalState (task.run settings stack machine)) :=
  (soundWith true settings stack task (view machine) machine rfl).resolve_left
    fun isUnlimited => nomatch isUnlimited.1

/-- The evaluation of expressions and lists of arguments, calls, and the execution of statements
and lists of statements are adequate: from every machine, in every scope and at every debug level, a
run that does not reach a limit has this ending, these printed lines and this store if and only if
the semantics derives them; and what the semantics derives does not reach any limits that are large
enough. -/
theorem run_iff_finishes (task : Task) (machine : Machine) :
    (∀ (settings : Settings) (stack : Nat), ¬ Limited (task.run settings stack machine) →
      ∀ (result : Ending task.Result) (after : State),
        ending (task.run settings stack machine) = result ∧
          finalState (task.run settings stack machine) = after ↔
        Finishes task (view machine) result after) ∧
    (∀ (result : Ending task.Result) (after : State), Finishes task (view machine) result after →
      ∃ bound, ∀ (settings : Settings) (stack : Nat), bound ≤ stack → bound ≤ settings.turns →
        ¬ Limited (task.run settings stack machine)) := by
  constructor
  · intro settings stack unlimited result after
    have derived := finishes_run unlimited
    constructor
    · rintro ⟨rfl, rfl⟩
      exact derived
    · exact derived.deterministic
  · intro result after finishes
    obtain ⟨bound, runs⟩ := finishes.eventually
    refine ⟨bound, fun settings stack enough enoughTurns => ?_⟩
    rintro ⟨halt, isHalt, isLimit⟩
    rw [(runs settings stack machine enough enoughTurns rfl).1] at isHalt
    exact finishes.not_isLimit halt isHalt isLimit

/-- A call ends with the first `return` of its body: the text is printed, and nil is not. -/
theorem run_iff_finishes_return :
    let name (lexeme : String) : Token := ⟨.identifier, lexeme, .nil, 1⟩
    let body : List Stmt := [.ret (name "return") (some (.reference (name "a"))),
      .print (.literal .nil)]
    let task : Task := .executeAll Store.globals [.function (name "f") [name "a"] body,
      .print (.call (.reference (name "f")) (name ")") [.literal (.text "x")])]
    ¬ Limited (task.run ⟨0, 0⟩ 8 (.initial fun _ => 0)) ∧
      ∃ after : State, after.printed = ["x"] ∧
        Finishes task (view (.initial fun _ => 0)) (.ok .normal) after ∧
        ∃ bound, ∀ (settings : Settings) (stack : Nat), bound ≤ stack → bound ≤ settings.turns →
          ¬ Limited (task.run settings stack (.initial fun _ => 0)) := by
  intro name body task
  have isNormal : ending (task.run ⟨0, 0⟩ 8 (.initial fun _ => 0)) = .ok .normal := by cbv
  have unlimited : ¬ Limited (task.run ⟨0, 0⟩ 8 (.initial fun _ => 0)) := by
    rintro ⟨halt, isHalt, -⟩
    cases isNormal.symm.trans isHalt
  obtain ⟨adequate, eventually⟩ := run_iff_finishes task (.initial fun _ => 0)
  have derived := (adequate ⟨0, 0⟩ 8 unlimited _ _).mp ⟨isNormal, rfl⟩
  exact ⟨unlimited, _, by cbv, derived, eventually _ _ derived⟩

end LoxLang.BigStep
