import LoxLang.Proofs.Evaluation.Readings
import LoxLang.Proofs.Session.Transcript

/-!
# Steps with another clock

With another clock that tells the same at the readings that a step takes, a session makes the same
step: it gives and writes the same, and what it leaves has the other clock. What was told of the
last step does not matter to the next one.
-/

namespace LoxLang

variable {α : Type}

namespace Session

/-- The session with another clock. -/
def withClock (session : Session) (clock : Nat → Float) : Session :=
  { session with machine := session.machine.withClock clock }

/-- The session without what was told of its last step. -/
def fresh (session : Session) : Session :=
  { session with machine := { session.machine with events := #[] } }

/-- A session without events has the clock that it was given. -/
theorem fresh_withClock (session : Session) (clock : Nat → Float) :
    (session.withClock clock).fresh = session.fresh.withClock clock := rfl

/-- A clock is no part of the store. -/
@[simp] theorem store_withClock (session : Session) (clock : Nat → Float) :
    (session.withClock clock).machine.store = session.machine.store := rfl

section Fresh

variable {session other : Session} (same : session.fresh = other.fresh)

include same

/-- Sessions that differ in their events alone have one store. -/
theorem store_eq_of_fresh : session.machine.store = other.machine.store := by
  have sameStore := congrArg (fun fresh : Session => fresh.machine.store) same
  exact sameStore

/-- Sessions that differ in their events alone have taken as many readings. -/
theorem readings_eq_of_fresh : session.machine.readings = other.machine.readings := by
  have sameReadings := congrArg (fun fresh : Session => fresh.machine.readings) same
  exact sameReadings

end Fresh

/-- A step of a session leaves the machine that its run leaves. -/
theorem machine_perform (session : Session) (run : Run α) :
    (session.perform run).2.machine =
      (run { session.machine with events := #[] }).machine := by
  unfold perform
  dsimp only
  cases run { session.machine with events := #[] } <;> rfl

variable {run : Run α}

/-- A step of a session leaves the clock as it is. -/
theorem clock_perform (reads : run.ReadsOnly) (session : Session) :
    (session.perform run).2.machine.clock = session.machine.clock := by
  rw [machine_perform]
  exact reads.clock _

/-- A step of a session takes no reading back. -/
theorem readings_perform (reads : run.ReadsOnly) (session : Session) :
    session.machine.readings ≤ (session.perform run).2.machine.readings := by
  rw [machine_perform]
  exact reads.readings { session.machine with events := #[] }

/-- With a clock that tells alike, a step of a session does the same and leaves that clock behind.
-/
theorem perform_withClock (reads : run.ReadsOnly) {session : Session} {clock : Nat → Float}
    (alike : session.machine.TellsAlike (session.perform run).2.machine clock) :
    (session.withClock clock).perform run =
      ((session.perform run).1, (session.perform run).2.withClock clock) := by
  rw [machine_perform] at alike
  have same := reads.withClock { session.machine with events := #[] } clock alike
  have fresh : { (session.withClock clock).machine with events := #[] } =
      Machine.withClock { session.machine with events := #[] } clock := rfl
  unfold perform
  dsimp only
  rw [fresh, same]
  cases run { session.machine with events := #[] } <;> rfl

/-- With a clock that tells alike, a program does the same and leaves that clock behind. -/
theorem runStatements_withClock {session : Session} {stmts : List Stmt} {clock : Nat → Float}
    (alike : session.machine.TellsAlike (session.runStatements stmts).2.machine clock) :
    (session.withClock clock).runStatements stmts =
      ((session.runStatements stmts).1, (session.runStatements stmts).2.withClock clock) :=
  perform_withClock (.program _ _ _) alike

/-- A program leaves the clock as it is. -/
theorem clock_runStatements (session : Session) (stmts : List Stmt) :
    (session.runStatements stmts).2.machine.clock = session.machine.clock :=
  clock_perform (.program _ _ _) session

/-- A program takes no reading back. -/
theorem readings_runStatements (session : Session) (stmts : List Stmt) :
    session.machine.readings ≤ (session.runStatements stmts).2.machine.readings :=
  readings_perform (.program _ _ _) session

/-- Programs one after the other take no reading back. -/
theorem readings_afterAll (session : Session) (programs : List (List Stmt)) :
    session.machine.readings ≤ (session.afterAll programs).machine.readings := by
  induction programs generalizing session with
  | nil => exact Nat.le_refl _
  | cons stmts programs inductionHypothesis =>
    exact Nat.le_trans (readings_runStatements session stmts) (inductionHypothesis _)

/-- Programs that are run one after the other depend together on the readings that they take. -/
theorem runAll_withClock {session : Session} {programs : List (List Stmt)} {clock : Nat → Float}
    (alike : session.machine.TellsAlike (session.afterAll programs).machine clock) :
    (session.withClock clock).runAll programs = session.runAll programs := by
  induction programs generalizing session with
  | nil => rfl
  | cons stmts programs inductionHypothesis =>
    have grows := readings_runStatements session stmts
    have growsOn := readings_afterAll (session.runStatements stmts).2 programs
    have alikeFirst :
        session.machine.TellsAlike (session.runStatements stmts).2.machine clock :=
      fun reading isTaken isBefore =>
        alike reading isTaken (Nat.lt_of_lt_of_le isBefore growsOn)
    have alikeFurther : (session.runStatements stmts).2.machine.TellsAlike
        ((session.runStatements stmts).2.afterAll programs).machine clock := by
      intro reading isTaken isBefore
      rw [clock_runStatements]
      exact alike reading (Nat.le_trans grows isTaken) isBefore
    change ((session.withClock clock).runStatements stmts).1 ::
      ((session.withClock clock).runStatements stmts).2.runAll programs = _
    rw [runStatements_withClock alikeFirst]
    exact congrArg (_ :: ·) (inductionHypothesis alikeFurther)

end Session
end LoxLang
