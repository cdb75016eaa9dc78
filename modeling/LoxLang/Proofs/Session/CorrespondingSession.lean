import LoxLang.Proofs.Evaluation.CorrespondingRun
import LoxLang.Proofs.Session.Transcript
import Mathlib

/-!
# Sessions that correspond show the same

Where machines that stand for each other show the same events, sessions on such machines give the
same and write the same, program after program.
-/

namespace LoxLang

/-- Runs that open the same scopes: a scope stands for itself, in the only world that there is. -/
def Matching.sameScopes (onStmt : Stmt → Stmt → Prop) (onBody : List Stmt → List Stmt → Prop)
    (sameForm : ∀ {stmt other}, onStmt stmt other → stmt.SameForm onStmt onBody other)
    (inTurn : ∀ {stmts others}, onBody stmts others → Stmt.InTurn onStmt stmts others) :
    Matching Unit where
  OnStmt := onStmt
  OnBody := onBody
  Sees _ := Eq
  Owns _ := Eq
  sameForm := sameForm
  inTurn := inTurn
  sees_of_owns := id
  seesLater _ := id
  ownsLater _ := id

namespace Correspondence

open BigStep Matching

variable {World : Type} [Preorder World] {relation : Correspondence World} {world : World}

/-- Machines that stand for each other show the same events, and what they show is all that there is
to their events. -/
structure Shows (relation : Correspondence World) : Prop where
  looksLike : ∀ {world machine other}, relation.OnMachine world machine other →
    machine.LooksLike other
  withEvents : ∀ {world machine other}, relation.OnMachine world machine other →
    ∀ {events otherEvents : Array Event},
      List.Forall₂ Event.LooksLike events.toList otherEvents.toList →
      relation.OnMachine world { machine with events } { other with events := otherEvents }

namespace Shows

/-- Both machines may take a message of one level and one wording down. -/
theorem onMachine_trace (shows : relation.Shows) {machine other : Machine}
    (machines : relation.OnMachine world machine other) (level : Nat)
    {entry otherEntry : TraceEntry} (sameLevel : otherEntry.level = entry.level)
    (sameText : otherEntry.text = entry.text) :
    relation.OnMachine world (machine.trace level entry) (other.trace level otherEntry) := by
  rw [machine.trace_eq, other.trace_eq]
  exact shows.withEvents machines ((shows.looksLike machines).trace level sameLevel sameText)

/-- The same line is printed on both machines. -/
theorem print (shows : relation.Shows) (line : String) :
    relation.OnRun world (fun _ _ _ => True) (Run.print line) (Run.print line) :=
  .change fun machines =>
    shows.withEvents machines ((shows.looksLike machines).emit (.printed line))

/-- Messages that stand for each other are traced on both machines. -/
theorem trace (shows : relation.Shows) (level : Nat) {entry otherEntry : TraceEntry}
    (entries : relation.OnTraceEntry world entry otherEntry) :
    relation.OnRun world (fun _ _ _ => True) (Run.trace level entry)
      (Run.trace level otherEntry) :=
  .change fun machines => shows.onMachine_trace machines level entries.level entries.text

variable {session : Session} {machine : Machine}

/-- One program: it gives the same and writes the same, and the sessions after it still
correspond. -/
theorem runStatements (shows : relation.Shows)
    (kept : ∀ settings, relation.Kept settings settings)
    (machines : relation.OnMachine world session.machine machine)
    (owns : relation.Owns world Store.globals Store.globals) {stmts others : List Stmt}
    (all : List.Forall₂ relation.OnStmt stmts others) :
    (({ session with machine } : Session).runStatements others).1 =
        (session.runStatements stmts).1 ∧
      ∃ later after, world ≤ later ∧
        relation.OnMachine later (session.runStatements stmts).2.machine after ∧
        (({ session with machine } : Session).runStatements others).2 =
          { (session.runStatements stmts).2 with machine := after } := by
  have fresh : relation.OnMachine world { session.machine with events := #[] }
      { machine with events := #[] } := shows.withEvents machines .nil
  have runs := (kept (session.limits.settings session.debugLevel)).program
    (fun _ machines => shows.onMachine_trace machines _ rfl rfl) owns all
  have ended := runs fresh
  unfold Session.runStatements Session.perform
  dsimp only
  generalize Run.program session.limits session.debugLevel stmts _ = outcome at ended ⊢
  generalize Run.program session.limits session.debugLevel others _ = otherOutcome at ended ⊢
  cases ended with
  | done grows sameError machines =>
    subst sameError
    refine ⟨?_, _, _, grows, machines, rfl⟩
    dsimp only
    rw [Transcript.ofEvents_eq_of_looksLike (shows.looksLike machines)]
  | halted halt grows machines =>
    refine ⟨?_, _, _, grows, machines, rfl⟩
    dsimp only
    rw [Transcript.ofEvents_eq_of_looksLike (shows.looksLike machines)]

/-- Programs one after the other. -/
theorem runAll (shows : relation.Shows) (kept : ∀ settings, relation.Kept settings settings)
    (machines : relation.OnMachine world session.machine machine)
    (owns : relation.Owns world Store.globals Store.globals) {programs others : List (List Stmt)}
    (all : List.Forall₂ (List.Forall₂ relation.OnStmt) programs others) :
    ({ session with machine } : Session).runAll others = session.runAll programs := by
  induction all generalizing session machine world with
  | nil => rfl
  | cons first _ inductionHypothesis =>
    obtain ⟨sameStep, later, after, grows, machinesAfter, sessionAfter⟩ :=
      shows.runStatements kept machines owns first
    unfold Session.runAll
    dsimp only
    rw [sameStep, sessionAfter,
      inductionHypothesis machinesAfter (relation.ownsLater grows owns)]

end Shows

end Correspondence
end LoxLang
