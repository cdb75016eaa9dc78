import LoxLang.Proofs.Evaluation.View
import LoxLang.Session.Basic
import Mathlib.Data.List.Forall2

/-!
# What a transcript shows

A transcript shows of the events of a run the lines that were printed and the wording of the
messages. While the debug file is open, the lines make up the outputs and the messages the trace.
-/

namespace LoxLang

open BigStep (line?)

/-- The message that an event traced, if it traced one. -/
def Event.entry? : Event → Option TraceEntry
  | .printed _ | .echoed _ => none
  | .traced entry => some entry

/-- The line that an event writes to standard output, where the machine has an output of its own or
has none. -/
def Event.outputLine? (ownOutput : Bool) : Event → Option String
  | .printed line => if ownOutput then none else some line
  | .echoed line => some line
  | .traced _ => none

/-- The line that an event writes to the output of the machine's own. -/
def Event.ownLine? (ownOutput : Bool) : Event → Option String
  | .printed line => if ownOutput then some line else none
  | .echoed _ | .traced _ => none

/-- The messages of a machine, in order. -/
def Machine.messages (machine : Machine) : List TraceEntry :=
  machine.events.toList.filterMap Event.entry?

/-- The same line was printed, or messages of the same wording were traced. -/
inductive Event.LooksLike : Event → Event → Prop where
  | printed (line : String) : LooksLike (.printed line) (.printed line)
  | echoed (line : String) : LooksLike (.echoed line) (.echoed line)
  | traced {entry other : TraceEntry} (text : other.text = entry.text) :
      LooksLike (.traced entry) (.traced other)

/-- Every event looks like itself. -/
theorem Event.LooksLike.refl (event : Event) : event.LooksLike event := by
  cases event with
  | printed line => exact .printed line
  | echoed line => exact .echoed line
  | traced entry => exact .traced rfl

/-- A message changes nothing but the events. -/
theorem Machine.trace_eq (machine : Machine) (level : Nat) (entry : TraceEntry) :
    machine.trace level entry = { machine with events := (machine.trace level entry).events } := by
  unfold trace
  split <;> rfl

/-- The events of the machines look alike, one by one. -/
def Machine.LooksLike (machine other : Machine) : Prop :=
  List.Forall₂ Event.LooksLike machine.events.toList other.events.toList

namespace Machine.LooksLike

variable {machine other : Machine}

/-- Every machine looks like itself. -/
theorem refl (machine : Machine) : machine.LooksLike machine :=
  List.forall₂_same.mpr fun event _ => .refl event

/-- Machines look alike after events that look alike. -/
theorem emit (alike : machine.LooksLike other) {event otherEvent : Event}
    (events : event.LooksLike otherEvent) :
    (machine.emit event).LooksLike (other.emit otherEvent) := by
  simp only [LooksLike, Machine.emit, Array.toList_push]
  exact List.rel_append alike (.cons events .nil)

/-- Machines look alike after messages of one level and one wording. -/
theorem trace (alike : machine.LooksLike other) (level : Nat) {entry otherEntry : TraceEntry}
    (sameLevel : otherEntry.level = entry.level) (sameText : otherEntry.text = entry.text) :
    (machine.trace level entry).LooksLike (other.trace level otherEntry) := by
  unfold Machine.trace
  rw [sameLevel]
  split
  next => exact alike.emit (.traced sameText)
  next => exact alike

end Machine.LooksLike

namespace Transcript

/-- Lines with a line feed behind each of them, behind the text written so far. -/
def appending (written : String) (lines : List String) : String :=
  lines.foldl (fun written line => written ++ line ++ "\n") written

/-- A transcript is written event by event. -/
theorem ofEvents_eq_foldl (traceOpen ownOutput : Bool) (events : Array Event) :
    ofEvents traceOpen ownOutput events =
      events.toList.foldl (add traceOpen ownOutput) silent :=
  (Array.foldl_toList _).symm

/-- Transcripts of events that look alike are the same. -/
theorem ofEvents_eq_of_looksLike {machine other : Machine} (alike : machine.LooksLike other)
    (traceOpen ownOutput : Bool) :
    ofEvents traceOpen ownOutput other.events = ofEvents traceOpen ownOutput machine.events := by
  rw [ofEvents_eq_foldl, ofEvents_eq_foldl]
  unfold Machine.LooksLike at alike
  generalize silent = written
  generalize machine.events.toList = all, other.events.toList = further at alike
  induction alike generalizing written with
  | nil => rfl
  | @cons event other _ _ first _ inductionHypothesis =>
    have sameWritten :
        add traceOpen ownOutput written other = add traceOpen ownOutput written event := by
      cases first with
      | printed line | echoed line => rfl
      | traced sameText =>
        unfold add
        dsimp only
        rw [sameText]
    rw [List.foldl_cons, List.foldl_cons, sameWritten, inductionHypothesis]

/-- Where the debug file is open, or nothing is traced, the outputs are what was printed, and the
trace is what was traced. -/
theorem ofEvents_eq_appending {traceOpen : Bool} {events : Array Event}
    (apart : traceOpen = true ∨ events.toList.filterMap Event.entry? = []) (ownOutput : Bool) :
    ofEvents traceOpen ownOutput events =
      ⟨appending "" (events.toList.filterMap (Event.outputLine? ownOutput)),
        appending "" (events.toList.filterMap (Event.ownLine? ownOutput)),
        appending "" ((events.toList.filterMap Event.entry?).map (·.text))⟩ := by
  rw [ofEvents_eq_foldl]
  generalize events.toList = all at apart ⊢
  suffices general : ∀ written : Transcript, all.foldl (add traceOpen ownOutput) written =
      ⟨appending written.output (all.filterMap (Event.outputLine? ownOutput)),
        appending written.own (all.filterMap (Event.ownLine? ownOutput)),
        appending written.trace ((all.filterMap Event.entry?).map (·.text))⟩ from general silent
  intro written
  induction all generalizing written with
  | nil => rfl
  | cons event events inductionHypothesis =>
    cases event with
    | printed line => cases ownOutput <;> exact inductionHypothesis apart _
    | echoed line => exact inductionHypothesis apart _
    | traced entry =>
      obtain rfl | ⟨⟨⟩⟩ := apart
      exact inductionHypothesis (.inl rfl) _

end Transcript

/-- The steps of a session that runs programs one after the other. -/
def Session.runAll (session : Session) : List (List Stmt) → List (Step (Option RuntimeError))
  | [] => []
  | stmts :: programs =>
    let (step, after) := session.runStatements stmts
    step :: after.runAll programs

/-- The session that programs leave behind when they are run one after the other. -/
def Session.afterAll (session : Session) : List (List Stmt) → Session
  | [] => session
  | stmts :: programs => (session.runStatements stmts).2.afterAll programs

end LoxLang
