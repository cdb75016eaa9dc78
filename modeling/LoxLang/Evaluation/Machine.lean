import LoxLang.Evaluation.Fault

/-!
# The machine

The state of a run: the scopes with their bindings, how many callables there are, the clock, and
everything that was printed or traced so far, in order. What the clock tells is up to the host: a
machine has the readings that it will take, one after the other. `Run` is a computation on the
machine; when it halts it leaves the machine as it is, so that effects before a fault are kept.
-/

namespace LoxLang

/-- A message about the course of a run. -/
inductive TraceEntry where
  | failed (message : String) (line : Int)
  | defined (name : String) (value : Value)
  | definedFunction (name : String) (arity : Nat)
  | ifCondition (value : Value)
  | whileCondition (value : Value)
  | called (callable : Callable) (count : Nat) (line : Int)

namespace TraceEntry

/-- The least debug level at which a message is written. -/
def level : TraceEntry → Nat
  | failed _ _ => 1
  | defined _ _ | definedFunction _ _ => 2
  | ifCondition _ | whileCondition _ | called _ _ _ => 3

/-- A condition, and whether it holds. -/
def conditionText (word : String) (value : Value) : String :=
  word ++ " condition " ++ value.display ++ " -> " ++ if value.isTruthy then "True" else "False"

/-- The wording of a message. -/
def text : TraceEntry → String
  | failed message line => "runtime error: " ++ message ++ " [line " ++ toString line ++ "]"
  | defined name value => "define " ++ name ++ " = " ++ value.display
  | definedFunction name arity => "define function " ++ name ++ "/" ++ toString arity
  | ifCondition value => conditionText "if" value
  | whileCondition value => conditionText "while" value
  | called callable count line =>
    "call " ++ callable.described ++ " with " ++ toString count ++ " argument(s) [line "
      ++ toString line ++ "]"

end TraceEntry

/-- Something that can be seen of a run. -/
inductive Event where
  /-- A line was printed by the program. -/
  | printed (line : String)
  /-- A line was printed by the host. -/
  | echoed (line : String)
  /-- A message was traced. -/
  | traced (entry : TraceEntry)

/-- The state of a run. -/
structure Machine where
  store : Store Value
  /-- How many callables were made; the next one is known by this number. -/
  callables : Nat
  /-- What the clock tells at each reading. -/
  clock : Nat → Float
  /-- How often the clock was read. -/
  readings : Nat
  events : Array Event

namespace Machine

/-- Makes a callable and binds it to a global name. -/
def defineCallable (machine : Machine) (name : String) (behaviour : Behaviour) : Machine :=
  { machine with
    store := machine.store.define Store.globals name
      (.callable ⟨machine.callables, behaviour⟩)
    callables := machine.callables + 1 }

/-- Binds a global name. -/
def defineGlobal (machine : Machine) (name : String) (value : Value) : Machine :=
  { machine with store := machine.store.define Store.globals name value }

/-- Binds names in a scope to the values that they have in the global scope. -/
def capture (machine : Machine) (scope : ScopeId) : List String → Machine
  | [] => machine
  | name :: names =>
    match machine.store.lookup? Store.globals name with
    | some value =>
      capture { machine with store := machine.store.define scope name value } scope names
    | none => capture machine scope names

/-- Binds a global name to a native function, which captures the values that other global names have
at this time. -/
def defineNative (machine : Machine) (name : String) (arity : Nat) (captured : List String)
    (function : NativeFunction) : Machine :=
  if captured.isEmpty then machine.defineCallable name (.native arity none function)
  else
    let closure := machine.store.size
    let opened : Machine := { machine with store := machine.store.push (some Store.globals) }
    (opened.capture closure captured).defineCallable name (.native arity (some closure) function)

/-- The machine before any program has run: the global scope binds `clock` alone. -/
def initial (clock : Nat → Float) : Machine :=
  defineCallable ⟨Store.empty.push none, 0, clock, 0, #[]⟩ "clock" .clock

/-- Adds an event. -/
def emit (machine : Machine) (event : Event) : Machine :=
  { machine with events := machine.events.push event }

/-- Adds a message, if the debug level asks for it. -/
def trace (machine : Machine) (level : Nat) (entry : TraceEntry) : Machine :=
  if entry.level ≤ level then machine.emit (.traced entry) else machine

end Machine

/-- How a computation on the machine ended. -/
inductive Outcome (α : Type) where
  | done (value : α) (machine : Machine)
  | halted (halt : Halt) (machine : Machine)

/-- A computation on the machine. -/
def Run (α : Type) : Type := Machine → Outcome α

namespace Run

variable {α β : Type}

/-- The computation that does nothing. -/
@[inline] protected def pure (value : α) : Run α := fun machine => .done value machine

/-- One computation after the other; the second does not run if the first halts. -/
@[inline] protected def bind (first : Run α) (second : α → Run β) : Run β := fun machine =>
  match first machine with
  | .done value machine => second value machine
  | .halted halt machine => .halted halt machine

@[always_inline] instance : Monad Run where
  pure := Run.pure
  bind := Run.bind

/-- Halts. -/
@[inline] def halt (halt : Halt) : Run α := fun machine => .halted halt machine

/-- Changes the machine. -/
@[inline] def change (step : Machine → Machine) : Run Unit := fun machine => .done () (step machine)

/-- The result of an operation that may fail with a runtime error. -/
@[inline] def ofExcept (result : Except RuntimeError α) : Run α :=
  match result with
  | .ok value => .pure value
  | .error error => halt (.failed error)

/-- Reports a used up stack as a runtime error at a token. -/
@[inline] def reportingOverflow (token : Token) (run : Run α) : Run α := fun machine =>
  match run machine with
  | .halted .overflow machine => .halted (.failed ⟨.stackOverflow, token⟩) machine
  | outcome => outcome

/-- Adds a message, if the debug level asks for it. -/
@[inline] def trace (level : Nat) (entry : TraceEntry) : Run Unit := change (·.trace level entry)

/-- Prints a line of the program. -/
def print (line : String) : Run Unit := change (·.emit (.printed line))

/-- The value of a variable. -/
def readVariable (scope : ScopeId) (name : Token) : Run Value := fun machine =>
  match machine.store.lookup? scope name.lexeme with
  | some value => .done value machine
  | none => .halted (.failed ⟨.undefinedVariable, name⟩) machine

/-- Changes the value of a variable. -/
def assignVariable (scope : ScopeId) (name : Token) (value : Value) : Run Unit := fun machine =>
  match machine.store.holder? scope name.lexeme with
  | some holder => .done () { machine with store := machine.store.define holder name.lexeme value }
  | none => .halted (.failed ⟨.undefinedVariable, name⟩) machine

/-- Binds a name in a scope. -/
def define (scope : ScopeId) (name : String) (value : Value) : Run Unit :=
  change fun machine => { machine with store := machine.store.define scope name value }

/-- Opens a scope inside another one. -/
def openScope (outer : ScopeId) : Run ScopeId := fun machine =>
  .done machine.store.size { machine with store := machine.store.push (some outer) }

/-- Makes a callable that is different from every other one. -/
def makeCallable (behaviour : Behaviour) : Run Callable := fun machine =>
  .done ⟨machine.callables, behaviour⟩ { machine with callables := machine.callables + 1 }

/-- Reads the clock. -/
def readClock : Run Value := fun machine =>
  .done (.number (machine.clock machine.readings)) { machine with readings := machine.readings + 1 }

/-- Gives nil where a computation halts. -/
def orNil (run : Run Value) : Run Value := fun machine =>
  match run machine with
  | .done value machine => .done value machine
  | .halted _ machine => .done .nil machine

/-- The value of a name in a closure, or nil. -/
def readCaptured (closure : Option ScopeId) (name : String) : Run Value :=
  match closure with
  | some scope => orNil (readVariable scope ⟨.identifier, name, .nil, 0⟩)
  | none => pure .nil

/-- The results of a computation for each item, from left to right. -/
def each (run : α → Run β) : List α → Run (List β)
  | [] => pure []
  | item :: items => do
    let result ← run item
    let results ← each run items
    return result :: results

end Run
end LoxLang
