import LoxLang.Store.Basic
import LoxLang.Syntax.Tree

/-!
# Values

What an expression evaluates to: numbers, strings, booleans, nil, and callables. A function value
holds the scope it was declared in; what that scope binds is kept in the store.
-/

namespace LoxLang

/-- A function as it was declared. -/
structure Declaration where
  name : Token
  parameters : List Token
  body : List Stmt

/-- What a native function is told of an argument: all that a program itself can tell of it. Of a
callable these are its identity, how many arguments it needs and the text that stands for it. -/
inductive Shown where
  | nil
  | bool (value : Bool)
  | number (value : Float)
  | text (value : String)
  | callable (identity arity : Nat) (described : String)

/-- What a native function gives. -/
inductive Given where
  /-- A value that is no callable. -/
  | literal (value : Literal)
  /-- The argument at a place, or nil. -/
  | argument (place : Nat)
  /-- The value of a name that the function has captured, or nil. -/
  | captured (name : String)

/-- A native function: what it gives for arguments of which it is told this, or the name of the
exception that it raises. It is the host's and may be any function. -/
abbrev NativeFunction := List Shown → Except String Given

/-- What a call of a callable does. -/
inductive Behaviour where
  | function (declaration : Declaration) (closure : ScopeId)
  /-- Tells the time. -/
  | clock
  /-- Calls a function of the host. What it has captured is bound in its closure; a function that
  has captured nothing has none. -/
  | native (arity : Nat) (closure : Option ScopeId) (function : NativeFunction)
  /-- A callable that cannot be run. -/
  | abstract (arity : Nat)

/-- A callable with the number by which it is told apart from every other one. -/
structure Callable where
  identity : Nat
  behaviour : Behaviour

namespace Callable

/-- How many arguments a call needs. -/
def arity (callable : Callable) : Nat :=
  match callable.behaviour with
  | .function declaration _ => declaration.parameters.length
  | .clock => 0
  | .native arity _ _ => arity
  | .abstract arity => arity

/-- The text that stands for a callable. -/
def described (callable : Callable) : String :=
  match callable.behaviour with
  | .function declaration _ => "<fn " ++ declaration.name.lexeme ++ ">"
  | .clock | .native _ _ _ => "<native fn>"
  | .abstract _ => "<abstract fn>"

end Callable

/-- A value of the language. -/
inductive Value where
  | nil
  | bool (value : Bool)
  | number (value : Float)
  | text (value : String)
  | callable (value : Callable)

namespace Value

instance : Inhabited Value := ⟨nil⟩

/-- The value that a literal denotes. -/
def ofLiteral : Literal → Value
  | .nil => nil
  | .bool value => bool value
  | .number value => number value
  | .text value => text value

/-- Whether a condition holds of a value: of all but nil and false. -/
def isTruthy : Value → Bool
  | nil => false
  | bool value => value
  | _ => true

/-- The value is a number. -/
def isNumber : Value → Bool
  | number _ => true
  | _ => false

/-- The value is a callable. -/
def isCallable : Value → Bool
  | callable _ => true
  | _ => false

/-- The scope that a value closes over. -/
def closure? : Value → Option ScopeId
  | callable ⟨_, .function _ closure⟩ => some closure
  | callable ⟨_, .native _ closure _⟩ => closure
  | _ => none

/-- The text that a program prints for a value. -/
def display : Value → String
  | nil => "nil"
  | bool value => if value then "true" else "false"
  | number value => Number.display value
  | text value => value
  | callable value => value.described

/-- What a native function is told of a value. -/
def shown : Value → Shown
  | nil => .nil
  | bool value => .bool value
  | number value => .number value
  | text value => .text value
  | callable value => .callable value.identity value.arity value.described

/-- The text that describes a value: strings stand in quotes and numbers are exact. -/
def described : Value → String
  | nil => "None"
  | bool value => if value then "True" else "False"
  | number value => Number.text value
  | text value => Text.quoted value
  | callable value => value.described

/-- A value that is no callable closes over nothing. -/
theorem closure?_of_plain {value : Value} (isPlain : value.isCallable = false) :
    value.closure? = none := by
  cases value with
  | callable value => exact nomatch isPlain
  | _ => rfl

/-- Equality of numbers in which every number equals itself. -/
def sameNumber (left right : Float) : Bool := left == right || (left.isNaN && right.isNaN)

/-- Equality of values. Values of different types differ, and callables are told apart by
identity. -/
def equals : Value → Value → Bool
  | nil, nil => true
  | bool left, bool right => left == right
  | number left, number right => sameNumber left right
  | text left, text right => left == right
  | callable left, callable right => left.identity == right.identity
  | _, _ => false

end Value
end LoxLang
