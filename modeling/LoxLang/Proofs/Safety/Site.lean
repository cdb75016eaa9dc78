import LoxLang.Proofs.Evaluation.BigStep

/-!
# Where a program can fail

The sites of a tree are the places at which a run of it can be halted: the tokens that faults are
reported at, each with the part it plays, and the nodes that have no meaning where they stand. A
value has the sites of the body it would run. `Fits` says which halts belong to which site; it is a
statement about messages as much as about tokens, since the message of a runtime error is settled by
its fault and its token.
-/

namespace LoxLang

open BigStep

/-- The native function gives a value whatever it is told of its arguments. -/
def NativeFunction.Returns (function : NativeFunction) : Prop :=
  ∀ arguments, ∃ given, function arguments = .ok given

/-- A place at which a run can be halted. -/
inductive Site where
  /-- A variable that is read or assigned. -/
  | name (token : Token)
  | unary (operator : Token)
  | binary (operator : Token)
  | logical (operator : Token)
  /-- The closing parenthesis of a call. -/
  | paren (token : Token)
  /-- A node that has no meaning where it stands. -/
  | unexpected (kind : NodeKind)
  /-- A call of a native function. -/
  | native (function : NativeFunction)
  /-- A callable that cannot be run. -/
  | abstract

namespace Site

/-- The operators that need two numbers. -/
def arithmeticKinds : List TokenKind :=
  [.minus, .star, .slash, .greater, .greaterEqual, .less, .lessEqual]

/-- The halts that belong to a site. -/
inductive Fits : Site → Halt → Prop where
  | undefinedVariable (token : Token) : Fits (.name token) (.failed ⟨.undefinedVariable, token⟩)
  | operandNotNumber {operator : Token} (isMinus : operator.kind = .minus) :
      Fits (.unary operator) (.failed ⟨.operandNotNumber, operator⟩)
  | unknownUnary {operator : Token} (noBang : operator.kind ≠ .bang)
      (noMinus : operator.kind ≠ .minus) :
      Fits (.unary operator) (.failed ⟨.unknownUnary, operator⟩)
  | operandsNotNumbers {operator : Token} (isArithmetic : operator.kind ∈ arithmeticKinds) :
      Fits (.binary operator) (.failed ⟨.operandsNotNumbers, operator⟩)
  | operandsNotAlike {operator : Token} (isPlus : operator.kind = .plus) :
      Fits (.binary operator) (.failed ⟨.operandsNotAlike, operator⟩)
  | unknownBinary {operator : Token} (isOther : operator.kind ∉ binaryKinds) :
      Fits (.binary operator) (.failed ⟨.unknownBinary, operator⟩)
  | notCallable (token : Token) : Fits (.paren token) (.failed ⟨.notCallable, token⟩)
  | wrongCount (token : Token) {expected given : Nat} (different : given ≠ expected) :
      Fits (.paren token) (.failed ⟨.wrongCount expected given, token⟩)
  | unaryOverflow (operator : Token) :
      Fits (.unary operator) (.failed ⟨.stackOverflow, operator⟩)
  | binaryOverflow (operator : Token) :
      Fits (.binary operator) (.failed ⟨.stackOverflow, operator⟩)
  | logicalOverflow (operator : Token) :
      Fits (.logical operator) (.failed ⟨.stackOverflow, operator⟩)
  | callOverflow (token : Token) : Fits (.paren token) (.failed ⟨.stackOverflow, token⟩)
  | unexpectedNode (activity : Activity) (kind : NodeKind) :
      Fits (.unexpected kind) (.unexpectedNode activity kind)
  | raised {function : NativeFunction} {arguments : List Shown} {exception : String}
      (raises : function arguments = .error exception) :
      Fits (.native function) (.raised exception)
  | notImplemented : Fits .abstract .notImplemented

/-- Sites whose halts are runtime errors: trees with no other sites have expressions where
expressions belong and statements where statements belong, and native functions always give a
value. -/
def Proper : Site → Prop
  | unexpected _ | abstract => False
  | native function => function.Returns
  | _ => True

/-- Proper sites whose operator, if they have one, is an operator of the language. -/
def Regular : Site → Prop
  | unary operator => operator.kind = .bang ∨ operator.kind = .minus
  | binary operator => operator.kind ∈ binaryKinds
  | unexpected _ | abstract => False
  | native function => function.Returns
  | _ => True

/-- A regular site is proper. -/
theorem Regular.proper {site : Site} (regular : site.Regular) : site.Proper := by
  cases site with
  | unexpected | abstract | native => exact regular
  | _ => trivial

/-- At a proper site a run fails with a runtime error. -/
theorem Fits.failed {site : Site} {halt : Halt} (fits : site.Fits halt) (proper : site.Proper) :
    ∃ error, halt = .failed error := by
  cases fits with
  | unexpectedNode | notImplemented => exact proper.elim
  | @raised function arguments exception raises =>
    obtain ⟨given, gives⟩ := proper arguments
    cases raises.symm.trans gives
  | _ => exact ⟨_, rfl⟩

/-- At a regular site no operator is found to be unknown. -/
theorem Fits.known {site : Site} {error : RuntimeError} (fits : site.Fits (.failed error))
    (regular : site.Regular) : error.fault ≠ .unknownUnary ∧ error.fault ≠ .unknownBinary := by
  cases fits with
  | unknownUnary noBang noMinus => exact absurd regular (not_or.mpr ⟨noBang, noMinus⟩)
  | unknownBinary isOther => exact absurd regular isOther
  | _ => exact ⟨nofun, nofun⟩

end Site

/-! ## The sites of trees and values -/

mutual

/-- The sites of an expression. -/
def Expr.sites : Expr → List Site
  | .literal _ => []
  | .reference name => [.name name]
  | .assign name value => .name name :: value.sites
  | .binary left operator right => .binary operator :: (left.sites ++ right.sites)
  | .logical left operator right => .logical operator :: (left.sites ++ right.sites)
  | .unary operator right => .unary operator :: right.sites
  | .grouping inner => inner.sites
  | .call callee paren arguments => .paren paren :: (callee.sites ++ Expr.allSites arguments)
  | .unexpected kind => [.unexpected kind]

/-- The sites of expressions. -/
def Expr.allSites : List Expr → List Site
  | [] => []
  | expr :: exprs => expr.sites ++ Expr.allSites exprs

end

/-- The sites of an expression that may be left out. -/
def Expr.optionalSites : Option Expr → List Site
  | none => []
  | some expr => expr.sites

mutual

/-- The sites of a statement, those of the functions it declares included. -/
def Stmt.sites : Stmt → List Site
  | .expression value => value.sites
  | .print value => value.sites
  | .var _ start => Expr.optionalSites start
  | .block statements => Stmt.allSites statements
  | .conditional condition consequent alternative =>
    condition.sites ++ consequent.sites ++ Stmt.optionalSites alternative
  | .loop condition body => condition.sites ++ body.sites
  | .function _ _ body => Stmt.allSites body
  | .ret _ value => Expr.optionalSites value
  | .unexpected kind => [.unexpected kind]

/-- The sites of statements. -/
def Stmt.allSites : List Stmt → List Site
  | [] => []
  | stmt :: stmts => stmt.sites ++ Stmt.allSites stmts

/-- The sites of a statement that may be left out. -/
def Stmt.optionalSites : Option Stmt → List Site
  | none => []
  | some stmt => stmt.sites

end

/-- A site of some expressions is one of an expression among them. -/
theorem Expr.mem_allSites {site : Site} {exprs : List Expr} :
    site ∈ Expr.allSites exprs ↔ ∃ expr ∈ exprs, site ∈ expr.sites := by
  induction exprs with
  | nil => simp [Expr.allSites]
  | cons expr exprs inductionHypothesis => simp [Expr.allSites, inductionHypothesis]

/-- A site of some statements is one of a statement among them. -/
theorem Stmt.mem_allSites {site : Site} {stmts : List Stmt} :
    site ∈ Stmt.allSites stmts ↔ ∃ stmt ∈ stmts, site ∈ stmt.sites := by
  induction stmts with
  | nil => simp [Stmt.allSites]
  | cons stmt stmts inductionHypothesis => simp [Stmt.allSites, inductionHypothesis]

/-- The sites of what a callable does. -/
def Behaviour.sites : Behaviour → List Site
  | .function declaration _ => Stmt.allSites declaration.body
  | .clock => []
  | .native _ _ target => [.native target]
  | .abstract _ => [.abstract]

/-- The sites that a call of a value would reach. -/
def Value.sites : Value → List Site
  | .callable target => target.behaviour.sites
  | _ => []

/-- The values of the language: numbers, strings, booleans, nil, and callables that can be run and
whose bodies are statements, or that are native and always give a value. The end of a statement is
none of them. -/
inductive Value.Proper : Value → Prop where
  | nil : Proper .nil
  | bool (value : Bool) : Proper (.bool value)
  | number (value : Float) : Proper (.number value)
  | text (value : String) : Proper (.text value)
  | clock (identity : Nat) : Proper (.callable ⟨identity, .clock⟩)
  | native (identity arity : Nat) (closure : Option ScopeId) {function : NativeFunction}
      (returns : function.Returns) :
      Proper (.callable ⟨identity, .native arity closure function⟩)
  | function (identity : Nat) {declaration : Declaration} (closure : ScopeId)
      (body : ∀ site ∈ Stmt.allSites declaration.body, site.Proper) :
      Proper (.callable ⟨identity, .function declaration closure⟩)

/-- A value whose sites are proper is a value of the language. -/
theorem Value.Proper.of_sites {value : Value} (proper : ∀ site ∈ value.sites, site.Proper) :
    value.Proper := by
  cases value with
  | callable target =>
    obtain ⟨identity, behaviour⟩ := target
    cases behaviour with
    | function declaration closure => exact .function identity closure proper
    | clock => exact .clock identity
    | native arity closure function =>
      exact .native identity arity closure (proper _ (List.mem_singleton.mpr rfl))
    | abstract arity => exact (proper .abstract (List.mem_singleton.mpr rfl)).elim
  | nil => exact .nil
  | bool value => exact .bool value
  | number value => exact .number value
  | text value => exact .text value

/-- A literal has no sites. -/
@[simp] theorem Value.sites_ofLiteral (literal : Literal) :
    (Value.ofLiteral literal).sites = [] := by
  cases literal <;> rfl

end LoxLang
