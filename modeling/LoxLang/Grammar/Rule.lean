import LoxLang.Grammar.SyntaxError

/-!
# Grammar rules

A rule reads a phrase from the front of a list of tokens. Its reply holds the errors that it
reported, in order, the tokens it has left, and the phrase, or what stopped it. Errors do not stop a
rule by themselves: a rule may report one and go on.

The tokens of a rule do not include the one that ends the text; `Surroundings.endLine` is its line.
-/

namespace LoxLang.Grammar

/-- Why a rule has no phrase. A syntax error has been reported; nesting beyond the limit has not. -/
inductive Stop where
  | syntaxError
  | tooDeep
deriving DecidableEq, Repr

/-- What a rule knows besides its tokens. -/
structure Surroundings where
  /-- The line on which the text ends. -/
  endLine : Int
  /-- The rule reads a part of a function body. -/
  inFunction : Bool
deriving DecidableEq, Repr

/-- What a rule made of its tokens. -/
structure Reply (α : Type) where
  /-- The errors reported, in order. -/
  errors : List SyntaxError
  /-- The tokens that are left. -/
  rest : List Token
  result : Except Stop α

/-- A rule for phrases of type `α`. -/
def Rule (α : Type) : Type := Surroundings → List Token → Reply α

namespace Rule

variable {α β : Type}

/-- The rule that reads nothing. -/
protected def pure (value : α) : Rule α := fun _ tokens => ⟨[], tokens, .ok value⟩

/-- One rule after the other; the second does not run if the first is stopped. -/
protected def bind (first : Rule α) (second : α → Rule β) : Rule β := fun surroundings tokens =>
  let reply := first surroundings tokens
  match reply.result with
  | .error stop => ⟨reply.errors, reply.rest, .error stop⟩
  | .ok value =>
    let next := second value surroundings reply.rest
    ⟨reply.errors ++ next.errors, next.rest, next.result⟩

instance : Monad Rule where
  pure := Rule.pure
  bind := Rule.bind

/-- The next token, which is not taken. -/
def next : Rule (Option Token) := fun _ tokens => ⟨[], tokens, .ok tokens.head?⟩

/-- Takes one token, if there is one. -/
def skip : Rule Unit := fun _ tokens => ⟨[], tokens.tail, .ok ()⟩

/-- The next token is of the given kind. -/
def nextIs (kind : TokenKind) : Rule Bool := fun _ tokens =>
  ⟨[], tokens, .ok (tokens.head?.any (·.kind = kind))⟩

/-- Takes the next token if its kind is one of the given kinds. -/
def accept (kinds : List TokenKind) : Rule (Option Token) := fun _ tokens =>
  match tokens with
  | token :: rest =>
    if token.kind ∈ kinds then ⟨[], rest, .ok (some token)⟩ else ⟨[], tokens, .ok none⟩
  | [] => ⟨[], tokens, .ok none⟩

/-- Reports a problem at a token and goes on. -/
def reportAt (token : Token) (problem : Problem) : Rule Unit := fun _ tokens =>
  ⟨[.atToken problem token], tokens, .ok ()⟩

/-- Reports a problem at the next token and goes on. -/
def reportNext (problem : Problem) : Rule Unit := fun surroundings tokens =>
  ⟨[.atNext problem tokens surroundings.endLine], tokens, .ok ()⟩

/-- Reports at the next token what was expected there, and is stopped. -/
def fail (missing : Expected) : Rule α := fun surroundings tokens =>
  ⟨[.atNext (.expected missing) tokens surroundings.endLine], tokens, .error .syntaxError⟩

/-- Is stopped because the nesting limit is reached. -/
def tooDeep : Rule α := fun _ tokens => ⟨[], tokens, .error .tooDeep⟩

/-- Takes the next token, which has to be of the given kind. -/
def expect (kind : TokenKind) (missing : Expected) : Rule Token := do
  match ← accept [kind] with
  | some token => return token
  | none => fail missing

/-- The rule stands in a function body. -/
def inFunction : Rule Bool := fun surroundings tokens => ⟨[], tokens, .ok surroundings.inFunction⟩

/-- Reads a part of a function body. -/
def withinFunction (rule : Rule α) : Rule α := fun surroundings =>
  rule { surroundings with inFunction := true }

/-- Runs steps from a value as long as each gives a further value, at most one step for each token
of `budget`. The errors reported before stand in reverse order. -/
def iterate (step : α → Rule (Option α)) (surroundings : Surroundings) :
    List Token → List SyntaxError → α → List Token → Reply α
  | [], before, value, tokens => ⟨before.reverse, tokens, .ok value⟩
  | _ :: budget, before, value, tokens =>
    let reply := step value surroundings tokens
    let errors := reply.errors.reverse ++ before
    match reply.result with
    | .error stop => ⟨errors.reverse, reply.rest, .error stop⟩
    | .ok none => ⟨errors.reverse, reply.rest, .ok value⟩
    | .ok (some further) => iterate step surroundings budget errors further reply.rest

/-- Runs steps from a value as long as each gives a further value. Each step that does so takes at
least one token, and none does so without tokens, so the tokens at the start bound the steps. -/
def repeated (start : α) (step : α → Rule (Option α)) : Rule α := fun surroundings tokens =>
  iterate step surroundings tokens [] start tokens

end Rule
end LoxLang.Grammar
