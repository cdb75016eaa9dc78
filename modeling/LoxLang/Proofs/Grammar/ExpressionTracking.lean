import Mathlib
import LoxLang.Proofs.Grammar.Tracking

/-!
# Rules for expressions track what may follow

What may follow an expression begins with no operator, no equals sign and no opening parenthesis.
Wherever that is so, the rule for expressions tracks from expressions with what follows them to what
follows them, whatever its limit on nesting. The rules for operators, assignments and calls each add
the tokens that they go on with to those that must not follow.
-/

namespace LoxLang.Grammar

open Rule
open Computability

variable {α : Type}

/-! ## How phrases begin -/

/-- A primary expression goes on as its first token tells. -/
theorem cons_mem_primary_mul {token : Token} {tokens : List Token} {rest : Language Token} :
    token :: tokens ∈ phrases .primary * rest ↔
      token.kind ∈ [.number, .string, .keyTrue, .keyFalse, .keyNil] ∧ tokens ∈ rest ∨
      token.kind = .leftParen ∧
        tokens ∈ phrases .expression * (tokenOf [.rightParen] * rest) ∨
      token.kind = .identifier ∧ tokens ∈ rest := by
  rw [phrases_primary]
  simp only [add_mul, mul_assoc, Language.mem_add, cons_mem_tokenOf_mul, List.mem_singleton]

/-- A primary expression begins with a literal, a name or a parenthesis. -/
theorem begins_primary : Begins Symbol.primary.starts (phrases .primary) := by
  rw [phrases_primary]
  exact ((begins_tokenOf _).add <| ((begins_tokenOf _).mul _).add (begins_tokenOf _)).mono
    (by decide)

/-- A call begins as the primary expression that is called. -/
theorem begins_call : Begins Symbol.primary.starts (phrases .call) := by
  rw [phrases_call]
  exact begins_primary.mul _

/-- A unary expression begins with an operator or as a call. -/
theorem begins_unary : Begins Symbol.unary.starts (phrases .unary) := by
  rw [phrases_unary]
  exact (((begins_tokenOf _).mul _).add begins_call).mono (by decide)

/-- Separated items begin as the first of them. -/
theorem begins_separated {symbol item : Nonterminal} {kinds starts : List TokenKind}
    (same : production symbol = .separated kinds (.symbol item))
    (begins : Begins starts (phrases item)) : Begins starts (phrases symbol) := by
  rw [phrases_separated same]
  exact begins.mul _

/-- An expression begins as a unary one, through all levels of operators. -/
theorem begins_expression : Begins Symbol.assignment.starts (phrases .expression) := by
  rw [phrases_expression]
  exact (begins_separated rfl <| begins_separated rfl <| begins_separated rfl <|
    begins_separated rfl <| begins_separated rfl <| begins_separated rfl begins_unary).mul _

/-- Arguments begin as an expression. -/
theorem begins_arguments : Begins Symbol.assignment.starts (phrases .arguments) :=
  begins_separated rfl begins_expression

/-- There are separated items if there are items. -/
theorem derivable_separated {symbol item : Nonterminal} {kinds : List TokenKind}
    (same : production symbol = .separated kinds (.symbol item))
    (derivable : Derivable (phrases item)) : Derivable (phrases symbol) := by
  rw [phrases_separated same]
  exact derivable.mul (derivable_star _)

/-- There are primary expressions. -/
theorem derivable_primary : Derivable (phrases .primary) := by
  rw [phrases_primary]
  exact (derivable_tokenOf _ _).add_right _

/-- There are calls: a primary expression alone is one. -/
theorem derivable_call : Derivable (phrases .call) := by
  rw [phrases_call]
  exact derivable_primary.mul (derivable_star _)

/-- There are unary expressions. -/
theorem derivable_unary : Derivable (phrases .unary) := by
  rw [phrases_unary, add_comm]
  exact derivable_call.add_right _

/-- There are expressions. -/
theorem derivable_expression : Derivable (phrases .expression) := by
  rw [phrases_expression]
  exact (derivable_separated rfl <| derivable_separated rfl <| derivable_separated rfl <|
    derivable_separated rfl <| derivable_separated rfl <| derivable_separated rfl
    derivable_unary).mul (derivable_one.add_right _)

/-! ## Rules for expressions -/

/-- A chain of operators, with the symbol of its level, over chains that bind tighter. -/
theorem recognizes_operations {level : Level} {tighter : List Level} {operand : Rule Expr}
    {symbol item : Nonterminal} {kinds : List TokenKind} (orderly : Orderly operand)
    (same : production symbol = .separated level.operators (.symbol item))
    (apart : ∀ kind ∈ level.operators, kind ∉ kinds)
    (recognizes : Recognizes (operations tighter operand) (phrases item) kinds) :
    Recognizes (operations (level :: tighter) operand) (phrases symbol)
      (level.operators ++ kinds) := by
  intro rest avoids
  have orderlyOperand := (refined_operations tighter orderly.refined).orderly
  -- An operand is followed by an operator of the level or by the rest, and both end it.
  have avoidsRest := avoids.mono (List.subset_append_left level.operators kinds)
  have avoidsFurther : Avoids kinds ((tokenOf level.operators * phrases item)∗ * rest) :=
    (avoids.mono (List.subset_append_right level.operators kinds)).star
      ((begins_tokenOf _).mul _) apart
  rw [phrases_separated same, mul_assoc]
  refine (recognizes _ avoidsFurther).bind fun first => ?_
  exact Tracks.repeated_clause (fun _ _ => orderlyOperand.bind fun _ => .pure _) avoidsRest
    (fun left operator => (recognizes _ avoidsFurther).bind fun right => .pure rfl) first

/-- A list recognizes its items with commas between them. -/
theorem recognizes_listed {tooMany : Problem} {item : Rule α} {language : Language Token}
    {kinds : List TokenKind} (isOther : tooMany.isExpectation = false) (orderly : Orderly item)
    (recognizes : Recognizes item language kinds) (apart : .comma ∉ kinds) :
    Recognizes (listed tooMany item) (language * (tokenOf [.comma] * language)∗)
      (.comma :: kinds) := by
  intro rest avoids
  have avoidsRest : Avoids [.comma] rest := avoids.mono (by simp)
  have avoidsFurther : Avoids kinds ((tokenOf [.comma] * language)∗ * rest) :=
    (avoids.mono (List.subset_cons_self _ _)).star ((begins_tokenOf _).mul _)
      (List.forall_mem_singleton.mpr apart)
  rw [mul_assoc]
  refine (recognizes _ avoidsFurther).bind fun first => ?_
  refine Tracks.bind ?_ fun found => .pure rfl
  refine Tracks.repeated_clause
    (fun listed _ => (refined_furtherItem orderly.refined listed).orderly) avoidsRest
    (fun listed comma => ?_) _
  have further : Tracks (do return some (listed.1 + 1, (← item) :: listed.2))
      (language * ((tokenOf [.comma] * language)∗ * rest)) fun found =>
        found.elim rest fun _ => (tokenOf [.comma] * language)∗ * rest :=
    (recognizes _ avoidsFurther).bind fun _ => .pure rfl
  exact .ite ((Tracks.reportNext isOther).bind fun _ => further) further

section Expressions

variable {expression : Rule Expr}
  (recognizes : Recognizes expression (phrases .expression) Symbol.assignment.extenders)

include recognizes

/-- The arguments of a call are tracked up to the closing parenthesis, which begins none of them. -/
theorem tracks_callArguments (orderly : Orderly expression) (callee : Expr)
    {last rest : Language Token} (derivable : Derivable rest) :
    Tracks (callArguments expression callee)
      ((1 + phrases .arguments) * (tokenOf [.rightParen] * rest))
      fun found => found.elim last fun _ => rest := by
  have ends (arguments : List Expr) : Tracks
      (do
        let paren ← expect .rightParen .parenAfterArguments
        return some (Expr.call callee paren arguments))
      (tokenOf [.rightParen] * rest) fun found => found.elim last fun _ => rest :=
    (Tracks.expect _ _ derivable).bind fun paren => .pure rfl
  have listed : Recognizes (listed .tooManyArguments expression) (phrases .arguments)
      (.comma :: Symbol.assignment.extenders) :=
    phrases_arguments ▸ recognizes_listed rfl orderly recognizes (by decide)
  exact .unless_bind begins_arguments (by decide) ((Tracks.pure rfl).bind ends)
    ((listed _ (avoids_tokenOf_mul derivable (by decide))).bind ends)

/-- Calls track any number of argument lists, if none can follow by other means. -/
theorem tracks_calls (orderly : Orderly expression) (callee : Expr) {rest : Language Token}
    (avoids : Avoids [.leftParen] rest) :
    Tracks (calls expression callee)
      ((tokenOf [.leftParen] * ((1 + phrases .arguments) * tokenOf [.rightParen]))∗ * rest)
      fun _ => rest := by
  refine Tracks.repeated_clause (fun callee _ => ?_) avoids (fun callee _ => ?_) callee
  · exact (refined_callArguments orderly.refined callee).orderly
  · rw [mul_assoc]
    exact tracks_callArguments recognizes orderly callee ((derivable_star _).mul avoids.derivable)

/-- A primary expression is tracked by its first token. -/
theorem tracks_primary {rest : Language Token} (derivable : Derivable rest) :
    Tracks (primary expression) (phrases .primary * rest) fun _ => rest := by
  have begins := begins_primary.mul rest
  have derivablePhrase := derivable_primary.mul derivable
  intro surroundings tokens
  cases tokens with
  | nil =>
    have refused : primary expression surroundings [] = fail .expression surroundings [] := rfl
    rw [refused]
    exact .fail derivablePhrase begins (stops_nil _)
  | cons token tokens =>
    have alone (value : Expr) (only : ∀ further,
        token :: further ∈ phrases .primary * rest ↔ further ∈ rest) :
        Reply.Tracks surroundings.endLine (token :: tokens) (phrases .primary * rest)
          (fun _ => rest) ((skip >>= fun _ => pure value) surroundings (token :: tokens)) :=
      (Tracks.pure rfl surroundings tokens).cons only
    unfold primary
    rw [bind_eq]
    simp only [next, List.head?_cons, after_nil]
    cases isKind : token.kind with
    | keyFalse | keyTrue | keyNil | number | string | identifier =>
      exact alone _ fun further => by simp [cons_mem_primary_mul, isKind]
    | leftParen =>
      have inner : Tracks
          (do
            let inner ← expression
            let _ ← expect .rightParen .parenAfterExpression
            return Expr.grouping inner)
          (phrases .expression * (tokenOf [.rightParen] * rest)) fun _ => rest :=
        (recognizes _ (avoids_tokenOf_mul derivable (by decide))).bind fun inner =>
          (Tracks.expect _ _ derivable).bind fun _ => .pure rfl
      exact (inner surroundings tokens).cons fun further => by simp [cons_mem_primary_mul, isKind]
    | _ => exact Reply.Tracks.fail derivablePhrase begins (by simp [Symbol.starts, isKind])

/-- A unary expression is recognized by its first token. -/
theorem recognizes_unaryBody {unary : Rule Expr} (orderly : Orderly expression)
    (recognizesUnary : Recognizes unary (phrases .unary) Symbol.unary.extenders) :
    Recognizes (unaryBody unary expression) (phrases .unary) Symbol.unary.extenders := by
  intro rest avoids
  have call : Tracks (primary expression >>= fun callee => calls expression callee)
      (phrases .call * rest) fun _ => rest := by
    rw [phrases_call, mul_assoc]
    exact (tracks_primary recognizes ((derivable_star _).mul avoids.derivable)).bind
      fun callee => tracks_calls recognizes orderly callee avoids
  have avoidsCall : Avoids [.bang, .minus] (phrases .call * rest) :=
    (begins_call.mul rest).avoids (derivable_call.mul avoids.derivable) (by decide)
  rw [phrases_unary, add_comm, add_mul, mul_assoc]
  exact .accept_clause avoidsCall call fun operator =>
    (recognizesUnary rest avoids).bind fun right => .pure rfl

/-- An expression is recognized; behind its operands an assignment may follow. -/
theorem recognizes_expressionBody {unary : Rule Expr} (orderlyUnary : Orderly unary)
    (recognizesUnary : Recognizes unary (phrases .unary) Symbol.unary.extenders) :
    Recognizes (expressionBody unary expression) (phrases .expression)
      Symbol.assignment.extenders := by
  intro rest avoids
  have operations : Recognizes (operations levels unary) (phrases .logicOr)
      (Symbol.binding .logicOr).extenders :=
    recognizes_operations orderlyUnary rfl (by decide) <|
      recognizes_operations orderlyUnary rfl (by decide) <|
      recognizes_operations orderlyUnary rfl (by decide) <|
      recognizes_operations orderlyUnary rfl (by decide) <|
      recognizes_operations orderlyUnary rfl (by decide) <|
      recognizes_operations orderlyUnary rfl (by decide) recognizesUnary
  have avoidsEqual : Avoids [.equal] rest := avoids.mono (by decide)
  have avoidsOperators : Avoids (Symbol.binding .logicOr).extenders
      (rest + tokenOf [.equal] * (phrases .expression * rest)) :=
    (avoids.mono (by decide)).add ((begins_tokenOf _).mul _) (by decide)
  rw [phrases_expression, mul_assoc, one_add_mul, mul_assoc]
  refine (operations _ avoidsOperators).bind fun target => ?_
  refine .accept_clause avoidsEqual (.pure rfl) fun equals => ?_
  refine (recognizes rest avoids).bind fun value => ?_
  cases target with
  | reference name => exact .pure rfl
  | _ => exact (Tracks.reportAt equals rfl).bind fun _ => .pure rfl

end Expressions

/-- Unary expressions and expressions are recognized with every limit, by induction on it. -/
theorem recognizes_unary_expression (depth : Nat) :
    Recognizes (unary depth) (phrases .unary) Symbol.unary.extenders ∧
      Recognizes (expression depth) (phrases .expression) Symbol.assignment.extenders := by
  induction depth with
  | zero => exact ⟨fun _ _ => .tooDeep, fun _ _ => .tooDeep⟩
  | succ depth inductionHypothesis =>
    obtain ⟨recognizesUnary, recognizes⟩ := inductionHypothesis
    exact ⟨recognizes_unaryBody recognizes (orderly_expression depth) recognizesUnary,
      recognizes_expressionBody recognizes (orderly_unary depth) recognizesUnary⟩

end LoxLang.Grammar
