import Mathlib
import LoxLang.Token.Basic

/-!
# The productions of the grammar

The grammar as a table: for each symbol a pattern of tokens and symbols. What is wrong with a
program although it has the shape of one is left to others: the table lets anything stand left of an
equals sign that may stand beside `or`, puts no bound on the length of a list, and allows `return`
everywhere. A statement with a dangling `else` matches in more than one way.

A pattern denotes the language of the lists of tokens that match it, so that the laws of languages
apply to it.
-/

namespace LoxLang.Grammar

open Computability

/-- The symbols that the grammar has productions for. -/
inductive Nonterminal where
  | program
  | declaration
  | functionDeclaration
  | variableDeclaration
  | statement
  | expressionStatement
  | forStatement
  | ifStatement
  | printStatement
  | returnStatement
  | whileStatement
  | block
  | parameters
  | arguments
  | expression
  | assignment
  | logicOr
  | logicAnd
  | equality
  | comparison
  | term
  | factor
  | unary
  | call
  | primary
deriving DecidableEq, Repr

/-- What stands on the right of a production. -/
inductive Pattern where
  | empty
  /-- One token of one of these kinds. -/
  | token (kinds : List TokenKind)
  | symbol (nonterminal : Nonterminal)
  | sequence (first second : Pattern)
  | either (first second : Pattern)
  | many (repeated : Pattern)
deriving DecidableEq, Repr

namespace Pattern

/-- One pattern after the other. -/
def all (patterns : List Pattern) : Pattern := patterns.foldr sequence empty

/-- One of two or more patterns. -/
def any (first : Pattern) (others : List Pattern) : Pattern := others.foldl either first

/-- A pattern that may be left out. -/
def optional (pattern : Pattern) : Pattern := either empty pattern

/-- One or more items with tokens of some kinds between them. -/
def separated (kinds : List TokenKind) (item : Pattern) : Pattern :=
  sequence item (many (sequence (token kinds) item))

end Pattern

open Pattern in
/-- The production of each symbol. -/
def production : Nonterminal → Pattern
  | .program => all [many (symbol .declaration), token [.endOfFile]]
  | .declaration =>
    any (symbol .functionDeclaration) [symbol .variableDeclaration, symbol .statement]
  | .functionDeclaration =>
    all [token [.keyFun], token [.identifier], token [.leftParen], optional (symbol .parameters),
      token [.rightParen], symbol .block]
  | .variableDeclaration =>
    all [token [.keyVar], token [.identifier],
      optional (all [token [.equal], symbol .expression]), token [.semicolon]]
  | .statement =>
    any (symbol .expressionStatement) [symbol .forStatement, symbol .ifStatement,
      symbol .printStatement, symbol .returnStatement, symbol .whileStatement, symbol .block]
  | .expressionStatement => all [symbol .expression, token [.semicolon]]
  | .forStatement =>
    all [token [.keyFor], token [.leftParen],
      any (token [.semicolon]) [symbol .variableDeclaration, symbol .expressionStatement],
      optional (symbol .expression), token [.semicolon], optional (symbol .expression),
      token [.rightParen], symbol .statement]
  | .ifStatement =>
    all [token [.keyIf], token [.leftParen], symbol .expression, token [.rightParen],
      symbol .statement, optional (all [token [.keyElse], symbol .statement])]
  | .printStatement => all [token [.keyPrint], symbol .expression, token [.semicolon]]
  | .returnStatement =>
    all [token [.keyReturn], optional (symbol .expression), token [.semicolon]]
  | .whileStatement =>
    all [token [.keyWhile], token [.leftParen], symbol .expression, token [.rightParen],
      symbol .statement]
  | .block => all [token [.leftBrace], many (symbol .declaration), token [.rightBrace]]
  | .parameters => separated [.comma] (token [.identifier])
  | .arguments => separated [.comma] (symbol .expression)
  | .expression => symbol .assignment
  | .assignment => all [symbol .logicOr, optional (all [token [.equal], symbol .assignment])]
  | .logicOr => separated [.keyOr] (symbol .logicAnd)
  | .logicAnd => separated [.keyAnd] (symbol .equality)
  | .equality => separated [.bangEqual, .equalEqual] (symbol .comparison)
  | .comparison => separated [.greater, .greaterEqual, .less, .lessEqual] (symbol .term)
  | .term => separated [.minus, .plus] (symbol .factor)
  | .factor => separated [.slash, .star] (symbol .unary)
  | .unary => any (all [token [.bang, .minus], symbol .unary]) [symbol .call]
  | .call =>
    all [symbol .primary,
      many (all [token [.leftParen], optional (symbol .arguments), token [.rightParen]])]
  | .primary =>
    any (token [.number, .string, .keyTrue, .keyFalse, .keyNil])
      [all [token [.leftParen], symbol .expression, token [.rightParen]], token [.identifier]]

/-- The tokens match the pattern. -/
inductive Matches : Pattern → List Token → Prop where
  | empty : Matches .empty []
  | token {kinds : List TokenKind} {token : Token} (isKind : token.kind ∈ kinds) :
      Matches (.token kinds) [token]
  | symbol {nonterminal : Nonterminal} {tokens : List Token}
      (produced : Matches (production nonterminal) tokens) : Matches (.symbol nonterminal) tokens
  | sequence {first second : Pattern} {former latter : List Token} (before : Matches first former)
      (behind : Matches second latter) : Matches (.sequence first second) (former ++ latter)
  | former {first second : Pattern} {tokens : List Token} (isFirst : Matches first tokens) :
      Matches (.either first second) tokens
  | latter {first second : Pattern} {tokens : List Token} (isSecond : Matches second tokens) :
      Matches (.either first second) tokens
  | none {repeated : Pattern} : Matches (.many repeated) []
  | more {repeated : Pattern} {former latter : List Token} (before : Matches repeated former)
      (behind : Matches (.many repeated) latter) : Matches (.many repeated) (former ++ latter)

/-- The lists of tokens that match the pattern. -/
def Pattern.language (pattern : Pattern) : Language Token := {tokens | Matches pattern tokens}

/-- The lists of tokens that the grammar derives from the symbol. -/
def phrases (nonterminal : Nonterminal) : Language Token := (Pattern.symbol nonterminal).language

/-- The lists of one token of one of these kinds. -/
def tokenOf (kinds : List TokenKind) : Language Token :=
  {tokens | ∃ token, token.kind ∈ kinds ∧ tokens = [token]}

/-! ## Patterns as languages -/

/-- The phrases of a symbol are those of the right side of its production. -/
theorem phrases_eq (nonterminal : Nonterminal) :
    phrases nonterminal = (production nonterminal).language := by
  ext tokens
  constructor
  · rintro ⟨⟩
    assumption
  · exact .symbol

namespace Pattern

/-- The language of a symbol is that of its phrases. -/
@[simp] theorem language_symbol (nonterminal : Nonterminal) :
    (symbol nonterminal).language = phrases nonterminal := rfl

/-- The empty pattern has the empty list alone. -/
@[simp] theorem language_empty : empty.language = 1 := by
  ext tokens
  rw [Language.mem_one]
  constructor
  · rintro ⟨⟩
    rfl
  · rintro rfl
    exact .empty

/-- A token as a pattern has lists of one token. -/
@[simp] theorem language_token (kinds : List TokenKind) :
    (token kinds).language = tokenOf kinds := by
  ext tokens
  constructor
  · rintro ⟨⟩
    exact ⟨_, ‹_›, rfl⟩
  · rintro ⟨token, isKind, rfl⟩
    exact .token isKind

/-- Patterns one after the other have the product of their languages. -/
@[simp] theorem language_sequence (first second : Pattern) :
    (sequence first second).language = first.language * second.language := by
  ext tokens
  rw [Language.mem_mul]
  constructor
  · rintro ⟨⟩
    exact ⟨_, ‹_›, _, ‹_›, rfl⟩
  · rintro ⟨former, before, latter, behind, rfl⟩
    exact .sequence before behind

/-- Either of two patterns has the sum of their languages. -/
@[simp] theorem language_either (first second : Pattern) :
    (either first second).language = first.language + second.language := by
  ext tokens
  rw [Language.mem_add]
  constructor
  · intro isMatch
    cases isMatch with
    | former isFirst => exact .inl isFirst
    | latter isSecond => exact .inr isSecond
  · rintro (isFirst | isSecond)
    · exact .former isFirst
    · exact .latter isSecond

/-- A pattern that is repeated has the iteration of its language. -/
@[simp] theorem language_many (repeated : Pattern) :
    (many repeated).language = repeated.language∗ := by
  ext tokens
  rw [Language.mem_kstar]
  constructor
  · intro isMatch
    generalize isMany : many repeated = pattern at isMatch
    induction isMatch with
    | none => exact ⟨[], rfl, List.forall_mem_nil _⟩
    | more before behind _ inductionHypothesis =>
      obtain rfl := Pattern.many.inj isMany
      obtain ⟨parts, rfl, each⟩ := inductionHypothesis rfl
      exact ⟨_ :: parts, rfl, List.forall_mem_cons.mpr ⟨before, each⟩⟩
    | _ => cases isMany
  · rintro ⟨parts, rfl, each⟩
    induction parts with
    | nil => exact .none
    | cons part parts inductionHypothesis =>
      obtain ⟨isPart, areParts⟩ := List.forall_mem_cons.mp each
      exact .more isPart (inductionHypothesis areParts)

/-- Several patterns in turn have the product of their languages. -/
@[simp] theorem language_all (patterns : List Pattern) :
    (all patterns).language = (patterns.map language).prod := by
  induction patterns with
  | nil => exact language_empty
  | cons pattern patterns inductionHypothesis =>
    rw [List.map_cons, List.prod_cons, ← inductionHypothesis, ← language_sequence]
    rfl

/-- One of several patterns has the sum of their languages. -/
@[simp] theorem language_any (first : Pattern) (others : List Pattern) :
    (any first others).language = first.language + (others.map language).sum := by
  induction others generalizing first with
  | nil => exact (add_zero _).symm
  | cons other others inductionHypothesis =>
    rw [List.map_cons, List.sum_cons, ← add_assoc, ← language_either, ← inductionHypothesis]
    rfl

/-- A pattern that may be left out has the empty list, too. -/
@[simp] theorem language_optional (pattern : Pattern) :
    (optional pattern).language = 1 + pattern.language := by
  rw [optional, language_either, language_empty]

/-- Separated items are an item and an iteration of separators with items. -/
@[simp] theorem language_separated (kinds : List TokenKind) (item : Pattern) :
    (separated kinds item).language = item.language * (tokenOf kinds * item.language)∗ := by
  rw [separated, language_sequence, language_many, language_sequence, language_token]

end Pattern

/-- One token of the right kind is in the language of such tokens. -/
theorem mem_tokenOf {kinds : List TokenKind} {token : Token} (isKind : token.kind ∈ kinds) :
    [token] ∈ tokenOf kinds := ⟨token, isKind, rfl⟩

/-- A list begins with a token of some kinds if its first token is one, and goes on as it may behind
that. -/
@[simp] theorem cons_mem_tokenOf_mul {kinds : List TokenKind} {token : Token}
    {tokens : List Token} {rest : Language Token} :
    token :: tokens ∈ tokenOf kinds * rest ↔ token.kind ∈ kinds ∧ tokens ∈ rest := by
  rw [Language.mem_mul]
  constructor
  · rintro ⟨_, ⟨first, isKind, rfl⟩, behind, isRest, same⟩
    obtain ⟨rfl, rfl⟩ := List.cons.inj same
    exact ⟨isKind, isRest⟩
  · rintro ⟨isKind, isRest⟩
    exact ⟨[token], mem_tokenOf isKind, tokens, isRest, rfl⟩

/-- An iteration in front of something is either nothing or one more turn. -/
theorem star_mul_eq (repeated rest : Language Token) :
    repeated∗ * rest = rest + repeated * (repeated∗ * rest) := by
  rw [← mul_assoc, ← one_add_mul, Language.one_add_self_mul_kstar_eq_kstar]

/-! ## Productions as equations -/

/-- What is written as separated items is an item with further ones behind separators. -/
theorem phrases_separated {symbol item : Nonterminal} {kinds : List TokenKind}
    (same : production symbol = .separated kinds (.symbol item)) :
    phrases symbol = phrases item * (tokenOf kinds * phrases item)∗ := by
  rw [phrases_eq, same, Pattern.language_separated, Pattern.language_symbol]

/-- An expression is a disjunction, which may be assigned to. -/
theorem phrases_expression :
    phrases .expression = phrases .logicOr * (1 + tokenOf [.equal] * phrases .expression) := by
  have isAssignment : phrases .expression = phrases .assignment := phrases_eq .expression
  rw [isAssignment]
  exact (phrases_eq .assignment).trans (by simp [production])

/-- A unary expression has an operator in front of a unary expression, or is a call. -/
theorem phrases_unary :
    phrases .unary = tokenOf [.bang, .minus] * phrases .unary + phrases .call :=
  (phrases_eq .unary).trans (by simp [production])

/-- A call is a primary expression with any number of argument lists. -/
theorem phrases_call :
    phrases .call = phrases .primary *
      (tokenOf [.leftParen] * ((1 + phrases .arguments) * tokenOf [.rightParen]))∗ :=
  (phrases_eq .call).trans (by simp [production])

/-- A primary expression is a literal, an expression in parentheses, or a name. -/
theorem phrases_primary :
    phrases .primary = tokenOf [.number, .string, .keyTrue, .keyFalse, .keyNil] +
      (tokenOf [.leftParen] * (phrases .expression * tokenOf [.rightParen]) +
        tokenOf [.identifier]) :=
  (phrases_eq .primary).trans (by simp [production])

/-- Arguments are expressions with commas between them. -/
theorem phrases_arguments :
    phrases .arguments = phrases .expression * (tokenOf [.comma] * phrases .expression)∗ :=
  phrases_separated rfl

/-- An expression statement is an expression with a semicolon. -/
theorem phrases_expressionStatement :
    phrases .expressionStatement = phrases .expression * tokenOf [.semicolon] :=
  (phrases_eq .expressionStatement).trans (by simp [production])

/-- A variable declaration may have an initializer. -/
theorem phrases_variableDeclaration :
    phrases .variableDeclaration = tokenOf [.keyVar] * (tokenOf [.identifier] *
      ((1 + tokenOf [.equal] * phrases .expression) * tokenOf [.semicolon])) :=
  (phrases_eq .variableDeclaration).trans (by simp [production])

/-- A statement is one of seven forms. -/
theorem phrases_statement :
    phrases .statement = phrases .expressionStatement + (phrases .forStatement +
      (phrases .ifStatement + (phrases .printStatement + (phrases .returnStatement +
        (phrases .whileStatement + phrases .block))))) :=
  (phrases_eq .statement).trans (by simp [production])

/-- A for loop has three clauses, each of which may be absent, and a body. -/
theorem phrases_forStatement :
    phrases .forStatement = tokenOf [.keyFor] * (tokenOf [.leftParen] *
      ((tokenOf [.semicolon] + (phrases .variableDeclaration + phrases .expressionStatement)) *
        ((1 + phrases .expression) * (tokenOf [.semicolon] *
          ((1 + phrases .expression) * (tokenOf [.rightParen] * phrases .statement)))))) :=
  (phrases_eq .forStatement).trans (by simp [production])

/-- A conditional may have a second branch. -/
theorem phrases_ifStatement :
    phrases .ifStatement = tokenOf [.keyIf] * (tokenOf [.leftParen] * (phrases .expression *
      (tokenOf [.rightParen] * (phrases .statement *
        (1 + tokenOf [.keyElse] * phrases .statement))))) :=
  (phrases_eq .ifStatement).trans (by simp [production])

/-- A print statement is an expression between its keyword and a semicolon. -/
theorem phrases_printStatement :
    phrases .printStatement = tokenOf [.keyPrint] * (phrases .expression * tokenOf [.semicolon]) :=
  (phrases_eq .printStatement).trans (by simp [production])

/-- A return statement may have a value. -/
theorem phrases_returnStatement :
    phrases .returnStatement =
      tokenOf [.keyReturn] * ((1 + phrases .expression) * tokenOf [.semicolon]) :=
  (phrases_eq .returnStatement).trans (by simp [production])

/-- A while loop has a condition and a body. -/
theorem phrases_whileStatement :
    phrases .whileStatement = tokenOf [.keyWhile] * (tokenOf [.leftParen] * (phrases .expression *
      (tokenOf [.rightParen] * phrases .statement))) :=
  (phrases_eq .whileStatement).trans (by simp [production])

/-- A block is any number of declarations in braces. -/
theorem phrases_block :
    phrases .block =
      tokenOf [.leftBrace] * ((phrases .declaration)∗ * tokenOf [.rightBrace]) :=
  (phrases_eq .block).trans (by simp [production])

/-- A function has a name, parameters that may be absent, and a block. -/
theorem phrases_functionDeclaration :
    phrases .functionDeclaration = tokenOf [.keyFun] * (tokenOf [.identifier] *
      (tokenOf [.leftParen] * ((1 + phrases .parameters) * (tokenOf [.rightParen] *
        phrases .block)))) :=
  (phrases_eq .functionDeclaration).trans (by simp [production])

/-- Parameters are names with commas between them. -/
theorem phrases_parameters :
    phrases .parameters =
      tokenOf [.identifier] * (tokenOf [.comma] * tokenOf [.identifier])∗ :=
  (phrases_eq .parameters).trans (by simp [production])

/-- A program is any number of declarations and the end of the text. -/
theorem phrases_program :
    phrases .program = (phrases .declaration)∗ * tokenOf [.endOfFile] :=
  (phrases_eq .program).trans (by simp [production])

/-- A declaration is one of three forms. -/
theorem phrases_declaration :
    phrases .declaration = phrases .functionDeclaration +
      (phrases .variableDeclaration + phrases .statement) :=
  (phrases_eq .declaration).trans (by simp [production])

/-! ## Programs and their beginnings -/

/-- The pattern speaks neither of whole programs nor of the token that ends the text. -/
def Pattern.isInner : Pattern → Bool
  | empty => true
  | token kinds => .endOfFile ∉ kinds
  | symbol nonterminal => nonterminal ≠ .program
  | sequence first second => first.isInner && second.isInner
  | either first second => first.isInner && second.isInner
  | many repeated => repeated.isInner

/-- No symbol but that of programs has the end of the text in its production. -/
theorem isInner_production {nonterminal : Nonterminal} (isPart : nonterminal ≠ .program) :
    (production nonterminal).isInner = true := by
  cases nonterminal with
  | program => exact absurd rfl isPart
  | _ => rfl

/-- What an inner pattern matches does not hold the end of the text. -/
theorem Matches.noEnd {pattern : Pattern} {tokens : List Token} (isMatch : Matches pattern tokens)
    (isInner : pattern.isInner = true) : ∀ token ∈ tokens, token.kind ≠ .endOfFile := by
  induction isMatch with
  | empty => exact List.forall_mem_nil _
  | token isKind =>
    rw [List.forall_mem_singleton]
    rintro isEnd
    exact of_decide_eq_true isInner (isEnd ▸ isKind)
  | symbol _ inductionHypothesis =>
    exact inductionHypothesis (isInner_production (of_decide_eq_true isInner))
  | sequence _ _ beforeNoEnd behindNoEnd =>
    obtain ⟨isInner, isInnerToo⟩ := Bool.and_eq_true_iff.mp isInner
    exact List.forall_mem_append.mpr ⟨beforeNoEnd isInner, behindNoEnd isInnerToo⟩
  | former _ inductionHypothesis =>
    exact inductionHypothesis (Bool.and_eq_true_iff.mp isInner).1
  | latter _ inductionHypothesis =>
    exact inductionHypothesis (Bool.and_eq_true_iff.mp isInner).2
  | none => exact List.forall_mem_nil _
  | more _ _ beforeNoEnd behindNoEnd =>
    exact List.forall_mem_append.mpr ⟨beforeNoEnd isInner, behindNoEnd isInner⟩

/-- A program is a list of declarations and one token behind them that ends the text. -/
theorem mem_program_iff {tokens : List Token} :
    tokens ∈ phrases .program ↔ ∃ front last, tokens = front ++ [last] ∧
      front ∈ (phrases .declaration)∗ ∧ last.kind = .endOfFile := by
  rw [phrases_program, Language.mem_mul]
  constructor
  · rintro ⟨front, areDeclarations, _, ⟨last, isEnd, rfl⟩, rfl⟩
    exact ⟨front, last, rfl, areDeclarations, List.mem_singleton.mp isEnd⟩
  · rintro ⟨front, last, rfl, areDeclarations, isEnd⟩
    exact ⟨front, areDeclarations, [last], mem_tokenOf (List.mem_singleton.mpr isEnd), rfl⟩

/-- Declarations do not hold the end of the text. -/
theorem noEnd_of_declarations {tokens : List Token}
    (areDeclarations : tokens ∈ (phrases .declaration)∗) :
    ∀ token ∈ tokens, token.kind ≠ .endOfFile := by
  rw [← Pattern.language_symbol, ← Pattern.language_many] at areDeclarations
  exact Matches.noEnd areDeclarations rfl

/-- The tokens are the beginning of a program. -/
def Viable (tokens : List Token) : Prop := ∃ further, tokens ++ further ∈ phrases .program

/-- A program begins itself. -/
theorem viable_of_program {tokens : List Token} (isProgram : tokens ∈ phrases .program) :
    Viable tokens := ⟨[], by rwa [List.append_nil]⟩

/-- A list that does not come to the end of a text begins a program if it begins declarations. -/
theorem viable_iff {tokens : List Token} (noEnd : ∀ token ∈ tokens, token.kind ≠ .endOfFile) :
    Viable tokens ↔ ∃ further, tokens ++ further ∈ (phrases .declaration)∗ := by
  constructor
  · rintro ⟨further, isProgram⟩
    obtain ⟨front, last, same, areDeclarations, isEnd⟩ := mem_program_iff.mp isProgram
    obtain rfl | ⟨more, token, rfl⟩ := List.eq_nil_or_concat further
    · rw [List.append_nil] at same
      exact absurd isEnd (noEnd last (same ▸ List.mem_append_right _ (List.mem_singleton_self _)))
    · rw [List.concat_eq_append, ← List.append_assoc] at same
      obtain ⟨rfl, -⟩ := List.append_inj' same rfl
      exact ⟨more, areDeclarations⟩
  · rintro ⟨further, areDeclarations⟩
    exact ⟨further ++ [.endOfText 1],
      mem_program_iff.mpr ⟨_, _, (List.append_assoc _ _ _).symm, areDeclarations, rfl⟩⟩

/-- Nothing follows the token that ends a text. -/
theorem viable_concat_iff {tokens : List Token} {last : Token} (isEnd : last.kind = .endOfFile) :
    Viable (tokens ++ [last]) ↔ tokens ++ [last] ∈ phrases .program := by
  constructor
  · rintro ⟨further, isProgram⟩
    obtain ⟨front, token, same, areDeclarations, -⟩ := mem_program_iff.mp isProgram
    obtain rfl | ⟨more, token', rfl⟩ := List.eq_nil_or_concat further
    · rwa [List.append_nil] at isProgram
    · rw [List.concat_eq_append, ← List.append_assoc] at same
      obtain ⟨rfl, -⟩ := List.append_inj' same rfl
      exact absurd isEnd (noEnd_of_declarations areDeclarations last (by simp))
  · exact viable_of_program

/-- What begins the beginning of a program begins a program. -/
theorem Viable.of_append {tokens further : List Token} (viable : Viable (tokens ++ further)) :
    Viable tokens := by
  obtain ⟨behind, isProgram⟩ := viable
  exact ⟨further ++ behind, by rwa [← List.append_assoc]⟩

/-- The list is the beginning of a program up to this token and no longer with it. -/
structure StraysAt (tokens before : List Token) (token : Token) : Prop where
  isPrefix : before ++ [token] <+: tokens
  viable : Viable before
  strays : ¬ Viable (before ++ [token])

/-- A list that strays does not begin a program, however far it is read beyond the token. -/
theorem StraysAt.not_viable {tokens before : List Token} {token : Token}
    (strays : StraysAt tokens before token) : ¬ Viable tokens := by
  obtain ⟨behind, rfl⟩ := strays.isPrefix
  exact fun viable => strays.strays viable.of_append

/-- A list does not stray earlier than it does, as everything in front of the token begins a
program. -/
theorem StraysAt.length_le {tokens before before' : List Token} {token token' : Token}
    (strays : StraysAt tokens before token) (strays' : StraysAt tokens before' token') :
    before.length ≤ before'.length := by
  by_contra longer
  have shorter : before' ++ [token'] <+: before :=
    List.prefix_of_prefix_length_le strays'.isPrefix
      ((List.prefix_append before [token]).trans strays.isPrefix) (by simp; omega)
  obtain ⟨between, rfl⟩ := shorter
  exact strays'.strays strays.viable.of_append

/-- A list strays at one place only, the first. -/
theorem StraysAt.unique {tokens before before' : List Token} {token token' : Token}
    (strays : StraysAt tokens before token) (strays' : StraysAt tokens before' token') :
    before = before' ∧ token = token' := by
  have sameLength : before.length = before'.length :=
    Nat.le_antisymm (strays.length_le strays') (strays'.length_le strays)
  have isPrefix : before ++ [token] <+: before' ++ [token'] :=
    List.prefix_of_prefix_length_le strays.isPrefix strays'.isPrefix (by simp [sameLength])
  have same := isPrefix.eq_of_length (by simp [sameLength])
  obtain ⟨sameBefore, sameToken⟩ := List.append_inj same sameLength
  exact ⟨sameBefore, (List.cons.inj sameToken).1⟩

end LoxLang.Grammar
