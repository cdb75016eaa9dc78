import LoxLang.Syntax.Tree

/-!
# The grammar of programs

Which lists of tokens are expressions, statements and programs, and with which tree. The relations
here, rather than the rules that read tokens, are authoritative: they name no order of reading, no
lookahead and no limit on nesting.

`Phrase` derives expressions and `Sentence` statements. A level of binary operators derives its
own symbol on the left and the next tighter one on the right, so that its chains group to the
left. `Sentence` notes whether a statement is open, which is to say that a conditional at its end
has no alternative; the branch in front of an `else` must not be open, so that an `else` belongs
to the nearest conditional that has none.
-/

namespace LoxLang.Grammar

/-- The levels of binary operators, the loosest first. -/
inductive Binding where
  | logicOr | logicAnd | equality | comparison | term | factor
deriving DecidableEq, Repr

/-- The symbols of the grammar that derive expressions. -/
inductive Symbol where
  | assignment
  | binding (level : Binding)
  | unary
  | call
  | primary
deriving DecidableEq, Repr

namespace Binding

/-- The operators of a level. -/
def operators : Binding → List TokenKind
  | logicOr => [.keyOr]
  | logicAnd => [.keyAnd]
  | equality => [.bangEqual, .equalEqual]
  | comparison => [.greater, .greaterEqual, .less, .lessEqual]
  | term => [.minus, .plus]
  | factor => [.slash, .star]

/-- The tree of an operator of a level with its operands. -/
def node : Binding → Expr → Token → Expr → Expr
  | logicOr | logicAnd => .logical
  | equality | comparison | term | factor => .binary

/-- What the operators of a level stand between. -/
def operand : Binding → Symbol
  | logicOr => .binding logicAnd
  | logicAnd => .binding equality
  | equality => .binding comparison
  | comparison => .binding term
  | term => .binding factor
  | factor => .unary

end Binding

/-- Lists of tokens with a comma between each two of them, as one list. -/
inductive Separated : List (List Token) → List Token → Prop where
  | none : Separated [] []
  | last (item : List Token) : Separated [item] item
  | more (item : List Token) {comma : Token} {next : List Token} {items : List (List Token)}
      {tokens : List Token} (isComma : comma.kind = .comma)
      (further : Separated (next :: items) tokens) :
      Separated (item :: next :: items) (item ++ comma :: tokens)

/-- The most arguments that a call and parameters that a function may have. -/
def mostItems : Nat := 255

/-- The tokens are derived from the symbol, and this is the tree of the derivation. -/
inductive Phrase : Symbol → List Token → Expr → Prop where
  | assign {name equals : Token} {tokens : List Token} {value : Expr}
      (isName : name.kind = .identifier) (isEquals : equals.kind = .equal)
      (assigned : Phrase .assignment tokens value) :
      Phrase .assignment (name :: equals :: tokens) (.assign name value)
  | operations {tokens : List Token} {tree : Expr}
      (loosest : Phrase (.binding .logicOr) tokens tree) :
      Phrase .assignment tokens tree
  | operate {level : Binding} {lefts rights : List Token} {operator : Token} {left right : Expr}
      (former : Phrase (.binding level) lefts left) (isOperator : operator.kind ∈ level.operators)
      (latter : Phrase level.operand rights right) :
      Phrase (.binding level) (lefts ++ operator :: rights) (level.node left operator right)
  | operand {level : Binding} {tokens : List Token} {tree : Expr}
      (tighter : Phrase level.operand tokens tree) : Phrase (.binding level) tokens tree
  | unary {operator : Token} {tokens : List Token} {tree : Expr}
      (isOperator : operator.kind = .bang ∨ operator.kind = .minus)
      (operated : Phrase .unary tokens tree) :
      Phrase .unary (operator :: tokens) (.unary operator tree)
  | called {tokens : List Token} {tree : Expr} (tighter : Phrase .call tokens tree) :
      Phrase .unary tokens tree
  | call {callees : List Token} {callee : Expr} {opening closing : Token} {list : List Token}
      {arguments : List (List Token × Expr)}
      (before : Phrase .call callees callee) (opens : opening.kind = .leftParen)
      (listed : Separated (arguments.map (·.1)) list)
      (each : ∀ argument ∈ arguments, Phrase .assignment argument.1 argument.2)
      (notTooMany : arguments.length ≤ mostItems) (closes : closing.kind = .rightParen) :
      Phrase .call (callees ++ opening :: list ++ [closing])
        (.call callee closing (arguments.map (·.2)))
  | callee {tokens : List Token} {tree : Expr} (tighter : Phrase .primary tokens tree) :
      Phrase .call tokens tree
  | number {token : Token} (isNumber : token.kind = .number) :
      Phrase .primary [token] (.literal token.literal)
  | text {token : Token} (isText : token.kind = .string) :
      Phrase .primary [token] (.literal token.literal)
  | truth {token : Token} (isTrue : token.kind = .keyTrue) :
      Phrase .primary [token] (.literal (.bool true))
  | falsehood {token : Token} (isFalse : token.kind = .keyFalse) :
      Phrase .primary [token] (.literal (.bool false))
  | nil {token : Token} (isNil : token.kind = .keyNil) : Phrase .primary [token] (.literal .nil)
  | grouping {opening closing : Token} {tokens : List Token} {inner : Expr}
      (opens : opening.kind = .leftParen) (within : Phrase .assignment tokens inner)
      (closes : closing.kind = .rightParen) :
      Phrase .primary (opening :: tokens ++ [closing]) (.grouping inner)
  | name {token : Token} (isName : token.kind = .identifier) :
      Phrase .primary [token] (.reference token)

/-- An expression that may be left out. -/
inductive OptionalPhrase : List Token → Option Expr → Prop where
  | absent : OptionalPhrase [] none
  | present {tokens : List Token} {tree : Expr} (phrase : Phrase .assignment tokens tree) :
      OptionalPhrase tokens (some tree)

/-- An expression with the semicolon that makes it a statement. -/
inductive ExpressionStatement : List Token → Stmt → Prop where
  | intro {tokens : List Token} {value : Expr} {semicolon : Token}
      (phrase : Phrase .assignment tokens value) (ends : semicolon.kind = .semicolon) :
      ExpressionStatement (tokens ++ [semicolon]) (.expression value)

/-- The declaration of a variable. -/
inductive VariableDeclaration : List Token → Stmt → Prop where
  | bare {keyword name semicolon : Token} (isVar : keyword.kind = .keyVar)
      (isName : name.kind = .identifier) (ends : semicolon.kind = .semicolon) :
      VariableDeclaration [keyword, name, semicolon] (.var name none)
  | initialized {keyword name equals semicolon : Token} {tokens : List Token} {start : Expr}
      (isVar : keyword.kind = .keyVar) (isName : name.kind = .identifier)
      (isEquals : equals.kind = .equal) (phrase : Phrase .assignment tokens start)
      (ends : semicolon.kind = .semicolon) :
      VariableDeclaration (keyword :: name :: equals :: tokens ++ [semicolon])
        (.var name (some start))

/-- What stands first between the parentheses of a `for` loop. -/
inductive ForInitializer : List Token → Option Stmt → Prop where
  | absent {semicolon : Token} (ends : semicolon.kind = .semicolon) :
      ForInitializer [semicolon] none
  | declared {tokens : List Token} {start : Stmt} (declaration : VariableDeclaration tokens start) :
      ForInitializer tokens (some start)
  | evaluated {tokens : List Token} {start : Stmt} (statement : ExpressionStatement tokens start) :
      ForInitializer tokens (some start)

/-- Statements as one statement: in braces, unless there is only one. -/
def braced : List Stmt → Stmt
  | [only] => only
  | statements => .block statements

/-- `for (start; condition; increment) body` stands for
`{ start; while (condition) { body; increment; } }`. A missing condition is true, and other missing
clauses are left out. -/
def forTree (start : Option Stmt) (condition increment : Option Expr) (body : Stmt) : Stmt :=
  let turn := braced (body :: (increment.map .expression).toList)
  braced (start.toList ++ [.loop (condition.getD (.literal (.bool true))) turn])

/-- The symbols of the grammar that derive statements. -/
inductive Form where
  | declaration
  /-- A statement; it is open if a conditional at its end has no alternative. -/
  | statement (isOpen : Bool)
deriving DecidableEq, Repr

/-- The tokens are derived from the form, in a function body or outside of all, and this is the
tree of the derivation. -/
inductive Sentence : (inFunction : Bool) → Form → List Token → Stmt → Prop where
  | function {inFunction : Bool} {keyword name opening closing opensBody closesBody : Token}
      {parameters list : List Token} {body : List (List Token × Stmt)}
      (isFun : keyword.kind = .keyFun) (isName : name.kind = .identifier)
      (opens : opening.kind = .leftParen) (listed : Separated (parameters.map ([·])) list)
      (areNames : ∀ parameter ∈ parameters, parameter.kind = .identifier)
      (notTooMany : parameters.length ≤ mostItems) (closes : closing.kind = .rightParen)
      (bodyOpens : opensBody.kind = .leftBrace)
      (each : ∀ part ∈ body, Sentence true .declaration part.1 part.2)
      (bodyCloses : closesBody.kind = .rightBrace) :
      Sentence inFunction .declaration
        (keyword :: name :: opening :: list ++ closing :: opensBody :: (body.map (·.1)).flatten
          ++ [closesBody])
        (.function name parameters (body.map (·.2)))
  | var {inFunction : Bool} {tokens : List Token} {tree : Stmt}
      (declared : VariableDeclaration tokens tree) : Sentence inFunction .declaration tokens tree
  | statement {inFunction isOpen : Bool} {tokens : List Token} {tree : Stmt}
      (inner : Sentence inFunction (.statement isOpen) tokens tree) :
      Sentence inFunction .declaration tokens tree
  | expression {inFunction : Bool} {tokens : List Token} {tree : Stmt}
      (evaluated : ExpressionStatement tokens tree) :
      Sentence inFunction (.statement false) tokens tree
  | print {inFunction : Bool} {keyword semicolon : Token} {tokens : List Token} {value : Expr}
      (isPrint : keyword.kind = .keyPrint) (phrase : Phrase .assignment tokens value)
      (ends : semicolon.kind = .semicolon) :
      Sentence inFunction (.statement false) (keyword :: tokens ++ [semicolon]) (.print value)
  | ret {keyword semicolon : Token} {tokens : List Token} {value : Option Expr}
      (isReturn : keyword.kind = .keyReturn) (phrase : OptionalPhrase tokens value)
      (ends : semicolon.kind = .semicolon) :
      Sentence true (.statement false) (keyword :: tokens ++ [semicolon]) (.ret keyword value)
  | block {inFunction : Bool} {opening closing : Token} {parts : List (List Token × Stmt)}
      (opens : opening.kind = .leftBrace)
      (each : ∀ part ∈ parts, Sentence inFunction .declaration part.1 part.2)
      (closes : closing.kind = .rightBrace) :
      Sentence inFunction (.statement false)
        (opening :: (parts.map (·.1)).flatten ++ [closing]) (.block (parts.map (·.2)))
  | loop {inFunction isOpen : Bool} {keyword opening closing : Token}
      {conditions bodies : List Token} {condition : Expr} {body : Stmt}
      (isWhile : keyword.kind = .keyWhile) (opens : opening.kind = .leftParen)
      (tested : Phrase .assignment conditions condition) (closes : closing.kind = .rightParen)
      (repeats : Sentence inFunction (.statement isOpen) bodies body) :
      Sentence inFunction (.statement isOpen)
        (keyword :: opening :: conditions ++ closing :: bodies) (.loop condition body)
  | forLoop {inFunction isOpen : Bool} {keyword opening semicolon closing : Token}
      {starts conditions increments bodies : List Token} {start : Option Stmt}
      {condition increment : Option Expr} {body : Stmt}
      (isFor : keyword.kind = .keyFor) (opens : opening.kind = .leftParen)
      (initializes : ForInitializer starts start) (tested : OptionalPhrase conditions condition)
      (ends : semicolon.kind = .semicolon) (increases : OptionalPhrase increments increment)
      (closes : closing.kind = .rightParen)
      (repeats : Sentence inFunction (.statement isOpen) bodies body) :
      Sentence inFunction (.statement isOpen)
        (keyword :: opening :: starts ++ conditions ++ semicolon :: increments
          ++ closing :: bodies)
        (forTree start condition increment body)
  | ifThen {inFunction isOpen : Bool} {keyword opening closing : Token}
      {conditions consequents : List Token} {condition : Expr} {consequent : Stmt}
      (isIf : keyword.kind = .keyIf) (opens : opening.kind = .leftParen)
      (tested : Phrase .assignment conditions condition) (closes : closing.kind = .rightParen)
      (chosen : Sentence inFunction (.statement isOpen) consequents consequent) :
      Sentence inFunction (.statement true)
        (keyword :: opening :: conditions ++ closing :: consequents)
        (.conditional condition consequent none)
  | ifElse {inFunction isOpen : Bool} {keyword opening closing otherwise : Token}
      {conditions consequents alternatives : List Token} {condition : Expr}
      {consequent alternative : Stmt}
      (isIf : keyword.kind = .keyIf) (opens : opening.kind = .leftParen)
      (tested : Phrase .assignment conditions condition) (closes : closing.kind = .rightParen)
      (chosen : Sentence inFunction (.statement false) consequents consequent)
      (isElse : otherwise.kind = .keyElse)
      (refused : Sentence inFunction (.statement isOpen) alternatives alternative) :
      Sentence inFunction (.statement isOpen)
        (keyword :: opening :: conditions ++ closing :: consequents ++ otherwise :: alternatives)
        (.conditional condition consequent (some alternative))

/-- The tokens, without the one that ends the text, are a program with these statements. -/
inductive Derives : List Token → List Stmt → Prop where
  | intro {parts : List (List Token × Stmt)}
      (each : ∀ part ∈ parts, Sentence false .declaration part.1 part.2) :
      Derives (parts.map (·.1)).flatten (parts.map (·.2))

end LoxLang.Grammar
