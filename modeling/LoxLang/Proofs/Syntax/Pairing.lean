import Mathlib.Data.List.Forall2
import LoxLang.Proofs.Syntax.Tokens

/-!
# Trees that differ in their lines

The layout of a text shows in the lines of its tokens and nowhere else. A `Pairing` says which token
stands for which other one, and so which trees, errors and diagnostics stand for which other ones.
Under the equality of tokens these are the same trees and errors.
-/

namespace LoxLang

open Grammar

/-- The tokens differ in their lines at most. -/
def Token.SameButLine (token other : Token) : Prop := other = { token with line := other.line }

namespace Token.SameButLine

variable {token other : Token}

/-- Tokens that differ in their lines alone are of one kind. -/
protected theorem kind (same : token.SameButLine other) : other.kind = token.kind := by
  unfold SameButLine at same
  rw [same]

/-- Tokens that differ in their lines alone have one lexeme. -/
protected theorem lexeme (same : token.SameButLine other) : other.lexeme = token.lexeme := by
  unfold SameButLine at same
  rw [same]

/-- Tokens that differ in their lines alone have one literal. -/
protected theorem literal (same : token.SameButLine other) : other.literal = token.literal := by
  unfold SameButLine at same
  rw [same]

end Token.SameButLine

/-- The token on a line that is further on. -/
def Token.moved (token : Token) (lines : Int) : Token := { token with line := token.line + lines }

/-- A token that is moved differs in its line alone. -/
theorem Token.sameButLine_moved (token : Token) (lines : Int) :
    token.SameButLine (token.moved lines) := rfl

/-- Which tokens stand for which other ones. Two such tokens differ in their lines at most. -/
structure Pairing where
  Pairs : Token → Token → Prop
  sameButLine : ∀ {token other}, Pairs token other → token.SameButLine other

namespace Pairing

section Relations

variable (pairing : Pairing)

/-- The expressions are built alike over tokens that stand for each other. -/
inductive OnExpr : Expr → Expr → Prop where
  | literal (value : Literal) : OnExpr (.literal value) (.literal value)
  | reference {name other : Token} (names : pairing.Pairs name other) :
      OnExpr (.reference name) (.reference other)
  | assign {name other : Token} {value otherValue : Expr} (names : pairing.Pairs name other)
      (values : OnExpr value otherValue) : OnExpr (.assign name value) (.assign other otherValue)
  | binary {left right otherLeft otherRight : Expr} {operator other : Token}
      (lefts : OnExpr left otherLeft) (operators : pairing.Pairs operator other)
      (rights : OnExpr right otherRight) :
      OnExpr (.binary left operator right) (.binary otherLeft other otherRight)
  | logical {left right otherLeft otherRight : Expr} {operator other : Token}
      (lefts : OnExpr left otherLeft) (operators : pairing.Pairs operator other)
      (rights : OnExpr right otherRight) :
      OnExpr (.logical left operator right) (.logical otherLeft other otherRight)
  | unary {operator other : Token} {right otherRight : Expr}
      (operators : pairing.Pairs operator other) (rights : OnExpr right otherRight) :
      OnExpr (.unary operator right) (.unary other otherRight)
  | grouping {inner other : Expr} (inners : OnExpr inner other) :
      OnExpr (.grouping inner) (.grouping other)
  | call {callee otherCallee : Expr} {paren other : Token} {arguments otherArguments : List Expr}
      (callees : OnExpr callee otherCallee) (parens : pairing.Pairs paren other)
      (all : List.Forall₂ OnExpr arguments otherArguments) :
      OnExpr (.call callee paren arguments) (.call otherCallee other otherArguments)
  | unexpected (kind : NodeKind) : OnExpr (.unexpected kind) (.unexpected kind)

/-- The statements are built alike over tokens that stand for each other. -/
inductive OnStmt : Stmt → Stmt → Prop where
  | expression {value other : Expr} (values : pairing.OnExpr value other) :
      OnStmt (.expression value) (.expression other)
  | print {value other : Expr} (values : pairing.OnExpr value other) :
      OnStmt (.print value) (.print other)
  | var {name other : Token} {start otherStart : Option Expr} (names : pairing.Pairs name other)
      (starts : Option.Rel pairing.OnExpr start otherStart) :
      OnStmt (.var name start) (.var other otherStart)
  | block {statements others : List Stmt} (all : List.Forall₂ OnStmt statements others) :
      OnStmt (.block statements) (.block others)
  | conditional {condition otherCondition : Expr} {consequent otherConsequent : Stmt}
      {alternative otherAlternative : Option Stmt}
      (conditions : pairing.OnExpr condition otherCondition)
      (consequents : OnStmt consequent otherConsequent)
      (alternatives : Option.Rel OnStmt alternative otherAlternative) :
      OnStmt (.conditional condition consequent alternative)
        (.conditional otherCondition otherConsequent otherAlternative)
  | loop {condition otherCondition : Expr} {body otherBody : Stmt}
      (conditions : pairing.OnExpr condition otherCondition) (bodies : OnStmt body otherBody) :
      OnStmt (.loop condition body) (.loop otherCondition otherBody)
  | function {name other : Token} {parameters otherParameters : List Token}
      {body otherBody : List Stmt} (names : pairing.Pairs name other)
      (all : List.Forall₂ pairing.Pairs parameters otherParameters)
      (bodies : List.Forall₂ OnStmt body otherBody) :
      OnStmt (.function name parameters body) (.function other otherParameters otherBody)
  | ret {keyword other : Token} {value otherValue : Option Expr}
      (keywords : pairing.Pairs keyword other)
      (values : Option.Rel pairing.OnExpr value otherValue) :
      OnStmt (.ret keyword value) (.ret other otherValue)
  | unexpected (kind : NodeKind) : OnStmt (.unexpected kind) (.unexpected kind)

/-- The same problem, reported at tokens that stand for each other. -/
inductive OnError : SyntaxError → SyntaxError → Prop where
  | atToken (problem : Problem) {token other : Token} (tokens : pairing.Pairs token other) :
      OnError (.atToken problem token) (.atToken problem other)

/-- The same report, with the lines of tokens that stand for each other. -/
inductive OnDiagnostic : Diagnostic → Diagnostic → Prop where
  | onLine (phase : Phase) (message place : String) {token other : Token}
      (tokens : pairing.Pairs token other) :
      OnDiagnostic ⟨phase, token.line, message, place⟩ ⟨phase, other.line, message, place⟩

end Relations

section Tokens

variable {pairing : Pairing} {token other : Token}

/-- Tokens that stand for each other are of one kind. -/
theorem kind_eq (pairs : pairing.Pairs token other) : other.kind = token.kind :=
  (pairing.sameButLine pairs).kind

/-- Tokens that stand for each other have one lexeme. -/
theorem lexeme_eq (pairs : pairing.Pairs token other) : other.lexeme = token.lexeme :=
  (pairing.sameButLine pairs).lexeme

/-- Tokens that stand for each other have one literal. -/
theorem literal_eq (pairs : pairing.Pairs token other) : other.literal = token.literal :=
  (pairing.sameButLine pairs).literal

/-- Tokens that stand for each other are named alike in reports. -/
theorem place_eq (pairs : pairing.Pairs token other) : other.place = token.place := by
  rw [Token.place, Token.place, kind_eq pairs, lexeme_eq pairs]

/-- Errors that stand for each other are reported alike, but for the line. -/
theorem OnError.diagnostic {error otherError : SyntaxError}
    (errors : pairing.OnError error otherError) :
    pairing.OnDiagnostic error.diagnostic otherError.diagnostic := by
  obtain ⟨problem, tokens⟩ := errors
  simp only [SyntaxError.diagnostic, SyntaxError.atToken, place_eq tokens]
  exact .onLine _ _ _ tokens

end Tokens

/-! ## Every tree stands for itself -/

section Reflexivity

variable {pairing : Pairing}

mutual

/-- An expression stands for itself if its tokens do. -/
theorem onExpr_self : ∀ expr : Expr, (∀ token ∈ expr.tokens, pairing.Pairs token token) →
    pairing.OnExpr expr expr
  | .literal value, _ => .literal value
  | .reference _, own => .reference (own _ (List.mem_singleton_self _))
  | .assign _ value, own =>
    have ⟨isName, inValue⟩ := List.forall_mem_cons.mp own
    .assign isName (onExpr_self value inValue)
  | .binary left _ right, own =>
    have ⟨isOperator, inOperands⟩ := List.forall_mem_cons.mp own
    have ⟨inLeft, inRight⟩ := List.forall_mem_append.mp inOperands
    .binary (onExpr_self left inLeft) isOperator (onExpr_self right inRight)
  | .logical left _ right, own =>
    have ⟨isOperator, inOperands⟩ := List.forall_mem_cons.mp own
    have ⟨inLeft, inRight⟩ := List.forall_mem_append.mp inOperands
    .logical (onExpr_self left inLeft) isOperator (onExpr_self right inRight)
  | .unary _ right, own =>
    have ⟨isOperator, inRight⟩ := List.forall_mem_cons.mp own
    .unary isOperator (onExpr_self right inRight)
  | .grouping inner, own => .grouping (onExpr_self inner own)
  | .call callee _ arguments, own =>
    have ⟨isParen, inParts⟩ := List.forall_mem_cons.mp own
    have ⟨inCallee, inArguments⟩ := List.forall_mem_append.mp inParts
    .call (onExpr_self callee inCallee) isParen (onExprs_self arguments inArguments)
  | .unexpected kind, _ => .unexpected kind

/-- Expressions stand for themselves if all their tokens do. -/
theorem onExprs_self : ∀ exprs : List Expr,
    (∀ token ∈ Expr.allTokens exprs, pairing.Pairs token token) →
    List.Forall₂ pairing.OnExpr exprs exprs
  | [], _ => .nil
  | expr :: exprs, own =>
    have ⟨inFirst, inFurther⟩ := List.forall_mem_append.mp own
    .cons (onExpr_self expr inFirst) (onExprs_self exprs inFurther)

end

/-- An expression that may be absent stands for itself if its tokens do. -/
theorem onOptionalExpr_self : ∀ expr : Option Expr,
    (∀ token ∈ Expr.optionalTokens expr, pairing.Pairs token token) →
    Option.Rel pairing.OnExpr expr expr
  | none, _ => .none
  | some expr, own => .some (onExpr_self expr own)

mutual

/-- A statement stands for itself if its tokens do. -/
theorem onStmt_self : ∀ stmt : Stmt, (∀ token ∈ stmt.tokens, pairing.Pairs token token) →
    pairing.OnStmt stmt stmt
  | .expression value, own => .expression (onExpr_self value own)
  | .print value, own => .print (onExpr_self value own)
  | .var _ start, own =>
    have ⟨isName, inStart⟩ := List.forall_mem_cons.mp own
    .var isName (onOptionalExpr_self start inStart)
  | .block statements, own => .block (onStmts_self statements own)
  | .conditional condition consequent none, own =>
    have ⟨inParts, _⟩ := List.forall_mem_append.mp own
    have ⟨inCondition, inConsequent⟩ := List.forall_mem_append.mp inParts
    .conditional (onExpr_self condition inCondition) (onStmt_self consequent inConsequent) .none
  | .conditional condition consequent (some alternative), own =>
    have ⟨inParts, inAlternative⟩ := List.forall_mem_append.mp own
    have ⟨inCondition, inConsequent⟩ := List.forall_mem_append.mp inParts
    .conditional (onExpr_self condition inCondition) (onStmt_self consequent inConsequent)
      (.some (onStmt_self alternative inAlternative))
  | .loop condition body, own =>
    have ⟨inCondition, inBody⟩ := List.forall_mem_append.mp own
    .loop (onExpr_self condition inCondition) (onStmt_self body inBody)
  | .function _ _ body, own =>
    have ⟨isName, inParts⟩ := List.forall_mem_cons.mp own
    have ⟨areParameters, inBody⟩ := List.forall_mem_append.mp inParts
    .function isName (List.forall₂_same.mpr areParameters) (onStmts_self body inBody)
  | .ret _ value, own =>
    have ⟨isKeyword, inValue⟩ := List.forall_mem_cons.mp own
    .ret isKeyword (onOptionalExpr_self value inValue)
  | .unexpected kind, _ => .unexpected kind

/-- Statements stand for themselves if all their tokens do. -/
theorem onStmts_self : ∀ stmts : List Stmt,
    (∀ token ∈ Stmt.allTokens stmts, pairing.Pairs token token) →
    List.Forall₂ pairing.OnStmt stmts stmts
  | [], _ => .nil
  | stmt :: stmts, own =>
    have ⟨inFirst, inFurther⟩ := List.forall_mem_append.mp own
    .cons (onStmt_self stmt inFirst) (onStmts_self stmts inFurther)

end

end Reflexivity

/-! ## Equality -/

/-- Every token stands for itself alone. -/
def equality : Pairing where
  Pairs token other := other = token
  sameButLine := by
    rintro token _ rfl
    rfl

mutual

/-- Where every token stands for itself alone, so does every expression. -/
theorem eq_of_onExpr : ∀ {expr other : Expr}, equality.OnExpr expr other → other = expr
  | _, _, .literal _ => rfl
  | _, _, .reference names => by rw [show _ = _ from names]
  | _, _, .assign names values => by rw [show _ = _ from names, eq_of_onExpr values]
  | _, _, .binary lefts operators rights => by
    rw [show _ = _ from operators, eq_of_onExpr lefts, eq_of_onExpr rights]
  | _, _, .logical lefts operators rights => by
    rw [show _ = _ from operators, eq_of_onExpr lefts, eq_of_onExpr rights]
  | _, _, .unary operators rights => by rw [show _ = _ from operators, eq_of_onExpr rights]
  | _, _, .grouping inners => by rw [eq_of_onExpr inners]
  | _, _, .call callees parens all => by
    rw [show _ = _ from parens, eq_of_onExpr callees, eq_of_onExprs all]
  | _, _, .unexpected _ => rfl

/-- Expressions over the same tokens are the same. -/
theorem eq_of_onExprs : ∀ {exprs others : List Expr},
    List.Forall₂ equality.OnExpr exprs others → others = exprs
  | _, _, .nil => rfl
  | _, _, .cons first further => by rw [eq_of_onExpr first, eq_of_onExprs further]

end

/-- Expressions that may be absent, over the same tokens, are the same. -/
theorem eq_of_onOptionalExpr : ∀ {expr other : Option Expr},
    Option.Rel equality.OnExpr expr other → other = expr
  | _, _, .none => rfl
  | _, _, .some found => by rw [eq_of_onExpr found]

/-- Lists are the same if their items are. -/
theorem eq_of_forall₂ {α : Type} {relation : α → α → Prop}
    (same : ∀ item other, relation item other → other = item) {items others : List α}
    (all : List.Forall₂ relation items others) : others = items := by
  have equal : List.Forall₂ Eq items others := all.imp fun item other related =>
    (same item other related).symm
  exact (List.forall₂_eq_eq_eq ▸ equal : items = others).symm

/-- Tokens that are paired by equality are the same. -/
theorem eq_of_pairs {tokens others : List Token}
    (all : List.Forall₂ equality.Pairs tokens others) : others = tokens :=
  eq_of_forall₂ (fun _ _ same => same) all

mutual

/-- Statements over the same tokens are the same. -/
theorem eq_of_onStmt : ∀ {stmt other : Stmt}, equality.OnStmt stmt other → other = stmt
  | _, _, .expression values => by rw [eq_of_onExpr values]
  | _, _, .print values => by rw [eq_of_onExpr values]
  | _, _, .var names starts => by rw [show _ = _ from names, eq_of_onOptionalExpr starts]
  | _, _, .block all => by rw [eq_of_onStmts all]
  | _, _, .conditional conditions consequents .none => by
    rw [eq_of_onExpr conditions, eq_of_onStmt consequents]
  | _, _, .conditional conditions consequents (.some alternatives) => by
    rw [eq_of_onExpr conditions, eq_of_onStmt consequents, eq_of_onStmt alternatives]
  | _, _, .loop conditions bodies => by rw [eq_of_onExpr conditions, eq_of_onStmt bodies]
  | _, _, .function names all bodies => by
    rw [show _ = _ from names, eq_of_pairs all, eq_of_onStmts bodies]
  | _, _, .ret keywords values => by rw [show _ = _ from keywords, eq_of_onOptionalExpr values]
  | _, _, .unexpected _ => rfl

/-- Lists of statements over the same tokens are the same. -/
theorem eq_of_onStmts : ∀ {stmts others : List Stmt},
    List.Forall₂ equality.OnStmt stmts others → others = stmts
  | _, _, .nil => rfl
  | _, _, .cons first further => by rw [eq_of_onStmt first, eq_of_onStmts further]

end

/-- Errors at the same tokens are the same. -/
theorem eq_of_onError {error other : SyntaxError} (errors : equality.OnError error other) :
    other = error := by
  obtain ⟨problem, tokens⟩ := errors
  rw [show _ = _ from tokens]

end Pairing
end LoxLang
