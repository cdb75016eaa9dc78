import Mathlib.Algebra.Group.Int.Defs
import LoxLang.Proofs.Json.Text
import LoxLang.Proofs.Syntax.Tokens
import LoxLang.Syntax.Exchange

/-!
# The documents of trees

The document of a tree is readable: the members of a node have distinct names, and the only whole
numbers in it are the lines of its tokens, so that it is enough that these have few digits.
-/

namespace LoxLang

open Json

/-- The line of a token has no more digits than are read. -/
def Token.LineIsReadable (token : Token) : Prop :=
  (Number.digits token.line.natAbs).length ≤ digitLimit

/-- The document of a literal is readable. -/
theorem Literal.readable_toJson (literal : Literal) : literal.toJson.Readable := by
  cases literal with
  | nil => exact .null
  | bool value => exact .bool value
  | number value => exact .number value
  | text value => exact .string value

/-- The document of a token is readable if its line is. -/
theorem Token.readable_toJson {token : Token} (short : token.LineIsReadable) :
    token.toJson.Readable := by
  refine .object (by simp) ?_
  simp only [List.forall_mem_cons]
  exact ⟨.string _, .string _, .string _, token.literal.readable_toJson, .integer short, nofun⟩

namespace Node

/-- Members of distinct names, none of which is `type`, make up a readable object. -/
private theorem readable_objectOf {kind : NodeKind} {fields : List (String × Json)}
    (distinct : ("type" :: fields.map Prod.fst).Nodup)
    (readable : ∀ field ∈ fields, field.2.Readable) : (objectOf kind fields).Readable :=
  .object distinct (List.forall_mem_cons.mpr ⟨.string _, readable⟩)

end Node

mutual

/-- The document of an expression is readable. -/
theorem Expr.readable_toJson (expr : Expr) (short : ∀ token ∈ expr.tokens, token.LineIsReadable) :
    expr.toNode.toJson.Readable := by
  cases expr with
  | literal value =>
    exact Node.readable_objectOf (by simp) (by simp [value.readable_toJson])
  | reference name =>
    have isName := Token.readable_toJson (short name List.mem_cons_self)
    exact Node.readable_objectOf (by simp) (by simp [isName])
  | assign name value =>
    obtain ⟨shortName, shortValue⟩ := List.forall_mem_cons.mp short
    have isName := Token.readable_toJson shortName
    have isValue := Expr.readable_toJson value shortValue
    exact Node.readable_objectOf (by simp) (by simp [isName, isValue])
  | binary left operator right | logical left operator right =>
    obtain ⟨shortOperator, shortOperands⟩ := List.forall_mem_cons.mp short
    obtain ⟨shortLeft, shortRight⟩ := List.forall_mem_append.mp shortOperands
    have isOperator := Token.readable_toJson shortOperator
    have isLeft := Expr.readable_toJson left shortLeft
    have isRight := Expr.readable_toJson right shortRight
    exact Node.readable_objectOf (by simp) (by simp [isOperator, isLeft, isRight])
  | unary operator right =>
    obtain ⟨shortOperator, shortRight⟩ := List.forall_mem_cons.mp short
    have isOperator := Token.readable_toJson shortOperator
    have isRight := Expr.readable_toJson right shortRight
    exact Node.readable_objectOf (by simp) (by simp [isOperator, isRight])
  | grouping inner =>
    have isInner := Expr.readable_toJson inner short
    exact Node.readable_objectOf (by simp) (by simp [isInner])
  | call callee paren arguments =>
    obtain ⟨shortParen, shortParts⟩ := List.forall_mem_cons.mp short
    obtain ⟨shortCallee, shortArguments⟩ := List.forall_mem_append.mp shortParts
    have isParen := Token.readable_toJson shortParen
    have isCallee := Expr.readable_toJson callee shortCallee
    have areArguments := Readable.array (Expr.readable_toJsons arguments shortArguments)
    exact Node.readable_objectOf (by simp) (by simp [isParen, isCallee, areArguments])
  | unexpected kind => exact .null

/-- The documents of expressions are readable. -/
theorem Expr.readable_toJsons (exprs : List Expr)
    (short : ∀ token ∈ Expr.allTokens exprs, token.LineIsReadable) :
    ∀ document ∈ Node.toJsons (Expr.toNodes exprs), document.Readable := by
  cases exprs with
  | nil => exact nofun
  | cons expr exprs =>
    obtain ⟨shortFirst, shortRest⟩ := List.forall_mem_append.mp short
    exact List.forall_mem_cons.mpr
      ⟨Expr.readable_toJson expr shortFirst, Expr.readable_toJsons exprs shortRest⟩

end

/-- The document of an expression that may be absent is readable. -/
theorem Expr.readable_optionNode (option : Option Expr)
    (short : ∀ token ∈ Expr.optionalTokens option, token.LineIsReadable) :
    (Expr.optionNode option).toJson.Readable := by
  cases option with
  | none => exact .null
  | some expr => exact Expr.readable_toJson expr short

mutual

/-- The document of a statement is readable. -/
theorem Stmt.readable_toJson (stmt : Stmt) (short : ∀ token ∈ stmt.tokens, token.LineIsReadable) :
    stmt.toNode.toJson.Readable := by
  cases stmt with
  | expression value | print value =>
    have isValue := Expr.readable_toJson value short
    exact Node.readable_objectOf (by simp) (by simp [isValue])
  | var name start =>
    obtain ⟨shortName, shortStart⟩ := List.forall_mem_cons.mp short
    have isName := Token.readable_toJson shortName
    have isStart := Expr.readable_optionNode start shortStart
    exact Node.readable_objectOf (by simp) (by simp [isName, isStart])
  | block statements =>
    have areStatements := Readable.array (Stmt.readable_toJsons statements short)
    exact Node.readable_objectOf (by simp) (by simp [areStatements])
  | conditional condition consequent alternative =>
    obtain ⟨shortParts, shortAlternative⟩ := List.forall_mem_append.mp short
    obtain ⟨shortCondition, shortConsequent⟩ := List.forall_mem_append.mp shortParts
    have isCondition := Expr.readable_toJson condition shortCondition
    have isConsequent := Stmt.readable_toJson consequent shortConsequent
    have isAlternative : (Stmt.optionNode alternative).toJson.Readable := by
      cases alternative with
      | none => exact .null
      | some alternative => exact Stmt.readable_toJson alternative shortAlternative
    exact Node.readable_objectOf (by simp) (by simp [isCondition, isConsequent, isAlternative])
  | loop condition body =>
    obtain ⟨shortCondition, shortBody⟩ := List.forall_mem_append.mp short
    have isCondition := Expr.readable_toJson condition shortCondition
    have isBody := Stmt.readable_toJson body shortBody
    exact Node.readable_objectOf (by simp) (by simp [isCondition, isBody])
  | function name parameters body =>
    obtain ⟨shortName, shortParts⟩ := List.forall_mem_cons.mp short
    obtain ⟨shortParameters, shortBody⟩ := List.forall_mem_append.mp shortParts
    have isName := Token.readable_toJson shortName
    have areParameters : (Json.array (parameters.map Token.toJson)).Readable :=
      .array (List.forall_mem_map.mpr fun parameter isIn =>
        Token.readable_toJson (shortParameters parameter isIn))
    have areStatements := Readable.array (Stmt.readable_toJsons body shortBody)
    exact Node.readable_objectOf (by simp) (by simp [isName, areParameters, areStatements])
  | ret keyword value =>
    obtain ⟨shortKeyword, shortValue⟩ := List.forall_mem_cons.mp short
    have isKeyword := Token.readable_toJson shortKeyword
    have isValue := Expr.readable_optionNode value shortValue
    exact Node.readable_objectOf (by simp) (by simp [isKeyword, isValue])
  | unexpected kind => exact .null

/-- The documents of statements are readable. -/
theorem Stmt.readable_toJsons (stmts : List Stmt)
    (short : ∀ token ∈ Stmt.allTokens stmts, token.LineIsReadable) :
    ∀ document ∈ Node.toJsons (Stmt.toNodes stmts), document.Readable := by
  cases stmts with
  | nil => exact nofun
  | cons stmt stmts =>
    obtain ⟨shortFirst, shortRest⟩ := List.forall_mem_append.mp short
    exact List.forall_mem_cons.mpr
      ⟨Stmt.readable_toJson stmt shortFirst, Stmt.readable_toJsons stmts shortRest⟩

end

/-- The document of a program is readable. -/
theorem Node.readable_ofProgram {stmts : List Stmt}
    (short : ∀ token ∈ Stmt.allTokens stmts, token.LineIsReadable) :
    (Node.ofProgram stmts).toJson.Readable :=
  .array (Stmt.readable_toJsons stmts short)

/-- If the number of the last line is not longer than the whole numbers that are read, then neither
is that of any line. -/
theorem Program.lineIsReadable_of_mem_allTokens {limit : Nat} {text : String}
    (clean : (Program.ofSource limit text).isClean = true)
    (fewLines : (Source.scan text).endLine < (10 : Int) ^ digitLimit) {token : Token}
    (isIn : token ∈ Stmt.allTokens (Program.ofSource limit text).statements) :
    token.LineIsReadable := by
  obtain ⟨least, most⟩ := Program.line_of_mem_allTokens clean isIn
  have short : token.line.natAbs < 10 ^ digitLimit := by
    have isBound : ((10 ^ digitLimit : Nat) : Int) = (10 : Int) ^ digitLimit := Int.natCast_pow 10 _
    generalize 10 ^ digitLimit = bound at fewLines isBound ⊢
    omega
  exact (Nat.length_toDigits_le_iff (by decide) (by decide)).mpr short

end LoxLang
