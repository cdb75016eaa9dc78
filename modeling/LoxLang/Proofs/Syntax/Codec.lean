import Mathlib
import LoxLang.Proofs.Grammar.Yield
import LoxLang.Proofs.Syntax.RoundTrip
import LoxLang.Syntax.Agreement

/-!
# Trees and their documents

A tree is read back from its document as it was: with its tokens, the lines they stand on and the
values they denote, and with the type of every literal. Different trees therefore have different
documents. The tree that is read back also agrees with the one that was written, unless there is a
number in it that is none, since such a number does not even agree with itself.
-/

namespace LoxLang

/-! ## Agreement of a tree with itself -/

/-- The literal is no number, or it is a number that is one. -/
def Literal.Comparable (literal : Literal) : Prop :=
  ∀ number, literal = .number number → number.isNaN = false

/-- A literal that can be compared agrees with itself. -/
theorem Literal.agrees_self {literal : Literal} (comparable : literal.Comparable) :
    literal.agrees literal = true := by
  cases literal with
  | nil => rfl
  | bool value => exact beq_self_eq_true value
  | number value =>
    have isNumber := comparable value rfl
    rw [Float.isNaN_eq_decide_eq_nan] at isNumber
    exact Float.beq_self_iff.mpr (of_decide_eq_false isNumber)
  | text value => exact beq_self_eq_true value

/-- A token whose literal can be compared agrees with itself. -/
theorem Token.agrees_self {token : Token} (comparable : token.literal.Comparable) :
    token.agrees token = true := by
  simp [Token.agrees, Literal.agrees_self comparable]

/-- Tokens whose literals can be compared agree with themselves. -/
theorem Token.allAgree_self {tokens : List Token}
    (comparable : ∀ token ∈ tokens, token.literal.Comparable) :
    Token.allAgree tokens tokens = true := by
  induction tokens with
  | nil => rfl
  | cons token tokens inductionHypothesis =>
    obtain ⟨first, rest⟩ := List.forall_mem_cons.mp comparable
    rw [Token.allAgree, Token.agrees_self first, inductionHypothesis rest]
    rfl

namespace Node

mutual

/-- The literals of a node, those of its tokens included. -/
def literals : Node → List Literal
  | absent => []
  | list items => allLiterals items
  | token value => [value.literal]
  | literal value => [value]
  | reference name => [name.literal]
  | assign name value => name.literal :: value.literals
  | binary left operator right => operator.literal :: (left.literals ++ right.literals)
  | logical left operator right => operator.literal :: (left.literals ++ right.literals)
  | unary operator right => operator.literal :: right.literals
  | grouping inner => inner.literals
  | call callee paren arguments => paren.literal :: (callee.literals ++ allLiterals arguments)
  | expression value => value.literals
  | print value => value.literals
  | var name start => name.literal :: start.literals
  | block statements => allLiterals statements
  | conditional condition consequent alternative =>
    condition.literals ++ (consequent.literals ++ alternative.literals)
  | loop condition body => condition.literals ++ body.literals
  | function name parameters body =>
    name.literal :: (parameters.map (·.literal) ++ allLiterals body)
  | ret keyword value => keyword.literal :: value.literals

/-- The literals of nodes. -/
def allLiterals : List Node → List Literal
  | [] => []
  | node :: nodes => node.literals ++ allLiterals nodes

end

mutual

/-- A node agrees with itself if its literals do. -/
theorem agrees_self (node : Node) (comparable : ∀ literal ∈ node.literals, literal.Comparable) :
    node.agrees node = true := by
  cases node with
  | absent => rfl
  | list items => exact allAgree_self items comparable
  | token value => exact Token.agrees_self (comparable _ List.mem_cons_self)
  | literal value => exact Literal.agrees_self (comparable _ List.mem_cons_self)
  | reference name => exact Token.agrees_self (comparable _ List.mem_cons_self)
  | assign token inner | unary token inner | var token inner | ret token inner =>
    obtain ⟨isToken, isInner⟩ := List.forall_mem_cons.mp comparable
    rw [agrees, Token.agrees_self isToken, agrees_self inner isInner]
    rfl
  | binary left operator right | logical left operator right =>
    obtain ⟨isOperator, areOperands⟩ := List.forall_mem_cons.mp comparable
    obtain ⟨isLeft, isRight⟩ := List.forall_mem_append.mp areOperands
    rw [agrees, Token.agrees_self isOperator, agrees_self left isLeft, agrees_self right isRight]
    rfl
  | grouping inner | expression inner | print inner => exact agrees_self inner comparable
  | call callee paren arguments =>
    obtain ⟨isParen, areParts⟩ := List.forall_mem_cons.mp comparable
    obtain ⟨isCallee, areArguments⟩ := List.forall_mem_append.mp areParts
    rw [agrees, agrees_self callee isCallee, Token.agrees_self isParen,
      allAgree_self arguments areArguments]
    rfl
  | block statements => exact allAgree_self statements comparable
  | conditional condition consequent alternative =>
    obtain ⟨isCondition, areBranches⟩ := List.forall_mem_append.mp comparable
    obtain ⟨isConsequent, isAlternative⟩ := List.forall_mem_append.mp areBranches
    rw [agrees, agrees_self condition isCondition, agrees_self consequent isConsequent,
      agrees_self alternative isAlternative]
    rfl
  | loop condition body =>
    obtain ⟨isCondition, isBody⟩ := List.forall_mem_append.mp comparable
    rw [agrees, agrees_self condition isCondition, agrees_self body isBody]
    rfl
  | function name parameters body =>
    obtain ⟨isName, areParts⟩ := List.forall_mem_cons.mp comparable
    obtain ⟨areParameters, isBody⟩ := List.forall_mem_append.mp areParts
    rw [agrees, Token.agrees_self isName,
      Token.allAgree_self (List.forall_mem_map.mp areParameters), allAgree_self body isBody]
    rfl

/-- Nodes agree with themselves if their literals do. -/
theorem allAgree_self (nodes : List Node)
    (comparable : ∀ literal ∈ allLiterals nodes, literal.Comparable) :
    allAgree nodes nodes = true := by
  cases nodes with
  | nil => rfl
  | cons node nodes =>
    obtain ⟨first, rest⟩ := List.forall_mem_append.mp comparable
    rw [allAgree, agrees_self node first, allAgree_self nodes rest]
    rfl

end

/-! ## Reading what was written -/

/-- What two documents are read as is the same if the documents are. -/
private theorem eq_of_toJson_eq {α : Type} {read : Node → α} {node other : Node} {value found : α}
    (isValue : read node = value) (isFound : read other = found)
    (same : node.toJson = other.toJson) : value = found := by
  have sameNode : Except.ok node = Except.ok other :=
    (ofJson_toJson node).symm.trans ((congrArg ofJson same).trans (ofJson_toJson other))
  rw [← isValue, ← isFound, Except.ok.inj sameNode]

end Node

/-- Every node, expression, statement and program is read back from its document, and no two of them
have the same document; if all numbers in a node are numbers, it agrees with what is read back. In
particular this holds of the statements that are left of any text, whatever is wrong with it. -/
theorem read_back_of_written :
    (∀ node : Node, ∃ read, Node.ofJson node.toJson = .ok read ∧ read = node ∧
      ((∀ literal ∈ node.literals, literal.Comparable) → read.agrees node = true)) ∧
    (∀ node other : Node, node.toJson = other.toJson → node = other) ∧
    (∀ expr : Expr, expr.Proper →
      (Node.ofJson expr.toNode.toJson).map Node.toExpr = .ok expr ∧
      ∀ other : Expr, other.Proper → expr.toNode.toJson = other.toNode.toJson → expr = other) ∧
    (∀ stmt : Stmt, stmt.Proper →
      (Node.ofJson stmt.toNode.toJson).map Node.toStmt = .ok stmt ∧
      ∀ other : Stmt, other.Proper → stmt.toNode.toJson = other.toNode.toJson → stmt = other) ∧
    (∀ stmts : List Stmt, (∀ stmt ∈ stmts, stmt.Proper) →
      (Node.ofJson (Node.ofProgram stmts).toJson).map Node.toProgram? = .ok (some stmts) ∧
      ∀ others : List Stmt, (∀ stmt ∈ others, stmt.Proper) →
        (Node.ofProgram stmts).toJson = (Node.ofProgram others).toJson → stmts = others) ∧
    ∀ (limit : Nat) (text : String),
      (Node.ofJson (Node.ofProgram (Program.ofSource limit text).statements).toJson).map
        Node.toProgram? = .ok (some (Program.ofSource limit text).statements) := by
  have program {stmts : List Stmt} (areProper : ∀ stmt ∈ stmts, stmt.Proper) :=
    Node.toProgram?_ofProgram (Stmt.proper_allSites areProper)
  refine ⟨fun node => ?node, fun node other => ?injective, fun expr isProper => ?expr,
    fun stmt isProper => ?stmt, fun stmts areProper => ?stmts, fun limit text => ?text⟩
  case node => exact ⟨node, node.ofJson_toJson, rfl, node.agrees_self⟩
  case injective => exact @Node.eq_of_toJson_eq Node id node other node other rfl rfl
  case expr =>
    have isExpr := expr.toExpr_toNode isProper
    refine ⟨?_, fun other otherProper =>
      Node.eq_of_toJson_eq isExpr (other.toExpr_toNode otherProper)⟩
    rw [Node.ofJson_toJson, Except.map, isExpr]
  case stmt =>
    have isStmt := stmt.toStmt_toNode isProper
    refine ⟨?_, fun other otherProper =>
      Node.eq_of_toJson_eq isStmt (other.toStmt_toNode otherProper)⟩
    rw [Node.ofJson_toJson, Except.map, isStmt]
  case stmts =>
    refine ⟨?_, fun others othersProper same =>
      Option.some.inj (Node.eq_of_toJson_eq (program areProper) (program othersProper) same)⟩
    rw [Node.ofJson_toJson, Except.map, program areProper]
  case text =>
    rw [Node.ofJson_toJson, Except.map,
      Node.toProgram?_ofProgram (Program.proper_ofSource limit text)]

/-- What is left of a text with a broken first line. -/
theorem read_back_of_written_rest :
    let rest : List Stmt := [.print (.literal (.text "a"))]
    (Program.ofSource 8 "var;\nprint \"a\";").statements = rest ∧
    (∀ stmt ∈ rest, stmt.Proper) ∧
    (∀ literal ∈ (Node.ofProgram rest).literals, literal.Comparable) ∧
    (Node.ofJson (Node.ofProgram rest).toJson).map Node.toProgram? = .ok (some rest) ∧
    (Node.ofProgram rest).agrees (Node.ofProgram rest) = true := by
  intro rest
  let tokens : List Token := [⟨.keyVar, "var", .nil, 1⟩, ⟨.semicolon, ";", .nil, 1⟩,
    ⟨.keyPrint, "print", .nil, 2⟩, ⟨.string, "\"a\"", .text "a", 2⟩, ⟨.semicolon, ";", .nil, 2⟩]
  have isScan : Source.scan "var;\nprint \"a\";" = ⟨tokens, 2, []⟩ := by decide +kernel
  have isRest : (Program.ofSource 8 "var;\nprint \"a\";").statements = rest :=
    calc (Program.ofSource 8 "var;\nprint \"a\";").statements
        = (Grammar.parse 8 (Source.scan "var;\nprint \"a\";").tokens
            (Source.scan "var;\nprint \"a\";").endLine).statements := rfl
      _ = (Grammar.parse 8 tokens 2).statements := by rw [isScan]
      _ = rest := by cbv
  have areProper : ∀ stmt ∈ rest, stmt.Proper :=
    List.forall_mem_singleton.mpr (List.forall_mem_nil _)
  have comparable : ∀ literal ∈ (Node.ofProgram rest).literals, literal.Comparable :=
    List.forall_mem_singleton.mpr fun _ isNumber => by cases isNumber
  obtain ⟨nodes, -, -, -, programs, -⟩ := read_back_of_written
  obtain ⟨read, -, rfl, agrees⟩ := nodes (Node.ofProgram rest)
  exact ⟨isRest, areProper, comparable, (programs rest areProper).1, agrees comparable⟩

end LoxLang
