import LoxLang.Proofs.Safety.Site
import LoxLang.Syntax.Exchange

/-!
# Trees that come back

A tree becomes a node, and a node becomes a document. Both ways lead back: every node is found again
in its document, and every tree in its node, if all nodes of the tree have a meaning where they
stand.
-/

namespace LoxLang

/-! ## Trees as nodes -/

mutual

/-- A proper expression is found again in its node. -/
theorem Expr.toExpr_toNode (expr : Expr) (proper : ∀ site ∈ expr.sites, site.Proper) :
    expr.toNode.toExpr = expr := by
  cases expr with
  | literal value => rfl
  | reference name => rfl
  | assign name value =>
    have isValue := Expr.toExpr_toNode value (List.forall_mem_cons.mp proper).2
    rw [Expr.toNode, Node.toExpr, isValue]
  | binary left operator right =>
    obtain ⟨leftProper, rightProper⟩ :=
      List.forall_mem_append.mp (List.forall_mem_cons.mp proper).2
    rw [Expr.toNode, Node.toExpr, Expr.toExpr_toNode left leftProper,
      Expr.toExpr_toNode right rightProper]
  | logical left operator right =>
    obtain ⟨leftProper, rightProper⟩ :=
      List.forall_mem_append.mp (List.forall_mem_cons.mp proper).2
    rw [Expr.toNode, Node.toExpr, Expr.toExpr_toNode left leftProper,
      Expr.toExpr_toNode right rightProper]
  | unary operator right =>
    have isRight := Expr.toExpr_toNode right (List.forall_mem_cons.mp proper).2
    rw [Expr.toNode, Node.toExpr, isRight]
  | grouping inner => rw [Expr.toNode, Node.toExpr, Expr.toExpr_toNode inner proper]
  | call callee paren arguments =>
    obtain ⟨calleeProper, argumentsProper⟩ :=
      List.forall_mem_append.mp (List.forall_mem_cons.mp proper).2
    rw [Expr.toNode, Node.toExpr, Expr.toExpr_toNode callee calleeProper,
      Expr.toExprs_toNodes arguments argumentsProper]
  | unexpected kind => exact (proper _ List.mem_cons_self).elim

/-- Proper expressions are found again in their nodes. -/
theorem Expr.toExprs_toNodes (exprs : List Expr)
    (proper : ∀ site ∈ Expr.allSites exprs, site.Proper) :
    Node.toExprs (Expr.toNodes exprs) = exprs := by
  cases exprs with
  | nil => rfl
  | cons expr exprs =>
    obtain ⟨first, rest⟩ := List.forall_mem_append.mp proper
    rw [Expr.toNodes, Node.toExprs, Expr.toExpr_toNode expr first,
      Expr.toExprs_toNodes exprs rest]

end

/-- The node of a proper expression is not left out. -/
theorem Expr.toExpr?_toNode (expr : Expr) (proper : ∀ site ∈ expr.sites, site.Proper) :
    expr.toNode.toExpr? = some expr := by
  have isExpr := Expr.toExpr_toNode expr proper
  cases expr with
  | unexpected kind => exact (proper _ List.mem_cons_self).elim
  | _ => exact congrArg some isExpr

/-- An expression that may be absent comes back from its node. -/
theorem Expr.toExpr?_optionNode (option : Option Expr)
    (proper : ∀ site ∈ Expr.optionalSites option, site.Proper) :
    (Expr.optionNode option).toExpr? = option := by
  cases option with
  | none => rfl
  | some expr => exact Expr.toExpr?_toNode expr proper

/-- The node of a proper statement is not left out. -/
theorem Stmt.toNode_ne_absent (stmt : Stmt) (proper : ∀ site ∈ stmt.sites, site.Proper) :
    stmt.toNode ≠ .absent := by
  cases stmt with
  | unexpected kind => exact (proper _ List.mem_cons_self).elim
  | _ => rintro ⟨⟩

mutual

/-- A proper statement is found again in its node. -/
theorem Stmt.toStmt_toNode (stmt : Stmt) (proper : ∀ site ∈ stmt.sites, site.Proper) :
    stmt.toNode.toStmt = stmt := by
  cases stmt with
  | expression value => rw [Stmt.toNode, Node.toStmt, Expr.toExpr_toNode value proper]
  | print value => rw [Stmt.toNode, Node.toStmt, Expr.toExpr_toNode value proper]
  | var name start => rw [Stmt.toNode, Node.toStmt, Expr.toExpr?_optionNode start proper]
  | block statements => rw [Stmt.toNode, Node.toStmt, Stmt.toStmts_toNodes statements proper]
  | conditional condition consequent alternative =>
    obtain ⟨firstProper, alternativeProper⟩ := List.forall_mem_append.mp proper
    obtain ⟨conditionProper, consequentProper⟩ := List.forall_mem_append.mp firstProper
    have isCondition := Expr.toExpr_toNode condition conditionProper
    have isConsequent := Stmt.toStmt_toNode consequent consequentProper
    cases alternative with
    | none => rw [Stmt.toNode, Stmt.optionNode, Node.toStmt, isCondition, isConsequent]
    | some alternative =>
      have isAlternative := Stmt.toStmt_toNode alternative alternativeProper
      rw [Stmt.toNode, Stmt.optionNode, Node.toStmt, isCondition, isConsequent, isAlternative]
      exact alternative.toNode_ne_absent alternativeProper
  | loop condition body =>
    obtain ⟨conditionProper, bodyProper⟩ := List.forall_mem_append.mp proper
    rw [Stmt.toNode, Node.toStmt, Expr.toExpr_toNode condition conditionProper,
      Stmt.toStmt_toNode body bodyProper]
  | function name parameters body =>
    rw [Stmt.toNode, Node.toStmt, Stmt.toStmts_toNodes body proper]
  | ret keyword value => rw [Stmt.toNode, Node.toStmt, Expr.toExpr?_optionNode value proper]
  | unexpected kind => exact (proper _ List.mem_cons_self).elim

/-- Proper statements are found again in their nodes. -/
theorem Stmt.toStmts_toNodes (stmts : List Stmt)
    (proper : ∀ site ∈ Stmt.allSites stmts, site.Proper) :
    Node.toStmts (Stmt.toNodes stmts) = stmts := by
  cases stmts with
  | nil => rfl
  | cons stmt stmts =>
    obtain ⟨first, rest⟩ := List.forall_mem_append.mp proper
    rw [Stmt.toNodes, Node.toStmts, Stmt.toStmt_toNode stmt first, Stmt.toStmts_toNodes stmts rest]

end

/-- Proper statements are the program of their node. -/
theorem Node.toProgram?_ofProgram {stmts : List Stmt}
    (proper : ∀ site ∈ Stmt.allSites stmts, site.Proper) :
    (Node.ofProgram stmts).toProgram? = some stmts := by
  rw [Node.ofProgram, Node.toProgram?, Stmt.toStmts_toNodes stmts proper]

/-! ## Tokens as documents -/

namespace Token

/-- Tokens come back from their documents, one after the other. -/
theorem ofJsons_toJsons (tokens : List Token) : ofJsons (tokens.map toJson) = .ok tokens := by
  induction tokens with
  | nil => rfl
  | cons token tokens inductionHypothesis =>
    rw [List.map_cons, ofJsons, ofJson_toJson, inductionHypothesis]
    rfl

end Token

/-! ## Members -/

namespace Node.Member

variable (name : String) (member : Member) (members : List Member)

/-- The first member of a name is the one that counts. -/
private theorem required_cons : required name (member :: members) =
    if member.name = name then .ok member else required name members := by
  unfold required find?
  by_cases hit : member.name = name <;> simp [hit]

/-- A node is looked for in the first member and then in the others. -/
@[simp] theorem nodeOf_cons : nodeOf name (member :: members) =
    if member.name = name then member.node else nodeOf name members := by
  rw [nodeOf, required_cons]
  split <;> rfl

/-- A node that may be absent is looked for in the first member and then in the others. -/
@[simp] theorem nodeOrAbsent_cons : nodeOrAbsent name (member :: members) =
    if member.name = name then member.node else nodeOrAbsent name members := by
  unfold nodeOrAbsent find?
  by_cases hit : member.name = name <;> simp [hit]

/-- Nodes are looked for in the first member and then in the others. -/
@[simp] theorem nodesOf_cons : nodesOf name (member :: members) =
    if member.name = name then member.nodes else nodesOf name members := by
  rw [nodesOf, required_cons]
  split <;> rfl

/-- A token is looked for in the first member and then in the others. -/
@[simp] theorem tokenOf_cons : tokenOf name (member :: members) =
    if member.name = name then Token.ofJson member.document else tokenOf name members := by
  rw [tokenOf, required_cons]
  split <;> rfl

/-- Tokens are looked for in the first member and then in the others. -/
@[simp] theorem tokensOf_cons : tokensOf name (member :: members) =
    if member.name = name then Token.listOfJson member.document else tokensOf name members := by
  rw [tokensOf, required_cons]
  split <;> rfl

/-- A literal is looked for in the first member and then in the others. -/
@[simp] theorem literalOf_cons : literalOf name (member :: members) =
    if member.name = name then Literal.ofJson name member.document
    else literalOf name members := by
  rw [literalOf, required_cons]
  split <;> rfl

end Node.Member

/-! ## Nodes as documents -/

namespace Node

/-- The name of a kind of node is read as that kind. -/
theorem kindOfType_name {kind : NodeKind} (isExchanged : kind ∈ NodeKind.exchanged) :
    kindOfType (.string kind.name) = .ok kind := by
  cases kind with
  | absent | list => exact absurd isExchanged (by decide)
  | _ => rfl

/-- A document of a kind is read from its members. -/
private theorem ofJson_objectOf {kind : NodeKind} (isExchanged : kind ∈ NodeKind.exchanged)
    (fields : List (String × Json)) :
    ofJson (objectOf kind fields) =
      assemble kind (membersOf (("type", .string kind.name) :: fields)) := by
  rw [objectOf, ofJson, Json.lookup, if_pos rfl, Option.getD_some, kindOfType_name isExchanged]
  rfl

/-- The members of an object are its fields. -/
theorem membersOf_fields (fields : List (String × Json)) :
    (membersOf fields).map (fun member => (member.name, member.document)) = fields := by
  induction fields with
  | nil => rfl
  | cons field fields inductionHypothesis =>
    rw [membersOf, List.map_cons, inductionHypothesis]

/-- The token of an object is read from its fields. -/
private theorem ofJson_token (token : Token) : ofJson token.toJson = .ok (.token token) := by
  have isToken : Token.ofFields _ = .ok token := token.ofJson_toJson
  have isObject : token.toJson = objectOf .token _ := rfl
  rw [isObject, ofJson_objectOf (by decide), assemble, membersOf_fields]
  exact congrArg (· >>= fun found => pure (Node.token found)) isToken

/-- What was read is passed on. -/
@[simp] private theorem ok_bind {α β : Type} (value : α) (next : α → Except DecodeError β) :
    (Except.ok value >>= next) = next value := rfl

/-- What was read is changed by the function, written as an infix map. -/
@[simp] private theorem map_ok {α β : Type} (value : α) (function : α → β) :
    function <$> (Except.ok value : Except DecodeError α) = .ok (function value) := rfl

/-- What was read is changed by the function, written as a plain map. -/
@[simp] private theorem except_map_ok {α β : Type} (value : α) (function : α → β) :
    Except.map function (Except.ok value : Except DecodeError α) = .ok (function value) := rfl

mutual

/-- Every node is found again in its document. -/
theorem ofJson_toJson (node : Node) : ofJson node.toJson = .ok node := by
  cases node with
  | absent => rfl
  | list items =>
    rw [toJson, ofJson, ofJsons_toJsons items]
    rfl
  | token value => exact ofJson_token value
  | literal value =>
    rw [toJson, ofJson_objectOf (by decide)]
    simp [assemble, membersOf]
  | reference name =>
    rw [toJson, ofJson_objectOf (by decide)]
    simp [assemble, membersOf]
  | assign name value =>
    rw [toJson, ofJson_objectOf (by decide)]
    simp [assemble, membersOf, ofJson_toJson value]
  | binary left operator right | logical left operator right =>
    rw [toJson, ofJson_objectOf (by decide)]
    simp [assemble, membersOf, ofJson_toJson left, ofJson_toJson right]
  | unary operator right =>
    rw [toJson, ofJson_objectOf (by decide)]
    simp [assemble, membersOf, ofJson_toJson right]
  | grouping inner =>
    rw [toJson, ofJson_objectOf (by decide)]
    simp [assemble, membersOf, ofJson_toJson inner]
  | call callee paren arguments =>
    rw [toJson, ofJson_objectOf (by decide)]
    simp [assemble, membersOf, ofJson_toJson callee, Member.nodes, ofJson,
      ofJsons_toJsons arguments]
  | expression value | print value =>
    rw [toJson, ofJson_objectOf (by decide)]
    simp [assemble, membersOf, ofJson_toJson value]
  | var name start =>
    rw [toJson, ofJson_objectOf (by decide)]
    simp [assemble, membersOf, ofJson_toJson start]
  | block statements =>
    rw [toJson, ofJson_objectOf (by decide)]
    simp [assemble, membersOf, Member.nodes, ofJson, ofJsons_toJsons statements]
  | conditional condition consequent alternative =>
    rw [toJson, ofJson_objectOf (by decide)]
    simp [assemble, membersOf, ofJson_toJson condition, ofJson_toJson consequent,
      ofJson_toJson alternative]
  | loop condition body =>
    rw [toJson, ofJson_objectOf (by decide)]
    simp [assemble, membersOf, ofJson_toJson condition, ofJson_toJson body]
  | function name parameters body =>
    rw [toJson, ofJson_objectOf (by decide)]
    simp [assemble, membersOf, Token.listOfJson, Token.ofJsons_toJsons, Member.nodes, ofJson,
      ofJsons_toJsons body]
  | ret keyword value =>
    rw [toJson, ofJson_objectOf (by decide)]
    simp [assemble, membersOf, ofJson_toJson value]

/-- All nodes are found again in their documents. -/
theorem ofJsons_toJsons (nodes : List Node) : ofJsons (toJsons nodes) = .ok nodes := by
  cases nodes with
  | nil => rfl
  | cons node nodes =>
    rw [toJsons, ofJsons, ofJson_toJson node, ofJsons_toJsons nodes]
    rfl

end

end Node

end LoxLang
