import LoxLang.Proofs.Syntax.Outline

/-!
# Nodes among outlines

Every node is an outline, with the same document. Documents are read as nodes in the same way as
they are read as outlines, with the same faults in the same order, except that a field is refused
that holds what no program can have there.
-/

namespace LoxLang

/-! ## Narrower readings -/

section Narrowing

variable {α β γ δ : Type}

/-- The strict result refuses a field, or it is the loose one. -/
def Narrows (strict : Except DecodeError α) (embed : α → β) (loose : Except DecodeError β) : Prop :=
  (∃ field, strict = .error (.unfitField field)) ∨ loose = strict.map embed

variable {strict : Except DecodeError α} {embed : α → β} {loose : Except DecodeError β}

namespace Narrows

/-- Whatever is read loosely, a strict reader may refuse the field. -/
theorem refuses (field : String) :
    Narrows (.error (.unfitField field)) embed loose := .inl ⟨field, rfl⟩

/-- The same fault is found by both readers. -/
theorem error (fault : DecodeError) : Narrows (.error fault) embed (.error fault) := .inr rfl

/-- A value is read by both readers, and embedded. -/
protected theorem pure (value : α) : Narrows (.ok value) embed (.ok (embed value)) := .inr rfl

/-- A reader narrows itself. -/
theorem same (result : Except DecodeError α) : Narrows result id result := by
  cases result <;> exact .inr rfl

/-- A choice that both readers make narrows on both branches. -/
theorem ite {condition : Prop} [Decidable condition] {other : Except DecodeError α}
    {otherLoose : Except DecodeError β} (narrows : Narrows strict embed loose)
    (narrowsElse : Narrows other embed otherLoose) :
    Narrows (if condition then strict else other) embed
      (if condition then loose else otherLoose) := by
  split
  · exact narrows
  · exact narrowsElse

/-- Readers one after the other narrow if each of them does; the first fault is the same. -/
protected theorem bind (narrows : Narrows strict embed loose) {next : α → Except DecodeError γ}
    {looseNext : β → Except DecodeError δ} {embedNext : γ → δ}
    (narrowsNext : ∀ value, Narrows (next value) embedNext (looseNext (embed value))) :
    Narrows (strict >>= next) embedNext (loose >>= looseNext) := by
  obtain ⟨field, rfl⟩ | rfl := narrows
  · exact .inl ⟨field, rfl⟩
  · cases strict with
    | error fault => exact .inr rfl
    | ok value => exact narrowsNext value

/-- What is made of the results may be made of the values. -/
protected theorem map (narrows : Narrows strict embed loose) {function : α → γ}
    {looseFunction : β → δ} {embedNext : γ → δ}
    (commutes : ∀ value, looseFunction (embed value) = embedNext (function value)) :
    Narrows (strict.map function) embedNext (loose.map looseFunction) := by
  obtain ⟨field, rfl⟩ | rfl := narrows
  · exact .inl ⟨field, rfl⟩
  · cases strict with
    | error fault => exact .inr rfl
    | ok value => exact .inr (congrArg Except.ok (commutes value))

/-- What the loose result is made into is what the strict value is embedded as. -/
theorem further (narrows : Narrows strict embed loose) (function : β → γ) :
    Narrows strict (function ∘ embed) (loose.map function) := by
  obtain ⟨field, rfl⟩ | rfl := narrows
  · exact .inl ⟨field, rfl⟩
  · cases strict <;> exact .inr rfl

/-- What is read strictly is read loosely. -/
theorem eq_ok (narrows : Narrows strict embed loose) {value : α} (isRead : strict = .ok value) :
    loose = .ok (embed value) := by
  subst isRead
  obtain ⟨field, ⟨⟩⟩ | isLoose := narrows
  exact isLoose

end Narrows
end Narrowing

/-! ## Tokens -/

/-- The token as an outline. -/
def Token.outline (token : Token) : TokenOutline :=
  ⟨token.kind, .string token.lexeme, token.literal.toJson, .integer token.line⟩

/-- A literal is read as what it is, if it is one. -/
theorem Literal.narrows_ofJson (field : String) (document : Json) :
    Narrows (ofJson field document) toJson document.settled := by
  cases document with
  | array | object => exact .refuses field
  | _ => exact .inr rfl

namespace Token

/-- The fields of a token are read alike, in the same order. -/
theorem narrows_ofFields (fields : List (String × Json)) :
    Narrows (ofFields fields) outline (TokenOutline.ofFields fields) := by
  refine (Literal.narrows_ofJson "literal" _).bind fun literal => ?_
  refine (Narrows.same (requiredField "kind" fields)).bind fun document => ?_
  refine (Narrows.same (kindOfJson document)).bind fun kind => ?_
  refine (Narrows.same (requiredField "lexeme" fields)).bind fun lexeme => ?_
  cases lexeme with
  | string lexeme =>
    refine (Narrows.same (requiredField "line" fields)).bind fun line => ?_
    cases line with
    | integer line => exact .pure _
    | _ => exact .refuses "line"
  | _ => exact .refuses "lexeme"

/-- A token is read alike. -/
theorem narrows_ofJson (document : Json) :
    Narrows (ofJson document) outline (TokenOutline.ofJson document) := by
  cases document with
  | object fields => exact narrows_ofFields fields
  | _ => exact .error .notAToken

/-- Tokens as one outline. -/
def outlines (tokens : List Token) : List Outline := tokens.map fun token => .token token.outline

/-- Tokens are read alike, one after the other. -/
theorem narrows_ofJsons (documents : List Json) :
    Narrows (ofJsons documents) outlines (Outline.tokensOfJsons documents) := by
  induction documents with
  | nil => exact .pure _
  | cons document documents inductionHypothesis =>
    exact (narrows_ofJson document).bind fun token => inductionHypothesis.bind fun tokens => .pure _

/-- A list of tokens is read as a list of their outlines. -/
theorem narrows_listOfJson (document : Json) :
    Narrows (listOfJson document) (fun tokens => .list (outlines tokens))
      (SlotSort.read .tokens document (Outline.ofJson document)) := by
  cases document with
  | array items => exact (narrows_ofJsons items).further Outline.list
  | string | object => exact .ite (.pure []) (.error .notAToken)
  | _ => exact .error .notAList

end Token

/-! ## Nodes -/

namespace Node

mutual

/-- The node as an outline. -/
def outline : Node → Outline
  | absent => .absent
  | list items => .list (outlines items)
  | token value => .token value.outline
  | literal value => .node .literal [.plain value.toJson]
  | reference name => .node .reference [.token name.outline]
  | assign name value => .node .assign [.token name.outline, value.outline]
  | binary left operator right =>
    .node .binary [left.outline, .token operator.outline, right.outline]
  | logical left operator right =>
    .node .logical [left.outline, .token operator.outline, right.outline]
  | unary operator right => .node .unary [.token operator.outline, right.outline]
  | grouping inner => .node .grouping [inner.outline]
  | call callee paren arguments =>
    .node .call [callee.outline, .token paren.outline, .list (outlines arguments)]
  | expression value => .node .expression [value.outline]
  | print value => .node .print [value.outline]
  | var name start => .node .var [.token name.outline, start.outline]
  | block statements => .node .block [.list (outlines statements)]
  | conditional condition consequent alternative =>
    .node .conditional [condition.outline, consequent.outline, alternative.outline]
  | loop condition body => .node .loop [condition.outline, body.outline]
  | function name parameters body =>
    .node .function
      [.token name.outline, .list (Token.outlines parameters), .list (outlines body)]
  | ret keyword value => .node .ret [.token keyword.outline, value.outline]

/-- Nodes as outlines. -/
def outlines : List Node → List Outline
  | [] => []
  | node :: nodes => node.outline :: outlines nodes

end

/-! ## Members of nodes -/

/-- A member with a name is the field with that name, read as a node. -/
theorem find?_membersOf (name : String) (fields : List (String × Json)) :
    Member.find? name (membersOf fields) =
      (Json.lookup name fields).map fun document => ⟨name, document, ofJson document⟩ := by
  induction fields with
  | nil => rfl
  | cons field fields inductionHypothesis =>
    obtain ⟨found, document⟩ := field
    by_cases isName : found = name
    · simp [membersOf, Member.find?, Json.lookup, isName]
    · simpa [membersOf, Member.find?, Json.lookup, isName] using inductionHypothesis

/-- All nodes among the fields are read as outlines are. -/
def NarrowsFields (fields : List (String × Json)) : Prop :=
  ∀ name document, Json.lookup name fields = some document →
    Narrows (ofJson document) outline (Outline.ofJson document)

namespace NarrowsFields

variable {α : Type} {fields : List (String × Json)}

/-- Members that must be there are there for both, or for none. -/
theorem required (sort : SlotSort) (name : String) (mustBe : sort ≠ .optionalNode)
    {strict : Member → Except DecodeError α} {embed : α → Outline}
    (narrows : ∀ document, Json.lookup name fields = some document →
      Narrows (strict ⟨name, document, ofJson document⟩) embed
        (sort.read document (Outline.ofJson document))) :
    Narrows (Member.required name (membersOf fields) >>= strict) embed
      (Slot.read ⟨name, sort⟩ (Outline.membersOf fields)) := by
  unfold Member.required Slot.read
  rw [find?_membersOf, Outline.find?_membersOf]
  cases found : Json.lookup name fields with
  | some document => exact narrows document found
  | none =>
    cases sort with
    | optionalNode => exact absurd rfl mustBe
    | _ => exact .error (.missingField name)

/-- A field for a node is read as the outline of the node. -/
theorem nodeOf (each : NarrowsFields fields) (name : String) :
    Narrows (Member.nodeOf name (membersOf fields)) outline
      (Slot.read ⟨name, .node⟩ (Outline.membersOf fields)) :=
  required .node name (by decide) (each name)

/-- A field for a node that may be absent is read as its outline or as nothing. -/
theorem nodeOrAbsent (each : NarrowsFields fields) (name : String) :
    Narrows (Member.nodeOrAbsent name (membersOf fields)) outline
      (Slot.read ⟨name, .optionalNode⟩ (Outline.membersOf fields)) := by
  unfold Member.nodeOrAbsent Slot.read
  rw [find?_membersOf, Outline.find?_membersOf]
  cases found : Json.lookup name fields with
  | some document => exact each name document found
  | none => exact .pure Node.absent

/-- A field for a token is read as its outline. -/
theorem tokenOf (name : String) :
    Narrows (Member.tokenOf name (membersOf fields)) (fun token => .token token.outline)
      (Slot.read ⟨name, .token⟩ (Outline.membersOf fields)) :=
  required .token name (by decide) fun document _ =>
    (Token.narrows_ofJson document).further Outline.token

/-- A field for tokens is read as their outlines. -/
theorem tokensOf (name : String) :
    Narrows (Member.tokensOf name (membersOf fields))
      (fun tokens => .list (Token.outlines tokens))
      (Slot.read ⟨name, .tokens⟩ (Outline.membersOf fields)) :=
  required .tokens name (by decide) fun document _ => Token.narrows_listOfJson document

/-- A field for a literal is read as what it holds. -/
theorem literalOf (name : String) :
    Narrows (Member.literalOf name (membersOf fields)) (fun literal => .plain literal.toJson)
      (Slot.read ⟨name, .literal⟩ (Outline.membersOf fields)) :=
  required .literal name (by decide) fun document _ =>
    (Literal.narrows_ofJson name document).further Outline.plain

/-- A field for nodes is read as their outlines. -/
theorem nodesOf (each : NarrowsFields fields) (name : String) :
    Narrows (Member.nodesOf name (membersOf fields)) (fun nodes => .list (outlines nodes))
      (Slot.read ⟨name, .nodes⟩ (Outline.membersOf fields)) := by
  refine required .nodes name (by decide) fun document isHere => ?_
  have narrows := each name document isHere
  cases document with
  | array items =>
    change Narrows ((ofJsons items).map list) _ _ at narrows
    change Narrows (((ofJsons items).map list).map _) _ (Outline.ofJson (.array items))
    cases isRead : ofJsons items with
    | error fault =>
      rw [isRead] at narrows
      obtain ⟨field, ⟨⟩⟩ | isLoose := narrows
      · exact .refuses field
      · exact .inr isLoose
    | ok nodes =>
      have isLoose : Outline.ofJson (.array items) = .ok (outline (list nodes)) :=
        narrows.eq_ok (congrArg (·.map list) isRead)
      exact .inr isLoose
  | string | object => exact .ite (.pure []) (.error .notANode)
  | _ => exact .error .notAList

end NarrowsFields

/-! ## Nodes among outlines -/

/-- The parts of an outline are read one slot after the other. -/
theorem map_partsOf_cons {slot : Slot} {slots : List Slot} {members : List Outline.Member}
    (build : List Outline → Outline) :
    (Outline.partsOf members (slot :: slots)).map build =
      slot.read members >>= fun part =>
        (Outline.partsOf members slots).map fun parts => build (part :: parts) := by
  rw [Outline.partsOf]
  cases slot.read members with
  | error fault => rfl
  | ok part => cases Outline.partsOf members slots <;> rfl

/-- Without slots there is nothing to read. -/
theorem map_partsOf_nil {members : List Outline.Member} (build : List Outline → Outline) :
    (Outline.partsOf members []).map build = .ok (build []) := rfl

/-- Nodes of a kind are put together from the same members in the same order. -/
theorem narrows_assemble {kind : NodeKind} {fields : List (String × Json)}
    (isExchanged : kind ∈ NodeKind.exchanged) (each : NarrowsFields fields) :
    Narrows (assemble kind (membersOf fields)) outline
      (Outline.assemble kind (Outline.membersOf fields)) := by
  by_cases isToken : kind = .token
  · subst isToken
    have isMap : (do return token (← Token.ofFields fields)) =
        (Token.ofFields fields).map token := by cases Token.ofFields fields <;> rfl
    rw [assemble, Outline.assemble, membersOf_fields, Outline.membersOf_fields, isMap]
    exact (Token.narrows_ofFields fields).map fun value => rfl
  rw [Outline.assemble_of_ne_token isToken]
  cases kind <;> simp only [NodeKind.slots, map_partsOf_cons, map_partsOf_nil]
  case absent | list => exact absurd isExchanged (by decide)
  case token => exact absurd rfl isToken
  case literal =>
    refine (NarrowsFields.literalOf "value").bind fun value => ?_
    exact .pure _
  case reference =>
    refine (NarrowsFields.tokenOf "name").bind fun name => ?_
    exact .pure _
  case assign =>
    refine (NarrowsFields.tokenOf "name").bind fun name => ?_
    refine (each.nodeOf "value").bind fun value => ?_
    exact .pure _
  case binary | logical =>
    refine (each.nodeOf "left").bind fun left => ?_
    refine (NarrowsFields.tokenOf "operator").bind fun operator => ?_
    refine (each.nodeOf "right").bind fun right => ?_
    exact .pure _
  case unary =>
    refine (NarrowsFields.tokenOf "operator").bind fun operator => ?_
    refine (each.nodeOf "right").bind fun right => ?_
    exact .pure _
  case grouping | expression | print =>
    refine (each.nodeOf "expression").bind fun inner => ?_
    exact .pure _
  case call =>
    refine (each.nodeOf "callee").bind fun callee => ?_
    refine (NarrowsFields.tokenOf "paren").bind fun paren => ?_
    refine (each.nodesOf "arguments").bind fun arguments => ?_
    exact .pure _
  case var =>
    refine (NarrowsFields.tokenOf "name").bind fun name => ?_
    refine (each.nodeOrAbsent "initializer").bind fun start => ?_
    exact .pure _
  case block =>
    refine (each.nodesOf "statements").bind fun statements => ?_
    exact .pure _
  case conditional =>
    refine (each.nodeOf "condition").bind fun condition => ?_
    refine (each.nodeOf "then_branch").bind fun consequent => ?_
    refine (each.nodeOrAbsent "else_branch").bind fun alternative => ?_
    exact .pure _
  case loop =>
    refine (each.nodeOf "condition").bind fun condition => ?_
    refine (each.nodeOf "body").bind fun body => ?_
    exact .pure _
  case function =>
    refine (NarrowsFields.tokenOf "name").bind fun name => ?_
    refine (NarrowsFields.tokensOf "params").bind fun parameters => ?_
    refine (each.nodesOf "body").bind fun body => ?_
    exact .pure _
  case ret =>
    refine (NarrowsFields.tokenOf "keyword").bind fun keyword => ?_
    refine (each.nodeOrAbsent "value").bind fun value => ?_
    exact .pure _

mutual

/-- A document is read as a node in the way in which it is read as an outline. -/
theorem narrows_ofJson (document : Json) :
    Narrows (ofJson document) outline (Outline.ofJson document) := by
  cases document with
  | null => exact .pure Node.absent
  | array items =>
    rw [ofJson, Outline.ofJson]
    exact (narrows_ofJsons items).map fun nodes => rfl
  | object fields =>
    rw [ofJson, Outline.ofJson]
    cases isKind : kindOfType ((Json.lookup "type" fields).getD .null) with
    | error fault => exact .error fault
    | ok kind =>
      exact narrows_assemble (Outline.mem_exchanged_of_kindOfType isKind) (narrowsFields fields)
  | bool | integer | number | string => exact .error .notANode

/-- Nodes are read alike, one after the other. -/
theorem narrows_ofJsons (documents : List Json) :
    Narrows (ofJsons documents) outlines (Outline.ofJsons documents) := by
  cases documents with
  | nil => exact .pure []
  | cons document documents =>
    rw [ofJsons, Outline.ofJsons]
    obtain ⟨field, isRefused⟩ | isLoose := narrows_ofJson document
    · rw [isRefused]
      exact .refuses field
    · rw [isLoose]
      cases ofJson document with
      | error fault => exact .error fault
      | ok node => exact (narrows_ofJsons documents).map fun nodes => rfl

/-- The fields of a document are read alike. -/
theorem narrowsFields (fields : List (String × Json)) : NarrowsFields fields := by
  cases fields with
  | nil => exact fun _ _ isHere => by cases isHere
  | cons field fields =>
    obtain ⟨found, value⟩ := field
    intro name document isHere
    rw [Json.lookup] at isHere
    split at isHere
    · obtain rfl := Option.some.inj isHere
      exact narrows_ofJson value
    · exact narrowsFields fields name document isHere

end

/-! ## Documents of nodes -/

/-- The outlines of tokens are outlines of tokens. -/
theorem all_isToken_outlines (tokens : List Token) :
    (Token.outlines tokens).all (·.isToken) = true :=
  List.all_eq_true.mpr (List.forall_mem_map.mpr fun _ _ => rfl)

/-- The outlines of tokens are written as the tokens are. -/
theorem toJsons_outlines_tokens (tokens : List Token) :
    Outline.toJsons (Token.outlines tokens) = .ok (tokens.map Token.toJson) := by
  induction tokens with
  | nil => rfl
  | cons token tokens inductionHypothesis =>
    change (do return token.toJson :: (← Outline.toJsons (Token.outlines tokens))) = _
    rw [inductionHypothesis]
    rfl

mutual

/-- The document of a node is that of its outline. -/
theorem toJson_outline (node : Node) : node.outline.toJson = .ok node.toJson := by
  cases node with
  | absent | token value | literal value | reference name => rfl
  | list items =>
    rw [outline, Outline.toJson, toJsons_outlines items]
    rfl
  | assign _ inner | unary _ inner | grouping inner | expression inner | print inner | var _ inner
  | ret _ inner =>
    simp only [outline, Outline.toJson, NodeKind.slots, Outline.fieldsOf, SlotSort.write,
      toJson_outline inner]
    rfl
  | binary left _ right | logical left _ right | loop left right =>
    simp only [outline, Outline.toJson, NodeKind.slots, Outline.fieldsOf, SlotSort.write,
      toJson_outline left, toJson_outline right]
    rfl
  | call callee _ arguments =>
    simp only [outline, Outline.toJson, NodeKind.slots, Outline.fieldsOf, SlotSort.write,
      toJson_outline callee, toJsons_outlines arguments]
    rfl
  | block statements =>
    simp only [outline, Outline.toJson, NodeKind.slots, Outline.fieldsOf, SlotSort.write,
      toJsons_outlines statements]
    rfl
  | conditional condition consequent alternative =>
    simp only [outline, Outline.toJson, NodeKind.slots, Outline.fieldsOf, SlotSort.write,
      toJson_outline condition, toJson_outline consequent, toJson_outline alternative]
    rfl
  | function _ parameters body =>
    simp only [outline, Outline.toJson, NodeKind.slots, Outline.fieldsOf, SlotSort.write,
      all_isToken_outlines parameters, toJsons_outlines_tokens parameters, toJsons_outlines body]
    rfl

/-- The documents of nodes are those of their outlines. -/
theorem toJsons_outlines (nodes : List Node) :
    Outline.toJsons (outlines nodes) = .ok (toJsons nodes) := by
  cases nodes with
  | nil => rfl
  | cons node nodes =>
    rw [outlines, Outline.toJsons, toJson_outline node, toJsons_outlines nodes]
    rfl

end

end Node
end LoxLang
