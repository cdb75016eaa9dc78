import LoxLang.Syntax.Node
import LoxLang.Json.Described
import LoxLang.Number.Decimal

/-!
# Trees as JSON

Each node is an object whose `type` names it, with its members under fixed names; a token is an
object of type `Token`; a left out member is null. Writing is total. Reading is loose in the way
`Node` is: it takes any node at any place, ignores members it does not know, and turns whole numbers
into doubles. It looks at the members of a node in a fixed order, and the first fault in that order
is the one reported.
-/

namespace LoxLang

/-- Why a document is no tree. -/
inductive DecodeError where
  /-- A field that must be there is not. -/
  | missingField (name : String)
  /-- A token names a kind that does not exist. -/
  | unknownTokenKind (kind : Json)
  /-- An object names a type of node that does not exist; null if it names none. -/
  | unknownNodeType (type : Json)
  /-- A boolean, number or string stands where a node belongs. -/
  | notANode
  /-- A boolean, number or null stands where a list belongs. -/
  | notAList
  /-- Something other than an object stands where a token belongs. -/
  | notAToken
  /-- A whole number lies beyond the doubles. -/
  | numberTooLarge
  /-- A field holds a document of a kind that it has no use for. -/
  | unfitField (name : String)

namespace DecodeError

/-- The wording of a fault, for the faults that are worded. -/
def message : DecodeError → Option String
  | missingField name => some (Text.quoted name)
  | unknownTokenKind kind => some kind.described
  | unknownNodeType type => some ("Unknown AST node type: " ++ type.plain)
  | notANode => some "Invalid AST object"
  | notAList | notAToken | numberTooLarge | unfitField _ => none

end DecodeError

namespace Literal

/-- The document of a literal. -/
def toJson : Literal → Json
  | nil => .null
  | bool value => .bool value
  | number value => .number value
  | text value => .string value

/-- The double nearest to a whole number. -/
def ofWhole (value : Int) : Except DecodeError Literal :=
  let rank := Number.nearestRank value.natAbs 1
  if Number.infiniteRank ≤ rank then .error .numberTooLarge
  else .ok (number (Number.ofRank (value < 0) rank))

/-- The literal of a document found in the named field. -/
def ofJson (field : String) : Json → Except DecodeError Literal
  | .null => .ok nil
  | .bool value => .ok (bool value)
  | .integer value => ofWhole value
  | .number value => .ok (number value)
  | .string value => .ok (text value)
  | .array _ | .object _ => .error (.unfitField field)

/-- Reading gives back the literal that was written. -/
@[simp] theorem ofJson_toJson (field : String) (value : Literal) :
    ofJson field value.toJson = .ok value := by
  cases value <;> rfl

end Literal

namespace Token

/-- The document of a token. -/
def toJson (token : Token) : Json :=
  .object [("type", .string "Token"), ("kind", .string token.kind.name),
    ("lexeme", .string token.lexeme), ("literal", token.literal.toJson),
    ("line", .integer token.line)]

/-- The kind that a document names. -/
def kindOfJson (document : Json) : Except DecodeError TokenKind :=
  match document with
  | .string name =>
    match TokenKind.ofName? name with
    | some kind => .ok kind
    | none => .error (.unknownTokenKind document)
  | .array _ | .object _ => .error (.unfitField "kind")
  | _ => .error (.unknownTokenKind document)

/-- The value of a field that must be there. -/
def requiredField (name : String) (fields : List (String × Json)) : Except DecodeError Json :=
  match Json.lookup name fields with
  | some value => .ok value
  | none => .error (.missingField name)

/-- The token of an object with the given fields: its literal, which may be left out, its kind, its
lexeme and its line. -/
def ofFields (fields : List (String × Json)) : Except DecodeError Token := do
  let literal ← Literal.ofJson "literal" ((Json.lookup "literal" fields).getD .null)
  let kind ← kindOfJson (← requiredField "kind" fields)
  let lexeme ← match ← requiredField "lexeme" fields with
    | .string lexeme => .ok lexeme
    | _ => .error (.unfitField "lexeme")
  let line ← match ← requiredField "line" fields with
    | .integer line => .ok line
    | _ => .error (.unfitField "line")
  return ⟨kind, lexeme, literal, line⟩

/-- The token of a document. -/
def ofJson : Json → Except DecodeError Token
  | .object fields => ofFields fields
  | _ => .error .notAToken

/-- The tokens of documents, up to the first that is none. -/
def ofJsons : List Json → Except DecodeError (List Token)
  | [] => .ok []
  | document :: documents => do
    return (← ofJson document) :: (← ofJsons documents)

/-- The tokens of a document that holds a list. A string or an object counts as the list of its
characters or names, none of which is a token. -/
def listOfJson : Json → Except DecodeError (List Token)
  | .array items => ofJsons items
  | .string text => if text = "" then .ok [] else .error .notAToken
  | .object fields => if fields.isEmpty then .ok [] else .error .notAToken
  | _ => .error .notAList

/-- Reading gives back the token that was written. -/
@[simp] theorem ofJson_toJson (token : Token) : ofJson token.toJson = .ok token := by
  simp [ofJson, toJson, ofFields, requiredField, Json.lookup, kindOfJson, bind, Except.bind,
    pure, Except.pure]

end Token

namespace NodeKind

/-- The kinds of node that are objects of their own type. -/
def exchanged : List NodeKind := [
  token, literal, reference, assign, binary, logical, unary, grouping, call,
  expression, print, var, block, conditional, loop, function, ret]

/-- The kind of node that a type names. -/
def ofName? (text : String) : Option NodeKind := exchanged.find? (·.name = text)

end NodeKind

namespace Node

/-- An object of the given kind. -/
def objectOf (kind : NodeKind) (fields : List (String × Json)) : Json :=
  .object (("type", .string kind.name) :: fields)

mutual

/-- The document of a node. -/
def toJson : Node → Json
  | absent => .null
  | list items => .array (toJsons items)
  | token value => value.toJson
  | literal value => objectOf .literal [("value", value.toJson)]
  | reference name => objectOf .reference [("name", name.toJson)]
  | assign name value => objectOf .assign [("name", name.toJson), ("value", value.toJson)]
  | binary left operator right =>
    objectOf .binary
      [("left", left.toJson), ("operator", operator.toJson), ("right", right.toJson)]
  | logical left operator right =>
    objectOf .logical
      [("left", left.toJson), ("operator", operator.toJson), ("right", right.toJson)]
  | unary operator right =>
    objectOf .unary [("operator", operator.toJson), ("right", right.toJson)]
  | grouping inner => objectOf .grouping [("expression", inner.toJson)]
  | call callee paren arguments =>
    objectOf .call [("callee", callee.toJson), ("paren", paren.toJson),
      ("arguments", .array (toJsons arguments))]
  | expression value => objectOf .expression [("expression", value.toJson)]
  | print value => objectOf .print [("expression", value.toJson)]
  | var name start => objectOf .var [("name", name.toJson), ("initializer", start.toJson)]
  | block statements => objectOf .block [("statements", .array (toJsons statements))]
  | conditional condition consequent alternative =>
    objectOf .conditional [("condition", condition.toJson), ("then_branch", consequent.toJson),
      ("else_branch", alternative.toJson)]
  | loop condition body =>
    objectOf .loop [("condition", condition.toJson), ("body", body.toJson)]
  | function name parameters body =>
    objectOf .function [("name", name.toJson), ("params", .array (parameters.map Token.toJson)),
      ("body", .array (toJsons body))]
  | ret keyword value => objectOf .ret [("keyword", keyword.toJson), ("value", value.toJson)]

/-- The documents of nodes. -/
def toJsons : List Node → List Json
  | [] => []
  | node :: nodes => node.toJson :: toJsons nodes

end

/-- A field of an object, with its value also read as a node. -/
structure Member where
  name : String
  document : Json
  node : Except DecodeError Node

namespace Member

/-- The member of a name. -/
def find? (name : String) (members : List Member) : Option Member :=
  List.find? (fun member => member.name = name) members

/-- The member that must be there. -/
def required (name : String) (members : List Member) : Except DecodeError Member :=
  match find? name members with
  | some member => .ok member
  | none => .error (.missingField name)

/-- The node that must be there. -/
def nodeOf (name : String) (members : List Member) : Except DecodeError Node := do
  (← required name members).node

/-- The node that may be left out. -/
def nodeOrAbsent (name : String) (members : List Member) : Except DecodeError Node :=
  match find? name members with
  | some member => member.node
  | none => .ok absent

/-- The nodes of a member that holds a list. A string or an object counts as the list of its
characters or names, none of which is a node. -/
def nodes (member : Member) : Except DecodeError (List Node) :=
  match member.document with
  | .array _ =>
    member.node.map fun node =>
      match node with
      | list items => items
      | _ => []
  | .string text => if text = "" then .ok [] else .error .notANode
  | .object fields => if fields.isEmpty then .ok [] else .error .notANode
  | _ => .error .notAList

/-- The list of nodes that must be there. -/
def nodesOf (name : String) (members : List Member) : Except DecodeError (List Node) := do
  (← required name members).nodes

/-- The token that must be there. -/
def tokenOf (name : String) (members : List Member) : Except DecodeError Token := do
  Token.ofJson (← required name members).document

/-- The list of tokens that must be there. -/
def tokensOf (name : String) (members : List Member) : Except DecodeError (List Token) := do
  Token.listOfJson (← required name members).document

/-- The literal that must be there. -/
def literalOf (name : String) (members : List Member) : Except DecodeError Literal := do
  Literal.ofJson name (← required name members).document

end Member

open Member in
/-- The node of an object of the given kind, from its members in the order in which they are looked
at. -/
def assemble (kind : NodeKind) (members : List Member) : Except DecodeError Node :=
  match kind with
  | .absent | .list => .ok absent
  | .token => do
    return token (← Token.ofFields (members.map fun member => (member.name, member.document)))
  | .literal => do
    return literal (← literalOf "value" members)
  | .reference => do
    return reference (← tokenOf "name" members)
  | .assign => do
    return assign (← tokenOf "name" members) (← nodeOf "value" members)
  | .binary => do
    return binary (← nodeOf "left" members) (← tokenOf "operator" members)
      (← nodeOf "right" members)
  | .logical => do
    return logical (← nodeOf "left" members) (← tokenOf "operator" members)
      (← nodeOf "right" members)
  | .unary => do
    return unary (← tokenOf "operator" members) (← nodeOf "right" members)
  | .grouping => do
    return grouping (← nodeOf "expression" members)
  | .call => do
    return call (← nodeOf "callee" members) (← tokenOf "paren" members)
      (← nodesOf "arguments" members)
  | .expression => do
    return expression (← nodeOf "expression" members)
  | .print => do
    return print (← nodeOf "expression" members)
  | .var => do
    return var (← tokenOf "name" members) (← nodeOrAbsent "initializer" members)
  | .block => do
    return block (← nodesOf "statements" members)
  | .conditional => do
    return conditional (← nodeOf "condition" members) (← nodeOf "then_branch" members)
      (← nodeOrAbsent "else_branch" members)
  | .loop => do
    return loop (← nodeOf "condition" members) (← nodeOf "body" members)
  | .function => do
    return function (← tokenOf "name" members) (← tokensOf "params" members)
      (← nodesOf "body" members)
  | .ret => do
    return ret (← tokenOf "keyword" members) (← nodeOrAbsent "value" members)

/-- The kind of node that an object names as its type. -/
def kindOfType (type : Json) : Except DecodeError NodeKind :=
  match type with
  | .string name =>
    match NodeKind.ofName? name with
    | some kind => .ok kind
    | none => .error (.unknownNodeType type)
  | _ => .error (.unknownNodeType type)

mutual

/-- The node of a document. -/
def ofJson : Json → Except DecodeError Node
  | .null => .ok absent
  | .array items => (ofJsons items).map list
  | .object fields => do
    assemble (← kindOfType ((Json.lookup "type" fields).getD .null)) (membersOf fields)
  | _ => .error .notANode

/-- The nodes of documents, up to the first that is none. -/
def ofJsons : List Json → Except DecodeError (List Node)
  | [] => .ok []
  | document :: documents =>
    match ofJson document with
    | .error error => .error error
    | .ok node => (ofJsons documents).map (node :: ·)

/-- The members of an object. -/
def membersOf : List (String × Json) → List Member
  | [] => []
  | (name, value) :: fields => ⟨name, value, ofJson value⟩ :: membersOf fields

end

mutual

/-- The node that a document is by itself, as null and lists are; for any other document, the name
of what it is. -/
def ofPlain : Json → Except String Node
  | .null => .ok absent
  | .array items => (ofPlainItems items).map list
  | .bool _ => .error "bool"
  | .integer _ => .error "int"
  | .number _ => .error "float"
  | .string _ => .error "str"
  | .object _ => .error "dict"

/-- The nodes that documents are by themselves. -/
def ofPlainItems : List Json → Except String (List Node)
  | [] => .ok []
  | document :: documents =>
    match ofPlain document with
    | .error name => .error name
    | .ok node => (ofPlainItems documents).map (node :: ·)

end

/-- The report that something is no node and cannot be written. -/
def notWritable (name : String) : String := "Unsupported node for serialization: " ++ name

end Node
end LoxLang
