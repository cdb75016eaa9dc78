import LoxLang.Syntax.Exchange

/-!
# Outlines of trees

The loosest form of a tree in a file. Beyond any node at any place it holds any document as the
value of a literal and as the lexeme, the literal or the line of a token. Whatever can be exchanged
is read as an outline; a `Node` is read only where these are of the kinds that a program can have.

What nodes of a kind hold is told by a table of slots, in the order in which they are looked at and
written.
-/

namespace LoxLang

/-- The double nearest to a document that is a whole number; any other document is as it is. -/
def Json.settled : Json → Except DecodeError Json
  | .integer value => (Literal.ofWhole value).map Literal.toJson
  | document => .ok document

/-- A token of which nothing but the kind is known. -/
structure TokenOutline where
  kind : TokenKind
  lexeme : Json
  literal : Json
  line : Json

namespace TokenOutline

/-- The document of a token. -/
def toJson (token : TokenOutline) : Json :=
  .object [("type", .string "Token"), ("kind", .string token.kind.name),
    ("lexeme", token.lexeme), ("literal", token.literal), ("line", token.line)]

/-- The token of an object with the given fields: its literal, which may be left out, its kind, its
lexeme and its line. -/
def ofFields (fields : List (String × Json)) : Except DecodeError TokenOutline := do
  let literal ← ((Json.lookup "literal" fields).getD .null).settled
  let kind ← Token.kindOfJson (← Token.requiredField "kind" fields)
  let lexeme ← Token.requiredField "lexeme" fields
  let line ← Token.requiredField "line" fields
  return ⟨kind, lexeme, literal, line⟩

/-- The token of a document. -/
def ofJson : Json → Except DecodeError TokenOutline
  | .object fields => ofFields fields
  | _ => .error .notAToken

end TokenOutline

/-- What a slot is for. -/
inductive SlotSort where
  | literal | token | tokens | node | optionalNode | nodes
deriving DecidableEq, Repr

/-- A place in nodes of some kind, under its name. -/
structure Slot where
  name : String
  sort : SlotSort
deriving DecidableEq, Repr

/-- What nodes of a kind hold. Tokens, lists and nodes that are left out have no slots. -/
def NodeKind.slots : NodeKind → List Slot
  | absent | list | token => []
  | literal => [⟨"value", .literal⟩]
  | reference => [⟨"name", .token⟩]
  | assign => [⟨"name", .token⟩, ⟨"value", .node⟩]
  | binary | logical => [⟨"left", .node⟩, ⟨"operator", .token⟩, ⟨"right", .node⟩]
  | unary => [⟨"operator", .token⟩, ⟨"right", .node⟩]
  | grouping | expression | print => [⟨"expression", .node⟩]
  | call => [⟨"callee", .node⟩, ⟨"paren", .token⟩, ⟨"arguments", .nodes⟩]
  | var => [⟨"name", .token⟩, ⟨"initializer", .optionalNode⟩]
  | block => [⟨"statements", .nodes⟩]
  | conditional =>
    [⟨"condition", .node⟩, ⟨"then_branch", .node⟩, ⟨"else_branch", .optionalNode⟩]
  | loop => [⟨"condition", .node⟩, ⟨"body", .node⟩]
  | function => [⟨"name", .token⟩, ⟨"params", .tokens⟩, ⟨"body", .nodes⟩]
  | ret => [⟨"keyword", .token⟩, ⟨"value", .optionalNode⟩]

/-- A tree in which nothing is known of what its nodes hold. -/
inductive Outline where
  | absent
  | list (items : List Outline)
  | token (value : TokenOutline)
  /-- A node of a kind that has slots, with what is in them. -/
  | node (kind : NodeKind) (parts : List Outline)
  /-- A value that stands for itself. -/
  | plain (value : Json)

/-- Why an outline cannot be written. -/
inductive EncodeError where
  /-- A value stands where a node belongs. -/
  | unsupported (name : String)
  /-- A slot holds something that it is not for. -/
  | unfitPart

/-- The wording of a fault, for the fault that is worded. -/
def EncodeError.message : EncodeError → Option String
  | unsupported name => some (Node.notWritable name)
  | unfitPart => none

namespace Outline

instance : Inhabited Outline := ⟨absent⟩

/-- The outline is a token. -/
def isToken : Outline → Bool
  | token _ => true
  | _ => false

end Outline

/-- What is written for a slot, from what is in it and the document of that as a node. -/
def SlotSort.write (sort : SlotSort) (part : Outline) (asNode : Except EncodeError Json) :
    Except EncodeError Json :=
  match sort, part with
  | node, _ | optionalNode, _ | nodes, .list _ | token, .token _ => asNode
  | tokens, .list items => if items.all (·.isToken) then asNode else .error .unfitPart
  | literal, .plain value => .ok value
  | _, _ => .error .unfitPart

namespace Outline

mutual

/-- The document of an outline. -/
def toJson : Outline → Except EncodeError Json
  | absent => .ok .null
  | list items => (toJsons items).map .array
  | token value => .ok value.toJson
  | node kind parts => (fieldsOf kind.slots parts).map (Node.objectOf kind)
  | plain value =>
    match Node.ofPlain value with
    | .ok found => .ok found.toJson
    | .error name => .error (.unsupported name)

/-- The documents of outlines. -/
def toJsons : List Outline → Except EncodeError (List Json)
  | [] => .ok []
  | item :: items => do
    return (← toJson item) :: (← toJsons items)

/-- The fields in which what is in slots is written. -/
def fieldsOf : List Slot → List Outline → Except EncodeError (List (String × Json))
  | [], [] => .ok []
  | slot :: slots, part :: parts => do
    return (slot.name, ← slot.sort.write part (toJson part)) :: (← fieldsOf slots parts)
  | [], _ :: _ | _ :: _, [] => .error .unfitPart

end

/-- A field of an object, with its value also read as a node. -/
structure Member where
  name : String
  document : Json
  outline : Except DecodeError Outline

/-- The member of a name. -/
def Member.find? (name : String) (members : List Member) : Option Member :=
  List.find? (fun member => member.name = name) members

/-- The tokens of documents, up to the first that is none. -/
def tokensOfJsons : List Json → Except DecodeError (List Outline)
  | [] => .ok []
  | document :: documents => do
    return token (← TokenOutline.ofJson document) :: (← tokensOfJsons documents)

/-- The list in a document, from its items. A string or an object counts as the list of its
characters or names, and each of those is at fault. -/
def listOf (fault : DecodeError) (ofItems : List Json → Except DecodeError Outline) :
    Json → Except DecodeError Outline
  | .array items => ofItems items
  | .string text => if text = "" then .ok (list []) else .error fault
  | .object fields => if fields.isEmpty then .ok (list []) else .error fault
  | _ => .error .notAList

end Outline

/-- What is in a slot, from the document in its place and the node that this is. -/
def SlotSort.read (sort : SlotSort) (document : Json) (asNode : Except DecodeError Outline) :
    Except DecodeError Outline :=
  match sort with
  | literal => document.settled.map .plain
  | token => (TokenOutline.ofJson document).map .token
  | tokens =>
    Outline.listOf .notAToken (fun items => (Outline.tokensOfJsons items).map .list) document
  | node | optionalNode => asNode
  | nodes => Outline.listOf .notANode (fun _ => asNode) document

/-- What is in a slot of a node with the given members. -/
def Slot.read (slot : Slot) (members : List Outline.Member) : Except DecodeError Outline :=
  match slot.sort, Outline.Member.find? slot.name members with
  | sort, some member => sort.read member.document member.outline
  | .optionalNode, none => .ok .absent
  | _, none => .error (.missingField slot.name)

namespace Outline

/-- What is in slots of a node with the given members, one after the other. -/
def partsOf (members : List Member) : List Slot → Except DecodeError (List Outline)
  | [] => .ok []
  | slot :: slots => do
    return (← slot.read members) :: (← partsOf members slots)

/-- The outline of an object of the given kind. -/
def assemble (kind : NodeKind) (members : List Member) : Except DecodeError Outline :=
  match kind with
  | .token =>
    (TokenOutline.ofFields (members.map fun member => (member.name, member.document))).map token
  | kind => (partsOf members kind.slots).map (node kind)

mutual

/-- The outline of a document. -/
def ofJson : Json → Except DecodeError Outline
  | .null => .ok absent
  | .array items => (ofJsons items).map list
  | .object fields => do
    assemble (← Node.kindOfType ((Json.lookup "type" fields).getD .null)) (membersOf fields)
  | _ => .error .notANode

/-- The outlines of documents, up to the first that has none. -/
def ofJsons : List Json → Except DecodeError (List Outline)
  | [] => .ok []
  | document :: documents =>
    match ofJson document with
    | .error error => .error error
    | .ok outline => (ofJsons documents).map (outline :: ·)

/-- The members of an object. -/
def membersOf : List (String × Json) → List Member
  | [] => []
  | (name, value) :: fields => ⟨name, value, ofJson value⟩ :: membersOf fields

end

end Outline
end LoxLang
