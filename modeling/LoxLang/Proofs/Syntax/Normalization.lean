import Mathlib.Data.List.Forall2
import LoxLang.Proofs.Syntax.Narrowing

/-!
# Normal documents

Reading a document and writing what was read gives a normal document: every slot of a node is there,
in its place and with no other field beside it, and the values of literals are no whole numbers.
What is read is always fit to be written, and the normal document is read as the same outline again.
-/

namespace LoxLang

/-! ## Numbers and tokens -/

/-- The document is no whole number. -/
def Json.IsSettled (document : Json) : Prop := ∀ value, document ≠ .integer value

/-- What is no whole number is settled as it is. -/
theorem Json.IsSettled.settled_eq {document : Json} (isSettled : document.IsSettled) :
    document.settled = .ok document := by
  cases document with
  | integer value => exact absurd rfl (isSettled value)
  | _ => rfl

/-- What was settled is no whole number any more. -/
theorem Json.isSettled_of_settled {document result : Json}
    (isResult : document.settled = .ok result) : result.IsSettled := by
  cases document with
  | integer value =>
    obtain ⟨literal, -, rfl⟩ := exists_of_map_eq_ok isResult
    cases literal <;> exact nofun
  | _ =>
    obtain rfl := Except.ok.inj isResult
    exact nofun

namespace TokenOutline

/-- The literal of a token that was read is no whole number. -/
theorem isSettled_of_ofFields {fields : List (String × Json)} {token : TokenOutline}
    (isToken : ofFields fields = .ok token) : token.literal.IsSettled := by
  obtain ⟨literal, isLiteral, isToken⟩ := exists_of_bind_eq_ok isToken
  obtain ⟨kind, -, isToken⟩ := exists_of_bind_eq_ok isToken
  obtain ⟨kind, -, isToken⟩ := exists_of_bind_eq_ok isToken
  obtain ⟨lexeme, -, isToken⟩ := exists_of_bind_eq_ok isToken
  obtain ⟨line, -, isToken⟩ := exists_of_bind_eq_ok isToken
  obtain rfl := Except.ok.inj isToken
  exact Json.isSettled_of_settled isLiteral

/-- The literal of a token that was read is no whole number, whatever document it was read from. -/
theorem isSettled_of_ofJson {document : Json} {token : TokenOutline}
    (isToken : ofJson document = .ok token) : token.literal.IsSettled := by
  cases document with
  | object fields => exact isSettled_of_ofFields isToken
  | _ => cases isToken

/-- A token without whole numbers is found again in its document. -/
theorem ofJson_toJson {token : TokenOutline} (isSettled : token.literal.IsSettled) :
    ofJson token.toJson = .ok token := by
  have isLiteral := isSettled.settled_eq
  simp [ofJson, toJson, ofFields, Token.requiredField, Json.lookup, Token.kindOfJson, isLiteral,
    bind, Except.bind, pure, Except.pure]

end TokenOutline

/-! ## What is read -/

namespace Outline

/-- What reading puts into slots of some sort. -/
inductive Fills : SlotSort → Outline → Prop where
  | literal {value : Json} (isSettled : value.IsSettled) : Fills .literal (.plain value)
  | token {value : TokenOutline} (isSettled : value.literal.IsSettled) :
    Fills .token (.token value)
  | tokens {items : List Outline} (each : ∀ item ∈ items, Fills .token item) :
    Fills .tokens (.list items)
  | nodes {items : List Outline} (each : ∀ item ∈ items, Fills .node item) :
    Fills .nodes (.list items)
  | absent : Fills .node .absent
  | list {items : List Outline} (each : ∀ item ∈ items, Fills .node item) :
    Fills .node (.list items)
  | ofToken {value : TokenOutline} (isSettled : value.literal.IsSettled) :
    Fills .node (.token value)
  | node {kind : NodeKind} {parts : List Outline} (isExchanged : kind ∈ NodeKind.exchanged)
    (noToken : kind ≠ .token) (count : kind.slots.length = parts.length)
    (each : ∀ slot part, (slot, part) ∈ kind.slots.zip parts → Fills slot.sort part) :
    Fills .node (.node kind parts)
  | optional {part : Outline} (isNode : Fills .node part) : Fills .optionalNode part

/-- Tokens that are read from a list fill slots for tokens. -/
theorem fills_of_tokensOfJsons {documents : List Json} {items : List Outline}
    (areTokens : tokensOfJsons documents = .ok items) : ∀ item ∈ items, Fills .token item := by
  induction documents generalizing items with
  | nil =>
    obtain rfl := Except.ok.inj areTokens
    exact List.forall_mem_nil _
  | cons document documents inductionHypothesis =>
    obtain ⟨token, isToken, areTokens⟩ := exists_of_bind_eq_ok areTokens
    obtain ⟨tokens, areFurther, areTokens⟩ := exists_of_bind_eq_ok areTokens
    obtain rfl := Except.ok.inj areTokens
    exact List.forall_mem_cons.mpr
      ⟨.token (TokenOutline.isSettled_of_ofJson isToken), inductionHypothesis areFurther⟩

/-- What is read as a list was an array, or reads as no items at all. -/
theorem items_or_nil_of_listOf {fault : DecodeError}
    {ofItems : List Json → Except DecodeError Outline} {document : Json} {outline : Outline}
    (isList : listOf fault ofItems document = .ok outline) :
    (∃ items, document = .array items ∧ ofItems items = .ok outline) ∨ outline = .list [] := by
  cases document with
  | array items => exact .inl ⟨items, rfl, isList⟩
  | string | object =>
    rw [listOf] at isList
    split at isList
    · exact .inr (Except.ok.inj isList).symm
    · cases isList
  | _ => cases isList

/-- What is read from a document for a slot fills the slot. -/
theorem fills_of_read {sort : SlotSort} {document : Json} {part : Outline}
    (nodeFills : ∀ {outline}, ofJson document = .ok outline → Fills .node outline)
    (isRead : sort.read document (ofJson document) = .ok part) : Fills sort part := by
  cases sort with
  | literal =>
    obtain ⟨value, isValue, rfl⟩ := exists_of_map_eq_ok isRead
    exact .literal (Json.isSettled_of_settled isValue)
  | token =>
    obtain ⟨token, isToken, rfl⟩ := exists_of_map_eq_ok isRead
    exact .token (TokenOutline.isSettled_of_ofJson isToken)
  | tokens =>
    obtain ⟨items, -, areItems⟩ | rfl := items_or_nil_of_listOf isRead
    · obtain ⟨tokens, areTokens, rfl⟩ := exists_of_map_eq_ok areItems
      exact .tokens (fills_of_tokensOfJsons areTokens)
    · exact .tokens (List.forall_mem_nil _)
  | node => exact nodeFills isRead
  | optionalNode => exact .optional (nodeFills isRead)
  | nodes =>
    obtain ⟨items, rfl, isNode⟩ | rfl := items_or_nil_of_listOf isRead
    · obtain ⟨outlines, -, rfl⟩ := exists_of_map_eq_ok isNode
      cases nodeFills isNode with
      | list each => exact .nodes each
    · exact .nodes (List.forall_mem_nil _)

/-- Everything that is a node among the members is one that was read. -/
def Proper (members : List Member) : Prop :=
  ∀ member ∈ members, member.outline = ofJson member.document ∧
    ∀ {outline}, ofJson member.document = .ok outline → Fills .node outline

/-- What is read for a slot fills it. -/
theorem fills_of_slot_read {slot : Slot} {members : List Member} {part : Outline}
    (proper : Proper members) (isRead : slot.read members = .ok part) :
    Fills slot.sort part := by
  obtain ⟨name, sort⟩ := slot
  unfold Slot.read at isRead
  cases found : Member.find? name members with
  | some member =>
    obtain ⟨isOutline, nodeFills⟩ := proper member (List.mem_of_find?_eq_some found)
    have isRead : sort.read member.document member.outline = .ok part := by
      rw [found] at isRead
      exact isRead
    rw [isOutline] at isRead
    exact fills_of_read nodeFills isRead
  | none =>
    rw [found] at isRead
    cases sort with
    | optionalNode =>
      obtain rfl := Except.ok.inj isRead
      exact .optional .absent
    | _ => cases isRead

/-- What is read for slots fills them, one after the other. -/
theorem fills_of_partsOf {slots : List Slot} {members : List Member} {parts : List Outline}
    (proper : Proper members) (areRead : partsOf members slots = .ok parts) :
    List.Forall₂ (fun slot part => Fills slot.sort part) slots parts := by
  induction slots generalizing parts with
  | nil =>
    obtain rfl := Except.ok.inj areRead
    exact .nil
  | cons slot slots inductionHypothesis =>
    obtain ⟨part, isRead, areRead⟩ := exists_of_bind_eq_ok areRead
    obtain ⟨further, areFurther, areRead⟩ := exists_of_bind_eq_ok areRead
    obtain rfl := Except.ok.inj areRead
    exact .cons (fills_of_slot_read proper isRead) (inductionHypothesis areFurther)

/-- A node that is read has what its kind has slots for. -/
theorem fills_of_assemble {kind : NodeKind} {members : List Member} {outline : Outline}
    (isExchanged : kind ∈ NodeKind.exchanged) (proper : Proper members)
    (isRead : assemble kind members = .ok outline) : Fills .node outline := by
  by_cases isToken : kind = .token
  · subst isToken
    obtain ⟨token, isToken, rfl⟩ := exists_of_map_eq_ok isRead
    exact .ofToken (TokenOutline.isSettled_of_ofFields isToken)
  · rw [assemble_of_ne_token isToken] at isRead
    obtain ⟨parts, areRead, rfl⟩ := exists_of_map_eq_ok isRead
    obtain ⟨count, each⟩ := List.forall₂_iff_zip.mp (fills_of_partsOf proper areRead)
    exact .node isExchanged isToken count fun _ _ => each

mutual

/-- Every outline that is read fills a slot for a node. -/
theorem fills_of_ofJson (document : Json) {outline : Outline}
    (isRead : ofJson document = .ok outline) : Fills .node outline := by
  cases document with
  | null =>
    obtain rfl := Except.ok.inj isRead
    exact .absent
  | array items =>
    obtain ⟨outlines, areRead, rfl⟩ := exists_of_map_eq_ok isRead
    exact .list (fills_of_ofJsons items areRead)
  | object fields =>
    obtain ⟨kind, isKind, isRead⟩ := exists_of_bind_eq_ok isRead
    exact fills_of_assemble (mem_exchanged_of_kindOfType isKind) (proper_membersOf fields) isRead
  | bool value | integer value | number value | string value => cases isRead

/-- Outlines that are read from a list fill slots for nodes. -/
theorem fills_of_ofJsons (documents : List Json) {outlines : List Outline}
    (areRead : ofJsons documents = .ok outlines) : ∀ outline ∈ outlines, Fills .node outline := by
  cases documents with
  | nil =>
    obtain rfl := Except.ok.inj areRead
    exact List.forall_mem_nil _
  | cons document documents =>
    rw [ofJsons] at areRead
    cases isRead : ofJson document with
    | error fault =>
      rw [isRead] at areRead
      cases areRead
    | ok outline =>
      rw [isRead] at areRead
      obtain ⟨outlines, areFurther, rfl⟩ := exists_of_map_eq_ok areRead
      exact List.forall_mem_cons.mpr
        ⟨fills_of_ofJson document isRead, fills_of_ofJsons documents areFurther⟩

/-- The members of a document fill slots for nodes, where they could be read as nodes. -/
theorem proper_membersOf (fields : List (String × Json)) : Proper (membersOf fields) := by
  cases fields with
  | nil => exact List.forall_mem_nil _
  | cons field fields =>
    obtain ⟨name, value⟩ := field
    exact List.forall_mem_cons.mpr
      ⟨⟨rfl, fun isRead => fills_of_ofJson value isRead⟩, proper_membersOf fields⟩

end

/-! ## What is written -/

/-- The outline is written for slots of the sort, and is read from what was written. -/
def ComesBack (sort : SlotSort) (part : Outline) : Prop :=
  ∃ document, sort.write part part.toJson = .ok document ∧
    sort.read document (ofJson document) = .ok part

/-- What comes back slot by slot comes back from the fields, whatever stands in front of these under
other names. -/
theorem exists_fieldsOf {slots : List Slot} {parts : List Outline}
    (comeBack : List.Forall₂ (fun slot part => ComesBack slot.sort part) slots parts)
    (distinct : (slots.map (·.name)).Nodup) :
    ∃ fields, fieldsOf slots parts = .ok fields ∧
      ∀ earlier : List (String × Json), (∀ slot ∈ slots, slot.name ∉ earlier.map Prod.fst) →
        partsOf (membersOf (earlier ++ fields)) slots = .ok parts := by
  induction comeBack with
  | nil => exact ⟨[], rfl, fun _ _ => rfl⟩
  | @cons slot part slots parts comesBack _ inductionHypothesis =>
    obtain ⟨notLater, distinct⟩ := List.nodup_cons.mp distinct
    obtain ⟨document, isWritten, isRead⟩ := comesBack
    obtain ⟨fields, areWritten, areRead⟩ := inductionHypothesis distinct
    refine ⟨(slot.name, document) :: fields, ?_, fun earlier notEarlier => ?_⟩
    · rw [fieldsOf, isWritten, areWritten]
      rfl
    · obtain ⟨notFirst, notEarlier⟩ := List.forall_mem_cons.mp notEarlier
      have found : Json.lookup slot.name (earlier ++ (slot.name, document) :: fields) =
          some document := by
        rw [Json.lookup_append_of_notMem notFirst, Json.lookup, if_pos rfl]
      have further : partsOf (membersOf (earlier ++ (slot.name, document) :: fields)) slots =
          .ok parts := by
        rw [List.append_cons]
        refine areRead _ fun other isOther => ?_
        have isNew : other.name ≠ slot.name := by
          intro isSame
          exact notLater (List.mem_map.mpr ⟨other, isOther, isSame⟩)
        simpa [isNew] using notEarlier other isOther
      rw [partsOf, slot_read_membersOf found, isRead, further]
      rfl

/-- A token comes back from its document. -/
theorem ofJson_token {token : TokenOutline} (isSettled : token.literal.IsSettled) :
    ofJson token.toJson = .ok (.token token) := by
  have isToken : TokenOutline.ofFields _ = .ok token := TokenOutline.ofJson_toJson isSettled
  have isObject : token.toJson = Node.objectOf .token _ := rfl
  rw [isObject, ofJson_objectOf (by decide), assemble, membersOf_fields]
  exact congrArg (·.map Outline.token) isToken

/-- A node comes back from its document if its parts do. -/
theorem comesBack_node {kind : NodeKind} {parts : List Outline}
    (isExchanged : kind ∈ NodeKind.exchanged) (noToken : kind ≠ .token)
    (comeBack : List.Forall₂ (fun slot part => ComesBack slot.sort part) kind.slots parts) :
    ComesBack .node (.node kind parts) := by
  obtain ⟨notType, distinct⟩ := List.nodup_cons.mp (slots_distinct kind)
  obtain ⟨fields, areWritten, areRead⟩ := exists_fieldsOf comeBack distinct
  have partsRead : partsOf (membersOf (("type", .string kind.name) :: fields)) kind.slots =
      .ok parts := by
    refine areRead [("type", .string kind.name)] fun slot isSlot => ?_
    rw [List.map_singleton, List.mem_singleton]
    exact fun isType => notType (List.mem_map.mpr ⟨slot, isSlot, isType⟩)
  refine ⟨Node.objectOf kind fields, ?_, ?_⟩
  · change toJson (.node kind parts) = _
    rw [toJson, areWritten]
    rfl
  · change ofJson _ = _
    rw [ofJson_objectOf isExchanged, assemble_of_ne_token noToken, partsRead]
    rfl

/-- Items that come back one by one are written together. -/
theorem exists_toJsons {comes : Json → Outline → Prop} {items : List Outline}
    (each : ∀ item ∈ items, ∃ document, item.toJson = .ok document ∧ comes document item) :
    ∃ documents, toJsons items = .ok documents ∧ List.Forall₂ comes documents items := by
  induction items with
  | nil => exact ⟨[], rfl, .nil⟩
  | cons item items inductionHypothesis =>
    obtain ⟨first, rest⟩ := List.forall_mem_cons.mp each
    obtain ⟨document, isWritten, comesBack⟩ := first
    obtain ⟨documents, areWritten, comeBack⟩ := inductionHypothesis rest
    refine ⟨document :: documents, ?_, .cons comesBack comeBack⟩
    rw [toJsons, isWritten, areWritten]
    rfl

/-- Outlines come back from a list if each of them does. -/
theorem ofJsons_of_forall₂ {documents : List Json} {items : List Outline}
    (areRead : List.Forall₂ (fun document item => ofJson document = .ok item) documents items) :
    ofJsons documents = .ok items := by
  induction areRead with
  | nil => rfl
  | cons isRead _ inductionHypothesis =>
    rw [ofJsons, isRead, inductionHypothesis]
    rfl

/-- Tokens come back from a list if each of them does. -/
theorem tokensOfJsons_of_forall₂ {documents : List Json} {items : List Outline}
    (areRead : List.Forall₂
      (fun document item => (TokenOutline.ofJson document).map Outline.token = .ok item)
      documents items) :
    tokensOfJsons documents = .ok items := by
  induction areRead with
  | nil => rfl
  | cons isRead _ inductionHypothesis =>
    obtain ⟨token, isToken, rfl⟩ := exists_of_map_eq_ok isRead
    rw [tokensOfJsons, isToken, inductionHypothesis]
    rfl

/-- A list of outlines comes back if each of them does. -/
theorem comesBack_list {items : List Outline} (each : ∀ item ∈ items, ComesBack .node item) :
    ComesBack .node (.list items) := by
  obtain ⟨documents, areWritten, areRead⟩ := exists_toJsons each
  refine ⟨.array documents, ?_, ?_⟩
  · change (toJsons items).map Json.array = _
    rw [areWritten]
    rfl
  · change (ofJsons documents).map Outline.list = _
    rw [ofJsons_of_forall₂ areRead]
    rfl

/-- A list of tokens comes back if each of them does. -/
theorem comesBack_tokens {items : List Outline} (fill : ∀ item ∈ items, Fills .token item)
    (each : ∀ item ∈ items, ComesBack .token item) : ComesBack .tokens (.list items) := by
  have areTokens : items.all (·.isToken) = true := by
    refine List.all_eq_true.mpr fun item isItem => ?_
    cases fill item isItem with
    | token => rfl
  have eachToken : ∀ item ∈ items, ∃ document, item.toJson = .ok document ∧
      (TokenOutline.ofJson document).map Outline.token = .ok item := by
    intro item isItem
    have comesBack := each item isItem
    cases fill item isItem with
    | token => exact comesBack
  obtain ⟨documents, areWritten, areRead⟩ := exists_toJsons eachToken
  refine ⟨.array documents, ?_, ?_⟩
  · change (if items.all (·.isToken) then (toJsons items).map Json.array else _) = _
    rw [if_pos areTokens, areWritten]
    rfl
  · change (tokensOfJsons documents).map Outline.list = _
    rw [tokensOfJsons_of_forall₂ areRead]
    rfl

/-- What reading puts into a slot is written and comes back. -/
theorem Fills.comesBack {sort : SlotSort} {part : Outline} (fills : Fills sort part) :
    ComesBack sort part := by
  induction fills with
  | @literal value isSettled =>
    refine ⟨value, rfl, ?_⟩
    change value.settled.map Outline.plain = _
    rw [isSettled.settled_eq]
    rfl
  | @token value isSettled =>
    refine ⟨value.toJson, rfl, ?_⟩
    change (TokenOutline.ofJson value.toJson).map Outline.token = _
    rw [TokenOutline.ofJson_toJson isSettled]
    rfl
  | tokens fill each => exact comesBack_tokens fill each
  | nodes _ each =>
    obtain ⟨document, isWritten, isRead⟩ := comesBack_list each
    obtain ⟨documents, -, rfl⟩ := exists_of_map_eq_ok isWritten
    exact ⟨.array documents, isWritten, isRead⟩
  | absent => exact ⟨.null, rfl, rfl⟩
  | list _ each => exact comesBack_list each
  | @ofToken value isSettled => exact ⟨value.toJson, rfl, ofJson_token isSettled⟩
  | node isExchanged noToken count _ each =>
    exact comesBack_node isExchanged noToken
      (List.forall₂_iff_zip.mpr ⟨count, fun isPair => each _ _ isPair⟩)
  | optional _ comesBack => exact comesBack

/-- Reading a document and writing what was read makes it normal, once and for all. Whatever outline
is read can be written, and what is written is read as the same outline, so that writing it again
changes nothing. Where a tree is read, it is the outline as a node, with the same document; only
fields that no program can have are refused then. -/
theorem normalizes_once :
    (∀ document outline, ofJson document = .ok outline →
      ∃ normal, outline.toJson = .ok normal ∧ ofJson normal = .ok outline) ∧
    (∀ document, Narrows (Node.ofJson document) Node.outline (ofJson document)) ∧
    ∀ node : Node, node.outline.toJson = .ok node.toJson := by
  refine ⟨fun document outline isRead => ?_, Node.narrows_ofJson, Node.toJson_outline⟩
  obtain ⟨normal, isWritten, isReadAgain⟩ := (fills_of_ofJson document isRead).comesBack
  exact ⟨normal, isWritten, isReadAgain⟩

/-- A call that cannot be run: a list in the place of its callee, an empty text in that of its
arguments, tokens without text and line, whole numbers, and a field too many. -/
theorem normalizes_once_irregular :
    let three : Json := .number (Number.ofRank false (Number.nearestRank 3 1))
    let plus (literal : List (String × Json)) : Json :=
      .object ([("kind", .string "PLUS"), ("lexeme", .integer 3), ("line", .array [])] ++ literal)
    let document : Json := .object [("arguments", .string ""), ("note", .bool true),
      ("type", .string "Call"), ("paren", plus [("literal", .integer 3)]),
      ("callee", .array [.null, .object [("value", .integer 3), ("type", .string "Literal")]])]
    let outline : Outline := .node .call
      [.list [.absent, .node .literal [.plain three]],
        .token ⟨.plus, .integer 3, three, .array []⟩, .list []]
    let normal : Json := .object [("type", .string "Call"),
      ("callee", .array [.null, .object [("type", .string "Literal"), ("value", three)]]),
      ("paren", .object [("type", .string "Token"), ("kind", .string "PLUS"),
        ("lexeme", .integer 3), ("literal", three), ("line", .array [])]),
      ("arguments", .array [])]
    ofJson document = .ok outline ∧ outline.toJson = .ok normal ∧ ofJson normal = .ok outline := by
  intro three plus document outline normal
  have isThree : (Json.integer 3).settled = .ok three := by
    have isFinite : ¬ Number.infiniteRank ≤ Number.nearestRank (Int.natAbs 3) 1 := by
      decide +kernel
    dsimp only [Json.settled, Literal.ofWhole]
    rw [if_neg isFinite]
    rfl
  have isPlus : TokenOutline.ofJson (plus [("literal", .integer 3)]) =
      .ok ⟨.plus, .integer 3, three, .array []⟩ := by
    change ((Json.integer 3).settled >>= _) = _
    rw [isThree]
    rfl
  have isRead : ofJson document = .ok outline := by
    simp [document, outline, ofJson, ofJsons, membersOf, Json.lookup, Node.kindOfType,
      NodeKind.ofName?, NodeKind.exchanged, NodeKind.name, assemble, partsOf, NodeKind.slots,
      Slot.read, SlotSort.read, Member.find?, listOf, isThree, isPlus, Except.map, bind,
      Except.bind, pure, Except.pure]
  have isWritten : outline.toJson = .ok normal := by rfl
  obtain ⟨written, isNormal, isReadAgain⟩ := normalizes_once.1 document outline isRead
  obtain rfl : normal = written := Except.ok.inj (isWritten.symm.trans isNormal)
  exact ⟨isRead, isWritten, isReadAgain⟩

end Outline
end LoxLang
