import LoxLang.Proofs.Syntax.RoundTrip
import LoxLang.Syntax.Outline

/-!
# Reading outlines

How outlines are read: the members of an object are its fields, each of which is found under its
name, and an object of a kind is put together from what is in its slots.
-/

namespace LoxLang

section Results

variable {ε α β : Type} {result : Except ε α} {last : β}

/-- What came of two readings one after the other came of both. -/
theorem exists_of_bind_eq_ok {next : α → Except ε β} (isLast : result >>= next = .ok last) :
    ∃ value, result = .ok value ∧ next value = .ok last := by
  cases result with
  | error fault => cases isLast
  | ok value => exact ⟨value, rfl, isLast⟩

/-- What came of a reading that was changed came of the reading. -/
theorem exists_of_map_eq_ok {function : α → β} (isLast : result.map function = .ok last) :
    ∃ value, result = .ok value ∧ function value = last := by
  cases result with
  | error fault => cases isLast
  | ok value => exact ⟨value, rfl, Except.ok.inj isLast⟩

end Results

/-- A name that is not among the earlier fields is looked up in the others. -/
theorem Json.lookup_append_of_notMem {name : String} {earlier : List (String × Json)}
    (notEarlier : name ∉ earlier.map Prod.fst) (fields : List (String × Json)) :
    lookup name (earlier ++ fields) = lookup name fields := by
  induction earlier with
  | nil => rfl
  | cons field earlier inductionHypothesis =>
    obtain ⟨notFirst, notEarlier⟩ := List.ne_and_not_mem_of_not_mem_cons notEarlier
    rw [List.cons_append, lookup, if_neg notFirst.symm]
    exact inductionHypothesis notEarlier

namespace Outline

/-! ## Members -/

/-- A member with a name is the field with that name, read as an outline. -/
theorem find?_membersOf (name : String) (fields : List (String × Json)) :
    Member.find? name (membersOf fields) =
      (Json.lookup name fields).map fun document => ⟨name, document, ofJson document⟩ := by
  induction fields with
  | nil => rfl
  | cons field fields inductionHypothesis =>
    obtain ⟨found, document⟩ := field
    by_cases isName : found = name
    · simp [membersOf, Member.find?, Json.lookup, isName]
    · simpa [membersOf, Member.find?, Json.lookup, isName] using inductionHypothesis

/-- The members of an object are its fields. -/
theorem membersOf_fields (fields : List (String × Json)) :
    (membersOf fields).map (fun member => (member.name, member.document)) = fields := by
  induction fields with
  | nil => rfl
  | cons field fields inductionHypothesis =>
    rw [membersOf, List.map_cons, inductionHypothesis]

/-- A slot is read from the field with its name. -/
theorem slot_read_membersOf {slot : Slot} {fields : List (String × Json)} {document : Json}
    (found : Json.lookup slot.name fields = some document) :
    slot.read (membersOf fields) = slot.sort.read document (ofJson document) := by
  unfold Slot.read
  rw [find?_membersOf, found]
  rfl

/-! ## Objects -/

/-- The slots of a node are told apart by their names, and none of them is called `type`. -/
theorem slots_distinct (kind : NodeKind) : ("type" :: kind.slots.map (·.name)).Nodup := by
  cases kind <;> decide

/-- A type that is read is one that is exchanged. -/
theorem mem_exchanged_of_kindOfType {type : Json} {kind : NodeKind}
    (isKind : Node.kindOfType type = .ok kind) : kind ∈ NodeKind.exchanged := by
  unfold Node.kindOfType at isKind
  split at isKind
  · split at isKind
    next found =>
      obtain rfl := Except.ok.inj isKind
      exact List.mem_of_find?_eq_some found
    next => cases isKind
  · cases isKind

/-- A node is assembled from its slots, unless it is a token. -/
theorem assemble_of_ne_token {kind : NodeKind} (noToken : kind ≠ .token) (members : List Member) :
    assemble kind members = (partsOf members kind.slots).map (.node kind) := by
  cases kind with
  | token => exact absurd rfl noToken
  | _ => rfl

/-- An object with a type is assembled as a node of that kind. -/
theorem ofJson_objectOf {kind : NodeKind} (isExchanged : kind ∈ NodeKind.exchanged)
    (fields : List (String × Json)) :
    ofJson (Node.objectOf kind fields) =
      assemble kind (membersOf (("type", .string kind.name) :: fields)) := by
  rw [Node.objectOf, ofJson, Json.lookup, if_pos rfl, Option.getD_some,
    Node.kindOfType_name isExchanged]
  rfl

end Outline
end LoxLang
