import LoxLang.Proofs.Json.Atom
import LoxLang.Text.Lines

/-!
# Reading back documents

A document is read back from its text, whatever stands in its strings and whichever doubles it
holds, if its objects have distinct names and its whole numbers are no longer than the reader takes.
-/

namespace LoxLang.Json

/-! ## Strings -/

/-- A character below the surrogates is no first half of one. -/
private theorem lowHalf?_of_lt {point : Nat} (isLow : point < 0xD800) (text : List Char) :
    lowHalf? point text = none := by
  have notHigh : ¬0xD800 ≤ point := by omega
  unfold lowHalf?
  split
  next =>
    split
    next => simp [notHigh]
    next => rfl
  next => rfl

/-- The number that digits spell if they are four and hexadecimal. -/
private def hexText? : List Char → Option Nat
  | [first, second, third, fourth] => hexNumber? first second third fourth
  | _ => none

/-- A control character is read back from its four digits. -/
private theorem hexDigits_read {point : Nat} (small : point < 0x20) :
    ∃ first second third fourth, Text.hexDigits 4 point = [first, second, third, fourth] ∧
      hexNumber? first second third fourth = some point := by
  have checked : ∀ point < 0x20, hexText? (Text.hexDigits 4 point) = some point := by decide
  have read := checked point small
  unfold hexText? at read
  split at read
  next first second third fourth isHex => exact ⟨first, second, third, fourth, isHex, read⟩
  next => cases read

/-- A character is written as a short escape, as its code point, or as it is. -/
private theorem escaped_cases (character : Char) :
    (∃ letter, escaped character = ['\\', letter] ∧ letter ≠ 'u' ∧
      shortEscape? letter = some character) ∨
    (∃ first second third fourth,
      escaped character = ['\\', 'u', first, second, third, fourth] ∧
        hexNumber? first second third fourth = some character.toNat ∧ character.toNat < 0x20) ∨
    (escaped character = [character] ∧ character ≠ '"' ∧ character ≠ '\\' ∧
      ¬character.toNat < 0x20) := by
  unfold escaped
  split
  next isSpecial =>
    left
    rcases isSpecial with rfl | rfl
    · exact ⟨'"', rfl, by decide, rfl⟩
    · exact ⟨'\\', rfl, by decide, rfl⟩
  next notSpecial =>
    split
    next isLineFeed => exact .inl ⟨'n', rfl, by decide, isLineFeed ▸ rfl⟩
    split
    next isReturn => exact .inl ⟨'r', rfl, by decide, isReturn ▸ rfl⟩
    split
    next isTab => exact .inl ⟨'t', rfl, by decide, isTab ▸ rfl⟩
    split
    next isBackspace => exact .inl ⟨'b', rfl, by decide, isBackspace ▸ rfl⟩
    split
    next isFormFeed => exact .inl ⟨'f', rfl, by decide, isFormFeed ▸ rfl⟩
    split
    next isControl =>
      obtain ⟨first, second, third, fourth, isHex, isPoint⟩ :=
        hexDigits_read isControl
      exact .inr (.inl ⟨first, second, third, fourth, by rw [isHex], isPoint, isControl⟩)
    next isPlain =>
      exact .inr (.inr ⟨rfl, fun isQuote => notSpecial (.inl isQuote),
        fun isSlash => notSpecial (.inr isSlash), isPlain⟩)

/-- An escaped character is read as the character. -/
private theorem stringOnto_escaped (read : List Char) (unit : Char) (budget : List Char)
    (character : Char) (rest : List Char) :
    stringOnto read (unit :: budget) (escaped character ++ rest) =
      stringOnto (character :: read) budget rest := by
  rcases escaped_cases character with ⟨letter, isEscape, notPoint, short⟩ |
    ⟨first, second, third, fourth, isEscape, isPoint, small⟩ | ⟨isPlain, notQuote, notSlash, large⟩
  · rw [isEscape]
    simp only [List.cons_append, List.nil_append]
    rw [stringOnto, short]
    exact fun _ _ _ _ _ isPoint => absurd isPoint notPoint
  · rw [isEscape]
    simp only [List.cons_append, List.nil_append]
    rw [stringOnto, isPoint]
    simp only [lowHalf?_of_lt (by omega : character.toNat < 0xD800)]
    have isCharacter : characterOf character.toNat = character := by
      rw [characterOf, if_neg (by omega), Char.ofNat_toNat]
    rw [isCharacter]
  · rw [isPlain]
    simp only [List.cons_append, List.nil_append]
    rw [stringOnto]
    · simp [notQuote, notSlash, large]
    · exact fun _ _ _ _ _ isSlash => absurd isSlash notSlash
    · exact fun _ _ isSlash => absurd isSlash notSlash

/-- A string is read back character by character; what was read is kept in front, the last one
first. -/
private theorem stringOnto_flatMap (content : List Char) (rest : List Char) :
    ∀ read budget : List Char, content.length < budget.length →
      stringOnto read budget (content.flatMap escaped ++ '"' :: rest) =
        .ok (.ofList (read.reverse ++ content), rest) := by
  induction content with
  | nil =>
    intro read budget enough
    cases budget with
    | nil => cases enough
    | cons unit budget =>
      rw [List.append_nil]
      rfl
  | cons character content inductionHypothesis =>
    intro read budget enough
    cases budget with
    | nil => cases enough
    | cons unit budget =>
      rw [List.flatMap_cons, List.append_assoc, stringOnto_escaped,
        inductionHypothesis _ _ (Nat.lt_of_succ_lt_succ enough), List.reverse_cons,
        List.append_assoc, List.singleton_append]

/-- To write a character takes one character at least, so that the text is budget enough for its
reading. -/
private theorem length_le_flatMap_escaped (content : List Char) :
    content.length ≤ (content.flatMap escaped).length := by
  induction content with
  | nil => exact Nat.le_refl 0
  | cons character content inductionHypothesis =>
    have some : 1 ≤ (escaped character).length := by
      rcases escaped_cases character with ⟨_, isEscape, -⟩ | ⟨_, _, _, _, isEscape, -⟩ |
        ⟨isPlain, -⟩
      · simp [isEscape]
      · simp [isEscape]
      · simp [isPlain]
    rw [List.flatMap_cons, List.length_append, List.length_cons]
    omega

/-- Every string is read back. -/
theorem stringAfterQuote_escaped (string : String) (rest : List Char) :
    stringAfterQuote (string.toList.flatMap escaped ++ '"' :: rest) = .ok (string, rest) := by
  have enough := length_le_flatMap_escaped string.toList
  rw [stringAfterQuote, stringOnto_flatMap, List.reverse_nil, List.nil_append,
    String.ofList_toList]
  rw [List.length_append, List.length_cons]
  omega

/-! ## Objects -/

/-- A field with a new name comes last. -/
private theorem put_of_new {name : String} {value : Json} {fields : List (String × Json)}
    (isNew : name ∉ fields.map Prod.fst) : put name value fields = fields ++ [(name, value)] := by
  induction fields with
  | nil => rfl
  | cons field fields inductionHypothesis =>
    rw [List.map_cons, List.mem_cons, not_or] at isNew
    rw [put, if_neg (Ne.symm isNew.1), inductionHypothesis isNew.2, List.cons_append]

/-- Fields with distinct names are put one behind the other. -/
private theorem foldl_put (fields : List (String × Json)) :
    ∀ written : List (String × Json), ((written ++ fields).map Prod.fst).Nodup →
      fields.foldl (fun written field => put field.1 field.2 written) written =
        written ++ fields := by
  induction fields with
  | nil => exact fun written _ => (List.append_nil written).symm
  | cons field fields inductionHypothesis =>
    intro written distinct
    have isNew : field.1 ∉ written.map Prod.fst := by
      rw [List.map_append, List.nodup_append] at distinct
      intro isOld
      exact distinct.2.2 _ isOld _ List.mem_cons_self rfl
    rw [List.foldl_cons, put_of_new isNew, inductionHypothesis _ (by simpa using distinct),
      List.append_assoc, List.singleton_append]

/-- Fields with distinct names are the fields of an object as they are. -/
theorem ofFields_of_nodup {fields : List (String × Json)}
    (distinct : (fields.map Prod.fst).Nodup) : ofFields fields = .object fields := by
  rw [ofFields, foldl_put fields [] distinct, List.nil_append]

/-! ## Documents -/

/-- The names within an object are distinct, and no whole number has more digits than are read. -/
inductive Readable : Json → Prop where
  | null : Readable .null
  | bool (value : Bool) : Readable (.bool value)
  | integer {value : Int} (few : (Number.digits value.natAbs).length ≤ digitLimit) :
    Readable (.integer value)
  | number (value : Float) : Readable (.number value)
  | string (value : String) : Readable (.string value)
  | array {items : List Json} (readable : ∀ item ∈ items, Readable item) : Readable (.array items)
  | object {fields : List (String × Json)} (distinct : (fields.map Prod.fst).Nodup)
    (readable : ∀ field ∈ fields, Readable field.2) : Readable (.object fields)

section Documents

variable {gap : Nat → List Char}

/-- Blanks are skipped up to what is no blank. -/
private theorem skipGap_blanks {blanks : List Char}
    (areBlank : ∀ blank ∈ blanks, isGap blank = true) {first : Char}
    (notBlank : isGap first = false) (rest : List Char) :
    skipGap (blanks ++ first :: rest) = first :: rest := by
  rw [skipGap, List.dropWhile_append_of_pos areBlank]
  exact List.dropWhile_cons_of_neg (by simp [notBlank])

/-- Where no blank stands, nothing is skipped. -/
private theorem skipGap_cons {first : Char} (notBlank : isGap first = false) (rest : List Char) :
    skipGap (first :: rest) = first :: rest :=
  skipGap_blanks (List.forall_mem_nil _) notBlank rest

/-- Blanks in front do not keep a number from ending. -/
private theorem endsNumber_blanks {blanks text : List Char}
    (areBlank : ∀ blank ∈ blanks, isGap blank = true) (ends : EndsNumber text) :
    EndsNumber (blanks ++ text) := by
  cases blanks with
  | nil => exact ends
  | cons blank blanks =>
    apply endsNumber_cons
    have isBlank := areBlank blank List.mem_cons_self
    simp only [isGap, Bool.or_eq_true, decide_eq_true_eq] at isBlank
    rcases isBlank with ((rfl | rfl) | rfl) | rfl <;> decide

/-- A document is written without a blank in front, and not like the end of a list. -/
theorem characters_begin (gap : Nat → List Char) (depth : Nat) (document : Json) :
    ∃ first rest, characters gap depth document = first :: rest ∧ isGap first = false ∧
      first ≠ ']' := by
  cases document with
  | null => exact ⟨'n', _, by rw [characters]; rfl, rfl, by decide⟩
  | bool value =>
    cases value with
    | false => exact ⟨'f', _, by rw [characters]; rfl, rfl, by decide⟩
    | true => exact ⟨'t', _, by rw [characters]; rfl, rfl, by decide⟩
  | integer value =>
    obtain ⟨first, rest, isText, begins⟩ := integer_begins value
    exact ⟨first, rest, by rw [characters, isText], begins.1, begins.2.1⟩
  | number value =>
    obtain ⟨first, rest, isText, begins⟩ := number_begins value
    exact ⟨first, rest, by rw [characters, isText], begins.1, begins.2.1⟩
  | string value => exact ⟨'"', _, by rw [characters, stringText]; rfl, rfl, by decide⟩
  | array items => cases items <;> exact ⟨'[', _, by rw [characters]; try rfl, rfl, by decide⟩
  | object fields => cases fields <;> exact ⟨'\x7b', _, by rw [characters]; try rfl, rfl, by decide⟩

/-- The text of a document is read back in front of anything that does not go on with a number. -/
private def ReadsBack (gap : Nat → List Char) (document : Json) : Prop :=
  ∀ (depth fuel : Nat) (rest : List Char), EndsNumber rest →
    (characters gap depth document).length ≤ fuel →
      value fuel (characters gap depth document ++ rest) = .ok (document, rest)

/-- An atom is read back, since the text of a document begins differently for every sort. -/
private theorem readsBack_atom {document : Json} {text : List Char}
    (isText : ∀ depth, characters gap depth document = text)
    (begins : ∃ first rest, text = first :: rest ∧ BeginsAtom first)
    (isRead : ∀ rest, EndsNumber rest → atom (text ++ rest) = .ok (document, rest)) :
    ReadsBack gap document := by
  intro depth fuel rest ends enough
  obtain ⟨first, tail, rfl, -, -, notQuote, notBracket, notBrace⟩ := begins
  have read := isRead rest ends
  rw [isText] at enough ⊢
  cases fuel with
  | zero => cases enough
  | succ fuel =>
    rw [List.cons_append] at read ⊢
    rw [value]
    · exact read
    · exact fun _ isHead => notQuote (List.cons.inj isHead).1
    · exact fun _ isHead => notBracket (List.cons.inj isHead).1
    · exact fun _ isHead => notBrace (List.cons.inj isHead).1

/-- A string is read back. -/
private theorem readsBack_string (string : String) : ReadsBack gap (.string string) := by
  intro depth fuel rest _ enough
  rw [characters, stringText] at enough ⊢
  cases fuel with
  | zero => cases enough
  | succ fuel =>
    simp only [List.cons_append, List.append_assoc, List.nil_append]
    rw [value, stringAfterQuote_escaped]

section Blanks

variable (areBlank : ∀ depth, ∀ blank ∈ gap depth, isGap blank = true)

include areBlank

/-- The blanks in front of a document are skipped. -/
private theorem skipGap_characters (depth : Nat) (document : Json) (rest : List Char) :
    skipGap (gap depth ++ (characters gap depth document ++ rest)) =
      characters gap depth document ++ rest := by
  obtain ⟨first, tail, isText, notBlank, -⟩ := characters_begin gap depth document
  rw [isText, List.cons_append]
  exact skipGap_blanks (areBlank depth) notBlank _

/-- Items behind each other are read back, by induction on them; what was read is kept in front. -/
private theorem itemsOnto_characters (depth outer : Nat) (rest : List Char) (items : List Json) :
    ∀ item : Json, (∀ other ∈ item :: items, ReadsBack gap other) →
      ∀ (read : List Json) (fuel : Nat),
        (characters gap depth item).length + (itemsText gap depth items).length < fuel →
          itemsOnto fuel read (characters gap depth item ++ (itemsText gap depth items ++
            (gap outer ++ ']' :: rest))) = .ok (.array (read.reverse ++ item :: items), rest) := by
  induction items with
  | nil =>
    intro item readsBack read fuel enough
    have ends : EndsNumber (gap outer ++ ']' :: rest) :=
      endsNumber_blanks (areBlank outer) (endsNumber_cons _ (by decide))
    cases fuel with
    | zero => cases enough
    | succ fuel =>
      have readItem := readsBack item List.mem_cons_self depth fuel _ ends (by omega)
      rw [itemsText, List.nil_append, itemsOnto, readItem]
      simp only [skipGap_blanks (areBlank outer) (show isGap ']' = false from rfl),
        List.reverse_cons]
  | cons next items inductionHypothesis =>
    intro item readsBack read fuel enough
    rw [itemsText] at enough
    simp only [List.length_cons, List.length_append] at enough
    cases fuel with
    | zero => cases enough
    | succ fuel =>
      have readItem := readsBack item List.mem_cons_self depth fuel
        (',' :: (gap depth ++ (characters gap depth next ++ (itemsText gap depth items ++
          (gap outer ++ ']' :: rest))))) (endsNumber_cons _ (by decide)) (by omega)
      rw [itemsText]
      simp only [List.cons_append, List.append_assoc]
      rw [itemsOnto, readItem]
      simp only [skipGap_cons (show isGap ',' = false from rfl), skipGap_characters areBlank]
      rw [inductionHypothesis next (fun other isIn => readsBack other (List.mem_cons_of_mem _ isIn))
        _ _ (by omega), List.reverse_cons, List.append_assoc, List.singleton_append]

omit areBlank in
/-- The next field is read with its name and its item, up to what stands behind it. -/
private theorem fieldsOnto_field {name : String} {item : Json} (readsBack : ReadsBack gap item)
    {depth fuel : Nat} (enough : (characters gap depth item).length ≤ fuel)
    {tail : List Char} (ends : EndsNumber tail) (read : List (String × Json)) :
    fieldsOnto (fuel + 1) read
        (stringText name ++ ':' :: ' ' :: (characters gap depth item ++ tail)) =
      match skipGap tail with
      | ',' :: rest => fieldsOnto fuel ((name, item) :: read) (skipGap rest)
      | '\x7d' :: rest => .ok (.ofFields ((name, item) :: read).reverse, rest)
      | _ => .error .malformed := by
  have blank : skipGap (' ' :: (characters gap depth item ++ tail)) =
      characters gap depth item ++ tail := by
    obtain ⟨first, others, isText, notBlank, -⟩ := characters_begin gap depth item
    have isBlank : ∀ blank ∈ [' '], isGap blank = true := by
      intro blank isIn
      rw [List.mem_singleton.mp isIn]
      rfl
    rw [isText, List.cons_append]
    exact skipGap_blanks isBlank notBlank _
  have readsItem : value fuel (skipGap (' ' :: (characters gap depth item ++ tail))) =
      .ok (item, tail) := by
    rw [blank]
    exact readsBack depth fuel tail ends enough
  simp only [stringText, List.cons_append, List.append_assoc, List.nil_append]
  rw [fieldsOnto, stringAfterQuote_escaped]
  dsimp only
  rw [skipGap_cons rfl]
  split
  case h_1 rest isColon =>
    rw [← (List.cons.inj isColon).2]
    rewrite [readsItem]
    rfl
  case h_2 noColon => exact absurd rfl (noColon _)

/-- Fields behind each other are read back, by induction on them; what was read is kept in front. -/
private theorem fieldsOnto_characters (depth outer : Nat) (rest : List Char)
    (fields : List (String × Json)) :
    ∀ (name : String) (item : Json), (∀ field ∈ (name, item) :: fields, ReadsBack gap field.2) →
      ∀ (read : List (String × Json)) (fuel : Nat),
        (characters gap depth item).length + (fieldsText gap depth fields).length < fuel →
          fieldsOnto fuel read (stringText name ++ ':' :: ' ' :: (characters gap depth item ++
            (fieldsText gap depth fields ++ (gap outer ++ '\x7d' :: rest)))) =
            .ok (.ofFields (read.reverse ++ (name, item) :: fields), rest) := by
  -- The induction is on the fields behind the first, each of which has a comma in front of it.
  induction fields with
  | nil =>
    intro name item readsBack read fuel enough
    have ends : EndsNumber (gap outer ++ '\x7d' :: rest) :=
      endsNumber_blanks (areBlank outer) (endsNumber_cons _ (by decide))
    cases fuel with
    | zero => cases enough
    | succ fuel =>
      have readsItem : ReadsBack gap item := readsBack _ List.mem_cons_self
      rw [fieldsText, List.nil_append, fieldsOnto_field readsItem (by omega) ends]
      simp only [skipGap_blanks (areBlank outer) (show isGap '\x7d' = false from rfl),
        List.reverse_cons]
  | cons next fields inductionHypothesis =>
    obtain ⟨nextName, nextItem⟩ := next
    intro name item readsBack read fuel enough
    have name_begins (text : List Char) : skipGap (gap depth ++ (stringText nextName ++ text)) =
        stringText nextName ++ text :=
      skipGap_blanks (areBlank depth) (show isGap '"' = false from rfl) _
    rw [fieldsText] at enough ⊢
    simp only [List.length_cons, List.length_append] at enough
    cases fuel with
    | zero => cases enough
    | succ fuel =>
      have readsItem : ReadsBack gap item := readsBack _ List.mem_cons_self
      simp only [List.cons_append, List.append_assoc]
      rw [fieldsOnto_field readsItem (by omega) (endsNumber_cons _ (by decide))]
      simp only [skipGap_cons (show isGap ',' = false from rfl), name_begins]
      rw [inductionHypothesis nextName nextItem
        (fun field isIn => readsBack field (List.mem_cons_of_mem _ isIn)) _ _ (by omega),
        List.reverse_cons, List.append_assoc, List.singleton_append]

/-- An array is read back if its items are. -/
private theorem readsBack_array {items : List Json}
    (readsBack : ∀ item ∈ items, ReadsBack gap item) : ReadsBack gap (.array items) := by
  intro depth fuel rest _ enough
  cases fuel with
  | zero =>
    obtain ⟨first, tail, isText, -⟩ := characters_begin gap depth (.array items)
    rw [isText] at enough
    cases enough
  | succ fuel =>
    cases items with
    | nil =>
      rw [characters]
      simp only [List.cons_append, List.nil_append]
      rw [value]
      rfl
    | cons item items =>
      rw [characters] at enough ⊢
      simp only [List.length_cons, List.length_append, List.length_nil] at enough
      simp only [List.cons_append, List.append_assoc, List.nil_append]
      obtain ⟨first, tail, isText, -, notEnd⟩ := characters_begin gap (depth + 1) item
      rw [value, skipGap_characters areBlank]
      split
      next isEnd =>
        rw [isText, List.cons_append] at isEnd
        exact absurd (List.cons.inj isEnd).1 notEnd
      next => rw [itemsOnto_characters areBlank _ _ _ _ _ readsBack _ _ (by omega)]; rfl

/-- An object is read back if its fields are and their names are distinct. -/
private theorem readsBack_object {fields : List (String × Json)}
    (distinct : (fields.map Prod.fst).Nodup)
    (readsBack : ∀ field ∈ fields, ReadsBack gap field.2) : ReadsBack gap (.object fields) := by
  intro depth fuel rest _ enough
  cases fuel with
  | zero =>
    obtain ⟨first, tail, isText, -⟩ := characters_begin gap depth (.object fields)
    rw [isText] at enough
    cases enough
  | succ fuel =>
    cases fields with
    | nil =>
      rw [characters]
      simp only [List.cons_append, List.nil_append]
      rw [value]
      rfl
    | cons field fields =>
      obtain ⟨name, item⟩ := field
      have name_begins (text : List Char) :
          skipGap (gap (depth + 1) ++ (stringText name ++ text)) = stringText name ++ text :=
        skipGap_blanks (areBlank _) (show isGap '"' = false from rfl) _
      rw [characters] at enough ⊢
      simp only [List.length_cons, List.length_append, List.length_nil] at enough
      simp only [List.cons_append, List.append_assoc, List.nil_append]
      rw [value, name_begins]
      split
      next isEnd => exact absurd (List.cons.inj isEnd).1 (by decide)
      next =>
        rw [fieldsOnto_characters areBlank _ _ _ _ _ _ readsBack _ _ (by omega)]
        rw [List.reverse_nil, List.nil_append, ofFields_of_nodup distinct]

/-- Every readable document is read back from its text. -/
private theorem readsBack_readable {document : Json} (readable : document.Readable) :
    ReadsBack gap document := by
  induction readable with
  | null =>
    refine readsBack_atom (fun _ => by rw [characters]) ?_ fun rest _ => atom_null rest
    exact ⟨'n', _, rfl, by unfold BeginsAtom; decide⟩
  | bool value =>
    refine readsBack_atom (fun _ => by rw [characters]) ?_ fun rest _ => atom_bool value rest
    cases value with
    | false => exact ⟨'f', _, rfl, by unfold BeginsAtom; decide⟩
    | true => exact ⟨'t', _, rfl, by unfold BeginsAtom; decide⟩
  | integer few =>
    exact readsBack_atom (fun _ => by rw [characters]) (integer_begins _)
      fun rest ends => atom_integer _ few ends
  | number value =>
    exact readsBack_atom (fun _ => by rw [characters]) (number_begins value)
      fun rest ends => atom_number value ends
  | string value => exact readsBack_string value
  | array readable inductionHypothesis => exact readsBack_array areBlank inductionHypothesis
  | object distinct readable inductionHypothesis =>
    exact readsBack_object areBlank distinct inductionHypothesis

end Blanks

end Documents

/-- A readable document in its indented form is read back. -/
theorem ofText_indented {document : Json} (readable : document.Readable) :
    ofText document.indented = .ok document := by
  have areBlank : ∀ depth, ∀ blank ∈ indentation depth, isGap blank = true := by
    intro depth blank isIn
    rcases List.mem_cons.mp isIn with rfl | isIn
    · rfl
    · rw [List.eq_of_mem_replicate isIn]
      rfl
  obtain ⟨first, tail, isText, notBlank, -⟩ := characters_begin indentation 0 document
  have noGap : skipGap (characters indentation 0 document) = characters indentation 0 document := by
    rw [isText]
    exact skipGap_cons notBlank tail
  have read := readsBack_readable areBlank readable 0
    ((characters indentation 0 document).length + 1) [] endsNumber_nil (Nat.le_succ _)
  rw [List.append_nil] at read
  simp only [ofText, indented, String.toList_ofList, noGap, read]
  rfl

/-! ## Line ends -/

section LineEnds

/-- Digits that make a number have values. -/
private theorem hexValue?_of_hexNumber? {first second third fourth : Char} {point : Nat}
    (isPoint : hexNumber? first second third fourth = some point) :
    ∀ digit ∈ [first, second, third, fourth], hexValue? digit ≠ none := by
  simp only [hexNumber?, bind, Option.bind_eq_some_iff] at isPoint
  obtain ⟨_, isFirst, _, isSecond, _, isThird, _, isFourth, -⟩ := isPoint
  simp [isFirst, isSecond, isThird, isFourth]

/-- A character is written without a return, which has an escape of its own. -/
private theorem return_not_mem_escaped (character : Char) : '\r' ∉ escaped character := by
  rcases escaped_cases character with ⟨letter, isEscape, -, short⟩ |
    ⟨first, second, third, fourth, isEscape, isPoint, -⟩ | ⟨isPlain, -, -, large⟩
  · rw [isEscape]
    rintro (_ | ⟨_, _ | ⟨_, ⟨⟩⟩⟩)
    cases short
  · rw [isEscape]
    rintro (_ | ⟨_, _ | ⟨_, isIn⟩⟩)
    exact hexValue?_of_hexNumber? isPoint '\r' isIn rfl
  · rw [isPlain, List.mem_singleton]
    rintro rfl
    exact large (by decide)

/-- A string is written without a return. -/
private theorem return_not_mem_stringText (string : String) : '\r' ∉ stringText string := by
  intro isIn
  rcases List.mem_append.mp isIn with isIn | isIn
  · rcases List.mem_cons.mp isIn with isQuote | isIn
    · exact absurd isQuote (by decide)
    · obtain ⟨character, -, isEscaped⟩ := List.mem_flatMap.mp isIn
      exact return_not_mem_escaped character isEscaped
  · exact absurd (List.mem_singleton.mp isIn) (by decide)

variable {gap : Nat → List Char} (unbroken : ∀ depth, '\r' ∉ gap depth)

include unbroken

/-- Items are written without a return if each of them is. -/
private theorem return_not_mem_itemsText (depth : Nat) {items : List Json}
    (others : ∀ item ∈ items, ∀ depth, '\r' ∉ characters gap depth item) :
    '\r' ∉ itemsText gap depth items := by
  induction items with
  | nil => simp [itemsText]
  | cons item items inductionHypothesis =>
    have rest := inductionHypothesis fun other isIn => others other (List.mem_cons_of_mem _ isIn)
    simp [itemsText, unbroken depth, others item List.mem_cons_self depth, rest]

/-- Fields are written without a return if each of them is. -/
private theorem return_not_mem_fieldsText (depth : Nat) {fields : List (String × Json)}
    (others : ∀ field ∈ fields, ∀ depth, '\r' ∉ characters gap depth field.2) :
    '\r' ∉ fieldsText gap depth fields := by
  induction fields with
  | nil => simp [fieldsText]
  | cons field fields inductionHypothesis =>
    have rest := inductionHypothesis fun other isIn => others other (List.mem_cons_of_mem _ isIn)
    simp [fieldsText, unbroken depth, others field List.mem_cons_self depth, rest,
      return_not_mem_stringText]

/-- No carriage return is written, whatever stands in the strings. -/
theorem return_not_mem_characters {document : Json} (readable : document.Readable) :
    ∀ depth, '\r' ∉ characters gap depth document := by
  induction readable with
  | null =>
    intro depth
    simp [characters]
  | bool value =>
    intro depth
    cases value <;> simp [characters]
  | integer few =>
    intro depth
    rw [characters]
    exact return_not_mem_integer _
  | number value =>
    intro depth
    rw [characters]
    exact return_not_mem_number value
  | string value =>
    intro depth
    rw [characters]
    exact return_not_mem_stringText value
  | @array items readable inductionHypothesis =>
    intro depth
    cases items with
    | nil => simp [characters]
    | cons item items =>
      have rest := return_not_mem_itemsText unbroken (depth + 1) fun other isIn =>
        inductionHypothesis other (List.mem_cons_of_mem _ isIn)
      simp [characters, unbroken, inductionHypothesis item List.mem_cons_self, rest]
  | @object fields distinct readable inductionHypothesis =>
    intro depth
    cases fields with
    | nil => simp [characters]
    | cons field fields =>
      have rest := return_not_mem_fieldsText unbroken (depth + 1) fun other isIn =>
        inductionHypothesis other (List.mem_cons_of_mem _ isIn)
      simp [characters, unbroken, inductionHypothesis field List.mem_cons_self, rest,
        return_not_mem_stringText]

end LineEnds

/-- Reading a text does not change it if it has no carriage returns. -/
theorem normalizeNewlines_of_not_mem {text : List Char} (unbroken : '\r' ∉ text) :
    Text.normalizeNewlines text = text := by
  fun_induction Text.normalizeNewlines text with
  | case1 => rfl
  | case2 rest => exact absurd List.mem_cons_self unbroken
  | case3 character rest notBoth inductionHypothesis =>
    rw [List.mem_cons, not_or] at unbroken
    rw [if_neg (Ne.symm unbroken.1), inductionHypothesis unbroken.2]

/-- The text of a readable document is the same after its line ends have been normalized. -/
theorem normalizeNewlines_indented {document : Json} (readable : document.Readable) :
    String.ofList (Text.normalizeNewlines document.indented.toList) = document.indented := by
  have unbroken : ∀ depth, '\r' ∉ indentation depth := by
    intro depth
    simp [indentation]
  rw [normalizeNewlines_of_not_mem, String.ofList_toList]
  rw [indented, String.toList_ofList]
  exact return_not_mem_characters unbroken readable 0

end LoxLang.Json
