import LoxLang.Proofs.Source.Tiling
import LoxLang.Syntax.Printer

/-!
# Words and groups

The notation of printed trees: words and quoted texts, and groups of them in parentheses with a
space between each two parts. A legible form is told apart from every other one by its text,
whatever stands behind it, as long as that begins with a space or a closing parenthesis.
-/

namespace LoxLang

open Source

/-- A word, a text in quotes, or a group of forms in parentheses. -/
inductive Form where
  | word (text : String)
  | quoted (text : String)
  | group (parts : List Form)

namespace Form

mutual

/-- The text of a form. -/
def text : Form → String
  | word text => text
  | quoted text => "\"" ++ text ++ "\""
  | group parts => "(" ++ " ".intercalate (texts parts) ++ ")"

/-- The texts of forms. -/
def texts : List Form → List String
  | [] => []
  | part :: parts => part.text :: texts parts

end

/-- The texts of forms are the text of each. -/
theorem texts_eq_map (parts : List Form) : texts parts = parts.map text := by
  induction parts with
  | nil => rfl
  | cons part parts inductionHypothesis => rw [texts, inductionHypothesis, List.map_cons]

/-- A character that is no mark of the notation. -/
def isPlain (character : Char) : Bool := character ∉ [' ', '(', ')', '"']

/-- The words of the form are not empty and hold no marks, and no quoted text holds a quote. -/
inductive Legible : Form → Prop where
  | word {text : String} (nonempty : text.toList ≠ [])
      (plain : ∀ character ∈ text.toList, isPlain character = true) : Legible (word text)
  | quoted {text : String} (noQuote : '"' ∉ text.toList) : Legible (quoted text)
  | group {parts : List Form} (each : ∀ part ∈ parts, part.Legible) : Legible (group parts)

/-- A word of plain characters is legible. -/
theorem Legible.ofWord {text : String}
    (isWord : (!text.toList.isEmpty && text.toList.all isPlain) = true) :
    (Form.word text).Legible := by
  simp only [Bool.and_eq_true, Bool.not_eq_true', List.isEmpty_eq_false_iff,
    List.all_eq_true] at isWord
  exact .word isWord.1 isWord.2

/-- A group that begins with a word. -/
theorem Legible.named {name : String} {parts : List Form} (isWord : (Form.word name).Legible)
    (each : ∀ part ∈ parts, part.Legible) : (Form.group (.word name :: parts)).Legible :=
  .group (List.forall_mem_cons.mpr ⟨isWord, each⟩)

/-- What can stand behind a part of a group. -/
def Ends (rest : List Char) : Prop := ∀ character ∈ rest.head?, character = ' ' ∨ character = ')'

/-- The parts of a group that stand behind another one. -/
def spaced (parts : List Form) : List Char := parts.flatMap fun part => ' ' :: part.text.toList

/-- The parts of a group. -/
def row : List Form → List Char
  | [] => []
  | part :: parts => part.text.toList ++ spaced parts

/-- A group is written as a row in parentheses. -/
theorem toList_group (parts : List Form) :
    (group parts).text.toList = '(' :: (row parts ++ [')']) := by
  have isRow (part : String) (parts : List String) : (" ".intercalate (part :: parts)).toList =
      part.toList ++ parts.flatMap fun part => ' ' :: part.toList := by
    induction parts generalizing part with
    | nil => simp
    | cons next parts inductionHypothesis =>
      rw [String.intercalate_cons_cons, String.toList_append, String.toList_append,
        inductionHypothesis, List.flatMap_cons]
      simp
  rw [text, String.toList_append, String.toList_append, texts_eq_map]
  cases parts with
  | nil => rfl
  | cons part parts =>
    rw [List.map_cons, isRow, List.flatMap_map]
    rfl

/-- The text of a form stands for no other form, whatever is behind it. -/
def Unique (form : Form) : Prop :=
  ∀ {other : Form}, other.Legible → ∀ {rest otherRest : List Char}, Ends rest → Ends otherRest →
    form.text.toList ++ rest = other.text.toList ++ otherRest → form = other ∧ rest = otherRest

/-- A legible form begins with no space and no closing parenthesis. -/
theorem Legible.begins {form : Form} (legible : form.Legible) :
    ∃ first tail, form.text.toList = first :: tail ∧ first ≠ ' ' ∧ first ≠ ')' := by
  cases legible with
  | @word text nonempty plain =>
    obtain ⟨first, tail, isText⟩ := List.exists_cons_of_ne_nil nonempty
    have isPlain := plain first (isText ▸ List.mem_cons_self)
    refine ⟨first, tail, isText, ?_, ?_⟩ <;> (rintro rfl; cases isPlain)
  | @quoted text noQuote =>
    refine ⟨'"', text.toList ++ ['"'], ?_, by decide, by decide⟩
    simp [Form.text]
  | group each => exact ⟨'(', _, toList_group _, by decide, by decide⟩

/-- Behind each part of a row, a space or the closing parenthesis ends it. -/
theorem ends_spaced (parts : List Form) (rest : List Char) :
    Ends (spaced parts ++ ')' :: rest) := by
  cases parts <;> (rintro _ ⟨⟩; decide)

/-- Forms that are each told apart by their text are told apart as a row with spaces between. -/
theorem spaced_unique {parts others : List Form} (unique : ∀ part ∈ parts, part.Unique)
    (legible : ∀ other ∈ others, other.Legible) {rest otherRest : List Char}
    (same : spaced parts ++ ')' :: rest = spaced others ++ ')' :: otherRest) :
    parts = others ∧ rest = otherRest := by
  induction parts generalizing others with
  | nil =>
    cases others with
    | nil => exact ⟨rfl, (List.cons.inj same).2⟩
    | cons other others => cases (List.cons.inj same).1
  | cons part parts inductionHypothesis =>
    obtain ⟨uniquePart, uniqueParts⟩ := List.forall_mem_cons.mp unique
    cases others with
    | nil => cases (List.cons.inj same).1
    | cons other others =>
      obtain ⟨isLegible, areLegible⟩ := List.forall_mem_cons.mp legible
      simp only [spaced, List.flatMap_cons, List.cons_append, List.append_assoc,
        List.cons.injEq, true_and] at same
      obtain ⟨rfl, further⟩ := uniquePart isLegible (ends_spaced parts rest)
        (ends_spaced others otherRest) same
      obtain ⟨rfl, sameRest⟩ := inductionHypothesis uniqueParts areLegible further
      exact ⟨rfl, sameRest⟩

/-- A row is read in one way only, if each of its parts is. -/
theorem row_unique {parts others : List Form} (areLegible : ∀ part ∈ parts, part.Legible)
    (unique : ∀ part ∈ parts, part.Unique) (legible : ∀ other ∈ others, other.Legible)
    {rest otherRest : List Char}
    (same : row parts ++ ')' :: rest = row others ++ ')' :: otherRest) :
    parts = others ∧ rest = otherRest := by
  have isEmpty {part : Form} (isLegible : part.Legible) (parts : List Form)
      (rest otherRest : List Char) : ')' :: rest ≠ row (part :: parts) ++ otherRest := by
    obtain ⟨first, tail, isText, -, noClosing⟩ := isLegible.begins
    rw [row, isText]
    exact fun same => noClosing (List.cons.inj same).1.symm
  cases parts with
  | nil =>
    cases others with
    | nil => exact ⟨rfl, (List.cons.inj same).2⟩
    | cons other others => exact absurd same (isEmpty (legible other List.mem_cons_self) _ _ _)
  | cons part parts =>
    cases others with
    | nil => exact absurd same.symm (isEmpty (areLegible part List.mem_cons_self) _ _ _)
    | cons other others =>
      exact spaced_unique unique legible (by simpa [row, spaced] using same)

/-- A word is no form of another sort. -/
private theorem word_append_ne {text : String} (nonempty : text.toList ≠ [])
    (plain : ∀ character ∈ text.toList, isPlain character = true) {mark : Char}
    (isMark : isPlain mark = false) (rest otherRest : List Char) :
    text.toList ++ rest ≠ mark :: otherRest := by
  obtain ⟨first, tail, isText⟩ := List.exists_cons_of_ne_nil nonempty
  have isPlain := plain first (isText ▸ List.mem_cons_self)
  rw [isText]
  intro same
  rw [(List.cons.inj same).1, isMark] at isPlain
  cases isPlain

/-- A quoted text begins and ends with quotes. -/
private theorem toList_quoted (text : String) (rest : List Char) :
    (quoted text).text.toList ++ rest = '"' :: (text.toList ++ '"' :: rest) := by
  simp [Form.text]

/-- A text without quotes ends at the first one. -/
private theorem quoted_unique {text other : String} (noQuote : '"' ∉ text.toList)
    (otherNoQuote : '"' ∉ other.toList) {rest otherRest : List Char}
    (same : text.toList ++ '"' :: rest = other.toList ++ '"' :: otherRest) :
    text = other ∧ rest = otherRest := by
  have split {text : String} (noQuote : '"' ∉ text.toList) (rest : List Char) :
      (text.toList ++ '"' :: rest).takeWhile (· ≠ '"') = text.toList ∧
        (text.toList ++ '"' :: rest).dropWhile (· ≠ '"') = '"' :: rest :=
    takeWhile_append_of_stops
      (fun character isIn => decide_eq_true fun isQuote => noQuote (isQuote ▸ isIn))
      (by rintro _ ⟨⟩; rfl)
  obtain ⟨isText, isRest⟩ := split noQuote rest
  obtain ⟨isOther, isOtherRest⟩ := split otherNoQuote otherRest
  rw [← same, isText] at isOther
  rw [← same, isRest] at isOtherRest
  exact ⟨String.toList_inj.mp isOther, (List.cons.inj isOtherRest).2⟩

/-- What stands behind a group stands behind its closing parenthesis. -/
private theorem group_append (parts : List Form) (rest : List Char) :
    (group parts).text.toList ++ rest = '(' :: (row parts ++ ')' :: rest) := by
  simp [toList_group]

/-- A legible form is the only one with its text, whatever stands behind it. -/
theorem Legible.unique {form : Form} (legible : form.Legible) : form.Unique := by
  induction legible with
  | @word text nonempty plain =>
    intro other isLegible rest otherRest ends otherEnds same
    have stops {rest : List Char} (ends : Ends rest) :
        ∀ character ∈ rest.head?, isPlain character = false := by
      intro character isHead
      rcases ends character isHead with rfl | rfl <;> rfl
    cases isLegible with
    | @word other _ otherPlain =>
      obtain ⟨isText, isRest⟩ := takeWhile_append_of_stops plain (stops ends)
      obtain ⟨isOther, isOtherRest⟩ := takeWhile_append_of_stops otherPlain (stops otherEnds)
      change text.toList ++ rest = other.toList ++ otherRest at same
      rw [← same, isText] at isOther
      rw [← same, isRest] at isOtherRest
      exact ⟨congrArg Form.word (String.toList_inj.mp isOther), isOtherRest⟩
    | quoted =>
      rw [toList_quoted] at same
      exact absurd same (word_append_ne nonempty plain rfl _ _)
    | group =>
      rw [group_append] at same
      exact absurd same (word_append_ne nonempty plain rfl _ _)
  | @quoted text noQuote =>
    intro other isLegible rest otherRest ends otherEnds same
    rw [toList_quoted] at same
    cases isLegible with
    | word nonempty plain => exact absurd same.symm (word_append_ne nonempty plain rfl _ _)
    | quoted otherNoQuote =>
      rw [toList_quoted] at same
      obtain ⟨isText, isRest⟩ := quoted_unique noQuote otherNoQuote (List.cons.inj same).2
      exact ⟨congrArg Form.quoted isText, isRest⟩
    | group =>
      rw [group_append] at same
      cases (List.cons.inj same).1
  | group each unique =>
    intro other isLegible rest otherRest ends otherEnds same
    rw [group_append] at same
    cases isLegible with
    | word nonempty plain => exact absurd same.symm (word_append_ne nonempty plain rfl _ _)
    | quoted =>
      rw [toList_quoted] at same
      cases (List.cons.inj same).1
    | group areLegible =>
      rw [group_append] at same
      obtain ⟨rfl, isRest⟩ := row_unique each unique areLegible (List.cons.inj same).2
      exact ⟨rfl, isRest⟩

/-- Legible forms with the same text are the same. -/
theorem Legible.eq_of_text_eq {form other : Form} (legible : form.Legible)
    (otherLegible : other.Legible) (same : form.text = other.text) : form = other := by
  have ends : Ends [] := nofun
  exact (legible.unique otherLegible ends ends (by rw [same])).1

end Form
end LoxLang
