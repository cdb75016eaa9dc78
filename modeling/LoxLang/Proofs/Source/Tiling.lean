import LoxLang.Proofs.Source.Lexeme

/-!
# Pieces tile the text

What has to stand first in a text is said by `Front` without a scan: the longest lexeme that the
text begins with, a character of layout, a comment, a character that begins nothing, or the whole
text behind a quote that is never closed. `tiled_iff` says that the pieces of a text are exactly
the fronts of what is left, one after the other.
-/

namespace LoxLang.Source

/-- A blank inside a line. -/
def IsBlank (character : Char) : Prop := character = ' ' ∨ character = '\r' ∨ character = '\t'

/-- What stands first in a text, and what is left of the text behind it. -/
inductive Front (remaining : List Char) : Piece → List Char → Prop where
  | lexeme {kind : TokenKind} {text rest : List Char} (splits : remaining = text ++ rest)
      (isLexeme : Lexeme kind text)
      (longest : ∀ (other : TokenKind) (front : List Char), Lexeme other front →
        front <+: remaining → front.length ≤ text.length)
      (noComment : ¬ ['/', '/'] <+: remaining) :
      Front remaining ⟨.lexeme kind, text⟩ rest
  | blank {character : Char} {rest : List Char} (splits : remaining = character :: rest)
      (isBlank : IsBlank character) : Front remaining ⟨.blank, [character]⟩ rest
  | lineEnd {rest : List Char} (splits : remaining = '\n' :: rest) :
      Front remaining ⟨.lineEnd, ['\n']⟩ rest
  | comment {body rest : List Char} (splits : remaining = '/' :: '/' :: body ++ rest)
      (sameLine : '\n' ∉ body) (ends : rest = [] ∨ rest.head? = some '\n') :
      Front remaining ⟨.comment, '/' :: '/' :: body⟩ rest
  | stray {character : Char} {rest : List Char} (splits : remaining = character :: rest)
      (noLexeme : ∀ (kind : TokenKind) (front : List Char), Lexeme kind front →
        ¬ front <+: remaining)
      (noLayout : ¬ IsBlank character ∧ character ≠ '\n') (noQuote : character ≠ '"') :
      Front remaining ⟨.stray, [character]⟩ rest
  | unclosed {body : List Char} (splits : remaining = '"' :: body) (noQuote : '"' ∉ body) :
      Front remaining ⟨.unclosed, '"' :: body⟩ []

/-- The pieces are the fronts of the text, each of what the one before it left, up to its end. -/
inductive Tiled : List Char → List Piece → Prop where
  | done : Tiled [] []
  | piece {remaining rest : List Char} {piece : Piece} {further : List Piece}
      (front : Front remaining piece rest) (tiled : Tiled rest further) :
      Tiled remaining (piece :: further)

/-! ## The longest lexeme -/

/-- A front whose members all have a property, in front of one that has it not. -/
theorem takeWhile_append_of_stops {p : Char → Bool} {front rest : List Char}
    (holds : ∀ character ∈ front, p character = true)
    (stops : ∀ character ∈ rest.head?, p character = false) :
    (front ++ rest).takeWhile p = front ∧ (front ++ rest).dropWhile p = rest := by
  rw [List.takeWhile_append_of_pos holds, List.dropWhile_append_of_pos holds]
  cases rest with
  | nil => exact ⟨List.append_nil front, rfl⟩
  | cons character rest =>
    have isStop := stops character rfl
    rw [List.takeWhile_cons_of_neg (by simp [isStop]),
      List.dropWhile_cons_of_neg (by simp [isStop])]
    exact ⟨List.append_nil front, rfl⟩

/-- What is taken while a condition holds satisfies it. -/
theorem forall_mem_takeWhile (p : Char → Bool) (text : List Char) :
    ∀ character ∈ text.takeWhile p, p character = true :=
  List.all_eq_true.mp List.all_takeWhile

/-- A front whose members all have a property is no longer than the longest one. -/
theorem length_le_takeWhile {p : Char → Bool} {front text : List Char}
    (isPrefix : front <+: text) (holds : ∀ character ∈ front, p character = true) :
    front.length ≤ (text.takeWhile p).length := by
  obtain ⟨rest, rfl⟩ := isPrefix
  rw [List.takeWhile_append_of_pos holds, List.length_append]
  exact Nat.le_add_right _ _

/-- What is cut off as a number goes on as a number does. -/
theorem goesOnNumber_cutNumber (text : List Char) : GoesOnNumber (cutNumber text).1 := by
  have wholeDigits := forall_mem_takeWhile Number.isDigit text
  unfold cutNumber
  split
  next digit rest _ =>
    split
    next isDigit =>
      refine .inr ⟨_, digit :: rest.takeWhile Number.isDigit, rfl, wholeDigits,
        List.cons_ne_nil _ _, ?_⟩
      exact List.forall_mem_cons.mpr ⟨isDigit, forall_mem_takeWhile Number.isDigit rest⟩
    next => exact .inl wholeDigits
  next => exact .inl wholeDigits

/-- Nothing longer than what is cut off goes on as a number does. -/
theorem length_le_cutNumber {tail text : List Char} (goesOn : GoesOnNumber tail)
    (isPrefix : tail <+: text) : tail.length ≤ (cutNumber text).1.length := by
  rcases goesOn with areDigits | ⟨whole, digits, rfl, wholeDigits, nonempty, areDigits⟩
  · have inWhole := length_le_takeWhile isPrefix areDigits
    unfold cutNumber
    split
    · split
      · rw [List.length_append]
        omega
      · exact inWhole
    · exact inWhole
  · obtain ⟨rest, rfl⟩ := isPrefix
    obtain ⟨digit, digits, rfl⟩ := List.exists_cons_of_ne_nil nonempty
    obtain ⟨isDigit, areFurther⟩ := List.forall_mem_cons.mp areDigits
    have atPoint : ∀ character ∈ ('.' :: digit :: (digits ++ rest)).head?,
        Number.isDigit character = false := by
      rintro _ ⟨⟩
      rfl
    obtain ⟨isWhole, isRest⟩ := takeWhile_append_of_stops wholeDigits atPoint
    have inFraction := length_le_takeWhile (List.prefix_append digits rest) areFurther
    simp only [List.append_assoc, List.cons_append, cutNumber, isWhole, isRest, isDigit, if_true,
      List.length_append, List.length_cons]
    omega

/-! ## The first piece -/

/-- A lexeme stands first in a text if none that goes on from its first character is longer. -/
theorem Front.ofGoesOn {kind : TokenKind} {first : Char} {tail text rest : List Char}
    (splits : text = tail ++ rest) (goesOn : GoesOn kind first tail)
    (longest : ∀ (other : TokenKind) (longer : List Char), GoesOn other first longer →
      longer <+: text → longer.length ≤ tail.length)
    (noComment : first = '/' → text.head? ≠ some '/') :
    Front (first :: text) ⟨.lexeme kind, first :: tail⟩ rest := by
  refine .lexeme (by rw [splits]; rfl) (lexeme_cons_iff.mpr goesOn) ?_ ?_
  · intro other front isLexeme isPrefix
    obtain ⟨head, longer, rfl, goesOther⟩ := isLexeme.goesOn
    obtain ⟨rfl, isShorter⟩ := List.cons_prefix_cons.mp isPrefix
    exact Nat.succ_le_succ (longest other longer goesOther isShorter)
  · rintro ⟨rest, same⟩
    obtain ⟨rfl, rfl⟩ := List.cons.inj same
    exact noComment rfl rfl

/-- A comment goes up to the end of its line. -/
theorem front_comment (text : List Char) :
    Front ('/' :: '/' :: text) ⟨.comment, '/' :: '/' :: text.takeWhile (· ≠ '\n')⟩
      (text.dropWhile (· ≠ '\n')) := by
  refine .comment ?_ ?_ ?_
  · rw [List.cons_append, List.cons_append, List.takeWhile_append_dropWhile]
  · intro isIn
    simpa using forall_mem_takeWhile _ text _ isIn
  · have stops := List.head?_dropWhile_not (· ≠ '\n') text
    cases isRest : text.dropWhile (· ≠ '\n') with
    | nil => exact .inl rfl
    | cons character rest =>
      rw [isRest] at stops
      right
      simpa using stops

/-- A string goes up to the next quote. -/
theorem front_string {text rest : List Char} {quote : Char}
    (closes : text.dropWhile (· ≠ '"') = quote :: rest) :
    Front ('"' :: text) ⟨.lexeme .string, '"' :: text.takeWhile (· ≠ '"') ++ [quote]⟩ rest := by
  have stops := List.head?_dropWhile_not (· ≠ '"') text
  have whole := List.takeWhile_append_dropWhile (p := (· ≠ '"')) (l := text)
  rw [closes] at stops whole
  obtain rfl : quote = '"' := by simpa using stops
  have noQuote : '"' ∉ text.takeWhile (· ≠ '"') := fun isIn => by
    simpa using forall_mem_takeWhile _ text _ isIn
  have splits : text = (text.takeWhile (· ≠ '"') ++ ['"']) ++ rest := by
    rw [List.append_assoc]
    exact whole.symm
  refine .ofGoesOn splits ⟨rfl, _, noQuote, rfl⟩ ?_ nofun
  rintro other longer ⟨-, body, noQuoteIn, rfl⟩ isPrefix
  have inBody : body <+: text := (List.prefix_append body _).trans isPrefix
  have shorter := length_le_takeWhile inBody (p := (· ≠ '"')) fun character isIn => by
    simpa using fun isQuote : character = '"' => noQuoteIn (isQuote ▸ isIn)
  simpa using shorter

/-- What is cut off a text stands first in it. -/
theorem front_cut (first : Char) (text : List Char) :
    Front (first :: text) (cut first text).1 (cut first text).2 := by
  unfold cut
  split
  next kind isKind =>
    have goesOn (other : TokenKind) (tail : List Char) :
        GoesOn other first tail ↔ other = kind ∧ tail = [] := by
      simp only [GoesOn, isKind]
    refine .ofGoesOn rfl ((goesOn _ _).mpr ⟨rfl, rfl⟩) ?_ (by rintro rfl; cases isKind)
    intro other longer goesOther _
    exact Nat.le_of_eq (congrArg List.length ((goesOn _ _).mp goesOther).2)
  next paired alone noSingle areKinds =>
    have goesOn (other : TokenKind) (tail : List Char) : GoesOn other first tail ↔
        other = paired ∧ tail = ['='] ∨ other = alone ∧ tail = [] := by
      simp only [GoesOn, noSingle, areKinds]
    have noSlash : first = '/' → text.head? ≠ some '/' := by rintro rfl; cases areKinds
    split
    next rest =>
      refine .ofGoesOn rfl ((goesOn _ _).mpr (.inl ⟨rfl, rfl⟩)) ?_ noSlash
      intro other longer goesOther _
      rcases (goesOn _ _).mp goesOther with ⟨-, rfl⟩ | ⟨-, rfl⟩ <;> decide
    next noEqual =>
      refine .ofGoesOn rfl ((goesOn _ _).mpr (.inr ⟨rfl, rfl⟩)) ?_ noSlash
      intro other longer goesOther isPrefix
      rcases (goesOn _ _).mp goesOther with ⟨-, rfl⟩ | ⟨-, rfl⟩
      · obtain ⟨rest, rfl⟩ := isPrefix
        exact absurd rfl (noEqual rest)
      · exact Nat.le_refl _
  next noSingle noPair =>
    split
    next isSlash =>
      subst isSlash
      split
      next => exact front_comment _
      next noComment =>
        refine .ofGoesOn rfl ⟨rfl, rfl⟩ (fun _ _ goesOther _ => ?_) fun _ isNext => ?_
        · exact Nat.le_of_eq (congrArg List.length goesOther.2)
        · obtain ⟨rest, rfl⟩ := List.head?_eq_some_iff.mp isNext
          exact noComment rest rfl
    next noSlash =>
      split
      next isBlank => exact .blank rfl isBlank
      next noBlank =>
        split
        next isLineEnd =>
          subst isLineEnd
          exact .lineEnd rfl
        next noLineEnd =>
          split
          next isQuote =>
            subst isQuote
            split
            next closes => exact front_string closes
            next notClosed =>
              have whole := List.takeWhile_append_dropWhile (p := (· ≠ '"')) (l := text)
              rw [notClosed, List.append_nil] at whole
              refine .unclosed rfl fun isIn => ?_
              rw [← whole] at isIn
              simpa using forall_mem_takeWhile _ text _ isIn
          next noQuote =>
            split
            next isDigit =>
              have isNumber := (goesOn_digit isDigit).mpr ⟨rfl, goesOnNumber_cutNumber text⟩
              refine .ofGoesOn (cutNumber_append text).symm isNumber ?_ (absurd · noSlash)
              intro other longer goesOther isPrefix
              exact length_le_cutNumber ((goesOn_digit isDigit).mp goesOther).2 isPrefix
            next noDigit =>
              split
              next begins =>
                have isWord := (goesOn_letter begins).mpr
                  ⟨rfl, forall_mem_takeWhile isWordCharacter text⟩
                refine .ofGoesOn List.takeWhile_append_dropWhile.symm isWord ?_ (absurd · noSlash)
                intro other longer goesOther isPrefix
                exact length_le_takeWhile isPrefix ((goesOn_letter begins).mp goesOther).2
              next noLetter =>
                refine .stray rfl ?_ ⟨noBlank, noLineEnd⟩ noQuote
                intro kind front isLexeme isPrefix
                obtain ⟨head, tail, rfl, goesOn⟩ := isLexeme.goesOn
                obtain ⟨rfl, -⟩ := List.cons_prefix_cons.mp isPrefix
                simp [GoesOn, noSingle, noPair, noSlash, noQuote, noDigit, noLetter] at goesOn

/-- No lexeme begins with a character of layout. -/
theorem Lexeme.not_layout {kind : TokenKind} {first : Char} {tail : List Char}
    (isLexeme : Lexeme kind (first :: tail)) : ¬ IsBlank first ∧ first ≠ '\n' := by
  have goesOn := lexeme_cons_iff.mp isLexeme
  refine ⟨?_, ?_⟩
  · rintro (rfl | rfl | rfl) <;> exact goesOn
  · rintro rfl
    exact goesOn

/-- A lexeme that begins with a quote holds another one. -/
theorem Lexeme.closes {kind : TokenKind} {tail : List Char} (isLexeme : Lexeme kind ('"' :: tail)) :
    '"' ∈ tail := by
  obtain ⟨-, body, -, rfl⟩ := lexeme_cons_iff.mp isLexeme
  simp

/-- A front piece stands in front of something. -/
theorem Front.ne_nil {remaining rest : List Char} {piece : Piece}
    (front : Front remaining piece rest) : remaining ≠ [] := by
  cases front with
  | lexeme splits isLexeme =>
    obtain ⟨first, tail, rfl, -⟩ := isLexeme.goesOn
    rw [splits]
    exact List.cons_ne_nil _ _
  | blank splits | lineEnd splits | comment splits | stray splits | unclosed splits =>
    rw [splits]
    exact List.cons_ne_nil _ _

/-- Only one lexeme can stand first in a text, and nothing else where one does. -/
theorem cut_eq_of_lexeme {first : Char} {text lexeme rest : List Char} {kind : TokenKind}
    (splits : first :: text = lexeme ++ rest) (isLexeme : Lexeme kind lexeme)
    (longest : ∀ (other : TokenKind) (front : List Char), Lexeme other front →
      front <+: first :: text → front.length ≤ lexeme.length)
    (noComment : ¬ ['/', '/'] <+: first :: text) :
    cut first text = (⟨.lexeme kind, lexeme⟩, rest) := by
  obtain ⟨head, tail, rfl, -⟩ := isLexeme.goesOn
  obtain ⟨rfl, rfl⟩ := List.cons.inj splits
  have isFront := front_cut first (tail ++ rest)
  generalize cut first (tail ++ rest) = found at isFront ⊢
  obtain ⟨found, left⟩ := found
  cases isFront with
  | lexeme splits' isLexeme' longest' =>
    have sameLength := Nat.le_antisymm (longest _ _ isLexeme' (splits' ▸ List.prefix_append _ _))
      (longest' _ _ isLexeme (List.prefix_append (first :: tail) rest))
    obtain ⟨rfl, rfl⟩ := List.append_inj splits'.symm sameLength
    rw [isLexeme.kind_unique isLexeme']
  | blank splits' isBlank =>
    obtain ⟨rfl, -⟩ := List.cons.inj splits'
    exact absurd isBlank isLexeme.not_layout.1
  | lineEnd splits' =>
    obtain ⟨rfl, -⟩ := List.cons.inj splits'
    exact absurd rfl isLexeme.not_layout.2
  | comment splits' => exact absurd (splits' ▸ List.prefix_append ['/', '/'] _) noComment
  | stray _ noLexeme =>
    exact absurd (List.prefix_append (first :: tail) rest) (noLexeme _ _ isLexeme)
  | unclosed splits' noQuote =>
    obtain ⟨rfl, rfl⟩ := List.cons.inj splits'
    exact absurd (List.mem_append_left rest isLexeme.closes) noQuote

/-- A character stands alone where no lexeme and no other piece does. -/
theorem cut_eq_of_stray {first : Char} {text : List Char}
    (noLexeme : ∀ (kind : TokenKind) (front : List Char), Lexeme kind front →
      ¬ front <+: first :: text)
    (noLayout : ¬ IsBlank first ∧ first ≠ '\n') (noQuote : first ≠ '"') :
    cut first text = (⟨.stray, [first]⟩, text) := by
  have isFront := front_cut first text
  generalize cut first text = found at isFront ⊢
  obtain ⟨found, left⟩ := found
  cases isFront with
  | lexeme splits isLexeme =>
    exact absurd (splits ▸ List.prefix_append _ _) (noLexeme _ _ isLexeme)
  | blank splits isBlank =>
    obtain ⟨rfl, -⟩ := List.cons.inj splits
    exact absurd isBlank noLayout.1
  | lineEnd splits =>
    obtain ⟨rfl, -⟩ := List.cons.inj splits
    exact absurd rfl noLayout.2
  | comment splits =>
    have isSlash : Lexeme .slash ['/'] := .mark (by decide)
    exact absurd (splits ▸ List.prefix_append ['/'] _) (noLexeme _ _ isSlash)
  | stray splits =>
    obtain ⟨rfl, rfl⟩ := List.cons.inj splits
    rfl
  | unclosed splits =>
    obtain ⟨rfl, -⟩ := List.cons.inj splits
    exact absurd rfl noQuote

/-- What is cut off a text is the one piece that can stand first in it. -/
theorem front_iff {first : Char} {text rest : List Char} {piece : Piece} :
    Front (first :: text) piece rest ↔ cut first text = (piece, rest) := by
  constructor
  · intro front
    cases front with
    | lexeme splits isLexeme longest noComment =>
      exact cut_eq_of_lexeme splits isLexeme longest noComment
    | blank splits isBlank =>
      obtain ⟨rfl, rfl⟩ := List.cons.inj splits
      rcases isBlank with rfl | rfl | rfl <;> rfl
    | lineEnd splits =>
      obtain ⟨rfl, rfl⟩ := List.cons.inj splits
      rfl
    | @comment body rest splits sameLine ends =>
      obtain ⟨rfl, rfl⟩ := List.cons.inj splits
      have holds : ∀ character ∈ body, decide (character ≠ '\n') = true := fun character isIn =>
        decide_eq_true fun isLineEnd => sameLine (isLineEnd ▸ isIn)
      have stops : ∀ character ∈ rest.head?, decide (character ≠ '\n') = false := by
        rcases ends with rfl | isNext
        · exact nofun
        · rintro character isHead
          obtain rfl := Option.some.inj (isNext.symm.trans isHead)
          rfl
      obtain ⟨isBody, isRest⟩ := takeWhile_append_of_stops holds stops
      calc cut '/' ('/' :: (body ++ rest))
          = (⟨.comment, '/' :: '/' :: (body ++ rest).takeWhile (· ≠ '\n')⟩,
              (body ++ rest).dropWhile (· ≠ '\n')) := rfl
        _ = (⟨.comment, '/' :: '/' :: body⟩, rest) := by rw [isBody, isRest]
    | stray splits noLexeme noLayout noQuote =>
      obtain ⟨rfl, rfl⟩ := List.cons.inj splits
      exact cut_eq_of_stray noLexeme noLayout noQuote
    | @unclosed body splits noQuote =>
      obtain ⟨rfl, rfl⟩ := List.cons.inj splits
      have holds : ∀ character ∈ text, decide (character ≠ '"') = true := fun character isIn =>
        decide_eq_true fun isQuote => noQuote (isQuote ▸ isIn)
      obtain ⟨-, isRest⟩ := @takeWhile_append_of_stops _ text [] holds nofun
      rw [List.append_nil] at isRest
      simp only [cut, singleKind?, equalKinds?, isRest]
      rfl
  · intro isCut
    have isFront := front_cut first text
    rwa [isCut] at isFront

/-- The pieces of a text are its fronts, one after the other: no text has other ones. -/
theorem tiled_iff {text : List Char} {parts : List Piece} :
    Tiled text parts ↔ pieces text = parts := by
  constructor
  · intro tiled
    induction tiled with
    | done => rfl
    | @piece remaining rest piece further front _ inductionHypothesis =>
      cases remaining with
      | nil => exact absurd rfl front.ne_nil
      | cons first text =>
        rw [pieces_cons, front_iff.mp front, inductionHypothesis]
  · rintro rfl
    generalize bound : text.length = count
    induction count using Nat.strongRecOn generalizing text with
    | _ count inductionHypothesis =>
      cases text with
      | nil => exact .done
      | cons first text =>
        have shorter := cut_rest_length first text
        rw [pieces_cons]
        exact .piece (front_cut first text)
          (inductionHypothesis _ (bound ▸ Nat.lt_succ_of_le shorter) rfl)

/-- The pieces put together again are the text. -/
theorem flatMap_pieces (text : List Char) : (pieces text).flatMap (·.text) = text := by
  generalize bound : text.length = count
  induction count using Nat.strongRecOn generalizing text with
  | _ count inductionHypothesis =>
    cases text with
    | nil => rfl
    | cons first text =>
      have shorter := cut_rest_length first text
      rw [pieces_cons, List.flatMap_cons,
        inductionHypothesis _ (bound ▸ Nat.lt_succ_of_le shorter) _ rfl]
      exact cut_append first text

end LoxLang.Source
