import LoxLang.Proofs.Cursor.Agreement

/-!
# The parser always finishes

The rules of a program are never stopped, and the declarations of a program leave nothing. So the
walk that follows them has a result and ends in front of the token that ends the text, whatever the
tokens are, as long as one of them does end the text. The same is shown of a list that is read as
one expression.

Every declaration on the way moves the cursor if it has a result. It has one unless so little of the
limit on nesting is left that it cannot even recover; then it may leave the cursor where it was, and
a declaration around it goes on from there.
-/

namespace LoxLang.Grammar

open Rule (Orderly)

/-- A declaration is dropped only if something was reported. -/
theorem recovering_reported {depth : Nat} {rule : Rule Stmt} (orderly : Orderly rule)
    {surroundings : Surroundings} {tokens : List Token}
    (dropped : (recovering depth rule surroundings tokens).result = .ok none) :
    (recovering depth rule surroundings tokens).errors ≠ [] := by
  have recovers := recovery depth rule surroundings tokens
  generalize recovering depth rule surroundings tokens = reply at recovers dropped ⊢
  cases recovers with
  | kept => cases dropped
  | dropped stopped => exact orderly.reported surroundings tokens stopped
  | tooDeep => exact List.append_ne_nil_of_right_ne_nil _ (List.cons_ne_nil _ _)
  | passedOn => cases dropped

/-- A declaration has a result unless it is nested so deep that it cannot recover. -/
theorem declaration_result (depth : Nat) (surroundings : Surroundings) (tokens : List Token) :
    (∃ found, (declaration depth surroundings tokens).result = .ok found ∧
      (found = none → (declaration depth surroundings tokens).errors ≠ [])) ∨
    (declaration depth surroundings tokens).result = .error .tooDeep ∧ depth ≤ recoveryDepth := by
  cases depth with
  | zero => exact .inr ⟨rfl, Nat.zero_le _⟩
  | succ depth =>
    rw [declaration_succ]
    have recovers := recovery depth
      (declarationBody (statement depth) (declaration depth) (expression depth)) surroundings tokens
    have isReported := @recovering_reported depth _ (orderly_declarationBody depth) surroundings
      tokens
    generalize recovering depth _ surroundings tokens = reply at recovers isReported ⊢
    cases recovers with
    | kept => exact .inl ⟨_, rfl, nofun⟩
    | dropped => exact .inl ⟨none, rfl, fun _ => isReported rfl⟩
    | tooDeep => exact .inl ⟨none, rfl, fun _ => isReported rfl⟩
    | passedOn _ tooLittle => exact .inr ⟨rfl, tooLittle⟩

/-- A list that holds an end of the text is closed. -/
theorem closed?_of_mem {tokens : List Token} (hasEnd : ∃ token ∈ tokens, token.kind = .endOfFile) :
    ∃ front endLine, closed? tokens = some (front, endLine) := by
  obtain ⟨token, isIn, isEnd⟩ := hasEnd
  have isFound : (tokens.find? (·.kind = .endOfFile)).isSome :=
    List.find?_isSome.mpr ⟨token, isIn, decide_eq_true isEnd⟩
  obtain ⟨last, isLast⟩ := Option.isSome_iff_exists.mp isFound
  obtain ⟨lastEnds, front, behind, isSplit, noneEnds⟩ := List.find?_eq_some_iff_append.mp isLast
  refine ⟨front, last.line, closed?_eq_some_iff.mpr ⟨last, behind, isSplit, ?_, ?_, rfl⟩⟩
  · simpa using noneEnds
  · exact of_decide_eq_true lastEnds

/-- What is closed is the tokens in front of the first one that ends the text. -/
theorem findIdx_of_closed? {tokens front : List Token} {endLine : Int}
    (closed : closed? tokens = some (front, endLine)) :
    tokens.findIdx (·.kind = .endOfFile) = front.length := by
  obtain ⟨last, behind, rfl, noEnd, isEnd, -⟩ := closed?_eq_some_iff.mp closed
  have noneEnds : front.findIdx (·.kind = .endOfFile) = front.length :=
    List.findIdx_eq_length.mpr fun token isIn => decide_eq_false (noEnd token isIn)
  rw [List.findIdx_append, noneEnds, if_neg (Nat.lt_irrefl _), List.findIdx_cons,
    decide_eq_true isEnd]
  exact Nat.zero_add _

/-- The walk over a program comes to the end of the text with what the parser reads. -/
theorem parse_arrives (limit : Nat) {tokens front : List Token} {endLine : Int}
    (closed : closed? tokens = some (front, endLine)) :
    Walk.parse limit tokens .start =
      ⟨.ok (parse limit front endLine).statements,
        ⟨front.length, 0, (parse limit front endLine).errors⟩⟩ := by
  have stands : Stands 0 tokens endLine .start front := ⟨.ofClosed? closed, Nat.zero_le _⟩
  have arrives := Follows.parse limit stands
  obtain ⟨statements, isOk, leavesNothing⟩ :=
    declarations_ok limit (Cursor.start.surroundings endLine) front
  have outside : Cursor.start.surroundings endLine = ⟨endLine, false⟩ := rfl
  rw [outside] at arrives leavesNothing isOk
  have isAtEnd : (Walk.parse limit tokens .start).cursor.current = front.length := by
    have sameEnd := arrives.sameEnd
    rw [leavesNothing] at sameEnd
    exact sameEnd.trans (Nat.zero_add _)
  rw [arrives.arrival_eq, isAtEnd, isOk]
  unfold parse
  dsimp only
  rw [isOk]
  rfl

/-- The walk over one expression has a result, or nothing, wherever the parser does. -/
theorem parseExpression_arrives (limit : Nat) {tokens front : List Token} {endLine : Int}
    (closed : closed? tokens = some (front, endLine)) :
    ∃ cursor : Cursor, Walk.parseExpression limit tokens .start =
        ⟨.ok (parseExpression limit front endLine).1, cursor⟩ ∧
      cursor.errors = (parseExpression limit front endLine).2 ∧ cursor.functionDepth = 0 := by
  have stands : Stands 0 tokens endLine .start front := ⟨.ofClosed? closed, Nat.zero_le _⟩
  obtain ⟨result, errors, functionDepth, -, -⟩ := Follows.wholeExpression limit stands
  have outside : Cursor.start.surroundings endLine = ⟨endLine, false⟩ := rfl
  rw [outside] at result errors
  refine ⟨(Walk.wholeExpression limit tokens .start).cursor, ?_, errors, functionDepth⟩
  unfold Walk.parseExpression parseExpression
  dsimp only
  rw [result]
  cases (wholeExpression limit ⟨endLine, false⟩ front).result <;> rfl

/-- A declaration that begins with a token comes to stand in front of the same end in as many
function bodies as before. If it has a result, it has taken that token at least. -/
theorem declaration_arrives (depth : Nat) {tokens rest : List Token} {endLine : Int}
    {cursor : Cursor} {token : Token}
    (ahead : Ahead tokens endLine cursor.current (token :: rest)) :
    ∃ (result : Except Failure (Option Stmt)) (after : Cursor) (reported : List SyntaxError)
      (left : List Token),
      Walk.declaration depth tokens cursor = ⟨result, after⟩ ∧
      after.functionDepth = cursor.functionDepth ∧ after.errors = cursor.errors ++ reported ∧
      Ahead tokens endLine after.current left ∧
      ((∃ found, result = .ok found ∧ cursor.current < after.current ∧
          (found = none → reported ≠ [])) ∨
        (result = .error (.stopped .tooDeep) ∧ depth ≤ recoveryDepth ∧
          cursor.current ≤ after.current)) := by
  have stands : Stands 1 tokens endLine cursor (token :: rest) := ⟨ahead, Nat.succ_pos _⟩
  obtain ⟨result, errors, functionDepth, aheadAfter, sameEnd⟩ := Follows.declaration depth stands
  generalize cursor.surroundings endLine = surroundings at result errors aheadAfter sameEnd
  refine ⟨_, _, _, _, congrArg (Arrival.mk · _) result, functionDepth, errors, aheadAfter, ?_⟩
  obtain ⟨found, isOk, isReported⟩ | ⟨isDeep, isLittle⟩ :=
    declaration_result depth surroundings (token :: rest)
  · left
    have shorter := advances_declaration depth surroundings (token :: rest) found
      (List.cons_ne_nil _ _) isOk
    refine ⟨found, by rw [isOk]; rfl, ?_, isReported⟩
    omega
  · right
    have isLeft := ((orderly_declaration depth).suffix surroundings (token :: rest)).length_le
    refine ⟨by rw [isDeep]; rfl, isLittle, ?_⟩
    omega

/-- Whatever tokens a list consists of, as long as one of them ends the text: the walk over a
program comes to a result, with the cursor on the first token that ends the text, outside of every
function body, and with what the parser reads and reports; so does the walk over one expression,
which has no value if it was stopped. No walk fails, so that no token is read outside of the list
and every loop leaves by itself. A declaration that begins with a token in front of an end of the
text leaves the count of function bodies as it was, however it ends. If it has a result it has taken
a token at least, and it is dropped only if it has reported something. It has a result unless what
is left of the limit on nesting does not suffice to recover; this is never so of the declarations of
the program itself. -/
theorem parser_finishes (limit : Nat) {tokens : List Token}
    (hasEnd : ∃ token ∈ tokens, token.kind = .endOfFile) :
    (∃ (front : List Token) (endLine : Int), closed? tokens = some (front, endLine) ∧
      Walk.parse limit tokens .start =
        ⟨.ok (parse limit front endLine).statements,
          ⟨tokens.findIdx (·.kind = .endOfFile), 0, (parse limit front endLine).errors⟩⟩ ∧
      ∃ cursor : Cursor, Walk.parseExpression limit tokens .start =
          ⟨.ok (parseExpression limit front endLine).1, cursor⟩ ∧
        cursor.errors = (parseExpression limit front endLine).2 ∧ cursor.functionDepth = 0) ∧
    ∀ (depth : Nat) (cursor : Cursor) (token : Token), tokens[cursor.current]? = some token →
      token.kind ≠ .endOfFile → (∃ last ∈ tokens.drop cursor.current, last.kind = .endOfFile) →
      ∃ (result : Except Failure (Option Stmt)) (after : Cursor) (reported : List SyntaxError),
        Walk.declaration depth tokens cursor = ⟨result, after⟩ ∧
        after.functionDepth = cursor.functionDepth ∧ after.errors = cursor.errors ++ reported ∧
        (∃ last ∈ tokens.drop after.current, last.kind = .endOfFile) ∧
        ((∃ found, result = .ok found ∧ cursor.current < after.current ∧
            (found = none → reported ≠ [])) ∨
          (result = .error (.stopped .tooDeep) ∧ depth ≤ recoveryDepth ∧
            cursor.current ≤ after.current)) := by
  constructor
  · obtain ⟨front, endLine, closed⟩ := closed?_of_mem hasEnd
    refine ⟨front, endLine, closed, ?_, parseExpression_arrives limit closed⟩
    rw [findIdx_of_closed? closed]
    exact parse_arrives limit closed
  · intro depth cursor token isNext noEnd endsLater
    obtain ⟨front, endLine, closed⟩ := closed?_of_mem endsLater
    have ahead : Ahead tokens endLine cursor.current front := .ofClosed? closed
    cases front with
    | nil =>
      obtain ⟨last, isLast, isEnd, -⟩ := ahead.last
      obtain rfl := Option.some.inj (isNext.symm.trans isLast)
      exact absurd isEnd noEnd
    | cons first rest =>
      obtain ⟨result, after, reported, left, arrives, sameDepth, errors, aheadAfter, ends⟩ :=
        declaration_arrives depth ahead
      obtain ⟨last, behind, isDrop, -, isEnd, -⟩ := aheadAfter
      have isIn : last ∈ tokens.drop after.current := by
        rw [isDrop]
        exact List.mem_append_right _ (List.mem_cons_self ..)
      exact ⟨result, after, reported, arrives, sameDepth, errors, ⟨last, isIn, isEnd⟩, ends⟩

/-- A stray brace in front of the end, with more tokens behind that. -/
theorem parser_finishes_stray_brace :
    let brace : Token := ⟨.rightBrace, "\x7d", .nil, 1⟩
    let tokens := [brace, .endOfText 1, ⟨.keyFun, "fun", .nil, 2⟩]
    (∃ token ∈ tokens, token.kind = .endOfFile) ∧
      (∃ statements errors, Walk.parse 3 tokens .start = ⟨.ok statements, ⟨1, 0, errors⟩⟩) ∧
      tokens[0]? = some brace ∧ brace.kind ≠ .endOfFile ∧
      (∃ last ∈ tokens.drop 0, last.kind = .endOfFile) ∧
      ∃ found after, Walk.declaration 6 tokens .start = ⟨.ok found, after⟩ ∧ 0 < after.current := by
  intro brace tokens
  have hasEnd : ∃ token ∈ tokens, token.kind = .endOfFile :=
    ⟨.endOfText 1, List.mem_cons_of_mem _ (List.mem_cons_self ..), rfl⟩
  have noEnd : brace.kind ≠ .endOfFile := by decide
  obtain ⟨⟨front, endLine, -, parsed, -⟩, declares⟩ := parser_finishes 3 hasEnd
  obtain ⟨result, after, _, declared, -, -, -, ends⟩ := declares 6 .start brace rfl noEnd hasEnd
  obtain ⟨found, rfl, moved, -⟩ | ⟨-, isLittle, -⟩ := ends
  · exact ⟨hasEnd, ⟨_, _, parsed⟩, rfl, noEnd, hasEnd, found, after, declared, moved⟩
  · exact absurd isLittle (by decide)

/-- Braces within braces: at the third one nothing is left of the limit, so that the declaration
there neither moves the cursor nor reports anything. The one around it reports that nesting is too
deep, but cannot search for the next statement; the one around both reports it again and skips the
rest. -/
theorem declaration_unmoved :
    let brace : Token := ⟨.leftBrace, "\x7b", .nil, 1⟩
    let tokens := [brace, brace, brace, .endOfText 1]
    let third : Cursor := ⟨2, 0, []⟩
    let isTooDeep := SyntaxError.atToken .tooMuchNesting brace
    Walk.declaration 1 tokens third = ⟨.error (.stopped .tooDeep), third⟩ ∧
      Walk.declaration 3 tokens ⟨1, 0, []⟩ = ⟨.error (.stopped .tooDeep), ⟨2, 0, [isTooDeep]⟩⟩ ∧
      Walk.parse 0 tokens .start = ⟨.ok [], ⟨3, 0, [isTooDeep, isTooDeep]⟩⟩ ∧
      ¬ ∀ (depth : Nat) (tokens : List Token) (cursor : Cursor) (token : Token),
        tokens[cursor.current]? = some token → token.kind ≠ .endOfFile →
          (∃ last ∈ tokens.drop cursor.current, last.kind = .endOfFile) →
          cursor.current < (Walk.declaration depth tokens cursor).cursor.current := by
  intro brace tokens third isTooDeep
  have isUnmoved : Walk.declaration 1 tokens third = ⟨.error (.stopped .tooDeep), third⟩ := by cbv
  refine ⟨isUnmoved, by cbv, by cbv, fun moves => ?_⟩
  have moved := moves 1 tokens third brace rfl (by decide)
    ⟨.endOfText 1, List.mem_cons_of_mem _ (List.mem_singleton_self _), rfl⟩
  rw [isUnmoved] at moved
  exact Nat.lt_irrefl _ moved

end LoxLang.Grammar
