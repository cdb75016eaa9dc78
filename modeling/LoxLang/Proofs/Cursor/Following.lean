import LoxLang.Proofs.Cursor.Walk
import LoxLang.Proofs.Grammar.Nesting

/-!
# Walks that follow rules

A walk follows a rule if it makes of a list of tokens what the rule makes of the tokens between the
cursor and the first one that ends the text: it has the same result, reports the same errors, stops
in front of the tokens that the rule leaves, and is in as many function bodies as before. Since a
rule is stopped by nothing but syntax errors and nesting, a walk that follows one neither reads
outside of the list nor turns without end.

The index of the token that ends the text is the same wherever a walk goes. Where it is zero there
is nothing to go over, and the search for the next statement would have no token behind it; the
`floor` of a walk is the least such index for which the walk follows its rule.
-/

namespace LoxLang.Grammar

variable {α β : Type}

/-- The tokens from an index to the first one that ends the text, which is on the given line. -/
def Ahead (tokens : List Token) (endLine : Int) (index : Nat) (rest : List Token) : Prop :=
  ∃ (last : Token) (behind : List Token), tokens.drop index = rest ++ last :: behind ∧
    (∀ token ∈ rest, token.kind ≠ .endOfFile) ∧ last.kind = .endOfFile ∧ last.line = endLine

namespace Ahead

variable {tokens rest : List Token} {endLine : Int} {index : Nat} {token : Token}

/-- What is closed behind an index is ahead of it. -/
theorem ofClosed? (closed : closed? (tokens.drop index) = some (rest, endLine)) :
    Ahead tokens endLine index rest :=
  closed?_eq_some_iff.mp closed

/-- At the end there is the token that ends the text. -/
theorem last (ahead : Ahead tokens endLine index []) :
    ∃ last, tokens[index]? = some last ∧ last.kind = .endOfFile ∧ last.line = endLine := by
  obtain ⟨last, behind, same, -, isEnd, isLine⟩ := ahead
  refine ⟨last, ?_, isEnd, isLine⟩
  rw [← Nat.add_zero index, ← List.getElem?_drop, same]
  rfl

/-- The first token ahead stands at the index, and does not end the text. -/
theorem next (ahead : Ahead tokens endLine index (token :: rest)) :
    tokens[index]? = some token ∧ token.kind ≠ .endOfFile := by
  obtain ⟨last, behind, same, noEnd, -, -⟩ := ahead
  refine ⟨?_, noEnd token (List.mem_cons_self ..)⟩
  rw [← Nat.add_zero index, ← List.getElem?_drop, same]
  rfl

/-- One index further on, the first token is no longer ahead. -/
theorem moved (ahead : Ahead tokens endLine index (token :: rest)) :
    Ahead tokens endLine (index + 1) rest := by
  obtain ⟨last, behind, same, noEnd, isEnd, isLine⟩ := ahead
  refine ⟨last, behind, ?_, (List.forall_mem_cons.mp noEnd).2, isEnd, isLine⟩
  rw [← List.drop_drop, same]
  rfl

/-- There are more tokens in the list than in front of its end. -/
theorem length_lt (ahead : Ahead tokens endLine index rest) : rest.length < tokens.length := by
  obtain ⟨last, behind, same, -, -, -⟩ := ahead
  have isLength := congrArg List.length same
  rw [List.length_drop, List.length_append, List.length_cons] at isLength
  omega

end Ahead

/-! ## Steps of a walk -/

namespace Walk

variable {tokens : List Token} {cursor : Cursor} {token : Token}

/-- The second walk goes on where the first one stopped, if that was not stopped. -/
theorem bind_eq (walk : Walk α) (next : α → Walk β) (tokens : List Token) (cursor : Cursor) :
    (walk >>= next) tokens cursor =
      match (walk tokens cursor).result with
      | .ok value => next value tokens (walk tokens cursor).cursor
      | .error failure => ⟨.error failure, (walk tokens cursor).cursor⟩ := rfl

/-- The next token is the one at the cursor. -/
theorem peek_eq (isNext : tokens[cursor.current]? = some token) :
    peek tokens cursor = ⟨.ok token, cursor⟩ := by
  rw [peek, tokenAt, isNext]

/-- The previous token is the one in front of the cursor. -/
theorem previous_eq {index : Nat} (isBehind : cursor.current = index + 1)
    (isToken : tokens[index]? = some token) : previous tokens cursor = ⟨.ok token, cursor⟩ := by
  unfold previous
  rw [isBehind]
  exact (by rw [tokenAt, isToken] : tokenAt index tokens cursor = ⟨.ok token, cursor⟩)

/-- The text is at its end if the next token is the one that ends it. -/
theorem isAtEnd_eq (isNext : tokens[cursor.current]? = some token) :
    isAtEnd tokens cursor = ⟨.ok (token.kind = .endOfFile), cursor⟩ := by
  rw [isAtEnd, bind_eq, peek_eq isNext]
  rfl

/-- The token that ends the text is of no kind that is looked for. -/
theorem check_last (isNext : tokens[cursor.current]? = some token)
    (isEnd : token.kind = .endOfFile) (kind : TokenKind) :
    check kind tokens cursor = ⟨.ok false, cursor⟩ := by
  rw [check, bind_eq, isAtEnd_eq isNext, decide_eq_true isEnd]
  rfl

/-- A token that does not end the text is of the kind that is looked for or is not. -/
theorem check_next (isNext : tokens[cursor.current]? = some token)
    (noEnd : token.kind ≠ .endOfFile) (kind : TokenKind) :
    check kind tokens cursor = ⟨.ok (token.kind = kind), cursor⟩ := by
  rw [check, bind_eq, isAtEnd_eq isNext, decide_eq_false noEnd]
  exact (bind_eq ..).trans (by rw [peek_eq isNext]; rfl)

/-- A token that does not end the text is passed over. -/
theorem advance_next (isNext : tokens[cursor.current]? = some token)
    (noEnd : token.kind ≠ .endOfFile) : advance tokens cursor = ⟨.ok token, cursor.moved⟩ := by
  have moved : previous tokens cursor.moved = ⟨.ok token, cursor.moved⟩ := previous_eq rfl isNext
  rw [advance, bind_eq, isAtEnd_eq isNext, decide_eq_false noEnd]
  exact moved

/-- At the end of the text nothing moves. -/
theorem advance_last {before : Token} {index : Nat}
    (isNext : tokens[cursor.current]? = some token) (isEnd : token.kind = .endOfFile)
    (isBehind : cursor.current = index + 1) (isBefore : tokens[index]? = some before) :
    advance tokens cursor = ⟨.ok before, cursor⟩ := by
  rw [advance, bind_eq, isAtEnd_eq isNext, decide_eq_true isEnd]
  exact previous_eq isBehind isBefore

/-- The token that ends the text is not taken. -/
theorem takes_last (isNext : tokens[cursor.current]? = some token)
    (isEnd : token.kind = .endOfFile) (kinds : List TokenKind) :
    takes kinds tokens cursor = ⟨.ok false, cursor⟩ := by
  induction kinds with
  | nil => rfl
  | cons kind kinds inductionHypothesis =>
    rw [takes, bind_eq, check_last isNext isEnd]
    exact inductionHypothesis

/-- A token that does not end the text is taken if it is of one of the kinds. -/
theorem takes_next (isNext : tokens[cursor.current]? = some token)
    (noEnd : token.kind ≠ .endOfFile) (kinds : List TokenKind) :
    takes kinds tokens cursor =
      if token.kind ∈ kinds then ⟨.ok true, cursor.moved⟩ else ⟨.ok false, cursor⟩ := by
  induction kinds with
  | nil => rfl
  | cons kind kinds inductionHypothesis =>
    rw [takes, bind_eq, check_next isNext noEnd]
    by_cases isKind : token.kind = kind
    · simp only [isKind, decide_true, if_true, List.mem_cons_self]
      rw [bind_eq, advance_next isNext noEnd]
      rfl
    · simp only [isKind, decide_false, Bool.false_eq_true, if_false, List.mem_cons, false_or]
      exact inductionHypothesis

/-- The search for the next statement is over at the end of the text. -/
theorem skipInStatement_last (isNext : tokens[cursor.current]? = some token)
    (isEnd : token.kind = .endOfFile) : skipInStatement tokens cursor = ⟨.ok none, cursor⟩ := by
  rw [skipInStatement, bind_eq, isAtEnd_eq isNext, decide_eq_true isEnd]
  rfl

/-- The search for the next statement is over behind a semicolon and in front of a keyword, and goes
on elsewhere. -/
theorem skipInStatement_next {before : Token} {index : Nat}
    (isNext : tokens[cursor.current]? = some token) (noEnd : token.kind ≠ .endOfFile)
    (isBehind : cursor.current = index + 1) (isBefore : tokens[index]? = some before) :
    skipInStatement tokens cursor =
      if before.kind = .semicolon ∨ token.kind ∈ statementStarts then ⟨.ok none, cursor⟩
      else ⟨.ok (some ()), cursor.moved⟩ := by
  rw [skipInStatement, bind_eq, isAtEnd_eq isNext, decide_eq_false noEnd]
  simp only [Bool.false_eq_true, if_false]
  rw [bind_eq, previous_eq isBehind isBefore]
  by_cases isSemicolon : before.kind = .semicolon
  · simp only [isSemicolon, if_true, true_or]
    rfl
  · simp only [isSemicolon, if_false, false_or]
    rw [bind_eq, peek_eq isNext]
    by_cases starts : token.kind ∈ statementStarts
    · simp only [starts, if_true]
      rfl
    · simp only [starts, if_false]
      rw [bind_eq, advance_next isNext noEnd]
      rfl

end Walk

/-! ## Following a rule -/

/-- The cursor stands in front of tokens that end at an index not below the floor. -/
structure Stands (floor : Nat) (tokens : List Token) (endLine : Int) (cursor : Cursor)
    (rest : List Token) : Prop where
  ahead : Ahead tokens endLine cursor.current rest
  aboveFloor : floor ≤ cursor.current + rest.length

/-- A cursor that is moved over one token stands in front of the others. -/
theorem Stands.moved {floor : Nat} {tokens rest : List Token} {endLine : Int} {cursor : Cursor}
    {token : Token} (stands : Stands floor tokens endLine cursor (token :: rest)) :
    Stands floor tokens endLine cursor.moved rest := by
  refine ⟨stands.ahead.moved, ?_⟩
  have aboveFloor := stands.aboveFloor
  rw [List.length_cons] at aboveFloor
  rw [Cursor.current_moved]
  omega

/-- What a rule knows at a cursor. -/
def Cursor.surroundings (cursor : Cursor) (endLine : Int) : Surroundings :=
  ⟨endLine, cursor.functionDepth ≠ 0⟩

/-- The walk from a cursor in front of tokens came to what a rule replied to them. -/
structure Arrives (tokens : List Token) (endLine : Int) (cursor : Cursor) (rest : List Token)
    (reply : Reply α) (arrival : Arrival α) : Prop where
  result : arrival.result = reply.result.mapError .stopped
  errors : arrival.cursor.errors = cursor.errors ++ reply.errors
  functionDepth : arrival.cursor.functionDepth = cursor.functionDepth
  ahead : Ahead tokens endLine arrival.cursor.current reply.rest
  sameEnd : arrival.cursor.current + reply.rest.length = cursor.current + rest.length

namespace Arrives

variable {floor : Nat} {tokens rest : List Token} {endLine : Int} {cursor : Cursor}

/-- Where a walk arrives, it stands in front of what the rule left. -/
theorem stands {reply : Reply α} {arrival : Arrival α}
    (arrives : Arrives tokens endLine cursor rest reply arrival)
    (stands : Stands floor tokens endLine cursor rest) :
    Stands floor tokens endLine arrival.cursor reply.rest := by
  refine ⟨arrives.ahead, ?_⟩
  rw [arrives.sameEnd]
  exact stands.aboveFloor

/-- Where a walk arrives, it is in as many function bodies as before. -/
theorem surroundings {reply : Reply α} {arrival : Arrival α}
    (arrives : Arrives tokens endLine cursor rest reply arrival) :
    arrival.cursor.surroundings endLine = cursor.surroundings endLine := by
  rw [Cursor.surroundings, arrives.functionDepth, Cursor.surroundings]

/-- Only the index is not said by the reply itself. -/
theorem arrival_eq {reply : Reply α} {arrival : Arrival α}
    (arrives : Arrives tokens endLine cursor rest reply arrival) :
    arrival = ⟨reply.result.mapError .stopped,
      ⟨arrival.cursor.current, cursor.functionDepth, cursor.errors ++ reply.errors⟩⟩ := by
  rw [← arrives.result, ← arrives.errors, ← arrives.functionDepth]

/-- Nothing was taken. -/
theorem stay (stands : Stands floor tokens endLine cursor rest) {result : Except Stop α} :
    Arrives tokens endLine cursor rest ⟨[], rest, result⟩
      ⟨result.mapError .stopped, cursor⟩ :=
  ⟨rfl, (List.append_nil _).symm, rfl, stands.ahead, rfl⟩

/-- A walk that begins behind the next token has taken that one too. -/
theorem ofMoved {token : Token} {reply : Reply α} {arrival : Arrival α}
    (arrives : Arrives tokens endLine cursor.moved rest reply arrival) :
    Arrives tokens endLine cursor (token :: rest) reply arrival := by
  refine ⟨arrives.result, arrives.errors, arrives.functionDepth, arrives.ahead, ?_⟩
  have sameEnd := arrives.sameEnd
  rw [Cursor.current_moved] at sameEnd
  rw [List.length_cons]
  omega

/-- What a walk came to, followed by what a further walk came to from there. -/
theorem after {reply : Reply α} {arrival : Arrival α} {further : Reply β} {later : Arrival β}
    (arrives : Arrives tokens endLine cursor rest reply arrival)
    (arrivesLater : Arrives tokens endLine arrival.cursor reply.rest further later) :
    Arrives tokens endLine cursor rest (further.after reply.errors) later := by
  refine ⟨arrivesLater.result, ?_, arrivesLater.functionDepth.trans arrives.functionDepth,
    arrivesLater.ahead, arrivesLater.sameEnd.trans arrives.sameEnd⟩
  rw [arrivesLater.errors, arrives.errors, List.append_assoc, Reply.after]

/-- One walk after the other, where the second follows wherever the first came to. -/
theorem bind {walk : Walk α} {next : α → Walk β} {rule : Rule α} {further : α → Rule β}
    (arrives : Arrives tokens endLine cursor rest
      (rule (cursor.surroundings endLine) rest) (walk tokens cursor))
    (nextArrives : ∀ value, (rule (cursor.surroundings endLine) rest).result = .ok value →
      Arrives tokens endLine (walk tokens cursor).cursor
        (rule (cursor.surroundings endLine) rest).rest
        (further value (cursor.surroundings endLine)
          (rule (cursor.surroundings endLine) rest).rest)
        (next value tokens (walk tokens cursor).cursor)) :
    Arrives tokens endLine cursor rest
      ((rule >>= further) (cursor.surroundings endLine) rest) ((walk >>= next) tokens cursor) := by
  rw [Rule.bind_eq, Walk.bind_eq, arrives.result]
  cases isResult : (rule (cursor.surroundings endLine) rest).result with
  | error stop => exact ⟨rfl, arrives.errors, arrives.functionDepth, arrives.ahead, arrives.sameEnd⟩
  | ok value => exact arrives.after (nextArrives value isResult)

end Arrives

/-- From every cursor whose tokens end at an index not below the floor, the walk comes to what the
rule replies. -/
def Follows (floor : Nat) (walk : Walk α) (rule : Rule α) : Prop :=
  ∀ ⦃tokens : List Token⦄ ⦃endLine : Int⦄ ⦃cursor : Cursor⦄ ⦃rest : List Token⦄,
    Stands floor tokens endLine cursor rest →
      Arrives tokens endLine cursor rest (rule (cursor.surroundings endLine) rest)
        (walk tokens cursor)

/-- The walk follows the rule from every cursor behind the token. -/
def FollowsBehind (token : Token) (floor : Nat) (walk : Walk α) (rule : Rule α) : Prop :=
  ∀ ⦃tokens : List Token⦄ ⦃endLine : Int⦄ ⦃cursor : Cursor⦄ ⦃rest : List Token⦄ ⦃index : Nat⦄,
    cursor.current = index + 1 → tokens[index]? = some token →
    Stands floor tokens endLine cursor rest →
      Arrives tokens endLine cursor rest (rule (cursor.surroundings endLine) rest)
        (walk tokens cursor)

namespace Follows

variable {floor : Nat} {walk : Walk α} {rule : Rule α}

/-- A walk that follows a rule does so behind every token. -/
theorem behind (follows : Follows floor walk rule) (token : Token) :
    FollowsBehind token floor walk rule :=
  fun _ _ _ _ _ _ _ stands => follows stands

/-- Where nothing is read, a value is all that there is to follow. -/
protected theorem pure (value : α) : Follows floor (pure value) (pure value) :=
  fun _ _ _ _ stands => .stay stands

/-- Two walks one after the other follow two rules, as the second begins where the first arrives. -/
protected theorem bind {next : α → Walk β} {further : α → Rule β}
    (follows : Follows floor walk rule)
    (nextFollows : ∀ value, Follows floor (next value) (further value)) :
    Follows floor (walk >>= next) (rule >>= further) := by
  intro tokens endLine cursor rest stands
  have arrives := follows stands
  refine arrives.bind fun value _ => ?_
  have later := nextFollows value (arrives.stands stands)
  rw [arrives.surroundings] at later
  exact later

/-- What is done to the value of a walk and of a rule is the same. -/
protected theorem map {change : α → β} (follows : Follows floor walk rule) :
    Follows floor (change <$> walk) (change <$> rule) :=
  follows.bind fun _ => .pure _

/-- A choice that does not depend on the tokens is followed on both branches. -/
protected theorem ite {condition : Prop} [Decidable condition] {walk' : Walk α} {rule' : Rule α}
    (follows : Follows floor walk rule) (follows' : Follows floor walk' rule') :
    Follows floor (if condition then walk else walk') (if condition then rule else rule') := by
  split
  · exact follows
  · exact follows'

/-- A walk that runs into the limit follows the rule that does. -/
theorem tooDeep : Follows floor (Walk.fail (.stopped .tooDeep) : Walk α) Rule.tooDeep :=
  fun _ _ _ _ stands => .stay stands

/-- To look for a kind is to compare with the next token, and with nothing at the end. -/
theorem check (kind : TokenKind) : Follows floor (Walk.check kind) (Rule.nextIs kind) := by
  intro tokens endLine cursor rest stands
  cases rest with
  | nil =>
    obtain ⟨last, isNext, isEnd, -⟩ := stands.ahead.last
    rw [Walk.check_last isNext isEnd]
    exact .stay stands
  | cons token rest =>
    obtain ⟨isNext, noEnd⟩ := stands.ahead.next
    rw [Walk.check_next isNext noEnd]
    exact .stay stands

/-- Further declarations are looked for by asking whether the text is at its end. -/
theorem hasNext : Follows floor Walk.hasNext hasNext := by
  intro tokens endLine cursor rest stands
  rw [Walk.hasNext, Walk.bind_eq]
  cases rest with
  | nil =>
    obtain ⟨last, isNext, isEnd, -⟩ := stands.ahead.last
    rw [Walk.isAtEnd_eq isNext, decide_eq_true isEnd]
    exact .stay stands
  | cons token rest =>
    obtain ⟨isNext, noEnd⟩ := stands.ahead.next
    rw [Walk.isAtEnd_eq isNext, decide_eq_false noEnd]
    exact .stay stands

/-- A block goes on until its brace or the end of the text. -/
theorem inBlock : Follows floor Walk.inBlock inBlock := by
  intro tokens endLine cursor rest stands
  rw [Walk.inBlock, Walk.bind_eq]
  cases rest with
  | nil =>
    obtain ⟨last, isNext, isEnd, -⟩ := stands.ahead.last
    rw [Walk.check_last isNext isEnd]
    exact hasNext stands
  | cons token rest =>
    obtain ⟨isNext, noEnd⟩ := stands.ahead.next
    rw [Walk.check_next isNext noEnd]
    have replies : Grammar.inBlock (cursor.surroundings endLine) (token :: rest) =
        ⟨[], token :: rest, .ok (!decide (token.kind = .rightBrace))⟩ := rfl
    rw [replies]
    by_cases closes : token.kind = .rightBrace
    · rw [decide_eq_true closes]
      exact .stay stands
    · rw [decide_eq_false closes]
      exact hasNext stands

/-- A report at a token is the same in both forms, since it does not depend on the cursor. -/
theorem reportAt (token : Token) (problem : Problem) :
    Follows floor (Walk.reportAt token problem) (Rule.reportAt token problem) :=
  fun _ _ _ _ stands => ⟨rfl, rfl, rfl, stands.ahead, rfl⟩

/-- A report at the next token names the token at the cursor, or the end and its line. -/
theorem reportNext (problem : Problem) :
    Follows floor (Walk.reportNext problem) (Rule.reportNext problem) := by
  intro tokens endLine cursor rest stands
  rw [Walk.reportNext, Walk.bind_eq]
  cases rest with
  | nil =>
    obtain ⟨last, isNext, isEnd, isLine⟩ := stands.ahead.last
    rw [Walk.peek_eq isNext]
    refine ⟨rfl, ?_, rfl, stands.ahead, rfl⟩
    have sameError : SyntaxError.atToken problem last =
        SyntaxError.atNext problem [] endLine := by
      simp [SyntaxError.atNext, SyntaxError.atToken, Token.place, Token.endOfText, isEnd, isLine]
    exact congrArg (cursor.errors ++ [·]) sameError
  | cons token rest =>
    rw [Walk.peek_eq stands.ahead.next.1]
    exact ⟨rfl, rfl, rfl, stands.ahead, rfl⟩

/-- What is missing is reported at the next token, and stops the walk as it stops the rule. -/
theorem missing (expected : Expected) :
    Follows floor (Walk.missing expected : Walk α) (Rule.fail expected) := by
  have stops : Follows floor (Walk.fail (.stopped .syntaxError) : Walk α)
      fun _ tokens => ⟨[], tokens, .error .syntaxError⟩ := fun _ _ _ _ stands => .stay stands
  exact (reportNext (.expected expected)).bind fun _ => stops

/-- A cursor that is in a function body has a function around it. -/
theorem inFunction : Follows floor Walk.inFunction Rule.inFunction :=
  fun _ _ _ _ stands => .stay stands

/-- Within a function the count of bodies is one higher, and as before behind it. -/
theorem withinFunction (follows : Follows floor walk rule) :
    Follows floor (Walk.withinFunction walk) (Rule.withinFunction rule) := by
  intro tokens endLine cursor rest stands
  let inner : Cursor := { cursor with functionDepth := cursor.functionDepth + 1 }
  have innerStands : Stands floor tokens endLine inner rest := ⟨stands.ahead, stands.aboveFloor⟩
  have arrives := follows innerStands
  have isWithin : inner.surroundings endLine =
      { cursor.surroundings endLine with inFunction := true } := by
    simp [Cursor.surroundings, inner]
  rw [isWithin] at arrives
  exact ⟨arrives.result, arrives.errors, congrArg (· - 1) arrives.functionDepth, arrives.ahead,
    arrives.sameEnd⟩

/-- A walk that takes a token of some kinds if it is next, and goes on behind that token. -/
theorem takes {kinds : List TokenKind} {yes no : Walk α} {next : Option Token → Rule α}
    (followsNone : Follows floor no (next none))
    (followsSome : ∀ token, token.kind ∈ kinds →
      FollowsBehind token floor yes (next (some token))) :
    Follows floor (do if ← Walk.takes kinds then yes else no) (Rule.accept kinds >>= next) := by
  intro tokens endLine cursor rest stands
  rw [Walk.bind_eq, Rule.bind_eq]
  cases rest with
  | nil =>
    obtain ⟨last, isNext, isEnd, -⟩ := stands.ahead.last
    rw [Walk.takes_last isNext isEnd]
    exact followsNone stands
  | cons token rest =>
    obtain ⟨isNext, noEnd⟩ := stands.ahead.next
    rw [Walk.takes_next isNext noEnd]
    by_cases member : token.kind ∈ kinds
    · simp only [Rule.accept, member, if_true]
      exact (followsSome token member rfl isNext stands.moved).ofMoved
    · simp only [Rule.accept, member, if_false]
      exact followsNone stands

/-- A token that is asked for is taken, or reported as missing. -/
theorem consume (kind : TokenKind) (expected : Expected) :
    Follows floor (Walk.consume kind expected) (Rule.expect kind expected) := by
  intro tokens endLine cursor rest stands
  rw [Walk.consume, Walk.bind_eq, Rule.expect, Rule.bind_eq]
  cases rest with
  | nil =>
    obtain ⟨last, isNext, isEnd, -⟩ := stands.ahead.last
    rw [Walk.check_last isNext isEnd]
    exact missing expected stands
  | cons token rest =>
    obtain ⟨isNext, noEnd⟩ := stands.ahead.next
    rw [Walk.check_next isNext noEnd]
    by_cases isKind : token.kind = kind
    · simp only [Rule.accept, isKind, decide_true, if_true, List.mem_singleton]
      rw [Walk.advance_next isNext noEnd]
      exact (Arrives.stay stands.moved).ofMoved
    · simp only [Rule.accept, isKind, decide_false, Bool.false_eq_true, if_false,
        List.mem_singleton]
      exact missing expected stands

end Follows

/-- Behind a token, that token can be read again. -/
theorem FollowsBehind.previous {floor : Nat} {token : Token} {next : Token → Walk α}
    {rule : Rule α} (follows : FollowsBehind token floor (next token) rule) :
    FollowsBehind token floor (do next (← Walk.previous)) rule := by
  intro tokens endLine cursor rest index isBehind isToken stands
  rw [Walk.bind_eq, Walk.previous_eq isBehind isToken]
  exact follows isBehind isToken stands

/-! ## Loops -/

namespace Follows

variable {floor : Nat}

/-- With more turns than there are tokens, a walk goes on as often as the steady rule does. The
induction is on the turns. -/
private theorem turns {turn : α → Walk (Option α)} {step : α → Rule (Option α)}
    (steady : Rule.Steady step) (follows : ∀ value, Follows floor (turn value) (step value))
    {tokens rest : List Token} {endLine : Int} {cursor : Cursor} (count : Nat) (value : α)
    (stands : Stands floor tokens endLine cursor rest) (enough : rest.length < count) :
    Arrives tokens endLine cursor rest
      (Rule.repeated value step (cursor.surroundings endLine) rest)
      (Walk.turns turn count value tokens cursor) := by
  induction count generalizing value cursor rest with
  | zero => exact absurd enough (Nat.not_lt_zero _)
  | succ count inductionHypothesis =>
    have arrives := follows value stands
    rw [Walk.turns, Rule.repeated_eq steady]
    refine arrives.bind fun found result => ?_
    cases found with
    | none => exact .stay (arrives.stands stands)
    | some further =>
      have shorter := steady.takes result
      have later := inductionHypothesis further (arrives.stands stands) (by omega)
      rw [arrives.surroundings] at later
      exact later

/-- A loop leaves before it has turned as often as there are tokens, since every turn but the last
takes one, and the token that ends the text is never taken. -/
theorem loop {turn : α → Walk (Option α)} {step : α → Rule (Option α)} (steady : Rule.Steady step)
    (follows : ∀ value, Follows floor (turn value) (step value)) (value : α) :
    Follows floor (Walk.loop value turn) (Rule.repeated value step) :=
  fun tokens _ _ _ stands => turns steady follows tokens.length value stands stands.ahead.length_lt

end Follows

/-! ## Recovery -/

section Recovery

variable {tokens rest : List Token} {endLine : Int} {cursor : Cursor}

/-- Behind a token, the search for the next statement comes to the tokens where it is to end. -/
private theorem skips_to_boundary (count : Nat) {last : Token} {index : Nat}
    (isBehind : cursor.current = index + 1) (isLast : tokens[index]? = some last)
    (stands : Stands 1 tokens endLine cursor rest) (enough : rest.length < count) :
    Arrives tokens endLine cursor rest ⟨[], statementBoundary last.kind rest, .ok ()⟩
      (Walk.turns (fun _ => Walk.skipInStatement) count () tokens cursor) := by
  induction count generalizing cursor rest index last with
  | zero => exact absurd enough (Nat.not_lt_zero _)
  | succ count inductionHypothesis =>
    rw [Walk.turns, Walk.bind_eq]
    cases rest with
    | nil =>
      obtain ⟨ending, isNext, isEnd, -⟩ := stands.ahead.last
      rw [Walk.skipInStatement_last isNext isEnd]
      exact .stay stands
    | cons token rest =>
      obtain ⟨isNext, noEnd⟩ := stands.ahead.next
      rw [Walk.skipInStatement_next isNext noEnd isBehind isLast, statementBoundary]
      split
      · exact .stay stands
      · exact (inductionHypothesis rfl isNext stands.moved (Nat.lt_of_succ_lt_succ enough)).ofMoved

/-- Where a token is left or a token was taken, the walk goes on where the rule does. -/
private theorem synchronize_arrives (stands : Stands 1 tokens endLine cursor rest) :
    Arrives tokens endLine cursor rest ⟨[], synchronize rest, .ok ()⟩
      (Walk.synchronize tokens cursor) := by
  have enough := stands.ahead.length_lt
  rw [Walk.synchronize, Walk.bind_eq]
  cases rest with
  | nil =>
    -- Nothing is taken here, and the search begins with a look at the token behind the cursor.
    obtain ⟨ending, isNext, isEnd, -⟩ := stands.ahead.last
    obtain ⟨index, isBehind⟩ : ∃ index, cursor.current = index + 1 :=
      Nat.exists_eq_add_one.mpr stands.aboveFloor
    have inside : index < tokens.length := by
      have ends := (List.getElem?_eq_some_iff.mp isNext).1
      omega
    have isBefore := List.getElem?_eq_getElem inside
    rw [Walk.advance_last isNext isEnd isBehind isBefore]
    exact skips_to_boundary tokens.length isBehind isBefore stands enough
  | cons token rest =>
    obtain ⟨isNext, noEnd⟩ := stands.ahead.next
    rw [Walk.advance_next isNext noEnd]
    have furtherEnough : rest.length < tokens.length := Nat.lt_of_succ_lt enough
    exact (skips_to_boundary tokens.length rfl isNext stands.moved furtherEnough).ofMoved

/-- The search for the next statement follows the rule for it wherever a token stands before the
end. -/
theorem Follows.synchronize : Follows 1 Walk.synchronize
    fun _ tokens => ⟨[], Grammar.synchronize tokens, .ok ()⟩ :=
  fun _ _ _ _ stands => synchronize_arrives stands

/-- What stops a walk is reported, and the walk goes on where the rule does. -/
theorem Follows.recovering (depth : Nat) {walk : Walk Stmt} {rule : Rule Stmt}
    (follows : Follows 1 walk rule) :
    Follows 1 (Walk.recovering depth walk) (recovering depth rule) := by
  intro tokens endLine cursor rest stands
  have arrives := follows stands
  have skips : Follows 1 (do Walk.synchronize; return none : Walk (Option Stmt))
      fun _ tokens => ⟨[], Grammar.synchronize tokens, .ok none⟩ :=
    synchronize.bind fun _ => .pure none
  have reports {next : Walk (Option Stmt)} {further : Rule (Option Stmt)}
      (nextFollows : Follows 1 next further) :
      Follows 1 (do Walk.reportNext .tooMuchNesting; next)
        (do Rule.reportNext .tooMuchNesting; further) :=
    (reportNext .tooMuchNesting).bind fun _ => nextFollows
  unfold Walk.recovering Grammar.recovering
  dsimp only
  rw [arrives.result]
  cases (rule (cursor.surroundings endLine) rest).result with
  | ok statement =>
    exact ⟨rfl, arrives.errors, arrives.functionDepth, arrives.ahead, arrives.sameEnd⟩
  | error stop =>
    cases stop with
    | syntaxError =>
      have later := arrives.after (skips (arrives.stands stands))
      rw [Reply.after, List.append_nil] at later
      exact later
    | tooDeep =>
      by_cases noReport : depth < reportDepth
      · rw [if_pos noReport, if_pos noReport]
        exact ⟨rfl, arrives.errors, arrives.functionDepth, arrives.ahead, arrives.sameEnd⟩
      by_cases tooLittle : depth < recoveryDepth
      · rw [if_neg noReport, if_neg noReport, if_pos tooLittle, if_pos tooLittle]
        exact arrives.after (reports tooDeep (arrives.stands stands))
      · rw [if_neg noReport, if_neg noReport, if_neg tooLittle, if_neg tooLittle]
        exact arrives.after (reports skips (arrives.stands stands))

end Recovery

end LoxLang.Grammar
