import LoxLang.Proofs.Grammar.Exactness
import LoxLang.Proofs.Grammar.Joining

/-!
# Errors stay in their statements

A segment of tokens that holds no semicolon, brace or `for` before the semicolon that closes it is
read as if nothing stood before or behind it, whatever is wrong with it. An expression does not
reach its semicolon; a statement that is read ends with the semicolon, and one that is broken stops
in front of it, so that the search for the next statement ends behind it at the latest.
-/

namespace LoxLang.Grammar

open Rule

variable {α β : Type}

/-- The kinds of tokens after which a statement can go on behind a semicolon. -/
def openers : List TokenKind := [.semicolon, .leftBrace, .keyFor]

/-- The tokens end with their only semicolon, and nothing in front of it can go on behind it. -/
inductive Closes : List Token → Prop where
  | last {token : Token} (isSemicolon : token.kind = .semicolon) : Closes [token]
  | cons {token : Token} {tokens : List Token} (plain : token.kind ∉ openers)
      (closes : Closes tokens) : Closes (token :: tokens)

namespace Closes

/-- Plain tokens and a semicolon behind them are closed by it. -/
theorem append {tokens : List Token} {last : Token} (plain : ∀ token ∈ tokens, token.kind ∉ openers)
    (isSemicolon : last.kind = .semicolon) : Closes (tokens ++ [last]) := by
  induction tokens with
  | nil => exact .last isSemicolon
  | cons token tokens inductionHypothesis =>
    obtain ⟨isPlain, plain⟩ := List.forall_mem_cons.mp plain
    exact .cons isPlain (inductionHypothesis plain)

/-- At least the semicolon is there. -/
theorem ne_nil {tokens : List Token} (closes : Closes tokens) : tokens ≠ [] := by
  cases closes <;> exact List.cons_ne_nil _ _

/-- The last token is the semicolon. -/
theorem getLast? {tokens : List Token} (closes : Closes tokens) :
    (tokens.map (·.kind)).getLast? = some .semicolon := by
  induction closes with
  | last isSemicolon => exact congrArg some isSemicolon
  | cons _ _ inductionHypothesis => rw [List.map_cons, List.getLast?_cons, inductionHypothesis]; rfl

/-- What is left of closed tokens is closed by the same semicolon. -/
theorem of_suffix {tokens rest : List Token} (closes : Closes tokens) (suffix : rest <:+ tokens)
    (nonempty : rest ≠ []) : Closes rest := by
  induction closes with
  | last isSemicolon =>
    rcases List.suffix_cons_iff.mp suffix with rfl | isNil
    · exact .last isSemicolon
    · exact absurd (List.suffix_nil.mp isNil) nonempty
  | cons plain closes inductionHypothesis =>
    rcases List.suffix_cons_iff.mp suffix with rfl | isSuffix
    · exact .cons plain closes
    · exact inductionHypothesis isSuffix

end Closes

namespace Rule

/-! ## Rules that do not reach the semicolon -/

/-- The rule does not reach the semicolon. -/
def Leaves (rule : Rule α) : Prop :=
  ∀ (surroundings : Surroundings) (tokens : List Token), Closes tokens →
    Closes (rule surroundings tokens).rest

namespace Leaves

/-- Two rules one after the other leave the semicolon if each of them does. -/
protected theorem bind {first : Rule α} {second : α → Rule β} (leaves : Leaves first)
    (leavesSecond : ∀ value, Leaves (second value)) : Leaves (first >>= second) := by
  intro surroundings tokens closes
  have left := leaves surroundings tokens closes
  rw [bind_eq]
  cases (first surroundings tokens).result with
  | error stop => exact left
  | ok value => exact leavesSecond value surroundings _ left

/-- A rule that only gives a value leaves everything. -/
protected theorem pure (value : α) : Leaves (pure value : Rule α) := fun _ _ closes => closes

/-- What is done to the value of a rule does not move it. -/
protected theorem map {change : α → β} {rule : Rule α} (leaves : Leaves rule) :
    Leaves (change <$> rule) :=
  leaves.bind fun _ => .pure _

/-- A choice that does not depend on the tokens leaves the semicolon on both branches. -/
protected theorem ite {condition : Prop} [Decidable condition] {rule other : Rule α}
    (leaves : Leaves rule) (leavesOther : Leaves other) :
    Leaves (if condition then rule else other) := by
  split
  · exact leaves
  · exact leavesOther

/-- To ask for the next token leaves everything. -/
protected theorem nextIs (kind : TokenKind) : Leaves (nextIs kind) := fun _ _ closes => closes

/-- To ask whether a function is around leaves everything. -/
protected theorem inFunction : Leaves inFunction := fun _ _ closes => closes

/-- A report at a token leaves everything. -/
protected theorem reportAt (token : Token) (problem : Problem) :
    Leaves (reportAt token problem) := fun _ _ closes => closes

/-- A report at the next token leaves everything. -/
protected theorem reportNext (problem : Problem) : Leaves (reportNext problem) :=
  fun _ _ closes => closes

/-- A rule that fails leaves everything. -/
protected theorem fail (missing : Expected) : Leaves (fail missing : Rule α) :=
  fun _ _ closes => closes

/-- A rule that runs into the limit leaves everything. -/
protected theorem tooDeep : Leaves (tooDeep : Rule α) := fun _ _ closes => closes

/-- What is accepted is not the semicolon if that is of none of the kinds, so that something is
left. -/
protected theorem accept {kinds : List TokenKind} (noSemicolon : .semicolon ∉ kinds) :
    Leaves (accept kinds) := by
  intro surroundings tokens closes
  cases closes with
  | @last token isSemicolon =>
    have noKind : token.kind ∉ kinds := isSemicolon ▸ noSemicolon
    rw [accept_cons, if_neg noKind]
    exact .last isSemicolon
  | @cons token tokens plain closes =>
    rw [accept_cons]
    split
    · exact closes
    · exact .cons plain closes

/-- An expected token that is no semicolon leaves the semicolon. -/
protected theorem expect {kind : TokenKind} (noSemicolon : kind ≠ .semicolon)
    (missing : Expected) : Leaves (expect kind missing) := by
  refine (Leaves.accept (by simpa using noSemicolon.symm)).bind fun found => ?_
  cases found with
  | none => exact .fail missing
  | some token => exact .pure token

/-- A repetition leaves the semicolon if each of its turns does, by induction on what may still be
taken. -/
protected theorem repeated {step : α → Rule (Option α)} (leaves : ∀ value, Leaves (step value))
    (value : α) : Leaves (repeated value step) := by
  intro surroundings tokens closes
  unfold repeated
  generalize ([] : List SyntaxError) = before
  suffices general : ∀ budget : List Token,
      Closes (iterate step surroundings budget before value tokens).rest from general tokens
  intro budget
  induction budget generalizing before value tokens with
  | nil => exact closes
  | cons token budget inductionHypothesis =>
    have left := leaves value surroundings tokens closes
    unfold iterate
    dsimp only
    split
    · exact left
    · exact left
    · exact inductionHypothesis _ _ left _

end Leaves

/-! ## Rules that end with the semicolon -/

/-- The rule ends with the semicolon where it finds a phrase, and in front of it where it is
stopped. -/
def Settles (rule : Rule α) : Prop :=
  ∀ (surroundings : Surroundings) (tokens : List Token), Closes tokens →
    match (rule surroundings tokens).result with
    | .ok _ => (rule surroundings tokens).rest = []
    | .error _ => Closes (rule surroundings tokens).rest

namespace Settles

/-- A rule that does not reach the semicolon, in front of one that ends with it. -/
protected theorem bind {first : Rule α} {second : α → Rule β} (leaves : Leaves first)
    (settles : ∀ value, Settles (second value)) : Settles (first >>= second) := by
  intro surroundings tokens closes
  have left := leaves surroundings tokens closes
  rw [bind_eq]
  cases (first surroundings tokens).result with
  | error stop => exact left
  | ok value => exact settles value surroundings _ left

/-- What follows the semicolon takes nothing more. -/
theorem before {first : Rule α} {second : α → Rule β} (settles : Settles first)
    (idle : ∀ value surroundings, ∃ found, second value surroundings [] = ⟨[], [], .ok found⟩) :
    Settles (first >>= second) := by
  intro surroundings tokens closes
  have ended := settles surroundings tokens closes
  rw [bind_eq]
  cases result : (first surroundings tokens).result with
  | error stop =>
    rw [result] at ended
    exact ended
  | ok value =>
    rw [result] at ended
    obtain ⟨found, isIdle⟩ := idle value surroundings
    have isNil : (first surroundings tokens).rest = [] := ended
    simp only [isNil, isIdle, Reply.after]

/-- What is done to the value of a rule does not change where it ends. -/
protected theorem map {change : α → β} {rule : Rule α} (settles : Settles rule) :
    Settles (change <$> rule) :=
  settles.before fun _ _ => ⟨_, rfl⟩

/-- A choice that does not depend on the tokens ends with the semicolon on both branches. -/
protected theorem ite {condition : Prop} [Decidable condition] {rule other : Rule α}
    (settles : Settles rule) (settlesOther : Settles other) :
    Settles (if condition then rule else other) := by
  split
  · exact settles
  · exact settlesOther

/-- A rule that runs into the limit is stopped in front of the semicolon. -/
protected theorem tooDeep : Settles (tooDeep : Rule α) := fun _ _ closes => closes

/-- An expected semicolon is the last token, or missing at an earlier one. -/
protected theorem semicolon (missing : Expected) : Settles (expect .semicolon missing) := by
  intro surroundings tokens closes
  cases closes with
  | last isSemicolon =>
    rw [expect_cons, if_pos isSemicolon]
  | @cons token tokens plain closes =>
    have noSemicolon : token.kind ≠ .semicolon := fun isSemicolon =>
      plain (isSemicolon ▸ List.mem_cons_self)
    rw [expect_cons, if_neg noSemicolon]
    exact .cons plain closes

/-- Before the semicolon there is no opening brace to be taken. -/
theorem leftBrace {missing : Expected} (second : Token → Rule α) :
    Settles (expect .leftBrace missing >>= second) := by
  intro surroundings tokens closes
  have noBrace : ∀ token ∈ tokens.head?, token.kind ≠ .leftBrace := by
    rintro token isNext isBrace
    cases closes with
    | last isSemicolon =>
      obtain rfl := Option.some.inj isNext
      rw [isSemicolon] at isBrace
      cases isBrace
    | cons plain =>
      obtain rfl := Option.some.inj isNext
      exact plain (isBrace ▸ (by decide : TokenKind.leftBrace ∈ openers))
  obtain ⟨token, tokens, rfl⟩ := List.exists_cons_of_ne_nil closes.ne_nil
  rw [bind_eq, expect_cons, if_neg (noBrace token rfl)]
  exact closes

/-- A rule that looks for a token of some kinds does not find the semicolon or an opener. -/
theorem accepting {kinds : List TokenKind} {second : Option Token → Rule α}
    (noSemicolon : .semicolon ∉ kinds) (settles : Settles (second none))
    (settlesSome : ∀ token, token.kind ∈ kinds → token.kind ∉ openers →
      Settles (second (some token))) :
    Settles (accept kinds >>= second) := by
  intro surroundings tokens closes
  rw [bind_eq]
  cases closes with
  | @last token isSemicolon =>
    have noKind : token.kind ∉ kinds := isSemicolon ▸ noSemicolon
    simp only [accept, noKind, if_false]
    exact settles surroundings _ (.last isSemicolon)
  | @cons token tokens plain closes =>
    by_cases isKind : token.kind ∈ kinds
    · simp only [accept, isKind, if_true]
      exact settlesSome token isKind plain surroundings _ closes
    · simp only [accept, isKind, if_false]
      exact settles surroundings _ (.cons plain closes)

end Settles
end Rule

/-! ## Expressions -/

section Expressions

variable {inner operand : Rule Expr}

/-- A chain of operators leaves the semicolon, which is none of them. -/
theorem leaves_chain {level : Level} (noSemicolon : .semicolon ∉ level.operators)
    (leaves : Leaves operand) : Leaves (chain level operand) := by
  refine leaves.bind fun first => .repeated (fun left => ?_) first
  refine (Leaves.accept noSemicolon).bind fun operator => ?_
  cases operator with
  | none => exact .pure none
  | some operator => exact leaves.bind fun _ => .pure _

/-- Levels of operators above each other leave the semicolon. -/
theorem leaves_operations {levels : List Level}
    (noSemicolon : ∀ level ∈ levels, .semicolon ∉ level.operators) (leaves : Leaves operand) :
    Leaves (operations levels operand) := by
  induction levels with
  | nil => exact leaves
  | cons level levels inductionHypothesis =>
    obtain ⟨isFirst, areFurther⟩ := List.forall_mem_cons.mp noSemicolon
    exact leaves_chain isFirst (inductionHypothesis areFurther)

/-- A list leaves the semicolon, since it goes on with commas only. -/
theorem leaves_listed {tooMany : Problem} {item : Rule α} (leaves : Leaves item) :
    Leaves (listed tooMany item) := by
  refine leaves.bind fun first => (Leaves.repeated (fun found => ?_) _).bind fun _ => .pure _
  refine (Leaves.accept (by decide)).bind fun comma => ?_
  have further : Leaves (do return some (found.1 + 1, (← item) :: found.2)) :=
    leaves.bind fun _ => .pure _
  cases comma with
  | none => exact .pure none
  | some comma => exact .ite ((Leaves.reportNext tooMany).bind fun _ => further) further

/-- Calls leave the semicolon, since they go on with parentheses only. -/
theorem leaves_calls (leaves : Leaves inner) (callee : Expr) : Leaves (calls inner callee) := by
  refine .repeated (fun callee => (Leaves.accept (by decide)).bind fun opening => ?_) callee
  have closed (arguments : List Expr) : Leaves (do
      let paren ← expect .rightParen .parenAfterArguments
      return some (Expr.call callee paren arguments)) :=
    (Leaves.expect (by decide) _).bind fun _ => .pure _
  cases opening with
  | none => exact .pure none
  | some opening =>
    exact (Leaves.nextIs _).bind fun _ => .ite ((Leaves.pure []).bind closed)
      ((leaves_listed leaves).bind closed)

/-- A primary expression leaves the semicolon, since it fails there. -/
theorem leaves_primary (leaves : Leaves inner) : Leaves (primary inner) := by
  intro surroundings tokens closes
  obtain ⟨token, tokens, rfl⟩ := List.exists_cons_of_ne_nil closes.ne_nil
  have behind {kind : TokenKind} (isKind : token.kind = kind) (noSemicolon : kind ≠ .semicolon) :
      Closes tokens := by
    cases closes with
    | last isSemicolon => exact absurd (isKind.symm.trans isSemicolon) noSemicolon
    | cons _ closes => exact closes
  unfold primary
  rw [bind_eq]
  dsimp only [next, List.head?_cons]
  rw [after_nil]
  generalize isKind : token.kind = kind
  split
  iterate 6 exact behind isKind (by decide)
  · have parenthesized : Leaves (do
        let inner ← inner
        let _ ← expect .rightParen .parenAfterExpression
        return Expr.grouping inner) :=
      leaves.bind fun _ => (Leaves.expect (by decide) _).bind fun _ => .pure _
    exact parenthesized surroundings tokens (behind isKind (by decide))
  · exact closes

/-- Unary expressions and expressions leave the semicolon, by induction on the limit. -/
theorem leaves_unary_expression (depth : Nat) :
    Leaves (unary depth) ∧ Leaves (expression depth) := by
  induction depth with
  | zero => exact ⟨.tooDeep, .tooDeep⟩
  | succ depth inductionHypothesis =>
    obtain ⟨leavesUnary, leaves⟩ := inductionHypothesis
    rw [unary_succ, expression_succ]
    constructor
    · refine (Leaves.accept (by decide)).bind fun operator => ?_
      cases operator with
      | none => exact (leaves_primary leaves).bind fun callee => leaves_calls leaves callee
      | some operator => exact leavesUnary.bind fun _ => .pure _
    · refine (leaves_operations (by decide) leavesUnary).bind fun target =>
        (Leaves.accept (by decide)).bind fun equals => ?_
      cases equals with
      | none => exact .pure _
      | some equals =>
        refine leaves.bind fun value => ?_
        cases target with
        | reference name => exact .pure _
        | _ => exact (Leaves.reportAt _ _).bind fun _ => .pure _

/-- No expression reaches its semicolon. -/
theorem leaves_expression (depth : Nat) : Leaves (expression depth) :=
  (leaves_unary_expression depth).2

end Expressions

/-! ## Statements -/

section Statements

variable {inner : Rule Expr} {body : Rule Stmt}

/-- What stands in front of a semicolon ends with it. -/
theorem settles_closed {rule : Rule α} {build : α → β} {missing : Expected} (leaves : Leaves rule) :
    Settles (do
      let value ← rule
      let _ ← expect .semicolon missing
      return build value) :=
  .bind leaves fun _ => (Settles.semicolon missing).map

/-- A variable declaration ends with the semicolon. -/
theorem settles_varDeclaration (leaves : Leaves inner) : Settles (varDeclaration inner) := by
  refine .bind (.expect (by decide) _) fun name => .bind (.accept (by decide)) fun equals => ?_
  cases equals with
  | none => exact settles_closed (.pure none)
  | some equals => exact settles_closed leaves.map

/-- A return statement ends with the semicolon. -/
theorem settles_returnStatement (leaves : Leaves inner) (keyword : Token) :
    Settles (returnStatement inner keyword) := by
  have value : Settles (do
      let value ← if ← nextIs .semicolon then pure none else some <$> inner
      let _ ← expect .semicolon .semicolonAfterReturnValue
      return Stmt.ret keyword value) :=
    .bind (.nextIs _) fun _ => .ite (settles_closed (.pure none)) (settles_closed leaves.map)
  exact .bind .inFunction fun _ => .ite (.bind (.reportAt _ _) fun _ => value) value

/-- A conditional ends with the semicolon if its branches do: behind that no `else` is left. -/
theorem settles_ifStatement (leaves : Leaves inner) (settles : Settles body) :
    Settles (ifStatement inner body) :=
  .bind (.expect (by decide) _) fun _ => .bind leaves fun _ => .bind (.expect (by decide) _)
    fun _ => settles.before fun _ _ => ⟨_, rfl⟩

/-- A while loop ends with the semicolon if its body does. -/
theorem settles_whileStatement (leaves : Leaves inner) (settles : Settles body) :
    Settles (whileStatement inner body) :=
  .bind (.expect (by decide) _) fun _ => .bind leaves fun _ => .bind (.expect (by decide) _)
    fun _ => settles.map

/-- The function does not come to its body. -/
theorem settles_function (declaration : Rule (Option Stmt)) : Settles (function declaration) := by
  refine .bind (.expect (by decide) _) fun name => .bind (.expect (by decide) _) fun _ =>
    .bind (.nextIs _) fun closes => ?_
  have ends (parameters : List Token) : Settles (do
      let _ ← expect .rightParen .parenAfterParameters
      let _ ← expect .leftBrace .braceBeforeBody
      return Stmt.function name parameters (← withinFunction (block declaration))) :=
    .bind (.expect (by decide) _) fun _ => .leftBrace _
  exact .ite (.bind (.pure []) ends)
    (.bind (leaves_listed (.expect (by decide) _)) ends)

/-- Every statement ends with the semicolon, by induction on the limit; a block or a for loop would
open before it. -/
theorem settles_statement (depth : Nat) : Settles (statement depth) := by
  induction depth with
  | zero => exact .tooDeep
  | succ depth inductionHypothesis =>
    have leaves := leaves_expression depth
    rw [statement_succ]
    refine .accepting (by decide) (settles_closed leaves) fun keyword isKind isPlain => ?_
    dsimp only
    unfold keywordStatement
    split
    next isFor => exact absurd (isFor ▸ (by decide : TokenKind.keyFor ∈ openers)) isPlain
    · exact settles_ifStatement leaves inductionHypothesis
    · exact settles_closed leaves
    · exact settles_returnStatement leaves keyword
    · exact settles_whileStatement leaves inductionHypothesis
    next noFor noIf noPrint noReturn noWhile =>
      have isBrace : keyword.kind = .leftBrace := by simp_all
      exact absurd (isBrace ▸ (by decide : TokenKind.leftBrace ∈ openers)) isPlain

/-- Every declaration ends with the semicolon, before it recovers. -/
theorem settles_declarationBody (depth : Nat) :
    Settles (declarationBody (statement depth) (declaration depth) (expression depth)) :=
  .accepting (by decide) (settles_statement depth) fun _ _ _ =>
    .ite (settles_function _) (settles_varDeclaration (leaves_expression depth))

end Statements

/-! ## Segments -/

/-- Tokens with the semicolon that closes them: nothing in them opens or closes anything else. -/
structure Segment where
  tokens : List Token
  semicolon : Token
  plain : ∀ token ∈ tokens,
    token.kind ∉ [.semicolon, .leftBrace, .rightBrace, .keyFor, .endOfFile]
  notElse : Stops [.keyElse] tokens
  isSemicolon : semicolon.kind = .semicolon

namespace Segment

/-- The tokens of a segment with its semicolon. -/
def closed (segment : Segment) : List Token := segment.tokens ++ [segment.semicolon]

/-- The tokens of a segment are closed by its semicolon. -/
theorem closes (segment : Segment) : Closes segment.closed := by
  refine .append (fun token isIn isOpener => segment.plain token isIn ?_) segment.isSemicolon
  have isAmong : openers ⊆ [.semicolon, .leftBrace, .rightBrace, .keyFor, .endOfFile] := by decide
  exact isAmong isOpener

/-- A segment does not hold the end of a text. -/
theorem noEnd (segment : Segment) : ∀ token ∈ segment.closed, token.kind ≠ .endOfFile := by
  rintro token isIn isEnd
  rcases List.mem_append.mp isIn with isToken | isLast
  · exact segment.plain token isToken (by simp [isEnd])
  · obtain rfl := List.mem_singleton.mp isLast
    rw [segment.isSemicolon] at isEnd
    cases isEnd

/-- No segment goes on what stands before it. -/
theorem stops (segment : Segment) : Stops [.keyElse] segment.closed := by
  obtain ⟨tokens, semicolon, -, notElse, isSemicolon⟩ := segment
  cases tokens with
  | nil => simp [closed, isSemicolon]
  | cons token tokens => simpa [closed] using notElse

end Segment

/-- A declaration in tokens that a semicolon closes stays within them, and leaves such tokens or
nothing. -/
theorem declaration_before_of_closes {depth : Nat} {tokens behind : List Token}
    {endLine otherLine : Int} (closes : Closes tokens) (notElse : Stops [.keyElse] behind) :
    declaration (depth + 1) ⟨otherLine, false⟩ (tokens ++ behind) =
        (declaration (depth + 1) ⟨endLine, false⟩ tokens).before behind ∧
      ((declaration (depth + 1) ⟨endLine, false⟩ tokens).rest ≠ [] →
        Closes (declaration (depth + 1) ⟨endLine, false⟩ tokens).rest) := by
  have settles := settles_declarationBody depth ⟨endLine, false⟩ tokens closes
  constructor
  · refine declaration_before ?_ notElse
    unfold Reply.StaysWithin
    split
    next => trivial
    next isError =>
      rw [isError] at settles
      have settles : Closes _ := settles
      exact ⟨settles.ne_nil, .inr settles.getLast?⟩
  · exact closes.of_suffix ((orderly_declaration (depth + 1)).suffix _ _)

/-- What stands behind a segment is read as if the segment were not there, and the segment as if
nothing stood behind it. -/
theorem parse_segment_append (limit : Nat) (segment : Segment) {behind : List Token}
    (notElse : Stops [.keyElse] behind) (endLine otherLine : Int) :
    parse limit (segment.closed ++ behind) otherLine =
      parse limit segment.closed endLine ++ parse limit behind otherLine := by
  refine parse_append (fun tokens => tokens ≠ [] → Closes tokens) (fun token tokens closes => ?_)
    fun _ => segment.closes
  exact declaration_before_of_closes (closes (List.cons_ne_nil _ _)) notElse

/-- A text of segments is read segment by segment, by induction on the list of them. -/
theorem parse_segments (limit : Nat) (segments : List Segment) (endLine : Int) :
    parse limit (segments.flatMap (·.closed)) endLine =
      ⟨segments.flatMap fun segment => (parse limit segment.closed endLine).statements,
        segments.flatMap fun segment => (parse limit segment.closed endLine).errors⟩ := by
  induction segments with
  | nil => rfl
  | cons segment segments inductionHypothesis =>
    have stops : Stops [.keyElse] (segments.flatMap (·.closed)) := by
      cases segments with
      | nil => exact stops_nil _
      | cons next segments =>
        obtain ⟨token, tokens, isClosed⟩ := List.exists_cons_of_ne_nil next.closes.ne_nil
        have nextStops := next.stops
        rw [isClosed] at nextStops
        simpa [List.flatMap_cons, isClosed] using nextStops
    rw [List.flatMap_cons, parse_segment_append limit segment stops endLine,
      inductionHypothesis]
    rfl

/-- How the segment is read does not depend on where the text ends. -/
theorem parse_segment_line (limit : Nat) (segment : Segment) (endLine otherLine : Int) :
    parse limit segment.closed otherLine = parse limit segment.closed endLine := by
  have same := parse_segment_append limit segment (stops_nil _) endLine otherLine
  rw [List.append_nil, parse_nil] at same
  rw [same]
  exact congrArg₂ Parsed.mk (List.append_nil _) (List.append_nil _)

/-- Segments are read one by one: the statements and the errors of all of them, whatever is wrong
with any, are those of each one on its own, in order. How a segment is read depends neither on the
others nor on the token that ends the text. -/
theorem segments_read_alone (limit : Nat) (segments : List Segment) {last : Token}
    (isEnd : last.kind = .endOfFile) :
    ∃ alone : Segment → Parsed,
      (∀ segment own, own.kind = .endOfFile →
        parseClosed limit (segment.closed ++ [own]) = some (alone segment)) ∧
      parseClosed limit (segments.flatMap (·.closed) ++ [last]) =
        some ⟨segments.flatMap fun segment => (alone segment).statements,
          segments.flatMap fun segment => (alone segment).errors⟩ := by
  refine ⟨fun segment => parse limit segment.closed last.line, ?_, ?_⟩
  · intro segment own isOwnEnd
    rw [parseClosed, closed?_append segment.noEnd isOwnEnd, Option.map_some]
    exact congrArg some (parse_segment_line limit segment last.line own.line)
  · have noEnd : ∀ token ∈ segments.flatMap (·.closed), token.kind ≠ .endOfFile := by
      intro token isIn
      obtain ⟨segment, -, isToken⟩ := List.mem_flatMap.mp isIn
      exact segment.noEnd token isToken
    rw [parseClosed, closed?_append noEnd isEnd, Option.map_some]
    exact congrArg some (parse_segments limit segments last.line)

/-- A declaration without a name, in the middle of which a keyword begins another statement that is
broken as well, in front of a statement that is read. -/
theorem segments_read_alone_broken :
    let sign : Token := ⟨.equal, "=", .nil, 1⟩
    let print : Token := ⟨.keyPrint, "print", .nil, 1⟩
    let name : Token := ⟨.identifier, "a", .nil, 1⟩
    let semicolon : Token := ⟨.semicolon, ";", .nil, 1⟩
    let broken : Segment :=
      ⟨[⟨.keyVar, "var", .nil, 1⟩, sign, print], semicolon, by decide, by simp, rfl⟩
    let sound : Segment := ⟨[print, name], semicolon, by decide, by simp [print], rfl⟩
    (Token.endOfText 1).kind = .endOfFile ∧
      parseClosed 5 ([broken, sound].flatMap (·.closed) ++ [.endOfText 1]) =
        some ⟨[.print (.reference name)], [.atToken (.expected .variableName) sign,
          .atToken (.expected .expression) semicolon]⟩ := by
  intro sign print name semicolon broken sound
  have isEnd : (Token.endOfText 1).kind = .endOfFile := rfl
  obtain ⟨alone, eachAlone, together⟩ := segments_read_alone 5 [broken, sound] isEnd
  have aloneBroken : parseClosed 5 (broken.closed ++ [.endOfText 1]) =
      some ⟨[], [.atToken (.expected .variableName) sign,
        .atToken (.expected .expression) semicolon]⟩ := by cbv
  have aloneSound : parseClosed 5 (sound.closed ++ [.endOfText 1]) =
      some ⟨[.print (.reference name)], []⟩ := by cbv
  rw [eachAlone broken _ isEnd] at aloneBroken
  rw [eachAlone sound _ isEnd] at aloneSound
  refine ⟨isEnd, together.trans ?_⟩
  simp [Option.some.inj aloneBroken, Option.some.inj aloneSound]

end LoxLang.Grammar
