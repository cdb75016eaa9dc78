import LoxLang.Proofs.Grammar.Derivation
import LoxLang.Proofs.Grammar.Nesting

/-!
# What the rules read is derived

Whatever a rule reads without an error, at whatever depth, the grammar derives with the same tree.
A rule for expressions is `Sound` for the symbol that it stands for. A statement is also open only
if no `else` follows it, because its rule would have taken that one.
-/

namespace LoxLang.Grammar

open Rule

/-! ## The rules of the symbols -/

namespace Binding

/-- The level as the rules have it. -/
def level (binding : Binding) : Level := ⟨binding.operators, binding.node⟩

/-- The level and the tighter ones, as the rules have them. -/
def levels : Binding → List Level
  | logicOr => [logicOr, logicAnd, equality, comparison, term, factor].map level
  | logicAnd => [logicAnd, equality, comparison, term, factor].map level
  | equality => [equality, comparison, term, factor].map level
  | comparison => [comparison, term, factor].map level
  | term => [term, factor].map level
  | factor => [factor.level]

end Binding

/-- The rule that reads phrases of a symbol with some depth left for the phrases inside. -/
def Symbol.rule (depth : Nat) : Symbol → Rule Expr
  | assignment => expression depth
  | binding level => Grammar.operations level.levels (Grammar.unary depth)
  | unary => Grammar.unary depth
  | call => do calls (expression depth) (← Grammar.primary (expression depth))
  | primary => Grammar.primary (expression depth)

/-- The rule of a level reads a chain of what stands between the operators of the level. -/
theorem rule_binding (depth : Nat) (level : Binding) :
    (Symbol.binding level).rule depth = chain level.level (level.operand.rule depth) := by
  cases level <;> rfl

/-- A phrase that is only a name is one token. -/
theorem Phrase.eq_of_reference {symbol : Symbol} {tokens : List Token} {name : Token}
    (phrase : Phrase symbol tokens (.reference name)) :
    tokens = [name] ∧ name.kind = .identifier := by
  generalize isName : Expr.reference name = tree at phrase
  induction phrase with
  | operations _ inductionHypothesis => exact inductionHypothesis isName
  | @operate level => cases level <;> exact nomatch isName
  | operand _ inductionHypothesis => exact inductionHypothesis isName
  | called _ inductionHypothesis => exact inductionHypothesis isName
  | callee _ inductionHypothesis => exact inductionHypothesis isName
  | name isIdentifier =>
    obtain rfl := Expr.reference.inj isName
    exact ⟨rfl, isIdentifier⟩
  | _ => exact nomatch isName

/-! ## Repetitions -/

/-- What holds at the start of a steady repetition and is kept by its turns holds at its end. -/
theorem Rule.Reads.repeated_invariant {α : Type} {step : α → Rule (Option α)} (steady : Steady step)
    {surroundings : Surroundings} {invariant : α → List Token → Prop}
    (turn : ∀ {value further : α} {tokens middle : List Token}, invariant value tokens →
      Reads (step value) surroundings tokens (some further) middle → invariant further middle)
    {value found : α} {tokens rest : List Token} (start : invariant value tokens)
    (reads : Reads (repeated value step) surroundings tokens found rest) :
    ∃ middle, invariant found middle ∧ Reads (step found) surroundings middle none rest := by
  generalize bound : tokens.length = count
  induction count using Nat.strongRecOn generalizing value tokens with
  | _ count inductionHypothesis =>
    rcases (reads_repeated steady).mp reads with ⟨stops, rfl⟩ | ⟨further, middle, first, second⟩
    · exact ⟨tokens, start, stops⟩
    · have shorter : middle.length < tokens.length := by
        have taken := steady.takes (congrArg Reply.result first)
        rwa [first] at taken
      exact inductionHypothesis _ (by omega) (turn start first) second rfl

/-- The last step of a repetition, which takes no token, of a kind that every further step begins
with. -/
theorem reads_step_none {α : Type} {kinds : List TokenKind} {step : Token → Rule (Option α)}
    {surroundings : Surroundings} {tokens rest : List Token}
    (gives : ∀ token tokens, ¬ Reads (step token) surroundings tokens none rest)
    (reads : Reads
      (do
        match ← accept kinds with
        | none => return none
        | some token => step token)
      surroundings tokens none rest) : Stops kinds tokens ∧ rest = tokens := by
  obtain ⟨accepted, middle, readsToken, readsStep⟩ := reads_bind.mp reads
  cases accepted with
  | none =>
    obtain ⟨-, rfl⟩ := reads_pure.mp readsStep
    exact reads_accept_none.mp readsToken
  | some token => exact absurd readsStep (gives token middle)

/-- A further step of a repetition takes a token of a kind that every further step begins with. -/
theorem reads_step_some {α : Type} {kinds : List TokenKind} {step : Token → Rule (Option α)}
    {surroundings : Surroundings} {tokens rest : List Token} {further : α}
    (reads : Reads
      (do
        match ← accept kinds with
        | none => return none
        | some token => step token)
      surroundings tokens (some further) rest) :
    ∃ token left, tokens = token :: left ∧ token.kind ∈ kinds ∧
      Reads (step token) surroundings left (some further) rest := by
  obtain ⟨accepted, middle, readsToken, readsStep⟩ := reads_bind.mp reads
  cases accepted with
  | none => simp at readsStep
  | some token =>
    obtain ⟨rfl, isKind⟩ := reads_accept_some.mp readsToken
    exact ⟨token, middle, rfl, isKind, readsStep⟩

/-! ## Lists -/

/-- What the rule reads is derived. -/
def Sound {α : Type} (rule : Rule α) (derived : List Token → α → Prop) : Prop :=
  ∀ ⦃surroundings : Surroundings⦄ ⦃tokens rest : List Token⦄ ⦃value : α⦄,
    Reads rule surroundings tokens value rest →
      ∃ used, tokens = used ++ rest ∧ derived used value

/-- A further item behind a comma is separated, too. -/
theorem Separated.append_item {items : List (List Token)} {tokens : List Token}
    (separated : Separated items tokens) (nonempty : items ≠ []) {comma : Token}
    (isComma : comma.kind = .comma) (item : List Token) :
    Separated (items ++ [item]) (tokens ++ comma :: item) := by
  induction separated with
  | none => exact absurd rfl nonempty
  | last first => exact .more first isComma (.last item)
  | more first isComma' _ inductionHypothesis =>
    have further := inductionHypothesis (List.cons_ne_nil _ _)
    simpa using Separated.more first isComma' further

/-- The values are those of derived items with commas between them, of which there are not too
many. -/
def DerivedList {α : Type} (derived : List Token → α → Prop) (tokens : List Token)
    (values : List α) : Prop :=
  ∃ items : List (List Token × α), Separated (items.map (·.1)) tokens ∧
    items.map (·.2) = values ∧ (∀ item ∈ items, derived item.1 item.2) ∧ items.length ≤ mostItems

/-- No items at all are a list. -/
theorem DerivedList.none {α : Type} (derived : List Token → α → Prop) :
    DerivedList derived [] [] :=
  ⟨[], .none, rfl, nofun, Nat.zero_le _⟩

section Lists

variable {α : Type} {derived : List Token → α → Prop}

/-- A list that is read is derived, by an invariant of the repetition: so far, the items are
separated. -/
theorem sound_listed {tooMany : Problem} {item : Rule α} (orderly : Orderly item)
    (sound : Sound item derived) : Sound (listed tooMany item) (DerivedList derived) := by
  intro surroundings tokens rest values reads
  rw [listed_eq] at reads
  obtain ⟨first, middle, readsFirst, reads⟩ := reads_bind.mp reads
  obtain ⟨final, last, readsMore, isEnd⟩ := reads_bind.mp reads
  obtain ⟨rfl, rfl⟩ := reads_pure.mp isEnd
  obtain ⟨firstUsed, rfl, firstDerived⟩ := sound readsFirst
  -- The values found are kept in reverse order, next to their number.
  let invariant (found : Nat × List α) (left : List Token) : Prop :=
    ∃ items : List (List Token × α), ∃ used, firstUsed ++ middle = used ++ left ∧
      Separated (items.map (·.1)) used ∧ items.map (·.2) = found.2.reverse ∧
      (∀ item ∈ items, derived item.1 item.2) ∧ items.length = found.1 ∧ items ≠ [] ∧
      found.1 ≤ listLimit
  have turn {found further : Nat × List α} {left right : List Token} (before : invariant found left)
      (readsStep : Reads (listedStep tooMany item found) surroundings left (some further) right) :
      invariant further right := by
    obtain ⟨items, used, same, separated, values, each, count, nonempty, -⟩ := before
    obtain ⟨comma, next, rfl, isComma, readsItem⟩ := reads_step_some readsStep
    by_cases full : listLimit ≤ found.1
    · simp [full] at readsItem
    · rw [if_neg full] at readsItem
      obtain ⟨value, last, readsValue, isEnd⟩ := reads_bind.mp readsItem
      obtain ⟨isFurther, rfl⟩ := reads_pure.mp isEnd
      obtain rfl := Option.some.inj isFurther
      obtain ⟨itemUsed, rfl, itemDerived⟩ := sound readsValue
      refine ⟨items ++ [(itemUsed, value)], used ++ comma :: itemUsed, ?_, ?_, ?_, ?_, ?_, ?_, ?_⟩
      · simp [same]
      · rw [List.map_append]
        exact separated.append_item (by simpa using nonempty) (by simpa using isComma) itemUsed
      · simp [values]
      · intro one member
        rcases List.mem_append.mp member with earlier | isLast
        · exact each one earlier
        · obtain rfl := List.mem_singleton.mp isLast
          exact itemDerived
      · simp [count]
      · simp
      · omega
  have start : invariant (1, [first]) middle :=
    ⟨[(firstUsed, first)], firstUsed, rfl, .last _, rfl,
      by simpa using firstDerived, rfl, List.cons_ne_nil _ _, show 1 ≤ listLimit by decide⟩
  obtain ⟨left, ⟨items, used, same, separated, values, each, count, -, enough⟩, stops⟩ :=
    readsMore.repeated_invariant (steady_listedStep orderly) turn start
  obtain ⟨-, rfl⟩ := reads_step_none (by intro token tokens; split <;> simp) stops
  exact ⟨used, same, items, separated, values, each, count ▸ enough⟩

/-- A list that is left out where its closing token stands. -/
theorem sound_optionalList {tooMany : Problem} {item : Rule α} {closing : TokenKind}
    (orderly : Orderly item) (sound : Sound item derived) :
    Sound (unlessNext closing [] (listed tooMany item)) (DerivedList derived) := by
  intro surroundings tokens rest values reads
  rcases reads_unlessNext.mp reads with ⟨-, rfl, rfl⟩ | ⟨-, readsItems⟩
  · exact ⟨[], rfl, .none derived⟩
  · exact sound_listed orderly sound readsItems

end Lists

/-! ## Expressions -/

/-- A level of operators that is read is derived, by an invariant of the repetition: so far, the
operands make one. -/
theorem sound_chain {level : Binding} {operand : Rule Expr} (orderly : Orderly operand)
    (sound : Sound operand (Phrase level.operand)) :
    Sound (chain level.level operand) (Phrase (.binding level)) := by
  intro surroundings tokens rest tree reads
  rw [chain_eq] at reads
  obtain ⟨first, middle, readsFirst, readsMore⟩ := reads_bind.mp reads
  obtain ⟨firstUsed, rfl, firstPhrase⟩ := sound readsFirst
  have turn {left further : Expr} {left' right' : List Token}
      (before : ∃ used, firstUsed ++ middle = used ++ left' ∧ Phrase (.binding level) used left)
      (readsStep : Reads (chainStep level.level operand left) surroundings left' (some further)
        right') :
      ∃ used, firstUsed ++ middle = used ++ right' ∧ Phrase (.binding level) used further := by
    obtain ⟨used, same, former⟩ := before
    obtain ⟨operator, next, rfl, isOperator, readsOperation⟩ := reads_step_some readsStep
    obtain ⟨right, last, readsRight, isEnd⟩ := reads_bind.mp readsOperation
    obtain ⟨isTree, rfl⟩ := reads_pure.mp isEnd
    obtain rfl := Option.some.inj isTree
    obtain ⟨rightUsed, rfl, latter⟩ := sound readsRight
    exact ⟨used ++ operator :: rightUsed, by simp [same], .operate former isOperator latter⟩
  obtain ⟨left, ⟨used, same, phrase⟩, stops⟩ := readsMore.repeated_invariant
    (steady_chainStep orderly) turn ⟨firstUsed, rfl, .operand firstPhrase⟩
  obtain ⟨-, rfl⟩ := reads_step_none (by simp) stops
  exact ⟨used, same, phrase⟩

/-- Levels of operators above each other that are read are derived. -/
theorem sound_operations {operand : Rule Expr} (orderly : Orderly operand)
    (sound : Sound operand (Phrase .unary)) (level : Binding) :
    Sound (operations level.levels operand) (Phrase (.binding level)) := by
  have orderlyFrom (level : Binding) : Orderly (operations level.levels operand) :=
    (refined_operations level.levels orderly.refined).orderly
  have factor : Sound (operations Binding.factor.levels operand) _ := sound_chain orderly sound
  have term : Sound (operations Binding.term.levels operand) _ :=
    sound_chain (orderlyFrom .factor) factor
  have comparison : Sound (operations Binding.comparison.levels operand) _ :=
    sound_chain (orderlyFrom .term) term
  have equality : Sound (operations Binding.equality.levels operand) _ :=
    sound_chain (orderlyFrom .comparison) comparison
  have logicAnd : Sound (operations Binding.logicAnd.levels operand) _ :=
    sound_chain (orderlyFrom .equality) equality
  cases level with
  | logicOr => exact sound_chain (orderlyFrom .logicAnd) logicAnd
  | logicAnd => exact logicAnd
  | equality => exact equality
  | comparison => exact comparison
  | term => exact term
  | factor => exact factor

section Expressions

variable {expression : Rule Expr}

/-- A primary expression that is read is derived. -/
theorem sound_primary (sound : Sound expression (Phrase .assignment)) :
    Sound (primary expression) (Phrase .primary) := by
  intro surroundings tokens rest tree reads
  obtain ⟨found, middle, readsNext, reads⟩ := reads_bind.mp reads
  obtain ⟨rfl, rfl⟩ := reads_next.mp readsNext
  cases middle with
  | nil => simp at reads
  | cons token tokens =>
    have one {tree' : Expr} (phrase : Phrase .primary [token] tree')
        (reads : Reads (skip >>= fun _ => pure tree') surroundings (token :: tokens) tree rest) :
        ∃ used, token :: tokens = used ++ rest ∧ Phrase .primary used tree := by
      obtain ⟨_, middle, readsSkip, isEnd⟩ := reads_bind.mp reads
      obtain ⟨rfl, rfl⟩ := reads_pure.mp isEnd
      obtain rfl := reads_skip.mp readsSkip
      exact ⟨[token], rfl, phrase⟩
    dsimp only [List.head?_cons] at reads
    split at reads
    next isFalse => exact one (.falsehood isFalse) reads
    next isTrue => exact one (.truth isTrue) reads
    next isNil => exact one (.nil isNil) reads
    next isNumber => exact one (.number isNumber) reads
    next isText => exact one (.text isText) reads
    next isName => exact one (.name isName) reads
    next opens =>
      obtain ⟨_, _, readsSkip, readsWithin⟩ := reads_bind.mp reads
      obtain rfl := reads_skip.mp readsSkip
      obtain ⟨inner, middle, readsInner, readsEnd⟩ := reads_bind.mp readsWithin
      obtain ⟨closing, last, readsClosing, isEnd⟩ := reads_bind.mp readsEnd
      obtain ⟨rfl, rfl⟩ := reads_pure.mp isEnd
      obtain ⟨rfl, closes⟩ := reads_expect.mp readsClosing
      obtain ⟨used, same, within⟩ := sound readsInner
      refine ⟨token :: used ++ [closing], ?_, .grouping opens within closes⟩
      obtain rfl : _ = used ++ closing :: rest := same
      simp
    · simp at reads

/-- Calls that are read are derived, by an invariant of the repetition: so far, they make a callee.
-/
theorem sound_calls (orderly : Orderly expression) (sound : Sound expression (Phrase .assignment)) :
    Sound (do calls expression (← primary expression)) (Phrase .call) := by
  intro surroundings tokens rest tree reads
  obtain ⟨callee, middle, readsCallee, readsMore⟩ := reads_bind.mp reads
  rw [calls_eq] at readsMore
  obtain ⟨calleeUsed, rfl, calleePhrase⟩ := sound_primary sound readsCallee
  have turn {callee further : Expr} {left right : List Token}
      (before : ∃ used, calleeUsed ++ middle = used ++ left ∧ Phrase .call used callee)
      (readsStep : Reads (callStep expression callee) surroundings left (some further) right) :
      ∃ used, calleeUsed ++ middle = used ++ right ∧ Phrase .call used further := by
    obtain ⟨used, same, called⟩ := before
    obtain ⟨opening, next, rfl, opens, readsCall⟩ := reads_step_some readsStep
    obtain ⟨values, middle', readsArguments, readsEnd⟩ := reads_unlessNext_bind.mp readsCall
    obtain ⟨closing, last, readsClosing, isEnd⟩ := reads_bind.mp readsEnd
    obtain ⟨isTree, rfl⟩ := reads_pure.mp isEnd
    obtain rfl := Option.some.inj isTree
    obtain ⟨rfl, closes⟩ := reads_expect.mp readsClosing
    obtain ⟨list, rfl, arguments, listed, rfl, each, enough⟩ :=
      sound_optionalList orderly sound readsArguments
    exact ⟨used ++ opening :: list ++ [closing], by simp [same],
      .call called (by simpa using opens) listed each enough closes⟩
  obtain ⟨left, ⟨used, same, phrase⟩, stops⟩ := readsMore.repeated_invariant
    (steady_callStep orderly) turn ⟨calleeUsed, rfl, .callee calleePhrase⟩
  have gives (token : Token) (tokens : List Token) :
      ¬ Reads (callArguments expression tree) surroundings tokens none rest := by
    intro readsCall
    obtain ⟨_, _, -, readsEnd⟩ := reads_unlessNext_bind.mp readsCall
    simp at readsEnd
  obtain ⟨-, rfl⟩ := reads_step_none gives stops
  exact ⟨used, same, phrase⟩

/-- A unary expression that is read is derived if its parts are. -/
theorem sound_unaryBody {unary : Rule Expr} (orderly : Orderly expression)
    (soundUnary : Sound unary (Phrase .unary)) (sound : Sound expression (Phrase .assignment)) :
    Sound (unaryBody unary expression) (Phrase .unary) := by
  intro surroundings tokens rest tree reads
  obtain ⟨accepted, middle, readsOperator, readsTree⟩ := reads_bind.mp reads
  cases accepted with
  | none =>
    obtain ⟨-, rfl⟩ := reads_accept_none.mp readsOperator
    obtain ⟨used, rfl, called⟩ := sound_calls orderly sound readsTree
    exact ⟨used, rfl, .called called⟩
  | some operator =>
    obtain ⟨rfl, isOperator⟩ := reads_accept_some.mp readsOperator
    obtain ⟨right, last, readsRight, isEnd⟩ := reads_bind.mp readsTree
    obtain ⟨rfl, rfl⟩ := reads_pure.mp isEnd
    obtain ⟨used, rfl, operated⟩ := soundUnary readsRight
    exact ⟨operator :: used, rfl, .unary (by simpa using isOperator) operated⟩

/-- An expression that is read is derived if its parts are; only a name may be assigned to. -/
theorem sound_expressionBody {unary : Rule Expr} (orderly : Orderly unary)
    (soundUnary : Sound unary (Phrase .unary)) (sound : Sound expression (Phrase .assignment)) :
    Sound (expressionBody unary expression) (Phrase .assignment) := by
  intro surroundings tokens rest tree reads
  obtain ⟨target, middle, readsTarget, readsMore⟩ := reads_bind.mp reads
  obtain ⟨targetUsed, rfl, phrase⟩ := sound_operations orderly soundUnary .logicOr readsTarget
  obtain ⟨accepted, next, readsEquals, readsTree⟩ := reads_bind.mp readsMore
  cases accepted with
  | none =>
    obtain ⟨-, rfl⟩ := reads_accept_none.mp readsEquals
    obtain ⟨rfl, rfl⟩ := reads_pure.mp readsTree
    exact ⟨targetUsed, rfl, .operations phrase⟩
  | some equals =>
    obtain ⟨rfl, isEquals⟩ := reads_accept_some.mp readsEquals
    obtain ⟨value, last, readsValue, isEnd⟩ := reads_bind.mp readsTree
    obtain ⟨valueUsed, rfl, assigned⟩ := sound readsValue
    cases target with
    | reference name =>
      obtain ⟨rfl, rfl⟩ := reads_pure.mp isEnd
      obtain ⟨rfl, isName⟩ := phrase.eq_of_reference
      exact ⟨name :: equals :: valueUsed, rfl,
        .assign isName (List.mem_singleton.mp isEquals) assigned⟩
    | _ => simp at isEnd

end Expressions

/-- Unary expressions and expressions that are read are derived, by induction on the limit. -/
theorem sound_unary_expression (depth : Nat) :
    Sound (unary depth) (Phrase .unary) ∧ Sound (expression depth) (Phrase .assignment) := by
  induction depth with
  | zero => exact ⟨fun _ _ _ _ reads => absurd reads not_reads_tooDeep,
      fun _ _ _ _ reads => absurd reads not_reads_tooDeep⟩
  | succ depth inductionHypothesis =>
    obtain ⟨soundUnary, sound⟩ := inductionHypothesis
    exact ⟨sound_unaryBody (orderly_expression depth) soundUnary sound,
      sound_expressionBody (orderly_unary depth) soundUnary sound⟩

/-- Expressions that are read are derived. -/
theorem sound_expression (depth : Nat) : Sound (expression depth) (Phrase .assignment) :=
  (sound_unary_expression depth).2

/-! ## Statements -/

/-- The tokens are a statement with this tree, which is open only if no `else` follows. -/
def SoundStatement (rule : Rule Stmt) : Prop :=
  ∀ ⦃surroundings : Surroundings⦄ ⦃tokens rest : List Token⦄ ⦃tree : Stmt⦄,
    Reads rule surroundings tokens tree rest → ∃ used isOpen, tokens = used ++ rest ∧
      Sentence surroundings.inFunction (.statement isOpen) used tree ∧
      (isOpen = true → Stops [.keyElse] rest)

/-- The tokens are a declaration with this tree. -/
def SoundDeclaration (rule : Rule Stmt) : Prop :=
  ∀ ⦃surroundings : Surroundings⦄ ⦃tokens rest : List Token⦄ ⦃tree : Stmt⦄,
    Reads rule surroundings tokens tree rest → ∃ used, tokens = used ++ rest ∧
      Sentence surroundings.inFunction .declaration used tree

/-- No declaration is dropped, and what is read is a declaration. -/
def SoundRecovering (rule : Rule (Option Stmt)) : Prop :=
  ∀ ⦃surroundings : Surroundings⦄ ⦃tokens rest : List Token⦄ ⦃found : Option Stmt⦄,
    Reads rule surroundings tokens found rest → ∃ tree used, found = some tree ∧
      tokens = used ++ rest ∧ Sentence surroundings.inFunction .declaration used tree

/-- A declaration that reports nothing is not dropped. -/
theorem reads_recovering {depth : Nat} {rule : Rule Stmt} (orderly : Orderly rule)
    {surroundings : Surroundings} {tokens rest : List Token} {found : Option Stmt} :
    Reads (recovering depth rule) surroundings tokens found rest ↔
      ∃ tree, found = some tree ∧ Reads rule surroundings tokens tree rest := by
  have reported := orderly.reported surroundings tokens
  have recovers := recovery depth rule surroundings tokens
  unfold Reads
  constructor
  · intro reads
    generalize recovering depth rule surroundings tokens = reply at recovers reads
    cases recovers with
    | @kept tree isOk =>
      obtain ⟨isSilent, rfl, isFound⟩ := Reply.mk.inj reads
      refine ⟨tree, (Except.ok.inj isFound).symm, ?_⟩
      rw [← isSilent, ← isOk]
    | dropped stopped => exact absurd (Reply.mk.inj reads).1 (reported stopped)
    | tooDeep => exact absurd (Reply.mk.inj reads).1 (by simp)
    | passedOn => exact nomatch (Reply.mk.inj reads).2.2
  · rintro ⟨tree, rfl, reads⟩
    simp only [recovering, reads]

/-- What is read without any report needed no recovery. -/
theorem soundRecovering (depth : Nat) {rule : Rule Stmt} (orderly : Orderly rule)
    (sound : SoundDeclaration rule) : SoundRecovering (recovering depth rule) := by
  intro surroundings tokens rest found reads
  obtain ⟨tree, rfl, readsTree⟩ := (reads_recovering orderly).mp reads
  obtain ⟨used, rfl, sentence⟩ := sound readsTree
  exact ⟨tree, used, rfl, rfl, sentence⟩

/-- Declarations one after the other, up to where no more are read. -/
theorem sound_declarations {more : Rule Bool} {declaration : Rule (Option Stmt)}
    (looksAhead : LooksAhead more) (advances : Advances declaration)
    (sound : SoundRecovering declaration) {surroundings : Surroundings} {tokens rest : List Token}
    {statements : List Stmt}
    (reads : Reads (declarations more declaration) surroundings tokens statements rest) :
    ∃ parts : List (List Token × Stmt), tokens = (parts.map (·.1)).flatten ++ rest ∧
      parts.map (·.2) = statements ∧
      (∀ part ∈ parts, Sentence surroundings.inFunction .declaration part.1 part.2) ∧
      Reads more surroundings rest false rest := by
  rw [declarations_eq] at reads
  obtain ⟨final, last, readsMore, isEnd⟩ := reads_bind.mp reads
  obtain ⟨rfl, rfl⟩ := reads_pure.mp isEnd
  let invariant (found : List Stmt) (left : List Token) : Prop :=
    ∃ parts : List (List Token × Stmt), tokens = (parts.map (·.1)).flatten ++ left ∧
      parts.map (·.2) = found.reverse ∧
      ∀ part ∈ parts, Sentence surroundings.inFunction .declaration part.1 part.2
  have taken {left right : List Token} {answer : Bool}
      (readsMore : Reads more surroundings left answer right) : right = left := by
    obtain ⟨_, same, -⟩ := looksAhead surroundings left
    exact (congrArg Reply.rest (same.symm.trans readsMore)).symm
  have turn {found further : List Stmt} {left right : List Token} (before : invariant found left)
      (readsStep : Reads (declarationStep more declaration found) surroundings left (some further)
        right) : invariant further right := by
    obtain ⟨parts, same, statements, each⟩ := before
    obtain ⟨answer, middle, readsAnswer, readsDeclaration⟩ := reads_bind.mp readsStep
    obtain rfl := taken readsAnswer
    cases answer with
    | false => simp at readsDeclaration
    | true =>
      obtain ⟨statement, next, readsStatement, isFurther⟩ := reads_bind.mp readsDeclaration
      obtain ⟨tree, used, rfl, rfl, sentence⟩ := sound readsStatement
      obtain ⟨isFound, rfl⟩ := reads_pure.mp isFurther
      obtain rfl := Option.some.inj isFound
      refine ⟨parts ++ [(used, tree)], by simp [same], by simp [statements], ?_⟩
      intro part member
      rcases List.mem_append.mp member with earlier | isLast
      · exact each part earlier
      · obtain rfl := List.mem_singleton.mp isLast
        exact sentence
  obtain ⟨left, ⟨parts, same, statements, each⟩, stops⟩ := readsMore.repeated_invariant
    (steady_declarationStep looksAhead advances) turn ⟨[], rfl, rfl, nofun⟩
  obtain ⟨answer, middle, readsAnswer, readsDeclaration⟩ := reads_bind.mp stops
  obtain rfl := taken readsAnswer
  cases answer with
  | true =>
    obtain ⟨statement, next, -, isFurther⟩ := reads_bind.mp readsDeclaration
    cases statement <;> simp at isFurther
  | false =>
    obtain ⟨-, rfl⟩ := reads_pure.mp readsDeclaration
    exact ⟨parts, same, statements, each, readsAnswer⟩

section Statements

variable {expression : Rule Expr} {statement : Rule Stmt} {declaration : Rule (Option Stmt)}

/-- An expression statement that is read is derived. -/
theorem sound_expressionStatement (sound : Sound expression (Phrase .assignment)) :
    Sound (expressionStatement expression) ExpressionStatement := by
  intro surroundings tokens rest tree reads
  obtain ⟨value, middle, readsValue, readsEnd⟩ := reads_bind.mp reads
  obtain ⟨semicolon, last, readsSemicolon, isEnd⟩ := reads_bind.mp readsEnd
  obtain ⟨rfl, rfl⟩ := reads_pure.mp isEnd
  obtain ⟨rfl, ends⟩ := reads_expect.mp readsSemicolon
  obtain ⟨used, rfl, phrase⟩ := sound readsValue
  exact ⟨used ++ [semicolon], by simp, .intro phrase ends⟩

/-- A block after its opening brace, with the closing one. -/
theorem sound_block (advances : Advances declaration) (sound : SoundRecovering declaration)
    {surroundings : Surroundings} {tokens rest : List Token} {statements : List Stmt}
    (reads : Reads (block declaration) surroundings tokens statements rest) :
    ∃ (parts : List (List Token × Stmt)) (closing : Token),
      tokens = (parts.map (·.1)).flatten ++ closing :: rest ∧ parts.map (·.2) = statements ∧
      (∀ part ∈ parts, Sentence surroundings.inFunction .declaration part.1 part.2) ∧
      closing.kind = .rightBrace := by
  obtain ⟨found, middle, readsParts, readsEnd⟩ := reads_bind.mp reads
  obtain ⟨closing, last, readsClosing, isEnd⟩ := reads_bind.mp readsEnd
  obtain ⟨rfl, rfl⟩ := reads_pure.mp isEnd
  obtain ⟨rfl, closes⟩ := reads_expect.mp readsClosing
  obtain ⟨parts, rfl, rfl, each, -⟩ :=
    sound_declarations inBlock_looksAhead advances sound readsParts
  exact ⟨parts, closing, rfl, rfl, each, closes⟩

/-- A token that was expected is the one that is read. -/
theorem sound_expect (kind : TokenKind) (missing : Expected) :
    Sound (expect kind missing) fun used token => used = [token] ∧ token.kind = kind := by
  intro surroundings tokens rest token reads
  obtain ⟨rfl, isKind⟩ := reads_expect.mp reads
  exact ⟨[token], rfl, rfl, isKind⟩

/-- The rest of the declaration of a function, after its keyword. -/
theorem sound_function (advances : Advances declaration) (sound : SoundRecovering declaration)
    {keyword : Token} (isFun : keyword.kind = .keyFun) {surroundings : Surroundings}
    {tokens rest : List Token} {tree : Stmt}
    (reads : Reads (function declaration) surroundings tokens tree rest) :
    ∃ used, keyword :: tokens = used ++ rest ∧
      Sentence surroundings.inFunction .declaration used tree := by
  obtain ⟨name, _, readsName, readsOpening⟩ := reads_bind.mp reads
  obtain ⟨opening, _, readsParen, readsParameters⟩ := reads_bind.mp readsOpening
  obtain ⟨parameters, _, readsList, readsClosing⟩ := reads_unlessNext_bind.mp readsParameters
  obtain ⟨closing, _, readsClosingParen, readsBrace⟩ := reads_bind.mp readsClosing
  obtain ⟨opensBody, _, readsOpensBody, readsBody⟩ := reads_bind.mp readsBrace
  obtain ⟨body, _, readsBlock, isEnd⟩ := reads_bind.mp readsBody
  obtain ⟨rfl, rfl⟩ := reads_pure.mp isEnd
  obtain ⟨rfl, isName⟩ := reads_expect.mp readsName
  obtain ⟨rfl, opens⟩ := reads_expect.mp readsParen
  obtain ⟨list, rfl, items, listed, rfl, areNames, enough⟩ :=
    sound_optionalList (Orderly.expect _ _) (sound_expect _ _) readsList
  obtain ⟨rfl, closes⟩ := reads_expect.mp readsClosingParen
  obtain ⟨rfl, bodyOpens⟩ := reads_expect.mp readsOpensBody
  obtain ⟨parts, closesBody, rfl, rfl, each, bodyCloses⟩ :=
    sound_block advances sound (reads_withinFunction.mp readsBlock)
  have sameItems : items.map (·.1) = (items.map (·.2)).map ([·]) := by
    rw [List.map_map]
    exact List.map_congr_left fun item member => (areNames item member).1
  refine ⟨keyword :: name :: opening :: list ++ closing :: opensBody
      :: (parts.map (·.1)).flatten ++ [closesBody], by simp,
    .function isFun isName opens (sameItems ▸ listed) ?_ (by simpa using enough) closes bodyOpens
      each bodyCloses⟩
  intro parameter member
  obtain ⟨item, isItem, rfl⟩ := List.mem_map.mp member
  exact (areNames item isItem).2

/-- The rest of the declaration of a variable, after its keyword. -/
theorem sound_varDeclaration (sound : Sound expression (Phrase .assignment)) {keyword : Token}
    (isVar : keyword.kind = .keyVar) {surroundings : Surroundings} {tokens rest : List Token}
    {tree : Stmt} (reads : Reads (varDeclaration expression) surroundings tokens tree rest) :
    ∃ used, keyword :: tokens = used ++ rest ∧ VariableDeclaration used tree := by
  obtain ⟨name, _, readsName, readsEquals⟩ := reads_bind.mp reads
  obtain ⟨rfl, isName⟩ := reads_expect.mp readsName
  obtain ⟨start, _, readsStart, readsEnd⟩ := reads_whenNext_bind.mp readsEquals
  obtain ⟨semicolon, _, readsSemicolon, isEnd⟩ := reads_bind.mp readsEnd
  obtain ⟨rfl, rfl⟩ := reads_pure.mp isEnd
  obtain ⟨rfl, ends⟩ := reads_expect.mp readsSemicolon
  cases start with
  | none =>
    obtain ⟨-, rfl⟩ := reads_whenNext_none.mp readsStart
    exact ⟨[keyword, name, semicolon], rfl, .bare isVar isName ends⟩
  | some value =>
    obtain ⟨equals, _, rfl, isEquals, readsValue⟩ := reads_whenNext_some.mp readsStart
    obtain ⟨used, rfl, phrase⟩ := sound readsValue
    exact ⟨keyword :: name :: equals :: used ++ [semicolon], by simp,
      .initialized isVar isName (List.mem_singleton.mp isEquals) phrase ends⟩

/-- A print statement that is read is derived. -/
theorem sound_printStatement (sound : Sound expression (Phrase .assignment)) {keyword : Token}
    (isPrint : keyword.kind = .keyPrint) {surroundings : Surroundings} {tokens rest : List Token}
    {tree : Stmt} (reads : Reads (printStatement expression) surroundings tokens tree rest) :
    ∃ used, keyword :: tokens = used ++ rest ∧
      Sentence surroundings.inFunction (.statement false) used tree := by
  obtain ⟨value, _, readsValue, readsEnd⟩ := reads_bind.mp reads
  obtain ⟨semicolon, _, readsSemicolon, isEnd⟩ := reads_bind.mp readsEnd
  obtain ⟨rfl, rfl⟩ := reads_pure.mp isEnd
  obtain ⟨rfl, ends⟩ := reads_expect.mp readsSemicolon
  obtain ⟨used, rfl, phrase⟩ := sound readsValue
  exact ⟨keyword :: used ++ [semicolon], by simp, .print isPrint phrase ends⟩

/-- What may be absent is read as nothing or as a phrase. -/
theorem sound_optionalExpression (sound : Sound expression (Phrase .assignment))
    (closing : TokenKind) :
    Sound (unlessNext closing none (some <$> expression)) OptionalPhrase := by
  intro surroundings tokens rest value reads
  rcases reads_unlessNext.mp reads with ⟨-, rfl, rfl⟩ | ⟨-, readsPresent⟩
  · exact ⟨[], rfl, .absent⟩
  · obtain ⟨tree, readsTree, rfl⟩ := reads_map.mp readsPresent
    obtain ⟨used, rfl, phrase⟩ := sound readsTree
    exact ⟨used, rfl, .present phrase⟩

/-- A `return` without an error stands in a function body. -/
theorem sound_returnStatement (sound : Sound expression (Phrase .assignment)) {keyword : Token}
    (isReturn : keyword.kind = .keyReturn) {surroundings : Surroundings}
    {tokens rest : List Token} {tree : Stmt}
    (reads : Reads (returnStatement expression keyword) surroundings tokens tree rest) :
    ∃ used, keyword :: tokens = used ++ rest ∧
      Sentence surroundings.inFunction (.statement false) used tree := by
  obtain ⟨answer, _, readsAnswer, readsRest⟩ := reads_bind.mp reads
  obtain ⟨rfl, rfl⟩ := reads_inFunction.mp readsAnswer
  cases within : surroundings.inFunction with
  | false => simp [within] at readsRest
  | true =>
    rw [within] at readsRest
    obtain ⟨value, _, readsValue, readsEnd⟩ := reads_unlessNext_bind.mp readsRest
    obtain ⟨semicolon, _, readsSemicolon, isEnd⟩ := reads_bind.mp readsEnd
    obtain ⟨rfl, rfl⟩ := reads_pure.mp isEnd
    obtain ⟨rfl, ends⟩ := reads_expect.mp readsSemicolon
    obtain ⟨used, rfl, phrase⟩ := sound_optionalExpression sound _ readsValue
    exact ⟨keyword :: used ++ [semicolon], by simp, .ret isReturn phrase ends⟩

/-- A conditional takes an `else` that follows its first branch, so that branch is not open if it
has an alternative, and no `else` follows if it has none. -/
theorem sound_ifStatement (sound : Sound expression (Phrase .assignment))
    (soundBranch : SoundStatement statement) {keyword : Token} (isIf : keyword.kind = .keyIf)
    {surroundings : Surroundings} {tokens rest : List Token} {tree : Stmt}
    (reads : Reads (ifStatement expression statement) surroundings tokens tree rest) :
    ∃ used isOpen, keyword :: tokens = used ++ rest ∧
      Sentence surroundings.inFunction (.statement isOpen) used tree ∧
      (isOpen = true → Stops [.keyElse] rest) := by
  obtain ⟨opening, _, readsOpening, readsCondition⟩ := reads_bind.mp reads
  obtain ⟨condition, _, readsTested, readsClosing⟩ := reads_bind.mp readsCondition
  obtain ⟨closing, _, readsParen, readsBranches⟩ := reads_bind.mp readsClosing
  obtain ⟨consequent, _, readsConsequent, readsElse⟩ := reads_bind.mp readsBranches
  obtain ⟨alternative, _, readsAlternative, isEnd⟩ := reads_whenNext_bind.mp readsElse
  obtain ⟨rfl, rfl⟩ := reads_pure.mp isEnd
  obtain ⟨rfl, opens⟩ := reads_expect.mp readsOpening
  obtain ⟨tested, rfl, phrase⟩ := sound readsTested
  obtain ⟨rfl, closes⟩ := reads_expect.mp readsParen
  obtain ⟨chosen, isOpen, rfl, sentence, follows⟩ := soundBranch readsConsequent
  cases alternative with
  | none =>
    obtain ⟨stops, rfl⟩ := reads_whenNext_none.mp readsAlternative
    exact ⟨keyword :: opening :: tested ++ closing :: chosen, true, by simp,
      .ifThen isIf opens phrase closes sentence, fun _ => stops⟩
  | some alternative =>
    obtain ⟨otherwise, _, rfl, isElse, readsRefused⟩ := reads_whenNext_some.mp readsAlternative
    obtain ⟨refused, isOpen', rfl, sentence', follows'⟩ := soundBranch readsRefused
    obtain rfl : isOpen = false := by
      cases isOpen with
      | false => rfl
      | true => exact absurd isElse (stops_cons.mp (follows rfl))
    exact ⟨keyword :: opening :: tested ++ closing :: chosen ++ otherwise :: refused, isOpen',
      by simp,
      .ifElse isIf opens phrase closes sentence (List.mem_singleton.mp isElse) sentence', follows'⟩

/-- A while loop that is read is derived; it is open if its body is. -/
theorem sound_whileStatement (sound : Sound expression (Phrase .assignment))
    (soundBody : SoundStatement statement) {keyword : Token} (isWhile : keyword.kind = .keyWhile)
    {surroundings : Surroundings} {tokens rest : List Token} {tree : Stmt}
    (reads : Reads (whileStatement expression statement) surroundings tokens tree rest) :
    ∃ used isOpen, keyword :: tokens = used ++ rest ∧
      Sentence surroundings.inFunction (.statement isOpen) used tree ∧
      (isOpen = true → Stops [.keyElse] rest) := by
  obtain ⟨opening, _, readsOpening, readsCondition⟩ := reads_bind.mp reads
  obtain ⟨condition, _, readsTested, readsClosing⟩ := reads_bind.mp readsCondition
  obtain ⟨closing, _, readsParen, readsBody⟩ := reads_bind.mp readsClosing
  obtain ⟨body, _, readsRepeats, isEnd⟩ := reads_bind.mp readsBody
  obtain ⟨rfl, rfl⟩ := reads_pure.mp isEnd
  obtain ⟨rfl, opens⟩ := reads_expect.mp readsOpening
  obtain ⟨tested, rfl, phrase⟩ := sound readsTested
  obtain ⟨rfl, closes⟩ := reads_expect.mp readsParen
  obtain ⟨bodies, isOpen, rfl, sentence, follows⟩ := soundBody readsRepeats
  exact ⟨keyword :: opening :: tested ++ closing :: bodies, isOpen, by simp,
    .loop isWhile opens phrase closes sentence, follows⟩

/-- What a for loop starts with is derived in each of its three forms. -/
theorem sound_forStart (sound : Sound expression (Phrase .assignment)) :
    Sound (forStart expression) ForInitializer := by
  intro surroundings tokens rest start reads
  obtain ⟨accepted, _, readsAccepted, readsStart⟩ := reads_bind.mp reads
  cases accepted with
  | none =>
    obtain ⟨-, rfl⟩ := reads_accept_none.mp readsAccepted
    obtain ⟨tree, readsTree, rfl⟩ := reads_map.mp readsStart
    obtain ⟨used, rfl, evaluated⟩ := sound_expressionStatement sound readsTree
    exact ⟨used, rfl, .evaluated evaluated⟩
  | some token =>
    obtain ⟨rfl, isKind⟩ := reads_accept_some.mp readsAccepted
    dsimp only at readsStart
    split at readsStart
    next ends =>
      obtain ⟨rfl, rfl⟩ := reads_pure.mp readsStart
      exact ⟨[token], rfl, .absent ends⟩
    next noSemicolon =>
      have isVar : token.kind = .keyVar := by simpa [noSemicolon] using isKind
      obtain ⟨tree, readsTree, rfl⟩ := reads_map.mp readsStart
      obtain ⟨used, same, declared⟩ := sound_varDeclaration sound isVar readsTree
      exact ⟨used, same, .declared declared⟩

/-- The tree that the derivation names is the one that the rule builds. -/
theorem forTree_eq (start : Option Stmt) (condition increment : Option Expr) (body : Stmt) :
    forTree start condition increment body =
      ForClauses.around ⟨start, condition, increment⟩ body := by
  cases start <;> cases increment <;> rfl

/-- A for loop that is read is derived; it is open if its body is. -/
theorem sound_forStatement (sound : Sound expression (Phrase .assignment))
    (soundBody : SoundStatement statement) {keyword : Token} (isFor : keyword.kind = .keyFor)
    {surroundings : Surroundings} {tokens rest : List Token} {tree : Stmt}
    (reads : Reads (forStatement expression statement) surroundings tokens tree rest) :
    ∃ used isOpen, keyword :: tokens = used ++ rest ∧
      Sentence surroundings.inFunction (.statement isOpen) used tree ∧
      (isOpen = true → Stops [.keyElse] rest) := by
  obtain ⟨opening, _, readsOpening, readsClauses⟩ := reads_bind.mp reads
  obtain ⟨start, _, readsStart, readsCondition⟩ := reads_bind.mp readsClauses
  obtain ⟨condition, _, readsTested, readsSemicolon⟩ := reads_bind.mp readsCondition
  obtain ⟨semicolon, _, readsEnd, readsIncrement⟩ := reads_bind.mp readsSemicolon
  obtain ⟨increment, _, readsIncreases, readsClosing⟩ := reads_bind.mp readsIncrement
  obtain ⟨closing, _, readsParen, readsBody⟩ := reads_bind.mp readsClosing
  obtain ⟨body, _, readsRepeats, isEnd⟩ := reads_bind.mp readsBody
  obtain ⟨rfl, rfl⟩ := reads_pure.mp isEnd
  obtain ⟨rfl, opens⟩ := reads_expect.mp readsOpening
  obtain ⟨starts, rfl, initializes⟩ := sound_forStart sound readsStart
  obtain ⟨conditions, rfl, tested⟩ := sound_optionalExpression sound _ readsTested
  obtain ⟨rfl, ends⟩ := reads_expect.mp readsEnd
  obtain ⟨increments, rfl, increases⟩ := sound_optionalExpression sound _ readsIncreases
  obtain ⟨rfl, closes⟩ := reads_expect.mp readsParen
  obtain ⟨bodies, isOpen, rfl, sentence, follows⟩ := soundBody readsRepeats
  rw [← forTree_eq]
  exact ⟨keyword :: opening :: starts ++ conditions ++ semicolon :: increments
      ++ closing :: bodies, isOpen, by simp,
    .forLoop isFor opens initializes tested ends increases closes sentence, follows⟩

/-- A statement that is read is derived if its parts are. -/
theorem sound_statementBody (advances : Advances declaration)
    (sound : Sound expression (Phrase .assignment)) (soundStatement : SoundStatement statement)
    (soundDeclaration : SoundRecovering declaration) :
    SoundStatement (statementBody statement declaration expression) := by
  intro surroundings tokens rest tree reads
  obtain ⟨accepted, _, readsKeyword, readsTree⟩ := reads_bind.mp reads
  cases accepted with
  | none =>
    obtain ⟨-, rfl⟩ := reads_accept_none.mp readsKeyword
    obtain ⟨used, rfl, evaluated⟩ := sound_expressionStatement sound readsTree
    exact ⟨used, false, rfl, .expression evaluated, nofun⟩
  | some keyword =>
    obtain ⟨rfl, isKeyword⟩ := reads_accept_some.mp readsKeyword
    dsimp only at readsTree
    simp only [List.mem_cons, List.not_mem_nil, or_false] at isKeyword
    rcases isKeyword with isFor | isIf | isPrint | isReturn | isWhile | opens
    · simp only [keywordStatement, isFor] at readsTree
      exact sound_forStatement sound soundStatement isFor readsTree
    · simp only [keywordStatement, isIf] at readsTree
      exact sound_ifStatement sound soundStatement isIf readsTree
    · simp only [keywordStatement, isPrint] at readsTree
      obtain ⟨used, same, sentence⟩ := sound_printStatement sound isPrint readsTree
      exact ⟨used, false, same, sentence, nofun⟩
    · simp only [keywordStatement, isReturn] at readsTree
      obtain ⟨used, same, sentence⟩ := sound_returnStatement sound isReturn readsTree
      exact ⟨used, false, same, sentence, nofun⟩
    · simp only [keywordStatement, isWhile] at readsTree
      exact sound_whileStatement sound soundStatement isWhile readsTree
    · simp only [keywordStatement, opens] at readsTree
      obtain ⟨statements, readsBlock, rfl⟩ := reads_map.mp readsTree
      obtain ⟨parts, closing, rfl, rfl, each, closes⟩ :=
        sound_block advances soundDeclaration readsBlock
      exact ⟨keyword :: (parts.map (·.1)).flatten ++ [closing], false, by simp,
        .block opens each closes, nofun⟩

/-- A declaration that is read is derived if its parts are. -/
theorem sound_declarationBody (advances : Advances declaration)
    (sound : Sound expression (Phrase .assignment)) (soundStatement : SoundStatement statement)
    (soundDeclaration : SoundRecovering declaration) :
    SoundDeclaration (declarationBody statement declaration expression) := by
  intro surroundings tokens rest tree reads
  obtain ⟨accepted, _, readsKeyword, readsTree⟩ := reads_bind.mp reads
  cases accepted with
  | none =>
    obtain ⟨-, rfl⟩ := reads_accept_none.mp readsKeyword
    obtain ⟨used, isOpen, rfl, sentence, -⟩ := soundStatement readsTree
    exact ⟨used, rfl, .statement sentence⟩
  | some keyword =>
    obtain ⟨rfl, isKeyword⟩ := reads_accept_some.mp readsKeyword
    dsimp only at readsTree
    unfold keywordDeclaration at readsTree
    split at readsTree
    next isFun => exact sound_function advances soundDeclaration isFun readsTree
    next noFun =>
      have isVar : keyword.kind = .keyVar := by simpa [noFun] using isKeyword
      obtain ⟨used, same, declared⟩ := sound_varDeclaration sound isVar readsTree
      exact ⟨used, same, .var declared⟩

end Statements

/-- Statements and declarations that are read are derived, by induction on the limit. -/
theorem sound_statement_declaration (depth : Nat) :
    SoundStatement (statement depth) ∧ SoundRecovering (declaration depth) := by
  induction depth with
  | zero => exact ⟨fun _ _ _ _ reads => absurd reads not_reads_tooDeep,
      fun _ _ _ _ reads => absurd reads not_reads_tooDeep⟩
  | succ depth inductionHypothesis =>
    obtain ⟨soundStatement, soundDeclaration⟩ := inductionHypothesis
    have advances := advances_declaration depth
    have sound := sound_expression depth
    exact ⟨sound_statementBody advances sound soundStatement soundDeclaration,
      soundRecovering depth (orderly_declarationBody depth)
        (sound_declarationBody advances sound soundStatement soundDeclaration)⟩

/-- A program that is read without an error is derived. -/
theorem derives_of_reads {depth : Nat} {endLine : Int} {tokens rest : List Token}
    {statements : List Stmt}
    (reads : Reads (declarations hasNext (declaration depth)) ⟨endLine, false⟩ tokens statements
      rest) : rest = [] ∧ Derives tokens statements := by
  obtain ⟨parts, rfl, rfl, each, stops⟩ := sound_declarations hasNext_looksAhead
    (advances_declaration depth) (sound_statement_declaration depth).2 reads
  obtain rfl : rest = [] := by
    cases rest with
    | nil => rfl
    | cons token rest => simp [hasNext] at stops
  exact ⟨rfl, by simpa using Derives.intro each⟩

end LoxLang.Grammar
