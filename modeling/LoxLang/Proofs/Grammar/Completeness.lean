import LoxLang.Proofs.Grammar.Soundness

/-!
# What is derived is read

Derived tokens are read without an error and with the tree of the derivation, as soon as the depth
that a rule has left exceeds their number, and as long as no token follows that the phrase could go
on with.

The rules group chains of operators and calls to the left by repeating a step, while a derivation
of such a chain has its last operator on top. `Complete` therefore says of a phrase what becomes of
it together with whatever the repetition reads afterwards.
-/

namespace LoxLang.Grammar

open Rule

/-- The tokens begin with one of these kinds. -/
def StartsWith (kinds : List TokenKind) (tokens : List Token) : Prop :=
  ∃ token more, tokens = token :: more ∧ token.kind ∈ kinds

/-- What begins with one of some kinds begins with one of more kinds. -/
theorem StartsWith.mono {kinds others : List TokenKind} {tokens : List Token}
    (starts : StartsWith kinds tokens) (subset : kinds ⊆ others) : StartsWith others tokens := by
  obtain ⟨token, more, rfl, isKind⟩ := starts
  exact ⟨token, more, rfl, subset isKind⟩

/-- What stands behind tokens does not change how they begin. -/
theorem StartsWith.append {kinds : List TokenKind} {tokens : List Token}
    (starts : StartsWith kinds tokens) (rest : List Token) : StartsWith kinds (tokens ++ rest) := by
  obtain ⟨token, more, rfl, isKind⟩ := starts
  exact ⟨token, more ++ rest, rfl, isKind⟩

/-- What begins with one of some kinds stops what goes on with others. -/
theorem StartsWith.stops {kinds others : List TokenKind} {tokens : List Token}
    (starts : StartsWith kinds tokens) (disjoint : ∀ kind ∈ kinds, kind ∉ others) :
    Stops others tokens := by
  obtain ⟨token, more, rfl, isKind⟩ := starts
  exact stops_cons.mpr (disjoint _ isKind)

/-- What begins with a token is not empty. -/
theorem StartsWith.length_pos {kinds : List TokenKind} {tokens : List Token}
    (starts : StartsWith kinds tokens) : 0 < tokens.length := by
  obtain ⟨token, more, rfl, -⟩ := starts
  exact Nat.succ_pos _

/-- A token that is looked for is not next. -/
theorem Stops.head?_any {kind : TokenKind} {tokens : List Token} (stops : Stops [kind] tokens) :
    tokens.head?.any (·.kind = kind) = false := by
  cases tokens with
  | nil => rfl
  | cons token tokens => simpa using stops

/-! ## Expressions -/

namespace Symbol

/-- The kinds of tokens that a phrase can begin with. -/
def starts : Symbol → List TokenKind
  | assignment | binding _ | unary =>
    [.bang, .minus, .number, .string, .keyTrue, .keyFalse, .keyNil, .identifier, .leftParen]
  | call | primary =>
    [.number, .string, .keyTrue, .keyFalse, .keyNil, .identifier, .leftParen]

/-- The kinds of tokens that a longer phrase can go on with after a phrase. -/
def extenders : Symbol → List TokenKind
  | assignment => .equal :: Binding.logicOr.levels.flatMap (·.operators) ++ [.leftParen]
  | binding level => level.levels.flatMap (·.operators) ++ [.leftParen]
  | unary | call => [.leftParen]
  | primary => []

/-- The extenders that are not taken by the repetition of the symbol itself. -/
def tighter : Symbol → List TokenKind
  | assignment => extenders assignment
  | binding level => level.operand.extenders
  | unary => [.leftParen]
  | call | primary => []

/-- What the rule of the symbol does after a phrase. -/
def further (depth : Nat) (tree : Expr) : Symbol → Rule Expr
  | binding level => repeated tree (chainStep level.level (level.operand.rule depth))
  | call => calls (expression depth) tree
  | assignment | unary | primary => pure tree

/-- This depth is enough for a phrase with this many tokens. -/
def Fits (depth size : Nat) : Symbol → Prop
  | assignment => size < depth
  | binding _ | unary => size ≤ depth
  | call | primary => size ≤ depth + 1

end Symbol

/-- A phrase of any symbol begins as an expression can. -/
theorem starts_subset (symbol : Symbol) : symbol.starts ⊆ Symbol.assignment.starts := by
  cases symbol with
  | call | primary => decide
  | _ => exact List.Subset.refl _

/-- A phrase begins with a token of the kinds that its symbol begins with, by induction on the
phrase. -/
theorem Phrase.startsWith {symbol : Symbol} {tokens : List Token} {tree : Expr}
    (phrase : Phrase symbol tokens tree) : StartsWith symbol.starts tokens := by
  induction phrase with
  | assign isName => exact ⟨_, _, rfl, by simp [isName, Symbol.starts]⟩
  | operations _ inductionHypothesis => exact inductionHypothesis
  | operate _ _ _ inductionHypothesis _ => exact inductionHypothesis.append _
  | operand _ inductionHypothesis => exact inductionHypothesis.mono (starts_subset _)
  | unary isOperator =>
    refine ⟨_, _, rfl, ?_⟩
    rcases isOperator with isBang | isMinus
    · simp [isBang, Symbol.starts]
    · simp [isMinus, Symbol.starts]
  | called _ inductionHypothesis => exact inductionHypothesis.mono (starts_subset _)
  | call _ _ _ _ _ _ inductionHypothesis _ =>
    rw [List.append_assoc]
    exact inductionHypothesis.append _
  | callee _ inductionHypothesis => exact inductionHypothesis
  | grouping opens => exact ⟨_, _, rfl, by simp [opens, Symbol.starts]⟩
  | number isKind | text isKind | truth isKind | falsehood isKind | nil isKind | name isKind =>
    exact ⟨_, _, rfl, by simp [isKind, Symbol.starts]⟩

/-- Followed by nothing that it could go on with, the phrase is read with its tree; followed by a
repetition, together with that. -/
def Complete (symbol : Symbol) (used : List Token) (tree : Expr) : Prop :=
  ∀ ⦃depth : Nat⦄ ⦃surroundings : Surroundings⦄ ⦃rest last : List Token⦄ ⦃found : Expr⦄,
    symbol.Fits depth used.length → Stops symbol.tighter rest →
      Reads (symbol.further depth tree) surroundings rest found last →
        Reads (symbol.rule depth) surroundings (used ++ rest) found last

/-- A level of operators goes on with its own operators or as its operands do. -/
theorem extenders_binding (level : Binding) :
    (Symbol.binding level).extenders = level.operators ++ level.operand.extenders := by
  cases level <;> rfl

/-- What the repetition of a symbol does not take is among what can follow a phrase. -/
theorem tighter_subset (symbol : Symbol) : symbol.tighter ⊆ symbol.extenders := by
  cases symbol with
  | binding level =>
    rw [extenders_binding]
    exact List.subset_append_right _ _
  | _ => decide

/-- The rule of every symbol is orderly, with every limit. -/
theorem orderly_rule (depth : Nat) (symbol : Symbol) : Orderly (symbol.rule depth) := by
  have orderlyPrimary := (refined_primary (orderly_expression depth).refined).orderly
  cases symbol with
  | assignment => exact orderly_expression depth
  | binding level => exact (refined_operations level.levels (orderly_unary depth).refined).orderly
  | unary => exact orderly_unary depth
  | call => exact orderlyPrimary.bind fun callee =>
      (refined_calls (orderly_expression depth).refined callee).orderly
  | primary => exact orderlyPrimary

section Steps

variable {α : Type} {kinds : List TokenKind} {step : Token → Rule (Option α)}
  {surroundings : Surroundings}

/-- A step that begins with a token of some kinds is over where the next token is none of them. -/
theorem reads_step_stops {tokens : List Token} (stops : Stops kinds tokens) :
    Reads
      (do
        match ← accept kinds with
        | none => return none
        | some token => step token)
      surroundings tokens none tokens :=
  reads_bind.mpr ⟨none, tokens, reads_accept_none.mpr ⟨stops, rfl⟩, reads_pure.mpr ⟨rfl, rfl⟩⟩

/-- A step that begins with a token of some kinds takes it and goes on behind it. -/
theorem reads_step_takes {token : Token} {tokens rest : List Token} {found : Option α}
    (isKind : token.kind ∈ kinds) (reads : Reads (step token) surroundings tokens found rest) :
    Reads
      (do
        match ← accept kinds with
        | none => return none
        | some token => step token)
      surroundings (token :: tokens) found rest :=
  reads_bind.mpr ⟨some token, tokens, reads_accept_some.mpr ⟨rfl, isKind⟩, reads⟩

end Steps

/-- The repetition of a level of operators takes a token at every turn. -/
theorem steady_further (depth : Nat) (level : Binding) :
    Steady (chainStep level.level (level.operand.rule depth)) :=
  steady_chainStep (orderly_rule depth _)

namespace Complete

variable {used : List Token} {tree : Expr}

/-- A complete phrase is read in front of whatever cannot go on with it. -/
theorem reads {symbol : Symbol} (complete : Complete symbol used tree) {depth : Nat}
    {surroundings : Surroundings} {rest : List Token} (fits : symbol.Fits depth used.length)
    (stops : Stops symbol.extenders rest) :
    Reads (symbol.rule depth) surroundings (used ++ rest) tree rest := by
  refine complete fits (stops.mono (tighter_subset symbol)) ?_
  cases symbol with
  | binding level =>
    rw [extenders_binding] at stops
    exact (reads_repeated (steady_further depth level)).mpr
      (.inl ⟨reads_step_stops (stops.mono (List.subset_append_left _ _)), rfl⟩)
  | call =>
    exact (reads_repeated (steady_callStep (orderly_expression depth))).mpr
      (.inl ⟨reads_step_stops stops, rfl⟩)
  | _ => exact reads_pure.mpr ⟨rfl, rfl⟩

/-- A phrase of one token, whose kind decides what the rule does with it. -/
theorem atom {token : Token}
    (reads : ∀ depth surroundings rest,
      Reads (primary (expression depth)) surroundings (token :: rest) tree rest) :
    Complete .primary [token] tree := by
  intro depth surroundings rest last found _ _ readsFurther
  obtain ⟨rfl, rfl⟩ := reads_pure.mp readsFurther
  exact reads depth surroundings _

/-- A name is a complete primary expression. -/
theorem name {token : Token} (isName : token.kind = .identifier) :
    Complete .primary [token] (.reference token) :=
  .atom fun _ _ _ => reads_bind.mpr
    ⟨some token, _, reads_next.mpr ⟨rfl, rfl⟩, by simp [isName]⟩

/-- An expression in front of a token that it cannot go on with. -/
theorem reads_expression (complete : Complete .assignment used tree) {depth : Nat}
    (fits : used.length < depth) {surroundings : Surroundings} {next : Token}
    (follows : next.kind ∉ Symbol.assignment.extenders) (rest : List Token) :
    Reads (expression depth) surroundings (used ++ next :: rest) tree (next :: rest) :=
  have stops : Stops Symbol.assignment.extenders (next :: rest) := stops_cons.mpr follows
  complete.reads fits stops

/-- A complete expression in parentheses is a complete primary expression. -/
theorem grouping {opening closing : Token} (opens : opening.kind = .leftParen)
    (complete : Complete .assignment used tree) (closes : closing.kind = .rightParen) :
    Complete .primary (opening :: used ++ [closing]) (.grouping tree) := by
  intro depth surroundings rest last found fits _ readsFurther
  obtain ⟨rfl, rfl⟩ := reads_pure.mp readsFurther
  simp only [Symbol.Fits, List.length_append, List.length_cons, List.length_nil] at fits
  have readsInner : Reads (expression depth) surroundings (used ++ closing :: last) tree
      (closing :: last) :=
    complete.reads_expression (by omega) (by rw [closes]; decide) last
  refine reads_bind.mpr ⟨some opening, _, reads_next.mpr ⟨rfl, rfl⟩, ?_⟩
  simp only [opens]
  refine reads_bind.mpr ⟨(), _, reads_skip.mpr rfl, ?_⟩
  refine reads_bind.mpr ⟨tree, closing :: last, by simpa using readsInner, ?_⟩
  exact reads_bind.mpr ⟨closing, last, reads_expect.mpr ⟨rfl, closes⟩, reads_pure.mpr ⟨rfl, rfl⟩⟩

/-- A primary expression without arguments is a complete callee. -/
theorem callee (complete : Complete .primary used tree) : Complete .call used tree := by
  intro depth surroundings rest last found fits stops readsFurther
  exact reads_bind.mpr ⟨tree, rest, complete.reads fits stops, readsFurther⟩

end Complete

/-! ## Lists -/

section Lists

variable {α : Type} {tooMany : Problem} {item : Rule α} {surroundings : Surroundings}
  {closing : Token} {rest : List Token}

/-- The first of some items with commas between them, and the others by the repetition. -/
private theorem reads_items (orderly : Orderly item) (closes : closing.kind = .rightParen)
    {one : List Token × α} {more : List (List Token × α)} {list : List Token}
    (listed : Separated ((one :: more).map (·.1)) list)
    (each : ∀ other ∈ one :: more, ∀ next rest, next.kind ∈ [.comma, .rightParen] →
      Reads item surroundings (other.1 ++ next :: rest) other.2 (next :: rest))
    (count : Nat) (found : List α) (enough : count + more.length ≤ listLimit) :
    ∃ middle, Reads item surroundings (list ++ closing :: rest) one.2 middle ∧
      Reads (repeated (count, one.2 :: found) (listedStep tooMany item)) surroundings middle
        (count + more.length, (more.map (·.2)).reverse ++ one.2 :: found) (closing :: rest) := by
  induction more generalizing one list count found with
  | nil =>
    cases listed with
    | last =>
      refine ⟨closing :: rest, each one (List.mem_cons_self ..) closing rest (by simp [closes]), ?_⟩
      exact (reads_repeated (steady_listedStep orderly)).mpr
        (.inl ⟨reads_step_stops (by simp [closes]), rfl⟩)
  | cons two more inductionHypothesis =>
    cases listed with
    | @more _ comma _ _ tokens isComma further =>
      rw [List.length_cons] at enough
      obtain ⟨middle, readsTwo, readsMore⟩ := inductionHypothesis further
        (fun other member => each other (List.mem_cons_of_mem one member)) (count + 1)
        (one.2 :: found) (by omega)
      refine ⟨comma :: tokens ++ closing :: rest, ?_, ?_⟩
      · simpa using each one (List.mem_cons_self ..) comma (tokens ++ closing :: rest)
          (by simp [isComma])
      · refine (reads_repeated (steady_listedStep orderly)).mpr
          (.inr ⟨(count + 1, two.2 :: one.2 :: found), middle, ?_, ?_⟩)
        · refine reads_step_takes (by simp [isComma]) ?_
          rw [if_neg (by simp only; omega)]
          exact reads_bind.mpr ⟨two.2, middle, readsTwo, reads_pure.mpr ⟨rfl, rfl⟩⟩
        · simpa [Nat.add_assoc, Nat.add_comm 1] using readsMore

/-- No item is longer than its list. -/
theorem Separated.length_le {items : List (List Token)} {list : List Token}
    (separated : Separated items list) {one : List Token} (member : one ∈ items) :
    one.length ≤ list.length := by
  induction separated with
  | none => exact nomatch member
  | last item => exact (List.mem_singleton.mp member ▸ Nat.le_refl _)
  | more item _ _ inductionHypothesis =>
    rw [List.length_append, List.length_cons]
    rcases List.mem_cons.mp member with rfl | isFurther
    · omega
    · have shorter := inductionHypothesis isFurther
      omega

/-- A list begins as its first item does. -/
theorem Separated.startsWith {first list : List Token} {items : List (List Token)}
    {kinds : List TokenKind} (separated : Separated (first :: items) list)
    (starts : StartsWith kinds first) : StartsWith kinds list := by
  cases separated with
  | last => exact starts
  | more => exact starts.append _

/-- A list in parentheses, which may be left out. -/
theorem reads_list (orderly : Orderly item) (closes : closing.kind = .rightParen)
    {items : List (List Token × α)} {list : List Token}
    (listed : Separated (items.map (·.1)) list) {kinds : List TokenKind}
    (starts : ∀ one ∈ items, StartsWith kinds one.1) (noEnd : .rightParen ∉ kinds)
    (each : ∀ one ∈ items, ∀ next rest, next.kind ∈ [.comma, .rightParen] →
      Reads item surroundings (one.1 ++ next :: rest) one.2 (next :: rest))
    (enough : items.length ≤ mostItems) :
    Reads (unlessNext .rightParen [] (Grammar.listed tooMany item)) surroundings
      (list ++ closing :: rest) (items.map (·.2)) (closing :: rest) := by
  rw [reads_unlessNext]
  cases items with
  | nil =>
    cases listed with
    | none => exact .inl ⟨by simp [closes], rfl, rfl⟩
  | cons one more =>
    right
    have starts := (listed.startsWith (starts one (List.mem_cons_self ..))).append (closing :: rest)
    refine ⟨(starts.stops ?_).head?_any, ?_⟩
    · intro kind member isEnd
      exact noEnd (List.mem_singleton.mp isEnd ▸ member)
    · rw [List.length_cons, Nat.add_comm] at enough
      obtain ⟨middle, readsOne, readsMore⟩ := reads_items orderly closes listed each 1 [] enough
      rw [listed_eq]
      refine reads_bind.mpr ⟨one.2, middle, readsOne, ?_⟩
      exact reads_bind.mpr ⟨_, closing :: rest, readsMore, reads_pure.mpr ⟨by simp, rfl⟩⟩

end Lists

namespace Complete

variable {used : List Token} {tree : Expr}

/-- A complete callee with complete arguments is complete: they are read one after the other, and
the closing parenthesis stops the last one. -/
theorem call {callees list : List Token} {callee : Expr} {opening closing : Token}
    {arguments : List (List Token × Expr)} (complete : Complete .call callees callee)
    (startsCallee : StartsWith Symbol.call.starts callees) (opens : opening.kind = .leftParen)
    (listed : Separated (arguments.map (·.1)) list)
    (starts : ∀ argument ∈ arguments, StartsWith Symbol.assignment.starts argument.1)
    (each : ∀ argument ∈ arguments, Complete .assignment argument.1 argument.2)
    (notTooMany : arguments.length ≤ mostItems) (closes : closing.kind = .rightParen) :
    Complete .call (callees ++ opening :: list ++ [closing])
      (.call callee closing (arguments.map (·.2))) := by
  intro depth surroundings rest last found fits _ readsFurther
  simp only [Symbol.Fits, List.length_append, List.length_cons, List.length_nil] at fits
  have nonempty := startsCallee.length_pos
  have readsArguments : Reads (callArguments (expression depth) callee) surroundings
      (list ++ closing :: rest) (some (.call callee closing (arguments.map (·.2)))) rest := by
    refine reads_unlessNext_bind.mpr ⟨arguments.map (·.2), closing :: rest, ?_, ?_⟩
    · refine reads_list (orderly_expression depth) closes listed starts (by decide) ?_ notTooMany
      intro argument member next rest isNext
      have shorter := listed.length_le (List.mem_map_of_mem member)
      refine (each argument member).reads_expression (by omega) ?_ rest
      simp only [List.mem_cons, List.not_mem_nil, or_false] at isNext
      rcases isNext with isComma | isParen
      · rw [isComma]
        decide
      · rw [isParen]
        decide
    · exact reads_bind.mpr ⟨closing, rest, reads_expect.mpr ⟨rfl, closes⟩,
        reads_pure.mpr ⟨rfl, rfl⟩⟩
  have readsCalls : Reads (calls (expression depth) callee) surroundings
      (opening :: list ++ closing :: rest) found last := by
    refine (reads_repeated (steady_callStep (orderly_expression depth))).mpr
      (.inr ⟨_, rest, ?_, readsFurther⟩)
    exact reads_step_takes (by simp [opens]) readsArguments
  have fits' : Symbol.call.Fits depth callees.length := by
    simp only [Symbol.Fits]
    omega
  have stops : Stops Symbol.call.tighter (opening :: list ++ closing :: rest) := by
    simp [Symbol.tighter]
  simpa using complete fits' stops readsCalls

/-- A complete call is a complete unary expression, since it begins with no operator. -/
theorem called (complete : Complete .call used tree)
    (starts : StartsWith Symbol.call.starts used) : Complete .unary used tree := by
  intro depth surroundings rest last found fits stops readsFurther
  obtain ⟨rfl, rfl⟩ := reads_pure.mp readsFurther
  have nonempty := starts.length_pos
  cases depth with
  | zero => exact absurd fits (by simp only [Symbol.Fits]; omega)
  | succ depth =>
    have noOperator : Stops [.bang, .minus] (used ++ last) :=
      (starts.append last).stops (by decide)
    exact reads_bind.mpr ⟨none, _, reads_accept_none.mpr ⟨noOperator, rfl⟩,
      complete.reads fits stops⟩

/-- An operator in front of a complete unary expression is complete. -/
theorem unary {operator : Token} (isOperator : operator.kind = .bang ∨ operator.kind = .minus)
    (complete : Complete .unary used tree) :
    Complete .unary (operator :: used) (.unary operator tree) := by
  intro depth surroundings rest last found fits stops readsFurther
  obtain ⟨rfl, rfl⟩ := reads_pure.mp readsFurther
  cases depth with
  | zero => exact absurd fits (Nat.not_succ_le_zero _)
  | succ depth =>
    have fits' : Symbol.unary.Fits depth used.length := Nat.le_of_succ_le_succ fits
    refine reads_bind.mpr ⟨some operator, used ++ last, ?_, ?_⟩
    · exact reads_accept_some.mpr ⟨rfl, by simpa using isOperator⟩
    · exact reads_bind.mpr ⟨tree, last, complete.reads fits' stops, reads_pure.mpr ⟨rfl, rfl⟩⟩

/-- An operand alone is complete at its level. -/
theorem operand {level : Binding} (complete : Complete level.operand used tree) :
    Complete (.binding level) used tree := by
  intro depth surroundings rest last found fits stops readsFurther
  rw [rule_binding, chain_eq]
  have fits' : level.operand.Fits depth used.length := by cases level <;> exact fits
  exact reads_bind.mpr ⟨tree, rest, complete.reads fits' stops, readsFurther⟩

/-- The last operator of a chain is read by the repetition that follows what stands in front. -/
theorem operate {level : Binding} {lefts rights : List Token} {operator : Token}
    {left right : Expr} (former : Complete (.binding level) lefts left)
    (isOperator : operator.kind ∈ level.operators)
    (latter : Complete level.operand rights right) :
    Complete (.binding level) (lefts ++ operator :: rights) (level.node left operator right) := by
  intro depth surroundings rest last found fits stops readsFurther
  have fitsLeft : (Symbol.binding level).Fits depth lefts.length := by
    simp only [Symbol.Fits, List.length_append, List.length_cons] at fits ⊢
    omega
  have fitsRight : level.operand.Fits depth rights.length := by
    simp only [Symbol.Fits, List.length_append, List.length_cons] at fits
    cases level <;> (simp only [Binding.operand, Symbol.Fits]; omega)
  have stopsLeft : Stops (Symbol.binding level).tighter (operator :: rights ++ rest) := by
    rw [List.cons_append, stops_cons]
    cases level <;> (revert isOperator; generalize operator.kind = kind; revert kind; decide)
  rw [List.append_assoc]
  refine former fitsLeft stopsLeft ((reads_repeated (steady_further depth level)).mpr
    (.inr ⟨level.node left operator right, rest, ?_, readsFurther⟩))
  refine reads_step_takes isOperator ?_
  exact reads_bind.mpr ⟨right, rest, latter.reads fitsRight stops, reads_pure.mpr ⟨rfl, rfl⟩⟩

/-- A complete disjunction is a complete expression, since no assignment follows. -/
theorem operations (complete : Complete (.binding .logicOr) used tree) :
    Complete .assignment used tree := by
  intro depth surroundings rest last found fits stops readsFurther
  obtain ⟨rfl, rfl⟩ := reads_pure.mp readsFurther
  cases depth with
  | zero => exact absurd fits (Nat.not_lt_zero _)
  | succ depth =>
    have fits' : (Symbol.binding .logicOr).Fits depth used.length := Nat.le_of_lt_succ fits
    have stopsTarget : Stops (Symbol.binding .logicOr).extenders last :=
      stops.mono (List.subset_cons_self _ _)
    refine reads_bind.mpr ⟨_, last, complete.reads fits' stopsTarget, ?_⟩
    refine reads_bind.mpr ⟨none, last, reads_accept_none.mpr ⟨?_, rfl⟩, reads_pure.mpr ⟨rfl, rfl⟩⟩
    exact stops.mono (List.cons_subset_cons _ (List.nil_subset _))

/-- A name in front of an equals sign is read as an expression of its own at first. -/
theorem assign {name equals : Token} (isName : name.kind = .identifier)
    (isEquals : equals.kind = .equal) (complete : Complete .assignment used tree) :
    Complete .assignment (name :: equals :: used) (.assign name tree) := by
  intro depth surroundings rest last found fits stops readsFurther
  obtain ⟨rfl, rfl⟩ := reads_pure.mp readsFurther
  cases depth with
  | zero => exact absurd fits (Nat.not_lt_zero _)
  | succ depth =>
    simp only [Symbol.Fits, List.length_cons] at fits
    have target : Complete (.binding .logicOr) [name] (.reference name) :=
      .operand (.operand (.operand (.operand (.operand (.operand (.called (.callee (.name isName))
        ⟨name, [], rfl, by simp [isName, Symbol.starts]⟩))))))
    have fitsTarget : (Symbol.binding .logicOr).Fits depth [name].length := by
      simp only [Symbol.Fits, List.length_cons, List.length_nil]
      omega
    have fits' : Symbol.assignment.Fits depth used.length := by
      simp only [Symbol.Fits]
      omega
    have stopsTarget : Stops (Symbol.binding .logicOr).extenders (equals :: used ++ last) := by
      rw [List.cons_append, stops_cons, isEquals]
      decide
    refine reads_bind.mpr ⟨.reference name, _, target.reads fitsTarget stopsTarget, ?_⟩
    refine reads_bind.mpr ⟨some equals, used ++ last,
      reads_accept_some.mpr ⟨rfl, List.mem_singleton.mpr isEquals⟩, ?_⟩
    exact reads_bind.mpr ⟨tree, last, complete.reads fits' stops, reads_pure.mpr ⟨rfl, rfl⟩⟩

end Complete

/-- Every phrase is complete, by induction on it. -/
theorem Phrase.complete {symbol : Symbol} {tokens : List Token} {tree : Expr}
    (phrase : Phrase symbol tokens tree) : Complete symbol tokens tree := by
  induction phrase with
  | assign isName isEquals _ inductionHypothesis =>
    exact .assign isName isEquals inductionHypothesis
  | operations _ inductionHypothesis => exact .operations inductionHypothesis
  | operate _ isOperator _ former latter => exact .operate former isOperator latter
  | operand _ inductionHypothesis => exact .operand inductionHypothesis
  | unary isOperator _ inductionHypothesis => exact .unary isOperator inductionHypothesis
  | called tighter inductionHypothesis => exact .called inductionHypothesis tighter.startsWith
  | call before opens listed phrases notTooMany closes inductionHypothesis each =>
    exact .call inductionHypothesis before.startsWith opens listed
      (fun argument member => (phrases argument member).startsWith) each notTooMany closes
  | callee _ inductionHypothesis => exact .callee inductionHypothesis
  | number isKind | text isKind | truth isKind | falsehood isKind | nil isKind =>
    exact .atom fun _ _ _ => reads_bind.mpr
      ⟨some _, _, reads_next.mpr ⟨rfl, rfl⟩, by simp [isKind]⟩
  | grouping opens _ closes inductionHypothesis => exact .grouping opens inductionHypothesis closes
  | name isName => exact .name isName

/-- A derived expression in front of a token that it cannot go on with. -/
theorem Phrase.reads {used : List Token} {tree : Expr} (phrase : Phrase .assignment used tree)
    {depth : Nat} (fits : used.length < depth) {surroundings : Surroundings} {next : Token}
    (follows : next.kind ∈ [.semicolon, .rightParen]) (rest : List Token) :
    Reads (expression depth) surroundings (used ++ next :: rest) tree (next :: rest) := by
  refine phrase.complete.reads_expression fits ?_ rest
  simp only [List.mem_cons, List.not_mem_nil, or_false] at follows
  rcases follows with isSemicolon | isParen
  · rw [isSemicolon]
    decide
  · rw [isParen]
    decide

/-! ## Statements -/

/-- The kinds of tokens that a sentence can begin with. -/
def Form.starts : Form → List TokenKind
  | declaration => [.keyFun, .keyVar, .keyFor, .keyIf, .keyPrint, .keyReturn, .keyWhile,
    .leftBrace] ++ Symbol.assignment.starts
  | statement _ => [.keyFor, .keyIf, .keyPrint, .keyReturn, .keyWhile, .leftBrace] ++
    Symbol.assignment.starts

/-- An expression statement begins as an expression. -/
theorem ExpressionStatement.startsWith {tokens : List Token} {tree : Stmt}
    (evaluated : ExpressionStatement tokens tree) :
    StartsWith Symbol.assignment.starts tokens := by
  cases evaluated with
  | intro phrase => exact phrase.startsWith.append _

/-- A variable declaration begins with its keyword. -/
theorem VariableDeclaration.startsWith {tokens : List Token} {tree : Stmt}
    (declared : VariableDeclaration tokens tree) : StartsWith [.keyVar] tokens := by
  cases declared with
  | bare isVar => exact ⟨_, _, rfl, List.mem_singleton.mpr isVar⟩
  | initialized isVar => exact ⟨_, _, rfl, List.mem_singleton.mpr isVar⟩

/-- A sentence begins with a token of the kinds for its form. -/
theorem Sentence.startsWith {inFunction : Bool} {form : Form} {tokens : List Token} {tree : Stmt}
    (sentence : Sentence inFunction form tokens tree) : StartsWith form.starts tokens := by
  induction sentence with
  | var declared => exact declared.startsWith.mono (by decide)
  | statement _ inductionHypothesis =>
    exact inductionHypothesis.mono
      (List.subset_append_right [TokenKind.keyFun, TokenKind.keyVar] _)
  | expression evaluated =>
    exact evaluated.startsWith.mono (List.subset_append_right _ _)
  | function isKind | print isKind | ret isKind | block isKind | loop isKind | forLoop isKind
  | ifThen isKind | ifElse isKind => exact ⟨_, _, rfl, by simp [isKind, Form.starts]⟩

/-- Followed by nothing that it could go on with, the sentence is read with its tree. A smaller
depth is enough for a statement than for a declaration. -/
def CompleteSentence (inFunction : Bool) (used : List Token) (tree : Stmt) : Form → Prop
  | .declaration => ∀ ⦃depth : Nat⦄ ⦃surroundings : Surroundings⦄ ⦃rest : List Token⦄,
      surroundings.inFunction = inFunction → used.length + 1 < depth → Stops [.keyElse] rest →
        Reads (declaration depth) surroundings (used ++ rest) (some tree) rest
  | .statement isOpen => ∀ ⦃depth : Nat⦄ ⦃surroundings : Surroundings⦄ ⦃rest : List Token⦄,
      surroundings.inFunction = inFunction → used.length < depth →
        (isOpen = true → Stops [.keyElse] rest) →
          Reads (statement depth) surroundings (used ++ rest) tree rest

/-- Declarations one after the other are read up to where no more follow. -/
theorem reads_declarations {more : Rule Bool} (looksAhead : LooksAhead more) {depth : Nat}
    {surroundings : Surroundings} {rest : List Token}
    (goesOn : ∀ tokens, StartsWith Form.declaration.starts tokens →
      Reads more surroundings tokens true tokens)
    (ends : Reads more surroundings rest false rest) (stops : Stops [.keyElse] rest)
    (parts : List (List Token × Stmt))
    (starts : ∀ part ∈ parts, StartsWith Form.declaration.starts part.1)
    (each : ∀ part ∈ parts, CompleteSentence surroundings.inFunction part.1 part.2 .declaration)
    (fits : ((parts.map (·.1)).flatten).length + 1 < depth) :
    Reads (declarations more (declaration depth)) surroundings ((parts.map (·.1)).flatten ++ rest)
      (parts.map (·.2)) rest := by
  have steady := steady_declarations looksAhead depth
  suffices loop : ∀ found : List Stmt,
      Reads (repeated found (declarationStep more (declaration depth))) surroundings
        ((parts.map (·.1)).flatten ++ rest) ((parts.map (·.2)).reverse ++ found) rest by
    rw [declarations_eq]
    exact reads_bind.mpr ⟨_, rest, loop [], reads_pure.mpr ⟨by simp, rfl⟩⟩
  induction parts with
  | nil =>
    intro found
    refine (reads_repeated steady).mpr (.inl ⟨?_, rfl⟩)
    exact reads_bind.mpr ⟨false, rest, ends, reads_pure.mpr ⟨rfl, rfl⟩⟩
  | cons part parts inductionHypothesis =>
    intro found
    rw [List.map_cons, List.flatten_cons, List.length_append] at fits
    have loop := inductionHypothesis
      (fun other member => starts other (List.mem_cons_of_mem _ member))
      (fun other member => each other (List.mem_cons_of_mem _ member)) (by omega) (part.2 :: found)
    have startsPart := starts part (List.mem_cons_self ..)
    have stopsPart : Stops [.keyElse] ((parts.map (·.1)).flatten ++ rest) := by
      cases parts with
      | nil => exact stops
      | cons next parts =>
        have startsNext := starts next (by simp)
        rw [List.map_cons, List.flatten_cons, List.append_assoc]
        exact (startsNext.append _).stops (by decide)
    have fitsPart : part.1.length + 1 < depth := by omega
    have readsPart := each part (List.mem_cons_self ..) rfl fitsPart stopsPart
    rw [List.map_cons, List.flatten_cons, List.append_assoc]
    refine (reads_repeated steady).mpr (.inr ⟨part.2 :: found, _, ?_, by simpa using loop⟩)
    refine reads_bind.mpr ⟨true, _, goesOn _ (startsPart.append _), ?_⟩
    exact reads_bind.mpr ⟨some part.2, _, readsPart, reads_pure.mpr ⟨rfl, rfl⟩⟩

/-- A block after its opening brace. -/
theorem reads_block {depth : Nat} {surroundings : Surroundings} {closing : Token}
    (closes : closing.kind = .rightBrace) {rest : List Token} {parts : List (List Token × Stmt)}
    (starts : ∀ part ∈ parts, StartsWith Form.declaration.starts part.1)
    (each : ∀ part ∈ parts, CompleteSentence surroundings.inFunction part.1 part.2 .declaration)
    (fits : ((parts.map (·.1)).flatten).length + 1 < depth) :
    Reads (block (declaration depth)) surroundings
      ((parts.map (·.1)).flatten ++ closing :: rest) (parts.map (·.2)) rest := by
  have goesOn (tokens : List Token) (starts : StartsWith Form.declaration.starts tokens) :
      Reads inBlock surroundings tokens true tokens := by
    obtain ⟨token, more, rfl, isKind⟩ := starts
    have noBrace : token.kind ≠ .rightBrace := fun isBrace => by
      rw [isBrace] at isKind
      exact absurd isKind (by decide)
    simp [inBlock, hasNext, noBrace]
  have ends : Reads inBlock surroundings (closing :: rest) false (closing :: rest) := by
    simp [inBlock, hasNext, closes]
  refine reads_bind.mpr ⟨_, closing :: rest, reads_declarations inBlock_looksAhead goesOn ends
    (by simp [closes]) parts starts each fits, ?_⟩
  exact reads_bind.mpr ⟨closing, rest, reads_expect.mpr ⟨rfl, closes⟩, reads_pure.mpr ⟨rfl, rfl⟩⟩

section Sentences

variable {depth : Nat} {surroundings : Surroundings} {rest : List Token}

/-- An expression statement is read with its tree. -/
theorem ExpressionStatement.reads {used : List Token} {tree : Stmt}
    (evaluated : ExpressionStatement used tree) (fits : used.length ≤ depth) :
    Reads (expressionStatement (expression depth)) surroundings (used ++ rest) tree rest := by
  cases evaluated with
  | @intro tokens value semicolon phrase ends =>
    rw [List.length_append, List.length_singleton] at fits
    rw [List.append_assoc]
    refine reads_bind.mpr ⟨value, semicolon :: rest, phrase.reads fits (by simp [ends]) rest, ?_⟩
    exact reads_bind.mpr ⟨semicolon, rest, reads_expect.mpr ⟨rfl, ends⟩, reads_pure.mpr ⟨rfl, rfl⟩⟩

/-- A variable declaration begins with its keyword, and the rest of it is read after that. -/
theorem VariableDeclaration.reads {used : List Token} {tree : Stmt}
    (declared : VariableDeclaration used tree) (fits : used.length ≤ depth) :
    ∃ keyword more, used = keyword :: more ∧ keyword.kind = .keyVar ∧
      ∀ surroundings rest,
        Reads (varDeclaration (expression depth)) surroundings (more ++ rest) tree rest := by
  cases declared with
  | @bare keyword name semicolon isVar isName ends =>
    refine ⟨keyword, [name, semicolon], rfl, isVar, fun surroundings rest => ?_⟩
    refine reads_bind.mpr ⟨name, semicolon :: rest, reads_expect.mpr ⟨rfl, isName⟩, ?_⟩
    refine reads_whenNext_bind.mpr ⟨none, semicolon :: rest,
      reads_whenNext_none.mpr ⟨by simp [ends], rfl⟩, ?_⟩
    exact reads_bind.mpr ⟨semicolon, rest, reads_expect.mpr ⟨rfl, ends⟩, reads_pure.mpr ⟨rfl, rfl⟩⟩
  | @initialized keyword name equals semicolon tokens start isVar isName isEquals phrase ends =>
    simp only [List.length_append, List.length_cons, List.length_nil] at fits
    refine ⟨keyword, name :: equals :: tokens ++ [semicolon], rfl, isVar,
      fun surroundings rest => ?_⟩
    have readsStart : Reads (expression depth) surroundings (tokens ++ semicolon :: rest) start
      (semicolon :: rest) := phrase.reads (by omega) (by simp [ends]) rest
    rw [List.append_assoc]
    refine reads_bind.mpr ⟨name, equals :: tokens ++ semicolon :: rest,
      reads_expect.mpr ⟨rfl, isName⟩, ?_⟩
    refine reads_whenNext_bind.mpr ⟨some start, semicolon :: rest, reads_whenNext_some.mpr
      ⟨equals, _, rfl, List.mem_singleton.mpr isEquals, readsStart⟩, ?_⟩
    exact reads_bind.mpr ⟨semicolon, rest, reads_expect.mpr ⟨rfl, ends⟩, reads_pure.mpr ⟨rfl, rfl⟩⟩

/-- An expression that may be left out, in front of its closing token. -/
theorem OptionalPhrase.reads {used : List Token} {value : Option Expr}
    (phrase : OptionalPhrase used value) (fits : used.length < depth) {closing : Token}
    {kind : TokenKind} (closes : closing.kind = kind) (isEnd : kind ∈ [.semicolon, .rightParen]) :
    Reads (unlessNext kind none (some <$> expression depth)) surroundings
      (used ++ closing :: rest) value (closing :: rest) := by
  rw [reads_unlessNext]
  cases phrase with
  | absent => exact .inl ⟨by simp [closes], rfl, rfl⟩
  | @present _ tree phrase =>
    right
    have noEnd : Stops [kind] (used ++ closing :: rest) := by
      refine (phrase.startsWith.append _).stops ?_
      simp only [List.mem_cons, List.not_mem_nil, or_false] at isEnd
      rcases isEnd with rfl | rfl
      · decide
      · decide
    refine ⟨noEnd.head?_any, reads_map.mpr ⟨tree, ?_, rfl⟩⟩
    exact phrase.reads fits (closes ▸ isEnd) rest

/-- What a for loop starts with is read with its tree: nothing, a declaration or an expression. -/
theorem ForInitializer.reads {used : List Token} {start : Option Stmt}
    (initializes : ForInitializer used start) (fits : used.length ≤ depth) :
    Reads (forStart (expression depth)) surroundings (used ++ rest) start rest := by
  cases initializes with
  | @absent semicolon ends =>
    refine reads_bind.mpr ⟨some semicolon, rest, reads_accept_some.mpr ⟨rfl, by simp [ends]⟩, ?_⟩
    simp only [ends, if_true]
    exact reads_pure.mpr ⟨rfl, rfl⟩
  | @declared _ tree declared =>
    obtain ⟨keyword, more, rfl, isVar, readsMore⟩ := declared.reads fits
    refine reads_bind.mpr
      ⟨some keyword, more ++ rest, reads_accept_some.mpr ⟨rfl, by simp [isVar]⟩, ?_⟩
    simp only [isVar, reduceCtorEq, if_false]
    exact reads_map.mpr ⟨tree, readsMore surroundings rest, rfl⟩
  | @evaluated _ tree evaluated =>
    have noKeyword : Stops [.semicolon, .keyVar] (used ++ rest) :=
      (evaluated.startsWith.append rest).stops (by decide)
    refine reads_bind.mpr ⟨none, _, reads_accept_none.mpr ⟨noKeyword, rfl⟩, ?_⟩
    exact reads_map.mpr ⟨tree, evaluated.reads fits, rfl⟩

/-- A statement that begins with a keyword or a brace, of which the rest is read as follows. -/
theorem reads_keyword {keyword : Token} {tokens : List Token} {tree : Stmt}
    (isKeyword : keyword.kind ∈
      [.keyFor, .keyIf, .keyPrint, .keyReturn, .keyWhile, .leftBrace])
    (reads : Reads (keywordStatement (statement depth) (declaration depth) (expression depth)
      keyword) surroundings tokens tree rest) :
    Reads (statement (depth + 1)) surroundings (keyword :: tokens) tree rest :=
  reads_bind.mpr ⟨some keyword, tokens, reads_accept_some.mpr ⟨rfl, isKeyword⟩, reads⟩

/-- The condition of a conditional or a loop with its parentheses. -/
theorem reads_condition {opening closing : Token} {conditions tokens : List Token}
    {condition : Expr} {before after : Expected} {next : Expr → Rule Stmt} {tree : Stmt}
    (opens : opening.kind = .leftParen) (tested : Phrase .assignment conditions condition)
    (fits : conditions.length < depth) (closes : closing.kind = .rightParen)
    (reads : Reads (next condition) surroundings tokens tree rest) :
    Reads
      (do
        let _ ← expect .leftParen before
        let condition ← expression depth
        let _ ← expect .rightParen after
        next condition)
      surroundings (opening :: conditions ++ closing :: tokens) tree rest := by
  refine reads_bind.mpr ⟨opening, _, reads_expect.mpr ⟨rfl, opens⟩, ?_⟩
  refine reads_bind.mpr ⟨condition, closing :: tokens,
    tested.reads fits (by simp [closes]) tokens, ?_⟩
  exact reads_bind.mpr ⟨closing, tokens, reads_expect.mpr ⟨rfl, closes⟩, reads⟩

/-- The semicolon behind a value, which ends its statement. -/
theorem reads_semicolon {α : Type} {value : Rule α} {semicolon : Token} {missing : Expected}
    {make : α → Stmt} {tokens : List Token} {found : α}
    (reads : Reads value surroundings (tokens ++ semicolon :: rest) found (semicolon :: rest))
    (ends : semicolon.kind = .semicolon) :
    Reads
      (do
        let found ← value
        let _ ← expect .semicolon missing
        return make found)
      surroundings (tokens ++ semicolon :: rest) (make found) rest := by
  refine reads_bind.mpr ⟨found, semicolon :: rest, reads, ?_⟩
  exact reads_bind.mpr ⟨semicolon, rest, reads_expect.mpr ⟨rfl, ends⟩, reads_pure.mpr ⟨rfl, rfl⟩⟩

/-- A declaration that is read is not dropped. -/
theorem reads_declaration {tokens : List Token} {tree : Stmt}
    (reads : Reads (declarationBody (statement depth) (declaration depth) (expression depth))
      surroundings tokens tree rest) :
    Reads (declaration (depth + 1)) surroundings tokens (some tree) rest :=
  (reads_recovering (orderly_declarationBody depth)).mpr ⟨tree, rfl, reads⟩

/-- Names with commas between them. -/
theorem reads_parameters {parameters list : List Token} {closing : Token}
    (listed : Separated (parameters.map ([·])) list)
    (areNames : ∀ parameter ∈ parameters, parameter.kind = .identifier)
    (notTooMany : parameters.length ≤ mostItems) (closes : closing.kind = .rightParen) :
    Reads (unlessNext .rightParen []
        (Grammar.listed .tooManyParameters (expect .identifier .parameterName)))
      surroundings (list ++ closing :: rest) parameters (closing :: rest) := by
  let items := parameters.map fun parameter => ([parameter], parameter)
  have values : items.map (·.2) = parameters := by
    rw [List.map_map]
    exact List.map_id _
  have isList : Separated (items.map (·.1)) list := by
    rw [List.map_map]
    exact listed
  have starts : ∀ one ∈ items, StartsWith [.identifier] one.1 := by
    intro one member
    obtain ⟨parameter, isParameter, rfl⟩ := List.mem_map.mp member
    exact ⟨parameter, [], rfl, List.mem_singleton.mpr (areNames parameter isParameter)⟩
  have enough : items.length ≤ mostItems := by
    rw [List.length_map]
    exact notTooMany
  rw [← values]
  refine reads_list (Orderly.expect _ _) closes isList starts (by decide) ?_ enough
  intro one member next rest _
  obtain ⟨parameter, isParameter, rfl⟩ := List.mem_map.mp member
  exact reads_expect.mpr ⟨rfl, areNames parameter isParameter⟩

end Sentences

namespace CompleteSentence

variable {inFunction isOpen : Bool} {tokens : List Token} {tree : Stmt}

/-- A function with complete declarations in its body is complete; its body is read within a
function. -/
theorem function {keyword name opening closing opensBody closesBody : Token}
    {parameters list : List Token} {body : List (List Token × Stmt)}
    (isFun : keyword.kind = .keyFun) (isName : name.kind = .identifier)
    (opens : opening.kind = .leftParen) (listed : Separated (parameters.map ([·])) list)
    (areNames : ∀ parameter ∈ parameters, parameter.kind = .identifier)
    (notTooMany : parameters.length ≤ mostItems) (closes : closing.kind = .rightParen)
    (bodyOpens : opensBody.kind = .leftBrace)
    (starts : ∀ part ∈ body, StartsWith Form.declaration.starts part.1)
    (each : ∀ part ∈ body, CompleteSentence true part.1 part.2 .declaration)
    (bodyCloses : closesBody.kind = .rightBrace) :
    CompleteSentence inFunction
      (keyword :: name :: opening :: list ++ closing :: opensBody :: (body.map (·.1)).flatten
        ++ [closesBody])
      (.function name parameters (body.map (·.2))) .declaration := by
  intro depth surroundings rest _ fits _
  cases depth with
  | zero => exact nomatch fits
  | succ depth =>
    simp only [List.length_append, List.length_cons, List.length_nil] at fits
    have readsBody : Reads (withinFunction (block (declaration depth))) surroundings
        ((body.map (·.1)).flatten ++ closesBody :: rest) (body.map (·.2)) rest :=
      reads_withinFunction.mpr (reads_block bodyCloses starts each (by omega))
    have readsFunction : Reads (Grammar.function (declaration depth)) surroundings
        (name :: opening :: list ++ closing :: opensBody ::
          ((body.map (·.1)).flatten ++ closesBody :: rest))
        (.function name parameters (body.map (·.2))) rest := by
      refine reads_bind.mpr ⟨name, _, reads_expect.mpr ⟨rfl, isName⟩, ?_⟩
      refine reads_bind.mpr ⟨opening, _, reads_expect.mpr ⟨rfl, opens⟩, ?_⟩
      refine reads_unlessNext_bind.mpr ⟨parameters, _,
        reads_parameters listed areNames notTooMany closes, ?_⟩
      refine reads_bind.mpr ⟨closing, _, reads_expect.mpr ⟨rfl, closes⟩, ?_⟩
      refine reads_bind.mpr ⟨opensBody, _, reads_expect.mpr ⟨rfl, bodyOpens⟩, ?_⟩
      exact reads_bind.mpr ⟨body.map (·.2), rest, readsBody, reads_pure.mpr ⟨rfl, rfl⟩⟩
    refine reads_declaration (reads_bind.mpr
      ⟨some keyword, _, reads_accept_some.mpr ⟨rfl, by simp [isFun]⟩, ?_⟩)
    simpa [keywordDeclaration, isFun] using readsFunction

/-- A variable declaration is a complete declaration. -/
theorem var (declared : VariableDeclaration tokens tree) :
    CompleteSentence inFunction tokens tree .declaration := by
  intro depth surroundings rest _ fits _
  cases depth with
  | zero => exact nomatch fits
  | succ depth =>
    obtain ⟨keyword, more, rfl, isVar, readsMore⟩ := declared.reads (show _ ≤ depth by omega)
    refine reads_declaration (reads_bind.mpr
      ⟨some keyword, _, reads_accept_some.mpr ⟨rfl, by simp [isVar]⟩, ?_⟩)
    simpa [keywordDeclaration, isVar] using readsMore surroundings rest

/-- A complete statement is a complete declaration, since it begins with no keyword of one. -/
theorem statement (complete : CompleteSentence inFunction tokens tree (.statement isOpen))
    (starts : StartsWith (Form.statement isOpen).starts tokens) :
    CompleteSentence inFunction tokens tree .declaration := by
  intro depth surroundings rest within fits stops
  cases depth with
  | zero => exact nomatch fits
  | succ depth =>
    have noKeyword : Stops [.keyFun, .keyVar] (tokens ++ rest) :=
      (starts.append rest).stops (show ∀ kind ∈ (Form.statement false).starts, _ by decide)
    refine reads_declaration (reads_bind.mpr
      ⟨none, _, reads_accept_none.mpr ⟨noKeyword, rfl⟩, ?_⟩)
    exact complete within (Nat.lt_of_succ_lt_succ fits) fun _ => stops

/-- An expression statement is a complete statement, since it begins with no keyword. -/
theorem expression (evaluated : ExpressionStatement tokens tree) :
    CompleteSentence inFunction tokens tree (.statement false) := by
  intro depth surroundings rest _ fits _
  cases depth with
  | zero => exact nomatch fits
  | succ depth =>
    have noKeyword : Stops [.keyFor, .keyIf, .keyPrint, .keyReturn, .keyWhile, .leftBrace]
        (tokens ++ rest) := (evaluated.startsWith.append rest).stops (by decide)
    exact reads_bind.mpr ⟨none, _, reads_accept_none.mpr ⟨noKeyword, rfl⟩,
      evaluated.reads (Nat.le_of_lt_succ fits)⟩

/-- A print statement is complete. -/
theorem print {keyword semicolon : Token} {value : Expr} (isPrint : keyword.kind = .keyPrint)
    (phrase : Phrase .assignment tokens value) (ends : semicolon.kind = .semicolon) :
    CompleteSentence inFunction (keyword :: tokens ++ [semicolon]) (.print value)
      (.statement false) := by
  intro depth surroundings rest _ fits _
  cases depth with
  | zero => exact nomatch fits
  | succ depth =>
    simp only [List.length_append, List.length_cons, List.length_nil] at fits
    rw [List.append_assoc]
    refine reads_keyword (by simp [isPrint]) ?_
    simp only [keywordStatement, isPrint]
    exact reads_semicolon (phrase.reads (by omega) (by simp [ends]) rest) ends

/-- A return statement is complete within a function. -/
theorem ret {keyword semicolon : Token} {value : Option Expr} (isReturn : keyword.kind = .keyReturn)
    (phrase : OptionalPhrase tokens value) (ends : semicolon.kind = .semicolon) :
    CompleteSentence true (keyword :: tokens ++ [semicolon]) (.ret keyword value)
      (.statement false) := by
  intro depth surroundings rest within fits _
  cases depth with
  | zero => exact nomatch fits
  | succ depth =>
    simp only [List.length_append, List.length_cons, List.length_nil] at fits
    rw [List.append_assoc]
    refine reads_keyword (by simp [isReturn]) ?_
    simp only [keywordStatement, isReturn]
    refine reads_bind.mpr ⟨true, _, reads_inFunction.mpr ⟨within.symm, rfl⟩, ?_⟩
    refine reads_unlessNext_bind.mpr ⟨value, semicolon :: rest,
      phrase.reads (by omega) ends (by simp), ?_⟩
    exact reads_bind.mpr ⟨semicolon, rest, reads_expect.mpr ⟨rfl, ends⟩, reads_pure.mpr ⟨rfl, rfl⟩⟩

/-- A block of complete declarations is complete; the closing brace stops the last one. -/
theorem block {opening closing : Token} {parts : List (List Token × Stmt)}
    (opens : opening.kind = .leftBrace)
    (starts : ∀ part ∈ parts, StartsWith Form.declaration.starts part.1)
    (each : ∀ part ∈ parts, CompleteSentence inFunction part.1 part.2 .declaration)
    (closes : closing.kind = .rightBrace) :
    CompleteSentence inFunction (opening :: (parts.map (·.1)).flatten ++ [closing])
      (.block (parts.map (·.2))) (.statement false) := by
  intro depth surroundings rest within fits _
  cases depth with
  | zero => exact nomatch fits
  | succ depth =>
    simp only [List.length_append, List.length_cons, List.length_nil] at fits
    rw [List.append_assoc]
    refine reads_keyword (by simp [opens]) ?_
    simp only [keywordStatement, opens]
    exact reads_map.mpr ⟨parts.map (·.2),
      reads_block closes starts (within ▸ each) (by omega), rfl⟩

/-- A while loop with a complete body is complete. -/
theorem loop {keyword opening closing : Token} {conditions bodies : List Token} {condition : Expr}
    {body : Stmt} (isWhile : keyword.kind = .keyWhile) (opens : opening.kind = .leftParen)
    (tested : Phrase .assignment conditions condition) (closes : closing.kind = .rightParen)
    (repeats : CompleteSentence inFunction bodies body (.statement isOpen)) :
    CompleteSentence inFunction (keyword :: opening :: conditions ++ closing :: bodies)
      (.loop condition body) (.statement isOpen) := by
  intro depth surroundings rest within fits stops
  cases depth with
  | zero => exact nomatch fits
  | succ depth =>
    simp only [List.length_append, List.length_cons] at fits
    rw [List.append_assoc]
    refine reads_keyword (by simp [isWhile]) ?_
    simp only [keywordStatement, isWhile]
    have readsBody : Reads (Grammar.statement depth) surroundings (bodies ++ rest) body rest :=
      repeats within (by omega) stops
    exact reads_condition opens tested (by omega) closes
      (reads_bind.mpr ⟨body, rest, readsBody, reads_pure.mpr ⟨rfl, rfl⟩⟩)

/-- A for loop with a complete body is complete, read as the tree that stands for it. -/
theorem forLoop {keyword opening semicolon closing : Token}
    {starts conditions increments bodies : List Token} {start : Option Stmt}
    {condition increment : Option Expr} {body : Stmt}
    (isFor : keyword.kind = .keyFor) (opens : opening.kind = .leftParen)
    (initializes : ForInitializer starts start) (tested : OptionalPhrase conditions condition)
    (ends : semicolon.kind = .semicolon) (increases : OptionalPhrase increments increment)
    (closes : closing.kind = .rightParen)
    (repeats : CompleteSentence inFunction bodies body (.statement isOpen)) :
    CompleteSentence inFunction
      (keyword :: opening :: starts ++ conditions ++ semicolon :: increments ++ closing :: bodies)
      (forTree start condition increment body) (.statement isOpen) := by
  intro depth surroundings rest within fits stops
  cases depth with
  | zero => exact nomatch fits
  | succ depth =>
    simp only [List.length_append, List.length_cons] at fits
    simp only [List.append_assoc, List.cons_append]
    refine reads_keyword (by simp [isFor]) ?_
    simp only [keywordStatement, isFor]
    have readsBody : Reads (Grammar.statement depth) surroundings (bodies ++ rest) body rest :=
      repeats within (by omega) stops
    refine reads_bind.mpr ⟨opening, _, reads_expect.mpr ⟨rfl, opens⟩, ?_⟩
    refine reads_bind.mpr ⟨start, _, initializes.reads (by omega), ?_⟩
    refine reads_bind.mpr ⟨condition, _, tested.reads (by omega) ends (by simp), ?_⟩
    refine reads_bind.mpr ⟨semicolon, _, reads_expect.mpr ⟨rfl, ends⟩, ?_⟩
    refine reads_bind.mpr ⟨increment, _, increases.reads (by omega) closes (by simp), ?_⟩
    refine reads_bind.mpr ⟨closing, _, reads_expect.mpr ⟨rfl, closes⟩, ?_⟩
    exact reads_bind.mpr ⟨body, rest, readsBody, reads_pure.mpr ⟨forTree_eq .., rfl⟩⟩

/-- A conditional without a second branch is complete if no `else` follows. -/
theorem ifThen {keyword opening closing : Token} {conditions consequents : List Token}
    {condition : Expr} {consequent : Stmt}
    (isIf : keyword.kind = .keyIf) (opens : opening.kind = .leftParen)
    (tested : Phrase .assignment conditions condition) (closes : closing.kind = .rightParen)
    (chosen : CompleteSentence inFunction consequents consequent (.statement isOpen)) :
    CompleteSentence inFunction (keyword :: opening :: conditions ++ closing :: consequents)
      (.conditional condition consequent none) (.statement true) := by
  intro depth surroundings rest within fits stops
  cases depth with
  | zero => exact nomatch fits
  | succ depth =>
    simp only [List.length_append, List.length_cons] at fits
    rw [List.append_assoc]
    refine reads_keyword (by simp [isIf]) ?_
    simp only [keywordStatement, isIf]
    have readsChosen : Reads (Grammar.statement depth) surroundings (consequents ++ rest)
      consequent rest := chosen within (by omega) fun _ => stops rfl
    have readsElse : Reads (whenNext [.keyElse] (Grammar.statement depth)) surroundings rest none
      rest := reads_whenNext_none.mpr ⟨stops rfl, rfl⟩
    refine reads_condition opens tested (by omega) closes
      (reads_bind.mpr ⟨consequent, rest, readsChosen, ?_⟩)
    exact reads_whenNext_bind.mpr ⟨none, rest, readsElse, reads_pure.mpr ⟨rfl, rfl⟩⟩

/-- The first branch is not open, so it leaves the `else` behind it to this conditional. -/
theorem ifElse {keyword opening closing otherwise : Token}
    {conditions consequents alternatives : List Token} {condition : Expr}
    {consequent alternative : Stmt}
    (isIf : keyword.kind = .keyIf) (opens : opening.kind = .leftParen)
    (tested : Phrase .assignment conditions condition) (closes : closing.kind = .rightParen)
    (chosen : CompleteSentence inFunction consequents consequent (.statement false))
    (isElse : otherwise.kind = .keyElse)
    (refused : CompleteSentence inFunction alternatives alternative (.statement isOpen)) :
    CompleteSentence inFunction
      (keyword :: opening :: conditions ++ closing :: consequents ++ otherwise :: alternatives)
      (.conditional condition consequent (some alternative)) (.statement isOpen) := by
  intro depth surroundings rest within fits stops
  cases depth with
  | zero => exact nomatch fits
  | succ depth =>
    simp only [List.length_append, List.length_cons] at fits
    simp only [List.append_assoc, List.cons_append]
    refine reads_keyword (by simp [isIf]) ?_
    simp only [keywordStatement, isIf]
    have readsChosen : Reads (Grammar.statement depth) surroundings
        (consequents ++ otherwise :: (alternatives ++ rest)) consequent
        (otherwise :: (alternatives ++ rest)) := by
      refine chosen within (by omega) fun isOpen => ?_
      cases isOpen
    have readsRefused : Reads (Grammar.statement depth) surroundings (alternatives ++ rest)
      alternative rest := refused within (by omega) stops
    have readsElse : Reads (whenNext [.keyElse] (Grammar.statement depth)) surroundings
        (otherwise :: (alternatives ++ rest)) (some alternative) rest :=
      reads_whenNext_some.mpr
        ⟨otherwise, _, rfl, List.mem_singleton.mpr isElse, readsRefused⟩
    refine reads_condition opens tested (by omega) closes
      (reads_bind.mpr ⟨consequent, _, readsChosen, ?_⟩)
    exact reads_whenNext_bind.mpr
      ⟨some alternative, rest, readsElse, reads_pure.mpr ⟨rfl, rfl⟩⟩

end CompleteSentence

/-- Every sentence is complete, by induction on it. -/
theorem Sentence.complete {inFunction : Bool} {form : Form} {tokens : List Token} {tree : Stmt}
    (sentence : Sentence inFunction form tokens tree) :
    CompleteSentence inFunction tokens tree form := by
  induction sentence with
  | function isFun isName opens listed areNames notTooMany closes bodyOpens body bodyCloses
      inductionHypothesis =>
    exact .function isFun isName opens listed areNames notTooMany closes bodyOpens
      (fun part member => (body part member).startsWith) inductionHypothesis bodyCloses
  | var declared => exact .var declared
  | statement inner inductionHypothesis => exact .statement inductionHypothesis inner.startsWith
  | expression evaluated => exact .expression evaluated
  | print isPrint phrase ends => exact .print isPrint phrase ends
  | ret isReturn phrase ends => exact .ret isReturn phrase ends
  | block opens parts closes inductionHypothesis =>
    exact .block opens (fun part member => (parts part member).startsWith) inductionHypothesis
      closes
  | loop isWhile opens tested closes _ inductionHypothesis =>
    exact .loop isWhile opens tested closes inductionHypothesis
  | forLoop isFor opens initializes tested ends increases closes _ inductionHypothesis =>
    exact .forLoop isFor opens initializes tested ends increases closes inductionHypothesis
  | ifThen isIf opens tested closes _ inductionHypothesis =>
    exact .ifThen isIf opens tested closes inductionHypothesis
  | ifElse isIf opens tested closes _ isElse _ chosen refused =>
    exact .ifElse isIf opens tested closes chosen isElse refused

/-- A derived program is read without an error by every depth that exceeds its length. -/
theorem Derives.reads {tokens : List Token} {statements : List Stmt}
    (derives : Derives tokens statements) {depth : Nat} (fits : tokens.length + 1 < depth)
    (endLine : Int) :
    Reads (declarations hasNext (declaration depth)) ⟨endLine, false⟩ tokens statements [] := by
  cases derives with
  | @intro parts each =>
    have goesOn (tokens : List Token) (starts : StartsWith Form.declaration.starts tokens) :
        Reads hasNext ⟨endLine, false⟩ tokens true tokens := by
      obtain ⟨token, more, rfl, -⟩ := starts
      simp [hasNext]
    simpa using reads_declarations hasNext_looksAhead goesOn (by simp [hasNext]) (stops_nil _) parts
      (fun part member => (each part member).startsWith)
      (fun part member => (each part member).complete) fits

end LoxLang.Grammar
