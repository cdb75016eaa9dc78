import LoxLang.Grammar.Rule

/-!
# Readings of rules

`Rule.Reads` says that a rule reads a phrase and reports nothing. Each rule that other rules are
built of has one lemma that says exactly when it reads what; proofs about larger rules use these
lemmas and open no definition.

A repeated step is described by `Rule.repeated_eq`, without the tokens that bound the repetition,
as soon as the step is `Steady`.
-/

namespace LoxLang.Grammar

/-- The next token, if there is one, is of none of the given kinds. -/
def Stops (kinds : List TokenKind) (tokens : List Token) : Prop :=
  ∀ token ∈ tokens.head?, token.kind ∉ kinds

/-- Where no token is left, none is of the kinds. -/
@[simp] theorem stops_nil (kinds : List TokenKind) : Stops kinds [] := by
  simp [Stops]

/-- The next token is the first one. -/
@[simp] theorem stops_cons {kinds : List TokenKind} {token : Token} {tokens : List Token} :
    Stops kinds (token :: tokens) ↔ token.kind ∉ kinds := by
  simp [Stops]

/-- What is of none of the kinds is of none of fewer kinds. -/
theorem Stops.mono {fewer kinds : List TokenKind} {tokens : List Token}
    (stops : Stops kinds tokens) (subset : fewer ⊆ kinds) : Stops fewer tokens :=
  fun token isNext member => stops token isNext (subset member)

/-- The reply with errors in front of its own. -/
def Reply.after {α : Type} (errors : List SyntaxError) (reply : Reply α) : Reply α :=
  ⟨errors ++ reply.errors, reply.rest, reply.result⟩

namespace Rule

variable {α β : Type}

/-- Nothing in front of a reply changes nothing. -/
@[simp] theorem after_nil (reply : Reply α) : reply.after [] = reply := rfl

/-- Earlier errors stand in front of later ones. -/
@[simp] theorem after_after (earlier later : List SyntaxError) (reply : Reply α) :
    (reply.after later).after earlier = reply.after (earlier ++ later) := by
  simp [Reply.after]

/-- The second rule goes on where the first one stopped, and its errors come behind those of the
first. -/
theorem bind_eq (first : Rule α) (second : α → Rule β) (surroundings : Surroundings)
    (tokens : List Token) :
    (first >>= second) surroundings tokens =
      match (first surroundings tokens).result with
      | .error stop =>
        ⟨(first surroundings tokens).errors, (first surroundings tokens).rest, .error stop⟩
      | .ok value =>
        (second value surroundings (first surroundings tokens).rest).after
          (first surroundings tokens).errors := rfl

/-- A step takes a token whenever it gives a further value, and it neither gives one nor reports
anything where no token is left. -/
structure Steady (step : α → Rule (Option α)) : Prop where
  takes : ∀ {value further : α} {surroundings : Surroundings} {tokens : List Token},
    (step value surroundings tokens).result = .ok (some further) →
      (step value surroundings tokens).rest.length < tokens.length
  idle : ∀ (value : α) (surroundings : Surroundings),
    step value surroundings [] = ⟨[], [], .ok none⟩

section Repetition

variable {step : α → Rule (Option α)}

/-- The errors that a repetition is begun with stand in front of those of its turns. -/
private theorem iterate_after (surroundings : Surroundings) (budget : List Token)
    (before : List SyntaxError) (value : α) (tokens : List Token) :
    iterate step surroundings budget before value tokens =
      (iterate step surroundings budget [] value tokens).after before.reverse := by
  induction budget generalizing before value tokens with
  | nil => simp [iterate, Reply.after]
  | cons token budget inductionHypothesis =>
    simp only [iterate]
    split
    · simp [Reply.after]
    · simp [Reply.after]
    · rw [inductionHypothesis, inductionHypothesis (_ ++ [])]
      simp

/-- Any budget as long as the tokens is enough, and no longer one gives anything else. -/
private theorem iterate_budget (steady : Steady step) (surroundings : Surroundings)
    (value : α) {tokens budget : List Token} (enough : tokens.length ≤ budget.length) :
    iterate step surroundings budget [] value tokens = repeated value step surroundings tokens := by
  unfold repeated
  suffices general : ∀ other : List Token, tokens.length ≤ other.length →
      iterate step surroundings budget [] value tokens =
        iterate step surroundings other [] value tokens from general tokens (Nat.le_refl _)
  induction budget generalizing value tokens with
  | nil =>
    intro other _
    obtain rfl : tokens = [] := List.length_eq_zero_iff.mp (Nat.le_zero.mp enough)
    cases other <;> simp [iterate, steady.idle]
  | cons token budget inductionHypothesis =>
    intro other enoughToo
    cases other with
    | nil =>
      obtain rfl : tokens = [] := List.length_eq_zero_iff.mp (Nat.le_zero.mp enoughToo)
      simp [iterate, steady.idle]
    | cons token' other =>
      simp only [iterate]
      split
      · rfl
      · rfl
      next further isFurther =>
        have shorter := steady.takes isFurther
        simp only [List.length_cons] at enough enoughToo
        rw [iterate_after, iterate_after surroundings other,
          inductionHypothesis further (by omega) other (by omega)]

/-- A repetition is its first step and, if that gives a further value, the repetition from there. -/
theorem repeated_eq (steady : Steady step) (value : α) :
    repeated value step = (do
      match ← step value with
      | none => return value
      | some further => repeated further step) := by
  funext surroundings tokens
  rw [bind_eq]
  cases tokens with
  | nil =>
    rw [steady.idle]
    rfl
  | cons token tokens =>
    simp only [repeated, iterate]
    split
    next isError => simp [isError]
    next isDone =>
      simp only [isDone]
      simp [Reply.after, pure, Rule.pure]
    next further isFurther =>
      have shorter := steady.takes isFurther
      simp only [List.length_cons] at shorter
      simp only [isFurther]
      rw [iterate_after, iterate_budget steady surroundings further (by omega)]
      simp [repeated]

end Repetition

/-- The rule reads this value from the front of the tokens, leaves the rest, and reports nothing. -/
def Reads (rule : Rule α) (surroundings : Surroundings) (tokens : List Token) (value : α)
    (rest : List Token) : Prop :=
  rule surroundings tokens = ⟨[], rest, .ok value⟩

section Reads

variable {surroundings : Surroundings} {tokens rest : List Token} {kinds : List TokenKind}

/-- A rule that only gives a value reads nothing. -/
@[simp] theorem reads_pure {value found : α} :
    Reads (pure value) surroundings tokens found rest ↔ found = value ∧ rest = tokens := by
  simp only [Reads, pure, Rule.pure, Reply.mk.injEq, Except.ok.injEq, true_and]
  exact ⟨fun ⟨sameRest, same⟩ => ⟨same.symm, sameRest.symm⟩,
    fun ⟨same, sameRest⟩ => ⟨sameRest.symm, same.symm⟩⟩

/-- Two rules read a phrase if the first reads the beginning of it and the second reads the
remainder. -/
@[simp] theorem reads_bind {first : Rule α} {second : α → Rule β} {value : β} :
    Reads (first >>= second) surroundings tokens value rest ↔
      ∃ between middle, Reads first surroundings tokens between middle ∧
        Reads (second between) surroundings middle value rest := by
  unfold Reads
  rw [bind_eq]
  obtain ⟨errors, left, result⟩ := first surroundings tokens
  cases result with
  | error stop => simp
  | ok between =>
    constructor
    · intro reads
      simp only [Reply.after, Reply.mk.injEq, List.append_eq_nil_iff] at reads
      obtain ⟨⟨noError, noFurther⟩, sameRest, sameResult⟩ := reads
      refine ⟨between, left, by rw [noError], ?_⟩
      rw [← noFurther, ← sameRest, ← sameResult]
    · rintro ⟨_, _, first, reads⟩
      simp only [Reply.mk.injEq, Except.ok.injEq] at first
      obtain ⟨rfl, rfl, rfl⟩ := first
      simp [reads, Reply.after]

/-- What is done to the value of a rule does not change what it reads. -/
@[simp] theorem reads_map {change : α → β} {rule : Rule α} {value : β} :
    Reads (change <$> rule) surroundings tokens value rest ↔
      ∃ found, Reads rule surroundings tokens found rest ∧ value = change found := by
  change Reads (rule >>= fun found => pure (change found)) surroundings tokens value rest ↔ _
  simp only [reads_bind, reads_pure]
  constructor
  · rintro ⟨found, _, reads, rfl, rfl⟩
    exact ⟨found, reads, rfl⟩
  · rintro ⟨found, reads, rfl⟩
    exact ⟨found, rest, reads, rfl, rfl⟩

/-- The next token is read without taking it. -/
@[simp] theorem reads_next {found : Option Token} :
    Reads next surroundings tokens found rest ↔ found = tokens.head? ∧ rest = tokens := by
  simp [Reads, next, and_comm, eq_comm]

/-- A skipped token is no part of what is left. -/
@[simp] theorem reads_skip {found : Unit} :
    Reads skip surroundings tokens found rest ↔ rest = tokens.tail := by
  simp [Reads, skip, eq_comm]

/-- Whether the next token is of a kind is found without taking it. -/
@[simp] theorem reads_nextIs {kind : TokenKind} {found : Bool} :
    Reads (nextIs kind) surroundings tokens found rest ↔
      found = tokens.head?.any (·.kind = kind) ∧ rest = tokens := by
  simp [Reads, nextIs, and_comm, eq_comm]

/-- A token is accepted if it is the first one and of one of the kinds. -/
@[simp] theorem reads_accept_some {token : Token} :
    Reads (accept kinds) surroundings tokens (some token) rest ↔
      tokens = token :: rest ∧ token.kind ∈ kinds := by
  cases tokens with
  | nil => simp [Reads, accept]
  | cons first tokens =>
    by_cases member : first.kind ∈ kinds
    · simp only [Reads, accept, member, if_true, Reply.mk.injEq, Except.ok.injEq,
        Option.some.injEq, List.cons.injEq, true_and]
      constructor
      · rintro ⟨rfl, rfl⟩
        exact ⟨⟨rfl, rfl⟩, member⟩
      · rintro ⟨⟨rfl, rfl⟩, -⟩
        exact ⟨rfl, rfl⟩
    · simp only [Reads, accept, member, if_false]
      grind

/-- Nothing is accepted if the next token is of none of the kinds. -/
@[simp] theorem reads_accept_none :
    Reads (accept kinds) surroundings tokens none rest ↔ Stops kinds tokens ∧ rest = tokens := by
  cases tokens with
  | nil => simp [Reads, accept, eq_comm]
  | cons first tokens =>
    by_cases member : first.kind ∈ kinds <;> simp [Reads, accept, member, eq_comm]

/-- To fail is to report something, which reading excludes. -/
@[simp] theorem not_reads_fail {missing : Expected} {value : α} :
    ¬ Reads (fail missing) surroundings tokens value rest := by
  simp [Reads, fail]

/-- What runs into the limit reads nothing. -/
@[simp] theorem not_reads_tooDeep {value : α} :
    ¬ Reads tooDeep surroundings tokens value rest := by
  simp [Reads, tooDeep]

/-- A report at a token is an error, which reading excludes. -/
@[simp] theorem not_reads_reportAt {token : Token} {problem : Problem} {value : Unit} :
    ¬ Reads (reportAt token problem) surroundings tokens value rest := by
  simp [Reads, reportAt]

/-- A report at the next token is an error, which reading excludes. -/
@[simp] theorem not_reads_reportNext {problem : Problem} {value : Unit} :
    ¬ Reads (reportNext problem) surroundings tokens value rest := by
  simp [Reads, reportNext]

/-- An expected token is read if it is the first one and of the kind. -/
@[simp] theorem reads_expect {kind : TokenKind} {missing : Expected} {token : Token} :
    Reads (expect kind missing) surroundings tokens token rest ↔
      tokens = token :: rest ∧ token.kind = kind := by
  simp only [expect, reads_bind]
  constructor
  · rintro ⟨found, middle, accepted, reads⟩
    cases found with
    | none => simp at reads
    | some first =>
      simp only [reads_pure] at reads
      obtain ⟨rfl, rfl⟩ := reads
      simpa using accepted
  · rintro ⟨rfl, isKind⟩
    exact ⟨some token, rest, by simp [isKind], by simp⟩

/-- Whether a function is around is known without reading. -/
@[simp] theorem reads_inFunction {found : Bool} :
    Reads inFunction surroundings tokens found rest ↔
      found = surroundings.inFunction ∧ rest = tokens := by
  simp [Reads, inFunction, and_comm, eq_comm]

/-- Within a function is read what the rule reads with a function around it. -/
@[simp] theorem reads_withinFunction {rule : Rule α} {value : α} :
    Reads (withinFunction rule) surroundings tokens value rest ↔
      Reads rule { surroundings with inFunction := true } tokens value rest := Iff.rfl

/-- How a steady repetition reads: its first step gives nothing, or a value to go on from. -/
theorem reads_repeated {step : α → Rule (Option α)} (steady : Steady step) {value found : α} :
    Reads (repeated value step) surroundings tokens found rest ↔
      (Reads (step value) surroundings tokens none rest ∧ found = value) ∨
      ∃ further middle, Reads (step value) surroundings tokens (some further) middle ∧
        Reads (repeated further step) surroundings middle found rest := by
  rw [repeated_eq steady, reads_bind]
  constructor
  · rintro ⟨next, middle, first, second⟩
    cases next with
    | none =>
      obtain ⟨rfl, rfl⟩ := reads_pure.mp second
      exact .inl ⟨first, rfl⟩
    | some further => exact .inr ⟨further, middle, first, second⟩
  · rintro (⟨first, rfl⟩ | ⟨further, middle, first, second⟩)
    · exact ⟨none, rest, first, reads_pure.mpr ⟨rfl, rfl⟩⟩
    · exact ⟨some further, middle, first, second⟩

/-- A phrase that is left out where its closing token stands. -/
def unlessNext (closing : TokenKind) (absent : α) (present : Rule α) : Rule α := do
  if ← nextIs closing then pure absent else present

/-- Something that may be absent is read by the rule for it, unless the closing token is next. -/
theorem reads_unlessNext {closing : TokenKind} {absent : α} {present : Rule α} {value : α} :
    Reads (unlessNext closing absent present) surroundings tokens value rest ↔
      (tokens.head?.any (·.kind = closing) = true ∧ value = absent ∧ rest = tokens) ∨
      (tokens.head?.any (·.kind = closing) = false ∧
        Reads present surroundings tokens value rest) := by
  unfold unlessNext
  rw [reads_bind]
  constructor
  · rintro ⟨closes, middle, readsNext, reads⟩
    obtain ⟨rfl, rfl⟩ := reads_nextIs.mp readsNext
    split at reads
    next isClosing => exact .inl ⟨isClosing, reads_pure.mp reads⟩
    next isOther => exact .inr ⟨Bool.eq_false_iff.mpr isOther, reads⟩
  · rintro (⟨isClosing, isAbsent⟩ | ⟨isOther, reads⟩)
    · refine ⟨true, tokens, reads_nextIs.mpr ⟨isClosing.symm, rfl⟩, reads_pure.mpr isAbsent⟩
    · exact ⟨false, tokens, reads_nextIs.mpr ⟨isOther.symm, rfl⟩, reads⟩

/-- A rule in the form in which it is written, with something that may be absent in front. -/
theorem reads_unlessNext_bind {closing : TokenKind} {absent : α} {present : Rule α}
    {next : α → Rule β} {value : β} :
    Reads
      (do
        let found ← if ← nextIs closing then pure absent else present
        next found)
      surroundings tokens value rest ↔
      ∃ found middle, Reads (unlessNext closing absent present) surroundings tokens found middle ∧
        Reads (next found) surroundings middle value rest := by
  unfold unlessNext
  simp only [reads_bind]
  constructor
  · rintro ⟨closes, middle, readsNext, reads⟩
    cases closes with
    | true =>
      obtain ⟨found, last, readsFound, reads⟩ := reads_bind.mp reads
      exact ⟨found, last, ⟨true, middle, readsNext, readsFound⟩, reads⟩
    | false =>
      obtain ⟨found, last, readsFound, reads⟩ := reads_bind.mp reads
      exact ⟨found, last, ⟨false, middle, readsNext, readsFound⟩, reads⟩
  · rintro ⟨found, last, ⟨closes, middle, readsNext, readsFound⟩, reads⟩
    refine ⟨closes, middle, readsNext, ?_⟩
    cases closes with
    | true => exact reads_bind.mpr ⟨found, last, readsFound, reads⟩
    | false => exact reads_bind.mpr ⟨found, last, readsFound, reads⟩

/-- A phrase that follows a token of some kinds and is left out without such a token. -/
def whenNext (kinds : List TokenKind) (rule : Rule α) : Rule (Option α) := do
  match ← accept kinds with
  | some _ => some <$> rule
  | none => pure none

/-- Something that stands behind a token of some kinds is absent if the next token is none of them.
-/
@[simp] theorem reads_whenNext_none {rule : Rule α} :
    Reads (whenNext kinds rule) surroundings tokens none rest ↔
      Stops kinds tokens ∧ rest = tokens := by
  unfold whenNext
  rw [reads_bind]
  constructor
  · rintro ⟨accepted, middle, readsToken, reads⟩
    cases accepted with
    | some token => simp at reads
    | none =>
      obtain ⟨-, rfl⟩ := reads_pure.mp reads
      exact reads_accept_none.mp readsToken
  · rintro ⟨stops, rfl⟩
    exact ⟨none, rest, reads_accept_none.mpr ⟨stops, rfl⟩, reads_pure.mpr ⟨rfl, rfl⟩⟩

/-- Something that stands behind a token of some kinds is read behind that token. -/
@[simp] theorem reads_whenNext_some {rule : Rule α} {value : α} :
    Reads (whenNext kinds rule) surroundings tokens (some value) rest ↔
      ∃ token left, tokens = token :: left ∧ token.kind ∈ kinds ∧
        Reads rule surroundings left value rest := by
  unfold whenNext
  rw [reads_bind]
  constructor
  · rintro ⟨accepted, middle, readsToken, reads⟩
    cases accepted with
    | none => simp at reads
    | some token =>
      obtain ⟨found, reads, isValue⟩ := reads_map.mp reads
      obtain rfl := Option.some.inj isValue
      obtain ⟨rfl, isKind⟩ := reads_accept_some.mp readsToken
      exact ⟨token, middle, rfl, isKind, reads⟩
  · rintro ⟨token, left, rfl, isKind, reads⟩
    exact ⟨some token, left, reads_accept_some.mpr ⟨rfl, isKind⟩,
      reads_map.mpr ⟨value, reads, rfl⟩⟩

/-- A rule in the form in which it is written, with something behind a token of some kinds in front.
-/
theorem reads_whenNext_bind {rule : Rule α} {next : Option α → Rule β} {value : β} :
    Reads
      (do
        let found ←
          match ← accept kinds with
          | some _ => some <$> rule
          | none => pure none
        next found)
      surroundings tokens value rest ↔
      ∃ found middle, Reads (whenNext kinds rule) surroundings tokens found middle ∧
        Reads (next found) surroundings middle value rest := by
  unfold whenNext
  simp only [reads_bind]
  constructor
  · rintro ⟨accepted, middle, readsToken, reads⟩
    cases accepted with
    | some token =>
      obtain ⟨found, last, readsFound, reads⟩ := reads_bind.mp reads
      exact ⟨found, last, ⟨some token, middle, readsToken, readsFound⟩, reads⟩
    | none =>
      obtain ⟨found, last, readsFound, reads⟩ := reads_bind.mp reads
      exact ⟨found, last, ⟨none, middle, readsToken, readsFound⟩, reads⟩
  · rintro ⟨found, last, ⟨accepted, middle, readsToken, readsFound⟩, reads⟩
    refine ⟨accepted, middle, readsToken, ?_⟩
    cases accepted with
    | some token => exact reads_bind.mpr ⟨found, last, readsFound, reads⟩
    | none => exact reads_bind.mpr ⟨found, last, readsFound, reads⟩

end Reads
end Rule
end LoxLang.Grammar
