import LoxLang.Proofs.Grammar.Reading

/-!
# How rules treat their tokens

Facts that hold of the ways in which rules are put together, whatever the tokens are. A rule takes
tokens from the front only, so that what it leaves is an end of what it was given, and a rule that
is stopped by a syntax error has reported last what it expected where it was stopped: it is
`Rule.Orderly`. Two orderly rules are `Rule.Refined` if they reply alike wherever the first one does
not run into the limit on nesting; this is how a rule with a smaller limit stands to the same rule
with a larger one.
-/

namespace LoxLang.Grammar

/-- The last report of a reply stays the last one behind earlier reports. -/
theorem Reply.getLast?_after {α : Type} {errors : List SyntaxError} {reply : Reply α}
    {error : SyntaxError} (isLast : reply.errors.getLast? = some error) :
    (reply.after errors).errors.getLast? = some error := by
  rw [Reply.after, List.getLast?_append, isLast, Option.some_or]

namespace Rule

variable {α β : Type}

/-- The rule leaves an end of its tokens, and where it is stopped by a syntax error its last report
is what it expected at the first token that it leaves. -/
structure Orderly (rule : Rule α) : Prop where
  suffix : ∀ (surroundings : Surroundings) (tokens : List Token),
    (rule surroundings tokens).rest <:+ tokens
  stopsThere : ∀ (surroundings : Surroundings) (tokens : List Token),
    (rule surroundings tokens).result = .error .syntaxError →
      ∃ missing, (rule surroundings tokens).errors.getLast? =
        some (.atNext (.expected missing) (rule surroundings tokens).rest surroundings.endLine)

/-- The rule is not stopped by a syntax error in silence. -/
theorem Orderly.reported {rule : Rule α} (orderly : Orderly rule) (surroundings : Surroundings)
    (tokens : List Token) (stopped : (rule surroundings tokens).result = .error .syntaxError) :
    (rule surroundings tokens).errors ≠ [] := by
  obtain ⟨missing, isLast⟩ := orderly.stopsThere surroundings tokens stopped
  exact List.ne_nil_of_mem (List.mem_of_getLast? isLast)

/-- An orderly rule leaves at most as many tokens as it was given. -/
theorem Orderly.length_le {rule : Rule α} (orderly : Orderly rule) (surroundings : Surroundings)
    (tokens : List Token) : (rule surroundings tokens).rest.length ≤ tokens.length :=
  (orderly.suffix surroundings tokens).length_le

namespace Orderly

/-- A rule that only gives a value leaves all tokens and is never stopped. -/
protected theorem pure (value : α) : Orderly (pure value : Rule α) where
  suffix _ _ := List.suffix_rfl
  stopsThere _ _ stopped := nomatch stopped

/-- Orderly rules one after the other are orderly: what the second leaves is an end of what the
first left, and its last report stays last. -/
protected theorem bind {first : Rule α} {second : α → Rule β} (orderlyFirst : Orderly first)
    (orderlySecond : ∀ value, Orderly (second value)) : Orderly (first >>= second) where
  suffix surroundings tokens := by
    have taken := orderlyFirst.suffix surroundings tokens
    rw [bind_eq]
    cases (first surroundings tokens).result with
    | error stop => exact taken
    | ok value => exact ((orderlySecond value).suffix surroundings _).trans taken
  stopsThere surroundings tokens := by
    have stopsThere := orderlyFirst.stopsThere surroundings tokens
    rw [bind_eq]
    cases result : (first surroundings tokens).result with
    | error stop =>
      rintro stopped
      simp only [Except.error.injEq] at stopped
      exact stopsThere (by rw [result, stopped])
    | ok value =>
      intro stopped
      obtain ⟨missing, isLast⟩ := (orderlySecond value).stopsThere surroundings _ stopped
      exact ⟨missing, Reply.getLast?_after isLast⟩

/-- What is done to the value of a rule does not touch its tokens. -/
protected theorem map {change : α → β} {rule : Rule α} (orderly : Orderly rule) :
    Orderly (change <$> rule) :=
  orderly.bind fun _ => .pure _

/-- To look at the next token takes nothing. -/
protected theorem next : Orderly next where
  suffix _ _ := List.suffix_rfl
  stopsThere _ _ stopped := nomatch stopped

/-- To skip a token leaves the tokens behind it. -/
protected theorem skip : Orderly skip where
  suffix _ tokens := List.tail_suffix tokens
  stopsThere _ _ stopped := nomatch stopped

/-- To ask for the kind of the next token takes nothing. -/
protected theorem nextIs (kind : TokenKind) : Orderly (nextIs kind) where
  suffix _ _ := List.suffix_rfl
  stopsThere _ _ stopped := nomatch stopped

/-- What is accepted is the first token or nothing, and to accept nothing is no error. -/
protected theorem accept (kinds : List TokenKind) : Orderly (accept kinds) where
  suffix _ tokens := by
    unfold accept
    split
    · split
      · exact List.suffix_cons _ _
      · exact List.suffix_rfl
    · exact List.suffix_rfl
  stopsThere _ tokens := by
    unfold accept
    split
    · split <;> nofun
    · nofun

/-- A report at a token takes nothing and stops nothing. -/
protected theorem reportAt (token : Token) (problem : Problem) :
    Orderly (reportAt token problem) where
  suffix _ _ := List.suffix_rfl
  stopsThere _ _ stopped := nomatch stopped

/-- A report at the next token takes nothing and stops nothing. -/
protected theorem reportNext (problem : Problem) : Orderly (reportNext problem) where
  suffix _ _ := List.suffix_rfl
  stopsThere _ _ stopped := nomatch stopped

/-- To fail is to report what was expected at the next token, and to be stopped there. -/
protected theorem fail (missing : Expected) : Orderly (fail missing : Rule α) where
  suffix _ _ := List.suffix_rfl
  stopsThere _ _ _ := ⟨missing, rfl⟩

/-- To run into the limit takes nothing, and it is not a syntax error. -/
protected theorem tooDeep : Orderly (tooDeep : Rule α) where
  suffix _ _ := List.suffix_rfl
  stopsThere _ _ stopped := nomatch stopped

/-- An expected token is taken, or reported where it is missing. -/
protected theorem expect (kind : TokenKind) (missing : Expected) :
    Orderly (expect kind missing) := by
  refine (Orderly.accept _).bind fun found => ?_
  cases found with
  | none => exact .fail missing
  | some token => exact .pure token

/-- To ask whether a function is around takes nothing. -/
protected theorem inFunction : Orderly inFunction where
  suffix _ _ := List.suffix_rfl
  stopsThere _ _ stopped := nomatch stopped

/-- A rule is as orderly within a function as outside of one. -/
protected theorem withinFunction {rule : Rule α} (orderly : Orderly rule) :
    Orderly (withinFunction rule) where
  suffix _ tokens := orderly.suffix _ tokens
  stopsThere _ tokens := orderly.stopsThere _ tokens

/-- A repetition of orderly steps is orderly, since each turn is given what the one before left. -/
protected theorem repeated {step : α → Rule (Option α)} (steady : Steady step)
    (orderly : ∀ value, Orderly (step value)) (value : α) : Orderly (repeated value step) := by
  suffices both : ∀ (surroundings : Surroundings) (count : Nat) (tokens : List Token) (value : α),
      tokens.length ≤ count →
        (repeated value step surroundings tokens).rest <:+ tokens ∧
        ((repeated value step surroundings tokens).result = .error .syntaxError →
          ∃ missing, (repeated value step surroundings tokens).errors.getLast? =
            some (.atNext (.expected missing) (repeated value step surroundings tokens).rest
              surroundings.endLine)) by
    exact ⟨fun surroundings tokens => (both surroundings _ tokens value (Nat.le_refl _)).1,
      fun surroundings tokens => (both surroundings _ tokens value (Nat.le_refl _)).2⟩
  intro surroundings count
  -- The induction is on the number of tokens, which every further turn makes smaller.
  induction count with
  | zero =>
    intro tokens value enough
    obtain rfl : tokens = [] := List.length_eq_zero_iff.mp (Nat.le_zero.mp enough)
    rw [repeated_eq steady, bind_eq, steady.idle]
    exact ⟨List.suffix_rfl, nofun⟩
  | succ count inductionHypothesis =>
    intro tokens value enough
    have taken := (orderly value).suffix surroundings tokens
    have stopsThere := (orderly value).stopsThere surroundings tokens
    rw [repeated_eq steady, bind_eq]
    cases result : (step value surroundings tokens).result with
    | error stop =>
      refine ⟨taken, fun stopped => stopsThere ?_⟩
      rw [result]
      exact congrArg Except.error (Except.error.inj stopped)
    | ok found =>
      cases found with
      | none => exact ⟨taken, nofun⟩
      | some further =>
        have shorter := steady.takes result
        obtain ⟨suffix, furtherStops⟩ := inductionHypothesis
          (step value surroundings tokens).rest further (by omega)
        refine ⟨suffix.trans taken, fun stopped => ?_⟩
        obtain ⟨missing, isLast⟩ := furtherStops stopped
        exact ⟨missing, Reply.getLast?_after isLast⟩

end Orderly

/-- The rule takes at least one token for each phrase. -/
def Takes (rule : Rule α) : Prop :=
  ∀ (surroundings : Surroundings) (tokens : List Token) (value : α),
    (rule surroundings tokens).result = .ok value →
      (rule surroundings tokens).rest.length < tokens.length

/-- Two rules take a token if the first one does. -/
theorem takes_bind_left {first : Rule α} {second : α → Rule β} (takes : Takes first)
    (orderly : ∀ value, Orderly (second value)) : Takes (first >>= second) := by
  intro surroundings tokens value
  rw [bind_eq]
  cases result : (first surroundings tokens).result with
  | error stop => nofun
  | ok between =>
    intro _
    exact Nat.lt_of_le_of_lt ((orderly between).length_le surroundings _) (takes _ _ _ result)

/-- Two rules take a token if the second one does, since the first gives none back. -/
theorem takes_bind_right {first : Rule α} {second : α → Rule β} (orderly : Orderly first)
    (takes : ∀ value, Takes (second value)) : Takes (first >>= second) := by
  intro surroundings tokens value
  rw [bind_eq]
  cases (first surroundings tokens).result with
  | error stop => nofun
  | ok between =>
    intro isOk
    exact Nat.lt_of_lt_of_le (takes between _ _ _ isOk) (orderly.length_le surroundings tokens)

/-- A rule that looks for a token of some kinds takes one if it does so without such a token. -/
theorem takes_accept {kinds : List TokenKind} {next : Option Token → Rule α}
    (takes : Takes (next none)) (orderly : ∀ token, Orderly (next (some token))) :
    Takes (accept kinds >>= next) := by
  intro surroundings tokens value
  rw [bind_eq]
  cases tokens with
  | nil => exact takes surroundings [] value
  | cons token tokens =>
    by_cases member : token.kind ∈ kinds
    · intro _
      have taken := (orderly token).length_le surroundings tokens
      simp only [accept, member, if_true]
      exact Nat.lt_succ_of_le taken
    · simp only [accept, member, if_false]
      exact takes surroundings (token :: tokens) value

/-- An expected token is taken. -/
theorem takes_expect (kind : TokenKind) (missing : Expected) : Takes (expect kind missing) :=
  takes_accept (fun _ _ _ isOk => nomatch isOk) fun _ => .pure _

/-- A step that begins by taking a token of some kinds is steady. -/
theorem steady_accept {kinds : List TokenKind} {step : α → Token → Rule (Option α)}
    (orderly : ∀ value token, Orderly (step value token)) :
    Steady fun value => do
      match ← accept kinds with
      | none => return none
      | some token => step value token where
  takes {value further surroundings tokens} := by
    rw [bind_eq]
    cases tokens with
    | nil => nofun
    | cons token tokens =>
      by_cases member : token.kind ∈ kinds
      · intro _
        have taken := (orderly value token).length_le surroundings tokens
        simp only [accept, member, if_true]
        exact Nat.lt_succ_of_le taken
      · intro isTaken
        simp only [accept, member, if_false] at isTaken
        cases isTaken
  idle _ _ := rfl

end Rule

/-- The limit on nesting was reached: it stopped the rule, or it has been reported. -/
def Reply.IsDeep {α : Type} (reply : Reply α) : Prop :=
  reply.result = .error .tooDeep ∨ ∃ error ∈ reply.errors, error.problem = .tooMuchNesting

/-- A reply that reached the limit did so behind earlier reports, too. -/
theorem Reply.IsDeep.after {α : Type} {reply : Reply α} (isDeep : reply.IsDeep)
    (errors : List SyntaxError) : (reply.after errors).IsDeep := by
  obtain stopped | ⟨error, member, isNesting⟩ := isDeep
  · exact .inl stopped
  · exact .inr ⟨error, List.mem_append_right _ member, isNesting⟩

namespace Rule

variable {α β : Type}

/-- Both rules are orderly, and they reply alike wherever the first does not reach the limit. -/
structure Refined (small large : Rule α) : Prop where
  orderly : Orderly small
  orderlyLarge : Orderly large
  agree : ∀ (surroundings : Surroundings) (tokens : List Token),
    (small surroundings tokens).IsDeep ∨ small surroundings tokens = large surroundings tokens

/-- An orderly rule refines itself. -/
theorem Orderly.refined {rule : Rule α} (orderly : Orderly rule) : Refined rule rule :=
  ⟨orderly, orderly, fun _ _ => .inr rfl⟩

namespace Refined

/-- Where the first rule does not reach the limit, neither does the second, so that the third
replies as the first. -/
protected theorem trans {first second third : Rule α} (earlier : Refined first second)
    (later : Refined second third) : Refined first third where
  orderly := earlier.orderly
  orderlyLarge := later.orderlyLarge
  agree surroundings tokens := by
    rcases earlier.agree surroundings tokens with isDeep | same
    · exact .inl isDeep
    · rw [same]
      exact later.agree surroundings tokens

/-- Every orderly rule refines the one that always reaches the limit. -/
protected theorem tooDeep {large : Rule α} (orderly : Orderly large) : Refined tooDeep large :=
  ⟨.tooDeep, orderly, fun _ _ => .inl (.inl rfl)⟩

/-- Agreement of two sequences, of which the second parts need to agree only where they are run. -/
private theorem agree_bind {small large : Rule α} {smallNext largeNext : α → Rule β}
    {surroundings : Surroundings} {tokens : List Token}
    (agree : (small surroundings tokens).IsDeep ∨
      small surroundings tokens = large surroundings tokens)
    (agreeNext : ∀ value, (small surroundings tokens).result = .ok value →
      (smallNext value surroundings (small surroundings tokens).rest).IsDeep ∨
      smallNext value surroundings (small surroundings tokens).rest =
        largeNext value surroundings (small surroundings tokens).rest) :
    ((small >>= smallNext) surroundings tokens).IsDeep ∨
      (small >>= smallNext) surroundings tokens = (large >>= largeNext) surroundings tokens := by
  rw [bind_eq, bind_eq]
  rcases agree with (stopped | ⟨error, member, isNesting⟩) | same
  · rw [stopped]
    exact .inl (.inl rfl)
  · left
    cases (small surroundings tokens).result with
    | error stop => exact .inr ⟨error, member, isNesting⟩
    | ok value => exact .inr ⟨error, List.mem_append_left _ member, isNesting⟩
  · rw [← same]
    cases result : (small surroundings tokens).result with
    | error stop => exact .inr rfl
    | ok value =>
      rcases agreeNext value result with isDeep | sameNext
      · exact .inl (isDeep.after _)
      · exact .inr (congrArg (Reply.after _) sameNext)

/-- Rules one after the other are refined in both places, since a limit that either reaches is
reached by both together. -/
protected theorem bind {small large : Rule α} {smallNext largeNext : α → Rule β}
    (refined : Refined small large)
    (refinedNext : ∀ value, Refined (smallNext value) (largeNext value)) :
    Refined (small >>= smallNext) (large >>= largeNext) where
  orderly := refined.orderly.bind fun value => (refinedNext value).orderly
  orderlyLarge := refined.orderlyLarge.bind fun value => (refinedNext value).orderlyLarge
  agree surroundings tokens := agree_bind (refined.agree surroundings tokens)
    fun value _ => (refinedNext value).agree surroundings _

/-- What is done to the value of a rule does not matter for refining it. -/
protected theorem map {small large : Rule α} {change : α → β} (refined : Refined small large) :
    Refined (change <$> small) (change <$> large) :=
  refined.bind fun _ => (Orderly.pure _).refined

/-- Both branches of a choice that does not depend on the tokens may be refined. -/
protected theorem ite {condition : Prop} [Decidable condition] {small large small' large' : Rule α}
    (refined : Refined small large) (refined' : Refined small' large') :
    Refined (if condition then small else small') (if condition then large else large') := by
  split
  · exact refined
  · exact refined'

/-- A rule is refined within a function as outside of one. -/
protected theorem withinFunction {small large : Rule α} (refined : Refined small large) :
    Refined (withinFunction small) (withinFunction large) :=
  ⟨refined.orderly.withinFunction, refined.orderlyLarge.withinFunction,
    fun _ tokens => refined.agree _ tokens⟩

/-- A repetition is refined by refining its step. Both steps have to be steady, as only these repeat
until they stop by themselves. -/
protected theorem repeated {small large : α → Rule (Option α)} (steadySmall : Steady small)
    (steadyLarge : Steady large) (refined : ∀ value, Refined (small value) (large value))
    (value : α) : Refined (repeated value small) (repeated value large) where
  orderly := .repeated steadySmall (fun value => (refined value).orderly) value
  orderlyLarge := .repeated steadyLarge (fun value => (refined value).orderlyLarge) value
  agree surroundings tokens := by
    generalize bound : tokens.length = count
    induction count using Nat.strongRecOn generalizing value tokens with
    | _ count inductionHypothesis =>
      rw [repeated_eq steadySmall, repeated_eq steadyLarge]
      refine agree_bind ((refined value).agree surroundings tokens) fun found result => ?_
      cases found with
      | none => exact .inr rfl
      | some further =>
        have shorter := steadySmall.takes result
        exact inductionHypothesis _ (by omega) further _ rfl

end Refined
end Rule
end LoxLang.Grammar
