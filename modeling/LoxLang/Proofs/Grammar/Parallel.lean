import LoxLang.Proofs.Grammar.Nesting
import LoxLang.Proofs.Syntax.Pairing

/-!
# Rules on two lists of tokens

A rule is given two lists: some tokens, and tokens that stand for them with further ones behind. It
replies to both alike, and leaves what stands behind alone, wherever its reply to the first does not
depend on the end of the tokens: if it left a token, if nothing stands behind, or if it found a
phrase that what stands behind cannot go on. `Rule.Parallel` says so of a rule, and the ways in
which rules are put together keep it.
-/

namespace LoxLang.Grammar

open Rule

/-- How a second list of tokens is read beside a first one. -/
structure Companion where
  /-- Which tokens of the second list stand for those of the first. -/
  pairing : Pairing
  /-- What stands behind those tokens. -/
  behind : List Token
  endLine : Int
  otherLine : Int

/-- Two rules ended in the same way, with good phrases if they found any. -/
inductive SameResult {α β : Type} (good : α → β → Prop) : Except Stop α → Except Stop β → Prop where
  | ok {value : α} {other : β} (isGood : good value other) : SameResult good (.ok value) (.ok other)
  | error (stop : Stop) : SameResult good (.error stop) (.error stop)

namespace Companion

variable {α β : Type} (companion : Companion)

/-- The second list holds the tokens that stand for the first, and those behind them. -/
def Extends (tokens others : List Token) : Prop :=
  ∃ front, List.Forall₂ companion.pairing.Pairs tokens front ∧ others = front ++ companion.behind

/-- Nothing stands behind, and both texts end alike. -/
def EndsAlike : Prop :=
  companion.behind = [] ∧
    companion.pairing.Pairs (.endOfText companion.endLine) (.endOfText companion.otherLine)

/-- Nothing that stands behind can change the reply. -/
def Settles (follow : Prop) (reply : Reply α) : Prop :=
  reply.rest ≠ [] ∨ companion.EndsAlike ∨ (follow ∧ ∃ value, reply.result = .ok value)

/-- The replies report the same, leave the same and found the same. -/
structure Replies (good : α → β → Prop) (reply : Reply α) (other : Reply β) : Prop where
  errors : List.Forall₂ companion.pairing.OnError reply.errors other.errors
  rest : companion.Extends reply.rest other.rest
  result : SameResult good reply.result other.result

variable {companion}

/-- Behind no tokens stands only what stands behind. -/
theorem extends_nil {others : List Token} :
    companion.Extends [] others ↔ others = companion.behind := by
  constructor
  · rintro ⟨_, ⟨⟩, rfl⟩
    rfl
  · rintro rfl
    exact ⟨[], .nil, rfl⟩

/-- The companion of a first token stands first. -/
theorem extends_cons {token : Token} {tokens others : List Token} :
    companion.Extends (token :: tokens) others ↔
      ∃ other further, others = other :: further ∧ companion.pairing.Pairs token other ∧
        companion.Extends tokens further := by
  constructor
  · rintro ⟨_, _ | ⟨pairs, all⟩, rfl⟩
    exact ⟨_, _, rfl, pairs, _, all, rfl⟩
  · rintro ⟨other, _, rfl, pairs, front, all, rfl⟩
    exact ⟨other :: front, .cons pairs all, rfl⟩

/-- A problem at the next token is reported alike, if there is a token or both texts end alike. -/
theorem onError_atNext {tokens others : List Token} (extend : companion.Extends tokens others)
    (settled : tokens ≠ [] ∨ companion.EndsAlike) (problem : Problem) :
    companion.pairing.OnError (.atNext problem tokens companion.endLine)
      (.atNext problem others companion.otherLine) := by
  cases tokens with
  | nil =>
    obtain ⟨nothingBehind, endsAlike⟩ := settled.resolve_left (absurd rfl)
    rw [extends_nil.mp extend, nothingBehind]
    exact .atToken problem endsAlike
  | cons token tokens =>
    obtain ⟨other, further, rfl, pairs, -⟩ := extends_cons.mp extend
    exact .atToken problem pairs

/-- A reply that no phrase can settle left a token, or both texts end alike. -/
theorem Settles.weak {reply : Reply α} (settled : companion.Settles False reply) :
    reply.rest ≠ [] ∨ companion.EndsAlike := by
  rcases settled with isLeft | endsAlike | ⟨⟨⟩, -⟩
  · exact .inl isLeft
  · exact .inr endsAlike

/-- Where a settled reply left no token, its companion left none. -/
theorem extends_nil_of_settled {others : List Token} (extend : companion.Extends [] others)
    (settled : ([] : List Token) ≠ [] ∨ companion.EndsAlike) : others = [] :=
  (extends_nil.mp extend).trans (settled.resolve_left (absurd rfl)).1

/-- What is left of the tokens has companions too. -/
theorem Extends.of_suffix {tokens others rest : List Token}
    (extend : companion.Extends tokens others) (suffix : rest <:+ tokens) :
    ∃ further, companion.Extends rest further := by
  obtain ⟨taken, rfl⟩ := suffix
  induction taken generalizing others with
  | nil => exact ⟨others, extend⟩
  | cons token taken inductionHypothesis =>
    obtain ⟨other, further, -, -, extend⟩ := extends_cons.mp extend
    exact inductionHypothesis extend

end Companion

namespace Rule

open Companion

variable {α β γ δ : Type}

/-- How a reply to tokens and a reply to their companions belong together. -/
structure Beside (companion : Companion) (follow : Prop) (good : α → γ → Prop)
    (tokens : List Token) (reply : Reply α) (other : Reply γ) : Prop where
  /-- What is left is an end of the tokens. -/
  suffix : reply.rest <:+ tokens
  /-- A phrase that was found has a counterpart, though it need not be the one that is found. -/
  counterpart : ∀ value, reply.result = .ok value → ∃ found, good value found
  replies : companion.Settles follow reply → companion.Replies good reply other

/-- The rules reply alike to tokens and to their companions wherever the reply is settled. -/
def Parallel (companion : Companion) (follow : Prop) (good : α → γ → Prop) (rule : Rule α)
    (other : Rule γ) : Prop :=
  ∀ ⦃inFunction : Bool⦄ ⦃tokens others : List Token⦄, companion.Extends tokens others →
    Beside companion follow good tokens (rule ⟨companion.endLine, inFunction⟩ tokens)
      (other ⟨companion.otherLine, inFunction⟩ others)

variable {companion : Companion} {follow : Prop} {good : α → γ → Prop} {fine : β → δ → Prop}

namespace Beside

variable {tokens : List Token} {reply : Reply α} {other : Reply γ}

/-- A reply with a phrase. -/
theorem ofOk {value : α} {found : γ} {errors otherErrors : List SyntaxError}
    {rest otherRest : List Token} (suffix : rest <:+ tokens) (isGood : good value found)
    (replies : companion.Settles follow (⟨errors, rest, .ok value⟩ : Reply α) →
      List.Forall₂ companion.pairing.OnError errors otherErrors ∧
        companion.Extends rest otherRest) :
    Beside companion follow good tokens ⟨errors, rest, .ok value⟩
      ⟨otherErrors, otherRest, .ok found⟩ where
  suffix := suffix
  counterpart := by
    rintro _ ⟨⟩
    exact ⟨found, isGood⟩
  replies settled := ⟨(replies settled).1, (replies settled).2, .ok isGood⟩

/-- A reply without a phrase, which is never settled by what stands behind. -/
theorem ofError {stop : Stop} {errors otherErrors : List SyntaxError}
    {rest otherRest : List Token} (suffix : rest <:+ tokens)
    (replies : rest ≠ [] ∨ companion.EndsAlike →
      List.Forall₂ companion.pairing.OnError errors otherErrors ∧
        companion.Extends rest otherRest) :
    Beside companion follow good tokens ⟨errors, rest, .error stop⟩
      ⟨otherErrors, otherRest, .error stop⟩ where
  suffix := suffix
  counterpart := nofun
  replies settled := by
    have settled : rest ≠ [] ∨ companion.EndsAlike := by
      rcases settled with isLeft | endsAlike | ⟨-, _, ⟨⟩⟩
      · exact .inl isLeft
      · exact .inr endsAlike
    exact ⟨(replies settled).1, (replies settled).2, .error stop⟩

/-- A sequence, if its first part is settled wherever it is settled itself and finds a phrase. -/
private theorem sequence {followFirst : Prop} {inFunction : Bool} {others : List Token}
    {first : Rule α} {firstOther : Rule γ} {second : α → Rule β} {secondOther : γ → Rule δ}
    (extend : companion.Extends tokens others)
    (beside : Beside companion followFirst good tokens
      (first ⟨companion.endLine, inFunction⟩ tokens)
      (firstOther ⟨companion.otherLine, inFunction⟩ others))
    (besideSecond : ∀ {value found further},
      (first ⟨companion.endLine, inFunction⟩ tokens).result = .ok value → good value found →
      companion.Extends (first ⟨companion.endLine, inFunction⟩ tokens).rest further →
      Beside companion follow fine (first ⟨companion.endLine, inFunction⟩ tokens).rest
        (second value ⟨companion.endLine, inFunction⟩
          (first ⟨companion.endLine, inFunction⟩ tokens).rest)
        (secondOther found ⟨companion.otherLine, inFunction⟩ further))
    (settles : ∀ {value found}, (first ⟨companion.endLine, inFunction⟩ tokens).result = .ok value →
      (second value ⟨companion.endLine, inFunction⟩
        (first ⟨companion.endLine, inFunction⟩ tokens).rest).result = .ok found →
      follow → followFirst ∨ (first ⟨companion.endLine, inFunction⟩ tokens).rest ≠ []) :
    Beside companion follow fine tokens ((first >>= second) ⟨companion.endLine, inFunction⟩ tokens)
      ((firstOther >>= secondOther) ⟨companion.otherLine, inFunction⟩ others) := by
  obtain ⟨suffix, counterpart, replies⟩ := beside
  rw [bind_eq, bind_eq]
  generalize first ⟨companion.endLine, inFunction⟩ tokens = reply at *
  generalize firstOther ⟨companion.otherLine, inFunction⟩ others = other at *
  obtain ⟨errors, rest, result⟩ := reply
  obtain ⟨otherErrors, otherRest, otherResult⟩ := other
  obtain ⟨left, extendLeft⟩ := extend.of_suffix suffix
  cases result with
  | error stop =>
    refine ⟨suffix, nofun, fun settled => ?_⟩
    have settledFirst : companion.Settles followFirst (⟨errors, rest, .error stop⟩ : Reply α) := by
      rcases settled with isLeft | endsAlike | ⟨-, _, ⟨⟩⟩
      · exact .inl isLeft
      · exact .inr (.inl endsAlike)
    obtain ⟨sameErrors, sameRest, sameResult⟩ := replies settledFirst
    cases sameResult
    exact ⟨sameErrors, sameRest, .error stop⟩
  | ok value =>
    obtain ⟨found, isGood⟩ := counterpart value rfl
    have further := besideSecond rfl isGood extendLeft
    refine ⟨further.suffix.trans suffix, further.counterpart, fun settled => ?_⟩
    have settledFirst : companion.Settles followFirst (⟨errors, rest, .ok value⟩ : Reply α) := by
      rcases settled with isLeft | endsAlike | ⟨follows, phrase, isPhrase⟩
      · refine .inl fun isNil => isLeft ?_
        exact List.suffix_nil.mp (isNil ▸ further.suffix)
      · exact .inr (.inl endsAlike)
      · exact (settles rfl isPhrase follows).elim (fun follows => .inr (.inr ⟨follows, value, rfl⟩))
          .inl
    obtain ⟨sameErrors, sameRest, sameResult⟩ := replies settledFirst
    cases sameResult with
    | ok isGood =>
      have sameFurther := (besideSecond rfl isGood sameRest).replies settled
      exact ⟨List.rel_append sameErrors sameFurther.errors, sameFurther.rest, sameFurther.result⟩

end Beside

/-- A first token is accepted if it is of one of the kinds. -/
theorem accept_cons (kinds : List TokenKind) (surroundings : Surroundings) (token : Token)
    (tokens : List Token) :
    accept kinds surroundings (token :: tokens) =
      if token.kind ∈ kinds then ⟨[], tokens, .ok (some token)⟩
      else ⟨[], token :: tokens, .ok none⟩ := rfl

/-- A first token is what was expected if it is of the kind, and else what is missing is reported at
it. -/
theorem expect_cons (kind : TokenKind) (missing : Expected) (surroundings : Surroundings)
    (token : Token) (tokens : List Token) :
    expect kind missing surroundings (token :: tokens) =
      if token.kind = kind then ⟨[], tokens, .ok token⟩
      else ⟨[.atToken (.expected missing) token], token :: tokens, .error .syntaxError⟩ := by
  unfold expect
  rw [bind_eq]
  by_cases isKind : token.kind = kind
  · simp [accept, isKind, pure, Rule.pure]
  · simp [accept, isKind, fail, SyntaxError.atNext]

namespace Parallel

/-- Rules one after the other reply alike if each of them does. -/
protected theorem bind {first : Rule α} {firstOther : Rule γ} {second : α → Rule β}
    {secondOther : γ → Rule δ} (parallel : Parallel companion follow good first firstOther)
    (parallelSecond : ∀ value found, good value found →
      Parallel companion follow fine (second value) (secondOther found)) :
    Parallel companion follow fine (first >>= second) (firstOther >>= secondOther) :=
  fun _ _ _ extend => .sequence extend (parallel extend)
    (fun _ isGood extendLeft => parallelSecond _ _ isGood extendLeft)
    fun _ _ follows => .inl follows

/-- Where the second part has to take a token, what stands behind cannot go on the first part. -/
theorem bindTakes {first : Rule α} {firstOther : Rule γ} {second : α → Rule β}
    {secondOther : γ → Rule δ} (parallel : Parallel companion False good first firstOther)
    (takes : ∀ value, Takes (second value))
    (parallelSecond : ∀ value found, good value found →
      Parallel companion follow fine (second value) (secondOther found)) :
    Parallel companion follow fine (first >>= second) (firstOther >>= secondOther) :=
  fun _ _ _ extend => .sequence extend (parallel extend)
    (fun _ isGood extendLeft => parallelSecond _ _ isGood extendLeft)
    fun _ isPhrase _ =>
      .inr (List.ne_nil_of_length_pos (Nat.zero_lt_of_lt (takes _ _ _ _ isPhrase)))

/-- Good values are replied to all tokens alike. -/
protected theorem pure {value : α} {found : γ} (isGood : good value found) :
    Parallel companion follow good (pure value) (pure found) :=
  fun _ _ _ extend => .ofOk List.suffix_rfl isGood fun _ => ⟨.nil, extend⟩

/-- What is done to phrases that are alike gives phrases that are alike. -/
protected theorem map {rule : Rule α} {other : Rule γ} {change : α → β} {otherChange : γ → δ}
    (parallel : Parallel companion follow good rule other)
    (isFine : ∀ value found, good value found → fine (change value) (otherChange found)) :
    Parallel companion follow fine (change <$> rule) (otherChange <$> other) :=
  parallel.bind fun value found isGood => .pure (isFine value found isGood)

/-- A choice that does not depend on the tokens is replied to alike on both branches. -/
protected theorem ite {condition : Prop} [Decidable condition] {rule rule' : Rule α}
    {other other' : Rule γ} (parallel : Parallel companion follow good rule other)
    (parallel' : Parallel companion follow good rule' other') :
    Parallel companion follow good (if condition then rule else rule')
      (if condition then other else other') := by
  split
  · exact parallel
  · exact parallel'

/-- The next token is the companion of the next token, unless what stands behind is next. -/
protected theorem next :
    Parallel companion False (Option.Rel companion.pairing.Pairs) next next := by
  intro inFunction tokens others extend
  cases tokens with
  | nil =>
    refine ⟨List.suffix_rfl, ?_, fun settled => ?_⟩
    · rintro _ ⟨⟩
      exact ⟨none, .none⟩
    · obtain rfl := extends_nil_of_settled extend settled.weak
      exact ⟨.nil, extend, .ok .none⟩
  | cons token tokens =>
    obtain ⟨other, further, rfl, pairs, -⟩ := extends_cons.mp extend
    exact .ofOk List.suffix_rfl (.some pairs) fun _ => ⟨.nil, extend⟩

/-- To skip a token is to skip its companion. -/
protected theorem skip : Parallel companion False (fun _ _ => True) skip skip := by
  intro inFunction tokens others extend
  cases tokens with
  | nil =>
    refine ⟨List.suffix_rfl, fun _ _ => ⟨(), trivial⟩, fun settled => ?_⟩
    obtain rfl := extends_nil_of_settled extend settled.weak
    exact ⟨.nil, extend, .ok trivial⟩
  | cons token tokens =>
    obtain ⟨other, further, rfl, -, extendLeft⟩ := extends_cons.mp extend
    exact .ofOk (List.suffix_cons _ _) trivial fun _ => ⟨.nil, extendLeft⟩

/-- The next token and its companion are of the same kind. -/
protected theorem nextIs (kind : TokenKind) :
    Parallel companion False Eq (nextIs kind) (nextIs kind) := by
  intro inFunction tokens others extend
  cases tokens with
  | nil =>
    refine ⟨List.suffix_rfl, fun answer _ => ⟨answer, rfl⟩, fun settled => ?_⟩
    obtain rfl := extends_nil_of_settled extend settled.weak
    exact ⟨.nil, extend, .ok rfl⟩
  | cons token tokens =>
    obtain ⟨other, further, rfl, pairs, -⟩ := extends_cons.mp extend
    refine .ofOk List.suffix_rfl ?_ fun _ => ⟨.nil, extend⟩
    simp only [List.head?_cons, Option.any_some, Pairing.kind_eq pairs]

/-- Where a token is left, it is accepted as its companion is. -/
private theorem beside_accept_cons (kinds : List TokenKind) {inFunction : Bool} {token : Token}
    {tokens others : List Token} (extend : companion.Extends (token :: tokens) others) :
    Beside companion follow (Option.Rel companion.pairing.Pairs) (token :: tokens)
      (accept kinds ⟨companion.endLine, inFunction⟩ (token :: tokens))
      (accept kinds ⟨companion.otherLine, inFunction⟩ others) := by
  obtain ⟨other, further, rfl, pairs, extendLeft⟩ := extends_cons.mp extend
  rw [accept_cons, accept_cons, Pairing.kind_eq pairs]
  split
  · exact .ofOk (List.suffix_cons _ _) (.some pairs) fun _ => ⟨.nil, extendLeft⟩
  · exact .ofOk List.suffix_rfl .none fun _ => ⟨.nil, extend⟩

/-- A token that stands behind is not accepted where the follow condition excludes it. -/
protected theorem accept {kinds : List TokenKind} (stops : follow → Stops kinds companion.behind) :
    Parallel companion follow (Option.Rel companion.pairing.Pairs) (accept kinds)
      (accept kinds) := by
  intro inFunction tokens others extend
  cases tokens with
  | nil =>
    refine ⟨List.suffix_rfl, ?_, fun settled => ?_⟩
    · rintro _ ⟨⟩
      exact ⟨none, .none⟩
    · have stopped : Stops kinds others := by
        rw [extends_nil.mp extend]
        rcases settled with isLeft | ⟨nothingBehind, -⟩ | ⟨follows, -⟩
        · exact absurd rfl isLeft
        · rw [nothingBehind]
          exact stops_nil kinds
        · exact stops follows
      rw [show accept kinds _ others = _ from reads_accept_none.mpr ⟨stopped, rfl⟩]
      exact ⟨.nil, extend, .ok .none⟩
  | cons token tokens => exact beside_accept_cons kinds extend

/-- A token that stands behind is not accepted either if what follows needs a token in any case. -/
theorem acceptTakes {kinds : List TokenKind} {second : Option Token → Rule β}
    {secondOther : Option Token → Rule δ} (takes : Takes (second none))
    (parallelSecond : ∀ value found, Option.Rel companion.pairing.Pairs value found →
      Parallel companion follow fine (second value) (secondOther found)) :
    Parallel companion follow fine (accept kinds >>= second) (accept kinds >>= secondOther) := by
  intro inFunction tokens others extend
  cases tokens with
  | nil =>
    have first : Parallel companion False _ (accept kinds) (accept kinds) := .accept nofun
    refine .sequence extend (first extend)
      (fun _ isGood extendLeft => parallelSecond _ _ isGood extendLeft) fun isOk isPhrase _ => ?_
    cases isOk
    exact absurd (takes _ _ _ isPhrase) (Nat.not_lt_zero _)
  | cons token tokens =>
    exact .sequence extend (beside_accept_cons kinds extend)
      (fun _ isGood extendLeft => parallelSecond _ _ isGood extendLeft) fun _ _ => .inl

/-- Reports at tokens that stand for each other are alike. -/
protected theorem reportAt {token other : Token} (pairs : companion.pairing.Pairs token other)
    (problem : Problem) :
    Parallel companion follow (fun _ _ => True) (reportAt token problem)
      (reportAt other problem) :=
  fun _ _ _ extend => .ofOk List.suffix_rfl trivial
    fun _ => ⟨.cons (.atToken problem pairs) .nil, extend⟩

/-- Reports at the next token are alike, unless what stands behind is next. -/
protected theorem reportNext (problem : Problem) :
    Parallel companion False (fun _ _ => True) (reportNext problem) (reportNext problem) :=
  fun _ _ _ extend => .ofOk List.suffix_rfl trivial
    fun settled => ⟨.cons (onError_atNext extend settled.weak problem) .nil, extend⟩

/-- What is missing is reported at the next token on both sides. -/
protected theorem fail (missing : Expected) :
    Parallel companion follow good (fail missing) (fail missing) :=
  fun _ _ _ extend => .ofError List.suffix_rfl
    fun settled => ⟨.cons (onError_atNext extend settled _) .nil, extend⟩

/-- Both rules run into the limit without a look at the tokens. -/
protected theorem tooDeep : Parallel companion follow good tooDeep tooDeep :=
  fun _ _ _ extend => .ofError List.suffix_rfl fun _ => ⟨.nil, extend⟩

/-- Nothing behind can be taken for a token that is missing. -/
protected theorem expect (kind : TokenKind) (missing : Expected) :
    Parallel companion follow companion.pairing.Pairs (expect kind missing)
      (expect kind missing) := by
  intro inFunction tokens others extend
  cases tokens with
  | nil =>
    refine ⟨List.suffix_rfl, nofun, fun settled => ?_⟩
    have settled : ([] : List Token) ≠ [] ∨ companion.EndsAlike := by
      rcases settled with isLeft | endsAlike | ⟨-, _, ⟨⟩⟩
      · exact .inl isLeft
      · exact .inr endsAlike
    obtain rfl := extends_nil_of_settled extend settled
    exact ⟨.cons (onError_atNext extend settled _) .nil, extend, .error _⟩
  | cons token tokens =>
    obtain ⟨other, further, rfl, pairs, extendLeft⟩ := extends_cons.mp extend
    rw [expect_cons, expect_cons, Pairing.kind_eq pairs]
    split
    · exact .ofOk (List.suffix_cons _ _) pairs fun _ => ⟨.nil, extendLeft⟩
    · exact .ofError List.suffix_rfl fun _ => ⟨.cons (.atToken _ pairs) .nil, extend⟩

/-- Whether a function is around is the same on both sides. -/
protected theorem inFunction : Parallel companion follow Eq inFunction inFunction :=
  fun _ _ _ extend => .ofOk List.suffix_rfl rfl fun _ => ⟨.nil, extend⟩

/-- Rules reply alike within functions. -/
protected theorem withinFunction {rule : Rule α} {other : Rule γ}
    (parallel : Parallel companion follow good rule other) :
    Parallel companion follow good (withinFunction rule) (withinFunction other) :=
  fun _ _ _ extend => parallel extend

/-- Repetitions reply alike if their steps do, by induction on the number of tokens. -/
protected theorem repeated {good : α → α → Prop} {step : α → Rule (Option α)} (steady : Steady step)
    (parallel : ∀ value other, good value other →
      Parallel companion follow (Option.Rel good) (step value) (step other))
    {value other : α} (isGood : good value other) :
    Parallel companion follow good (repeated value step) (repeated other step) := by
  intro inFunction tokens others extend
  generalize bound : tokens.length = count
  -- The induction is on the number of tokens, which every further turn makes smaller.
  induction count using Nat.strongRecOn generalizing value other tokens others with
  | _ count inductionHypothesis =>
    rw [repeated_eq steady, repeated_eq steady]
    refine .sequence extend (parallel value other isGood extend) ?_ fun _ _ follows => .inl follows
    intro found foundOther left isFound pairs extendLeft
    cases pairs with
    | none => exact Parallel.pure isGood extendLeft
    | some isGood =>
      have shorter := steady.takes isFound
      exact inductionHypothesis _ (by omega) isGood extendLeft rfl

end Parallel
end Rule

end LoxLang.Grammar
