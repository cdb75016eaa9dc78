import Mathlib
import LoxLang.Proofs.Grammar.Completeness
import LoxLang.Proofs.Grammar.Production

/-!
# Rules track what may follow

Before a rule reads, some continuations of the text make it a program; after it has read, those that
are left do. A rule tracks the continuations if it takes tokens only as long as one is left, and
says what it expected in front of the first token behind which none is.

What is left is known only for continuations that begin as the text goes on: where a clause is not
taken, the next token is none that the clause begins with, and this rules out the continuations with
the clause.
-/

namespace LoxLang.Grammar

open Rule
open Computability

/-! ## How languages begin -/

/-- There is a list of tokens in the language. -/
def Derivable (language : Language Token) : Prop := ∃ tokens, tokens ∈ language

/-- Every list of tokens in the language begins with a token of one of these kinds. -/
def Begins (kinds : List TokenKind) (language : Language Token) : Prop :=
  ∀ tokens ∈ language, StartsWith kinds tokens

/-- The language is one of possible continuations, of which none begins with a token of these
kinds. -/
structure Avoids (kinds : List TokenKind) (language : Language Token) : Prop where
  derivable : Derivable language
  stops : ∀ tokens ∈ language, Stops kinds tokens

section Languages

variable {kinds others : List TokenKind} {first second : Language Token}

/-- There is a possible continuation that is empty. -/
theorem derivable_one : Derivable 1 := ⟨[], Language.nil_mem_one⟩

/-- There are possible continuations of an iteration: to stop is one. -/
theorem derivable_star (repeated : Language Token) : Derivable repeated∗ :=
  ⟨[], Language.nil_mem_kstar repeated⟩

/-- There is a token of every kind. -/
theorem derivable_tokenOf (kind : TokenKind) (kinds : List TokenKind) :
    Derivable (tokenOf (kind :: kinds)) :=
  ⟨[⟨kind, "", .nil, 1⟩], mem_tokenOf List.mem_cons_self⟩

/-- Continuations may be put together of two languages that have some. -/
theorem Derivable.mul (isFirst : Derivable first) (isSecond : Derivable second) :
    Derivable (first * second) := by
  obtain ⟨former, isFormer⟩ := isFirst
  obtain ⟨latter, isLatter⟩ := isSecond
  exact ⟨former ++ latter, Language.append_mem_mul isFormer isLatter⟩

/-- Continuations of one of two languages are continuations of both. -/
theorem Derivable.add_right (isFirst : Derivable first) (second : Language Token) :
    Derivable (first + second) :=
  isFirst.imp fun _ isIn => .inl isIn

/-- The language of a token begins with it. -/
theorem begins_tokenOf (kinds : List TokenKind) : Begins kinds (tokenOf kinds) := by
  rintro _ ⟨token, isKind, rfl⟩
  exact ⟨token, [], rfl, isKind⟩

/-- Behind a token of the right kind, what is left of a language is what stands behind it there. -/
theorem leftQuotient_tokenOf_mul {token : Token} (isKind : token.kind ∈ kinds)
    (rest : Language Token) : (tokenOf kinds * rest).leftQuotient [token] = rest := by
  ext further
  rw [Language.mem_leftQuotient, List.singleton_append, cons_mem_tokenOf_mul,
    and_iff_right isKind]

/-- Behind a token that a language does not begin with, only the other language is left. -/
theorem leftQuotient_add {token : Token} (strays : ∀ tokens, token :: tokens ∉ first) :
    (first + second).leftQuotient [token] = second.leftQuotient [token] :=
  Language.ext fun tokens => or_iff_right (strays tokens)

/-- A language begins as its first part does. -/
theorem Begins.mul (begins : Begins kinds first) (second : Language Token) :
    Begins kinds (first * second) := by
  intro tokens isIn
  obtain ⟨former, isFirst, latter, -, rfl⟩ := Language.mem_mul.mp isIn
  exact (begins former isFirst).append latter

/-- A token of another kind does not begin the language. -/
theorem Begins.not_cons_mem (begins : Begins kinds first) {token : Token}
    (apart : token.kind ∉ kinds) (tokens : List Token) : token :: tokens ∉ first := by
  intro isIn
  obtain ⟨_, _, same, isKind⟩ := begins _ isIn
  obtain ⟨rfl, rfl⟩ := List.cons.inj same
  exact apart isKind

/-- Two languages together begin as either of them does. -/
theorem Begins.add (begins : Begins kinds first) (beginsToo : Begins others second) :
    Begins (kinds ++ others) (first + second) := by
  rintro tokens (isFirst | isSecond)
  · exact (begins tokens isFirst).mono (List.subset_append_left kinds others)
  · exact (beginsToo tokens isSecond).mono (List.subset_append_right kinds others)

/-- A language that begins with some kinds begins with more of them. -/
theorem Begins.mono (begins : Begins kinds first) (subset : kinds ⊆ others) :
    Begins others first :=
  fun tokens isIn => (begins tokens isIn).mono subset

/-- A language that begins with some kinds avoids all others. -/
theorem Begins.avoids (begins : Begins kinds first) (derivable : Derivable first)
    (apart : ∀ kind ∈ kinds, kind ∉ others) : Avoids others first :=
  ⟨derivable, fun tokens isIn => (begins tokens isIn).stops apart⟩

/-- A further alternative is avoided if it begins otherwise. -/
theorem Avoids.add (avoids : Avoids kinds first) (begins : Begins others second)
    (apart : ∀ kind ∈ others, kind ∉ kinds) : Avoids kinds (first + second) where
  derivable := avoids.derivable.add_right second
  stops := by
    rintro tokens (isFirst | isSecond)
    · exact avoids.stops tokens isFirst
    · exact (begins tokens isSecond).stops apart

/-- What may follow repeated phrases does not change by the phrases, except for how they begin. -/
theorem Avoids.star {repeated : Language Token} (avoids : Avoids kinds first)
    (begins : Begins others repeated) (apart : ∀ kind ∈ others, kind ∉ kinds) :
    Avoids kinds (repeated∗ * first) := by
  rw [star_mul_eq]
  exact avoids.add (begins.mul _) apart

/-- What avoids some kinds avoids fewer of them. -/
theorem Avoids.mono (avoids : Avoids kinds first) (subset : others ⊆ kinds) :
    Avoids others first :=
  ⟨avoids.derivable, fun tokens isIn => (avoids.stops tokens isIn).mono subset⟩

/-- What follows a token of some kind begins with that token. -/
theorem avoids_tokenOf_mul {kind : TokenKind} {rest : Language Token} (derivable : Derivable rest)
    (apart : kind ∉ kinds) : Avoids kinds (tokenOf [kind] * rest) :=
  ((begins_tokenOf _).mul rest).avoids ((derivable_tokenOf _ _).mul derivable)
    (List.forall_mem_singleton.mpr apart)

end Languages

/-! ## Tracking -/

/-- The problem is that something was expected. -/
def Problem.isExpectation : Problem → Bool
  | expected _ => true
  | _ => false

/-- The first error that says what was expected. -/
def firstExpectation (errors : List SyntaxError) : Option SyntaxError :=
  errors.find? (·.problem.isExpectation)

/-- Where nothing was expected so far, the first expectation is among the further errors. -/
theorem firstExpectation_append_of_none {errors : List SyntaxError}
    (silent : firstExpectation errors = none) (further : List SyntaxError) :
    firstExpectation (errors ++ further) = firstExpectation further := by
  unfold firstExpectation at silent ⊢
  rw [List.find?_append, silent, Option.none_or]

/-- What was expected first stays the first. -/
theorem firstExpectation_append_of_some {errors : List SyntaxError} {error : SyntaxError}
    (first : firstExpectation errors = some error) (further : List SyntaxError) :
    firstExpectation (errors ++ further) = some error := by
  unfold firstExpectation at first ⊢
  rw [List.find?_append, first, Option.some_or]

variable {α β : Type}

/-- How a reply treats the continuations that were possible before its rule and those that are
possible after it. -/
inductive Reply.Tracks (endLine : Int) (tokens : List Token) (before : Language Token)
    (after : α → Language Token) (reply : Reply α) : Prop where
  /-- The limit on nesting was reached. -/
  | deep (isDeep : reply.IsDeep)
  /-- What is possible after the tokens that were taken is possible, and as far as it begins like
  the tokens that are left, nothing else is. -/
  | found (used : List Token) (value : α) (split : tokens = used ++ reply.rest)
      (isOk : reply.result = .ok value) (silent : firstExpectation reply.errors = none)
      (possible : ∀ further ∈ after value, used ++ further ∈ before)
      (necessary : ∀ further, further.head? = reply.rest.head? → used ++ further ∈ before →
        further ∈ after value)
  /-- It is said in front of some tokens what was expected, and that nothing that begins as they do
  was possible there, but something was. -/
  | missed (used next : List Token) (missing : Expected) (split : tokens = used ++ next)
      (first : firstExpectation reply.errors = some (.atNext (.expected missing) next endLine))
      (viable : ∃ further, used ++ further ∈ before)
      (strays : ∀ further, further.head? = next.head? → used ++ further ∉ before)

/-- A reply that reached the limit still did so behind another rule. -/
theorem Reply.IsDeep.bind {reply : Reply α} (isDeep : reply.IsDeep) (next : α → Reply β) :
    Reply.IsDeep (match reply.result with
      | .error stop => ⟨reply.errors, reply.rest, .error stop⟩
      | .ok value => (next value).after reply.errors) := by
  obtain stopped | ⟨error, member, isNesting⟩ := isDeep
  · rw [stopped]
    exact .inl rfl
  · cases reply.result with
    | error stop => exact .inr ⟨error, member, isNesting⟩
    | ok value => exact .inr ⟨error, List.mem_append_left _ member, isNesting⟩

/-- The next token of two lists with the same front is the same, if it is the same behind that. -/
private theorem head?_append {taken further left : List Token}
    (same : further.head? = left.head?) : (taken ++ further).head? = (taken ++ left).head? := by
  rw [List.head?_append, List.head?_append, same]

namespace Reply.Tracks

variable {endLine : Int} {tokens : List Token} {before between : Language Token}
  {middle : α → Language Token} {after : α → Language Token}

/-- A rule says what it expected where the next token begins nothing that is possible. -/
protected theorem fail {missing : Expected} {kinds : List TokenKind} {surroundings : Surroundings}
    (derivable : Derivable before) (begins : Begins kinds before) (stops : Stops kinds tokens) :
    (Rule.fail missing surroundings tokens : Reply α).Tracks surroundings.endLine tokens before
      after := by
  refine .missed [] tokens missing rfl rfl derivable fun further same isBefore => ?_
  obtain ⟨token, more, rfl, isKind⟩ := begins further isBefore
  exact stops token same.symm isKind

/-- Continuations that do not begin like the tokens do not matter as long as they are possible. -/
protected theorem weaken {reply : Reply α} (tracks : reply.Tracks endLine tokens between after)
    (possible : ∀ further ∈ between, further ∈ before)
    (necessary : ∀ further : List Token, further.head? = tokens.head? → further ∈ before →
      further ∈ between) :
    reply.Tracks endLine tokens before after := by
  cases tracks with
  | deep isDeep => exact .deep isDeep
  | found used value split isOk silent possibleAfter necessaryAfter =>
    refine .found used value split isOk silent
      (fun further isAfter => possible _ (possibleAfter further isAfter)) ?_
    intro further same isBefore
    exact necessaryAfter further same (necessary _ (split ▸ head?_append same) isBefore)
  | missed used next missing split first viable strays =>
    refine .missed used next missing split first
      (viable.imp fun further isBetween => possible _ isBetween) ?_
    intro further same isBefore
    exact strays further same (necessary _ (split ▸ head?_append same) isBefore)

/-- A token in front that every continuation begins with. -/
protected theorem cons {reply : Reply α} {token : Token}
    (tracks : reply.Tracks endLine tokens between after)
    (begins : ∀ further, token :: further ∈ before ↔ further ∈ between) :
    reply.Tracks endLine (token :: tokens) before after := by
  cases tracks with
  | deep isDeep => exact .deep isDeep
  | found used value split isOk silent possible necessary =>
    exact .found (token :: used) value (congrArg _ split) isOk silent
      (fun further isAfter => (begins _).mpr (possible further isAfter))
      (fun further same isBefore => necessary further same ((begins _).mp isBefore))
  | missed used next missing split first viable strays =>
    exact .missed (token :: used) next missing (congrArg _ split) first
      (viable.imp fun further isBetween => (begins _).mpr isBetween)
      (fun further same isBefore => strays further same ((begins _).mp isBefore))

/-- One rule after the other. The second has to track only where it is run. -/
protected theorem bind {first : Rule α} {second : α → Rule β} {surroundings : Surroundings}
    {last : β → Language Token}
    (tracks : (first surroundings tokens).Tracks surroundings.endLine tokens before middle)
    (tracksNext : ∀ value, (first surroundings tokens).result = .ok value →
      (second value surroundings (first surroundings tokens).rest).Tracks surroundings.endLine
        (first surroundings tokens).rest (middle value) last) :
    ((first >>= second) surroundings tokens).Tracks surroundings.endLine tokens before last := by
  rw [bind_eq]
  generalize first surroundings tokens = reply at tracks tracksNext
  cases tracks with
  | deep isDeep => exact .deep (isDeep.bind _)
  | found used value split isOk silent possible necessary =>
    have tracksSecond := tracksNext value isOk
    rw [isOk]
    dsimp only
    generalize second value surroundings reply.rest = next at tracksSecond
    cases tracksSecond with
    | deep isDeep => exact .deep (isDeep.after _)
    | found usedNext valueNext splitNext isOkNext silentNext possibleNext necessaryNext =>
      refine .found (used ++ usedNext) valueNext ?_ isOkNext ?_ ?_ ?_
      · rw [split, splitNext, List.append_assoc]
        rfl
      · exact (firstExpectation_append_of_none silent _).trans silentNext
      · intro further isAfter
        rw [List.append_assoc]
        exact possible _ (possibleNext further isAfter)
      · intro further same isBefore
        rw [List.append_assoc] at isBefore
        refine necessaryNext further same (necessary _ ?_ isBefore)
        rw [splitNext]
        exact head?_append same
    | missed usedNext next' missing splitNext firstMiss viable strays =>
      refine .missed (used ++ usedNext) next' missing ?_ ?_ ?_ ?_
      · rw [split, splitNext, List.append_assoc]
      · exact (firstExpectation_append_of_none silent _).trans firstMiss
      · obtain ⟨further, isBetween⟩ := viable
        exact ⟨further, by rw [List.append_assoc]; exact possible _ isBetween⟩
      · intro further same isBefore
        rw [List.append_assoc] at isBefore
        refine strays further same (necessary _ ?_ isBefore)
        rw [splitNext]
        exact head?_append same
  | missed used next missing split firstMiss viable strays =>
    cases reply.result with
    | error stop => exact .missed used next missing split firstMiss viable strays
    | ok value =>
      exact .missed used next missing split (firstExpectation_append_of_some firstMiss _)
        viable strays

end Reply.Tracks

namespace Rule

/-- The rule tracks from the continuations that are possible before it to those that are after it,
whatever it stands in and whatever tokens follow. -/
def Tracks (rule : Rule α) (before : Language Token) (after : α → Language Token) : Prop :=
  ∀ (surroundings : Surroundings) (tokens : List Token),
    (rule surroundings tokens).Tracks surroundings.endLine tokens before after

namespace Tracks

variable {before rest : Language Token} {kinds : List TokenKind}

/-- A rule that only gives a value leaves the language as it is. -/
protected theorem pure {after : α → Language Token} {value : α} (same : before = after value) :
    Tracks (pure value) before after :=
  fun _ _ => .found [] value rfl rfl rfl (fun _ isAfter => same ▸ isAfter)
    fun _ _ isBefore => same ▸ isBefore

/-- A rule that runs into the limit tracks every language. -/
protected theorem tooDeep {after : α → Language Token} : Tracks tooDeep before after :=
  fun _ _ => .deep (.inl rfl)

/-- The second rule tracks what the first one left of the language. -/
protected theorem bind {first : Rule α} {second : α → Rule β} {between : α → Language Token}
    {after : β → Language Token} (tracks : Tracks first before between)
    (tracksNext : ∀ value, Tracks (second value) (between value) after) :
    Tracks (first >>= second) before after :=
  fun surroundings tokens => (tracks surroundings tokens).bind
    fun value _ => tracksNext value surroundings _

/-- What is done to the value of a rule does not change what it tracks. -/
protected theorem map {rule : Rule α} {change : α → β}
    (tracks : Tracks rule before fun _ => rest) : Tracks (change <$> rule) before fun _ => rest :=
  tracks.bind fun _ => .pure rfl

/-- A choice that does not depend on the tokens tracks what both its branches track. -/
protected theorem ite {condition : Prop} [Decidable condition] {rule other : Rule α}
    {after : α → Language Token} (tracks : Tracks rule before after)
    (tracksOther : Tracks other before after) :
    Tracks (if condition then rule else other) before after := by
  split
  · exact tracks
  · exact tracksOther

/-- A rule tracks the same within a function. -/
protected theorem withinFunction {rule : Rule α} {after : α → Language Token}
    (tracks : Tracks rule before after) : Tracks (withinFunction rule) before after :=
  fun surroundings tokens => tracks { surroundings with inFunction := true } tokens

/-- To ask whether a function is around leaves the language as it is. -/
protected theorem inFunction : Tracks inFunction before fun _ => before :=
  fun surroundings _ => .found [] surroundings.inFunction rfl rfl rfl (fun _ isAfter => isAfter)
    fun _ _ isBefore => isBefore

/-- A problem other than that something was expected is reported in passing. -/
protected theorem reportAt (token : Token) {problem : Problem}
    (isOther : problem.isExpectation = false) :
    Tracks (reportAt token problem) before fun _ => before := by
  intro _ _
  refine .found [] () rfl rfl ?_ (fun _ isAfter => isAfter) fun _ _ isBefore => isBefore
  simp [reportAt, firstExpectation, SyntaxError.atToken, isOther]

/-- A report at the next token that expects nothing leaves the language as it is. -/
protected theorem reportNext {problem : Problem} (isOther : problem.isExpectation = false) :
    Tracks (reportNext problem) before fun _ => before := by
  intro _ _
  refine .found [] () rfl rfl ?_ (fun _ isAfter => isAfter) fun _ _ isBefore => isBefore
  simp [reportNext, firstExpectation, SyntaxError.atNext, SyntaxError.atToken, isOther]

/-- A rule that goes on in two ways, one for tokens of some kinds and one for all others. -/
theorem accept_bind {next : Option Token → Rule β} {absent : Language Token}
    {after : β → Language Token} (possible : ∀ further ∈ absent, further ∈ before)
    (necessary : ∀ further ∈ before, Stops kinds further → further ∈ absent)
    (tracksAbsent : Tracks (next none) absent after)
    (tracksTaken : ∀ token, token.kind ∈ kinds →
      Tracks (next (some token)) (before.leftQuotient [token]) after) :
    Tracks (accept kinds >>= next) before after := by
  intro surroundings tokens
  have refused (stops : Stops kinds tokens) :
      Reply.Tracks surroundings.endLine tokens before after (next none surroundings tokens) := by
    refine (tracksAbsent surroundings tokens).weaken possible fun further same isBefore => ?_
    exact necessary further isBefore (by rwa [Stops, same])
  cases tokens with
  | nil => exact refused (stops_nil kinds)
  | cons token tokens =>
    rw [bind_eq]
    by_cases isKind : token.kind ∈ kinds
    · simp only [accept, isKind, if_true, after_nil]
      exact (tracksTaken token isKind surroundings tokens).cons fun _ => Iff.rfl
    · simp only [accept, isKind, if_false, after_nil]
      exact refused (stops_cons.mpr isKind)

/-- A rule that tells by the next token whether there is one of some alternatives. -/
theorem accept_or {next : Option Token → Rule β} {absent taken : Language Token}
    {after : β → Language Token} (stops : ∀ tokens ∈ absent, Stops kinds tokens)
    (begins : Begins kinds taken) (tracksAbsent : Tracks (next none) absent after)
    (tracksTaken : ∀ token, token.kind ∈ kinds →
      Tracks (next (some token)) (taken.leftQuotient [token]) after) :
    Tracks (accept kinds >>= next) (absent + taken) after := by
  refine accept_bind (fun further isAbsent => .inl isAbsent) ?_ tracksAbsent fun token isKind => ?_
  · rintro further (isAbsent | isTaken) stops
    · exact isAbsent
    · obtain ⟨token, more, rfl, isKind⟩ := begins further isTaken
      exact absurd isKind (stops_cons.mp stops)
  · rw [leftQuotient_add fun further isAbsent => stops_cons.mp (stops _ isAbsent) isKind]
    exact tracksTaken token isKind

/-- A clause that begins with a token of some kinds and may be left out. -/
theorem accept_clause {next : Option Token → Rule β} {clause : Language Token}
    {after : β → Language Token} (avoids : Avoids kinds rest)
    (tracksAbsent : Tracks (next none) rest after)
    (tracksTaken : ∀ token, Tracks (next (some token)) clause after) :
    Tracks (accept kinds >>= next) (rest + tokenOf kinds * clause) after := by
  refine accept_or avoids.stops ((begins_tokenOf kinds).mul clause) tracksAbsent
    fun token isKind => ?_
  rw [leftQuotient_tokenOf_mul isKind]
  exact tracksTaken token

/-- A token that cannot be left out. -/
protected theorem expect (kind : TokenKind) (missing : Expected) (derivable : Derivable rest) :
    Tracks (expect kind missing) (tokenOf [kind] * rest) fun _ => rest := by
  have begins := (begins_tokenOf [kind]).mul rest
  have derivableBoth := (derivable_tokenOf kind []).mul derivable
  intro surroundings tokens
  cases tokens with
  | nil =>
    have refused : expect kind missing surroundings [] = fail missing surroundings [] := rfl
    rw [refused]
    exact .fail derivableBoth begins (stops_nil _)
  | cons token tokens =>
    by_cases isKind : token.kind ∈ [kind]
    · have taken : expect kind missing surroundings (token :: tokens) =
          ⟨[], tokens, .ok token⟩ := by
        simp only [expect, bind_eq, accept, isKind, if_true]
        rfl
      rw [taken]
      refine (Tracks.pure rfl surroundings tokens).cons fun further => ?_
      rw [cons_mem_tokenOf_mul, and_iff_right isKind]
    · have refused : expect kind missing surroundings (token :: tokens) =
          fail missing surroundings (token :: tokens) := by
        simp only [expect, bind_eq, accept, isKind, if_false]
        rfl
      rw [refused]
      exact .fail derivableBoth begins (stops_cons.mpr isKind)

/-- A rule that goes on in two ways after a look at the next token, which tells the continuations
of the one from those of the other. -/
theorem look_bind {look : Rule Bool} {next : Bool → Rule β} {yes no : Language Token}
    {after : β → Language Token} {test : Option Token → Bool}
    (looks : ∀ surroundings tokens,
      look surroundings tokens = ⟨[], tokens, .ok (test tokens.head?)⟩)
    (isYes : ∀ tokens ∈ yes, test tokens.head? = true)
    (isNo : ∀ tokens ∈ no, test tokens.head? = false) (tracksYes : Tracks (next true) yes after)
    (tracksNo : Tracks (next false) no after) : Tracks (look >>= next) (yes + no) after := by
  intro surroundings tokens
  rw [bind_eq, looks]
  cases answer : test tokens.head? with
  | true =>
    refine (tracksYes surroundings tokens).weaken (fun _ isYes => .inl isYes) ?_
    rintro further same (isIn | isIn)
    · exact isIn
    · exact absurd (isNo further isIn) (by simp [same, answer])
  | false =>
    refine (tracksNo surroundings tokens).weaken (fun _ isNo => .inr isNo) ?_
    rintro further same (isIn | isIn)
    · exact absurd (isYes further isIn) (by simp [same, answer])
    · exact isIn

/-- A phrase that may be left out in front of a token of some kind, with which it does not
begin. -/
theorem unless_bind {next : Bool → Rule β} {closing : TokenKind} {starts : List TokenKind}
    {phrase : Language Token} {after : β → Language Token} (begins : Begins starts phrase)
    (apart : closing ∉ starts)
    (tracksAbsent : Tracks (next true) (tokenOf [closing] * rest) after)
    (tracksPresent : Tracks (next false) (phrase * (tokenOf [closing] * rest)) after) :
    Tracks (nextIs closing >>= next) ((1 + phrase) * (tokenOf [closing] * rest)) after := by
  rw [one_add_mul]
  refine look_bind (fun _ _ => rfl) ?_ ?_ tracksAbsent tracksPresent
  · intro further isRest
    obtain ⟨token, more, rfl, isKind⟩ := (begins_tokenOf [closing]).mul rest further isRest
    simpa using isKind
  · intro further isPhrase
    have stops : Stops [closing] further := by
      refine (begins.mul _ further isPhrase).stops fun kind isStart isClosing => apart ?_
      rwa [← List.mem_singleton.mp isClosing]
    exact stops.head?_any

/-- A repetition tracks if each of its steps does, and the continuations that are possible before a
step are possible again behind it until the last one. -/
protected theorem repeated {step : α → Rule (Option α)} (steady : Steady step)
    (tracks : ∀ value, Tracks (step value) before fun found => found.elim rest fun _ => before)
    (value : α) : Tracks (repeated value step) before fun _ => rest := by
  intro surroundings tokens
  -- The induction is on the number of tokens, which every further step makes smaller.
  generalize bound : tokens.length = count
  induction count using Nat.strongRecOn generalizing value tokens with
  | _ count inductionHypothesis =>
    rw [repeated_eq steady]
    refine (tracks value surroundings tokens).bind fun found isFound => ?_
    cases found with
    | none =>
      have last : Tracks (pure value) rest fun _ => rest := .pure rfl
      exact last surroundings _
    | some further =>
      have shorter := steady.takes isFound
      exact inductionHypothesis _ (by omega) further _ rfl

/-- Clauses that begin with a token of some kinds, as many as there are. -/
theorem repeated_clause {step : α → Token → Rule (Option α)} {clause : Language Token}
    (orderly : ∀ value token, Orderly (step value token)) (avoids : Avoids kinds rest)
    (tracks : ∀ value token,
      Tracks (step value token) (clause * ((tokenOf kinds * clause)∗ * rest))
        fun found => found.elim rest fun _ => (tokenOf kinds * clause)∗ * rest)
    (value : α) :
    Tracks (repeated value fun value => do
        match ← accept kinds with
        | none => return none
        | some token => step value token)
      ((tokenOf kinds * clause)∗ * rest) fun _ => rest := by
  refine .repeated (steady_accept orderly) (fun value => ?_) value
  have clauses := star_mul_eq (tokenOf kinds * clause) rest
  rw [mul_assoc (tokenOf kinds)] at clauses
  generalize (tokenOf kinds * clause)∗ * rest = further at clauses tracks
  have tracksStep : Tracks
      (do
        match ← accept kinds with
        | none => return none
        | some token => step value token)
      (rest + tokenOf kinds * (clause * further)) fun found => found.elim rest fun _ => further :=
    accept_clause avoids (.pure rfl) (tracks value)
  rwa [← clauses] at tracksStep

end Tracks

/-- The rule reads the phrases of a language wherever no token of these kinds may follow. -/
def Recognizes (rule : Rule α) (language : Language Token) (kinds : List TokenKind) : Prop :=
  ∀ rest, Avoids kinds rest → Tracks rule (language * rest) fun _ => rest

/-- An expected token is recognized. -/
theorem Recognizes.expect (kind : TokenKind) (missing : Expected) (kinds : List TokenKind) :
    Recognizes (expect kind missing) (tokenOf [kind]) kinds :=
  fun _ avoids => .expect kind missing avoids.derivable

end Rule
end LoxLang.Grammar
