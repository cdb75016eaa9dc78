import Mathlib
import LoxLang.Proofs.Grammar.Exactness
import LoxLang.Proofs.Grammar.StatementTracking

/-!
# Errors stand where a list of tokens strays from the grammar

Since the rule for programs tracks what may follow, the first error that says what was expected
stands at the first token with which the list is no longer the beginning of a program. A list with
no such error is a program. Which errors say so is told by their messages.
-/

namespace LoxLang.Grammar

open Rule
open Computability

/-! ## Where errors stand -/

/-- The diagnostic says what was expected: its message begins so. -/
def saysExpected (diagnostic : Diagnostic) : Bool :=
  "Expect".toList.isPrefixOf diagnostic.message.toList

/-- A text that stands in front of another one begins both together. -/
private theorem prefix_toList_append (first second : String) :
    first.toList <+: (first ++ second).toList := by
  rw [String.toList_append]
  exact List.prefix_append _ _

/-- The message of a problem says what was expected exactly if the problem is that. -/
theorem isPrefixOf_message (problem : Problem) :
    "Expect".toList.isPrefixOf problem.message.toList = problem.isExpectation := by
  cases problem with
  | expected missing =>
    have isMessage : (Problem.expected missing).message =
        "Expect " ++ missing.wording ++ "." := rfl
    have spaced : "Expect " = "Expect" ++ " " := by decide
    rw [isMessage, spaced, String.append_assoc, String.append_assoc, Problem.isExpectation,
      List.isPrefixOf_iff_prefix]
    exact prefix_toList_append "Expect" _
  | _ => decide

/-- The first diagnostic that says what was expected. -/
def firstSayingExpected (parsed : Parsed) : Option Diagnostic :=
  (parsed.errors.map (·.diagnostic)).find? saysExpected

/-- The first report that says what was expected is that of the first expectation. -/
theorem firstSayingExpected_eq (parsed : Parsed) :
    firstSayingExpected parsed = (firstExpectation parsed.errors).map (·.diagnostic) := by
  rw [firstSayingExpected, List.find?_map, firstExpectation]
  congr 2
  funext error
  exact isPrefixOf_message error.problem

/-- Within the limit on nesting, either the tokens are declarations and nothing is said to be
expected, or it is said in front of the first tokens with which they are no beginning of any. -/
theorem parse_tracks {limit : Nat} {tokens : List Token} {endLine : Int}
    (within : WithinNesting limit tokens endLine) :
    (firstExpectation (parse limit tokens endLine).errors = none ∧
      tokens ∈ (phrases .declaration)∗) ∨
    ∃ used next missing, tokens = used ++ next ∧
      firstExpectation (parse limit tokens endLine).errors =
        some (.atNext (.expected missing) next endLine) ∧
      (∃ further, used ++ further ∈ (phrases .declaration)∗) ∧
      ∀ further : List Token, further.head? = next.head? →
        used ++ further ∉ (phrases .declaration)∗ := by
  obtain ⟨statements, isOk, leavesNothing⟩ := declarations_ok limit ⟨endLine, false⟩ tokens
  have tracks := tracks_program (depthOf limit + 1) ⟨endLine, false⟩ tokens
  simp only [WithinNesting, parse, isOk] at within ⊢
  cases tracks with
  | deep isDeep =>
    obtain stopped | ⟨error, member, isNesting⟩ := isDeep
    · rw [isOk] at stopped
      cases stopped
    · exact absurd isNesting (within error member)
  | found used value split _ silent possible _ =>
    rw [leavesNothing] at split
    exact .inl ⟨silent, split ▸ possible [] rfl⟩
  | missed used next missing split first viable strays =>
    exact .inr ⟨used, next, missing, split, first, viable, strays⟩

/-- A text strays at its next token if what was used can be gone on with, but by no list with that
token in front. -/
theorem straysAt_next {used next : List Token} {last : Token}
    (noEnd : ∀ token ∈ used ++ next, token.kind ≠ .endOfFile) (isEnd : last.kind = .endOfFile)
    (viable : ∃ further, used ++ further ∈ (phrases .declaration)∗)
    (strays : ∀ further : List Token, further.head? = next.head? →
      used ++ further ∉ (phrases .declaration)∗) :
    StraysAt (used ++ next ++ [last]) used (next.head?.getD last) := by
  obtain ⟨usedNoEnd, nextNoEnd⟩ := List.forall_mem_append.mp noEnd
  cases next with
  | nil =>
    refine ⟨by simp, (viable_iff usedNoEnd).mpr viable, fun further => ?_⟩
    obtain ⟨front, token, same, areDeclarations, -⟩ :=
      mem_program_iff.mp ((viable_concat_iff isEnd).mp further)
    obtain ⟨rfl, -⟩ := List.append_inj' same rfl
    exact strays [] rfl (by rwa [List.append_nil])
  | cons token next =>
    refine ⟨by simp, (viable_iff usedNoEnd).mpr viable, fun further => ?_⟩
    have noEndToo : ∀ token' ∈ used ++ [token], token'.kind ≠ .endOfFile :=
      List.forall_mem_append.mpr ⟨usedNoEnd, List.forall_mem_singleton.mpr
        (nextNoEnd token List.mem_cons_self)⟩
    obtain ⟨behind, areDeclarations⟩ := (viable_iff noEndToo).mp further
    rw [List.append_assoc] at areDeclarations
    exact strays (token :: behind) rfl areDeclarations

/-- Of the diagnostics of a list of tokens that is within the limit on nesting, read up to the first
token that ends the text, the first that says what was expected has the line and the place of the
first token with which that list is no longer the beginning of a program; and there is one exactly
if it is no program. Tokens behind the first one that ends the text do not count. -/
theorem expected_where_straying {tokens behind : List Token} {last : Token}
    (noEnd : ∀ token ∈ tokens, token.kind ≠ .endOfFile) (isEnd : last.kind = .endOfFile)
    {limit : Nat} (within : WithinNesting limit tokens last.line) :
    ∃ parsed, parseClosed limit (tokens ++ last :: behind) = some parsed ∧
      (∀ diagnostic ∈ firstSayingExpected parsed, ∃ before token,
        StraysAt (tokens ++ [last]) before token ∧ diagnostic.line = token.line ∧
          diagnostic.place = token.place) ∧
      ((firstSayingExpected parsed).isSome ↔ tokens ++ [last] ∉ phrases .program) := by
  have isClosed : closed? (tokens ++ last :: behind) = some (tokens, last.line) :=
    closed?_eq_some_iff.mpr ⟨last, behind, rfl, noEnd, isEnd, rfl⟩
  refine ⟨parse limit tokens last.line, ?_, ?_⟩
  · rw [parseClosed, isClosed, Option.map_some]
  rw [firstSayingExpected_eq]
  obtain ⟨silent, areDeclarations⟩ | ⟨used, next, missing, rfl, first, viable, strays⟩ :=
    parse_tracks within
  · rw [silent, Option.map_none]
    refine ⟨fun diagnostic isFirst => absurd isFirst (Option.not_mem_none diagnostic),
      iff_of_false Bool.false_ne_true (not_not_intro ?_)⟩
    exact mem_program_iff.mpr ⟨tokens, last, rfl, areDeclarations, isEnd⟩
  · rw [first]
    have straysAt := straysAt_next noEnd isEnd viable strays
    refine ⟨?_, iff_of_true rfl fun isProgram =>
      straysAt.not_viable (viable_of_program isProgram)⟩
    rintro _ ⟨⟩
    refine ⟨used, _, straysAt, ?_⟩
    cases next with
    | nil => exact ⟨rfl, (if_pos isEnd).symm⟩
    | cons token next => exact ⟨rfl, rfl⟩

/-- The semicolon of a print statement is expected at the end of the text. That is so also where the
list goes on behind it. -/
theorem expected_where_straying_unfinished :
    let tokens : List Token := [⟨.keyPrint, "print", .nil, 1⟩, ⟨.number, "1", .nil, 1⟩]
    let last := Token.endOfText 2
    WithinNesting 4 tokens 2 ∧ tokens ++ [last] ∉ phrases .program ∧
      ∀ behind, ∃ parsed before token, parseClosed 4 (tokens ++ last :: behind) = some parsed ∧
        StraysAt (tokens ++ [last]) before token ∧ token.line = 2 ∧ token.place = "at end" := by
  intro tokens last
  have noEnd : ∀ token ∈ tokens, token.kind ≠ .endOfFile := by decide
  have parsed :
      parse 4 tokens 2 = ⟨[], [⟨.expected .semicolonAfterValue, 2, "at end"⟩]⟩ := by cbv
  have within : WithinNesting 4 tokens 2 := by
    rw [WithinNesting, parsed, List.forall_mem_singleton]
    decide
  have isEnd : last.kind = .endOfFile := rfl
  have first (found : Parsed) (behind : List Token)
      (isFound : parseClosed 4 (tokens ++ last :: behind) = some found) :
      firstSayingExpected found =
        some (SyntaxError.diagnostic ⟨.expected .semicolonAfterValue, 2, "at end"⟩) := by
    have isClosed : closed? (tokens ++ last :: behind) = some (tokens, 2) := rfl
    rw [parseClosed, isClosed, Option.map_some] at isFound
    have isParsed : parse 4 tokens 2 = found := Option.some.inj isFound
    rw [firstSayingExpected_eq, ← isParsed, parsed]
    rfl
  refine ⟨within, ?_, fun behind => ?_⟩
  · obtain ⟨found, isFound, -, isSaid⟩ := @expected_where_straying _ [] _ noEnd isEnd _ within
    exact isSaid.mp (Option.isSome_of_mem (first found [] isFound))
  · obtain ⟨found, isFound, stands, -⟩ := @expected_where_straying _ behind _ noEnd isEnd _ within
    obtain ⟨before, token, straysAt, sameLine, samePlace⟩ :=
      stands _ (first found behind isFound)
    exact ⟨found, before, token, isFound, straysAt, sameLine.symm, samePlace.symm⟩

/-- A list that goes on behind the first token that ends the text is no program, and nothing is said
of that. -/
theorem end_not_last :
    let last := Token.endOfText 1
    let brace : Token := ⟨.rightBrace, "\x7d", .nil, 1⟩
    WithinNesting 4 [] 1 ∧ [last, brace, last] ∉ phrases .program ∧
      StraysAt [last, brace, last] [last] brace ∧
      parseClosed 4 [last, brace, last] = some ⟨[], []⟩ := by
  intro last brace
  have notViable : ¬ Viable [last, brace] := by
    rintro ⟨further, isProgram⟩
    obtain ⟨front, token, same, areDeclarations, isEnd⟩ := mem_program_iff.mp isProgram
    obtain rfl | ⟨more, other, rfl⟩ := List.eq_nil_or_concat further
    · have isLast : [last] ++ [brace] = front ++ [token] := same
      obtain ⟨-, isBrace⟩ := List.append_inj' isLast rfl
      obtain rfl := List.head_eq_of_cons_eq isBrace
      cases isEnd
    · rw [List.concat_eq_append, ← List.append_assoc] at same
      obtain ⟨rfl, -⟩ := List.append_inj' same rfl
      exact noEnd_of_declarations areDeclarations last (List.mem_cons_self ..) rfl
  have isProgram : [last] ∈ phrases .program :=
    mem_program_iff.mpr ⟨[], last, rfl, Language.nil_mem_kstar _, rfl⟩
  have strays : StraysAt [last, brace, last] [last] brace :=
    ⟨⟨[last], rfl⟩, viable_of_program isProgram, notViable⟩
  have within : WithinNesting 4 [] 1 := List.forall_mem_nil _
  refine ⟨within, fun isProgram => ?_, strays, rfl⟩
  exact strays.not_viable (viable_of_program isProgram)

end LoxLang.Grammar
