import Mathlib
import LoxLang.Proofs.Grammar.Completeness

/-!
# The parser reads exactly the grammar

A list of tokens that ends with the token that ends the text is read as a program. Unless nesting
is too deep for the limit, the programs that are read without an error are those that the grammar
derives, with the trees of their derivations; and nesting is not too deep for a derived program of
fewer tokens than the limit. Since the rules give one reply, a list of tokens has one derivation.
-/

namespace LoxLang.Grammar

open Rule

/-- Reads the tokens up to the one that ends the text, if there is such a token. -/
def parseClosed (limit : Nat) (tokens : List Token) : Option Parsed :=
  (closed? tokens).map fun (tokens, endLine) => parse limit tokens endLine

/-- The limit on nesting is not reached anywhere in the tokens. -/
def WithinNesting (limit : Nat) (tokens : List Token) (endLine : Int) : Prop :=
  ∀ error ∈ (parse limit tokens endLine).errors, error.problem ≠ .tooMuchNesting

/-- Tokens without an end are closed by one that ends the text. -/
theorem closed?_append {tokens : List Token} {last : Token}
    (noEnd : ∀ token ∈ tokens, token.kind ≠ .endOfFile) (isEnd : last.kind = .endOfFile) :
    closed? (tokens ++ [last]) = some (tokens, last.line) :=
  closed?_eq_some_iff.mpr ⟨last, [], rfl, noEnd, isEnd, rfl⟩

/-- A closed list is read up to the token that ends the text. -/
theorem parseClosed_append {limit : Nat} {tokens : List Token} {last : Token}
    (noEnd : ∀ token ∈ tokens, token.kind ≠ .endOfFile) (isEnd : last.kind = .endOfFile) :
    parseClosed limit (tokens ++ [last]) = some (parse limit tokens last.line) := by
  rw [parseClosed, closed?_append noEnd isEnd, Option.map_some]

/-- Without an error, a program is read exactly if its rule reads it. -/
theorem parse_eq_iff {limit : Nat} {tokens : List Token} {endLine : Int}
    {statements : List Stmt} :
    parse limit tokens endLine = ⟨statements, []⟩ ↔
      ∃ rest, Reads (declarations hasNext (declaration (depthOf limit + 1))) ⟨endLine, false⟩
        tokens statements rest := by
  obtain ⟨found, isOk, -⟩ := declarations_ok limit ⟨endLine, false⟩ tokens
  unfold parse Reads
  generalize declarations hasNext (declaration (depthOf limit + 1)) ⟨endLine, false⟩ tokens = reply
    at isOk ⊢
  obtain ⟨errors, rest, result⟩ := reply
  obtain rfl : result = .ok found := isOk
  constructor
  · intro same
    obtain ⟨rfl, rfl⟩ := Parsed.mk.inj same
    exact ⟨rest, rfl⟩
  · rintro ⟨rest', same⟩
    obtain ⟨rfl, rfl, isFound⟩ := Reply.mk.inj same
    obtain rfl := Except.ok.inj isFound
    rfl

/-- A program that is derived is read, if the limit is larger than the number of its tokens. -/
theorem parse_of_derives {tokens : List Token} {statements : List Stmt}
    (derives : Derives tokens statements) {limit : Nat} (fits : tokens.length < limit)
    (endLine : Int) : parse limit tokens endLine = ⟨statements, []⟩ :=
  parse_eq_iff.mpr ⟨[], derives.reads
    (Nat.succ_lt_succ (Nat.lt_of_lt_of_le fits (Nat.le_add_right limit recoveryDepth))) endLine⟩

/-- A program that is read without any error is derived. -/
theorem derives_of_parse {limit : Nat} {tokens : List Token} {endLine : Int}
    {statements : List Stmt} (parsed : parse limit tokens endLine = ⟨statements, []⟩) :
    Derives tokens statements := by
  obtain ⟨rest, reads⟩ := parse_eq_iff.mp parsed
  exact (derives_of_reads reads).2

/-- Within its limit on nesting the parser reads a program as it does without a limit. -/
theorem parse_eq_of_withinNesting {limit : Nat} {tokens : List Token} {endLine : Int}
    (within : WithinNesting limit tokens endLine) {statements : List Stmt}
    (derives : Derives tokens statements) : parse limit tokens endLine = ⟨statements, []⟩ := by
  have larger := parse_mono (Nat.le_max_left limit (tokens.length + 1)) within
  rw [larger]
  exact parse_of_derives derives (Nat.le_max_right limit (tokens.length + 1)) endLine

/-- The parser reads exactly the grammar: a text of tokens is read without an error, and as these
statements, if and only if the grammar derives them from it. A derived text is within every limit
on nesting that exceeds its length, and no text has two derivations with different statements. -/
theorem parse_iff_derives {tokens : List Token} {last : Token}
    (noEnd : ∀ token ∈ tokens, token.kind ≠ .endOfFile) (isEnd : last.kind = .endOfFile) :
    (∀ (limit : Nat) (statements : List Stmt), WithinNesting limit tokens last.line →
      (parseClosed limit (tokens ++ [last]) = some ⟨statements, []⟩ ↔
        Derives tokens statements)) ∧
    (∀ (limit : Nat) (statements : List Stmt), Derives tokens statements →
      tokens.length < limit → parseClosed limit (tokens ++ [last]) = some ⟨statements, []⟩) ∧
    (∀ statements others : List Stmt, Derives tokens statements → Derives tokens others →
      statements = others) := by
  have closed (limit : Nat) :
      parseClosed limit (tokens ++ [last]) = some (parse limit tokens last.line) := by
    rw [parseClosed, closed?_append noEnd isEnd, Option.map_some]
  refine ⟨?_, ?_, ?_⟩
  · intro limit statements within
    rw [closed, Option.some.injEq]
    exact ⟨derives_of_parse, parse_eq_of_withinNesting within⟩
  · intro limit statements derives fits
    rw [closed, parse_of_derives derives fits]
  · intro statements others derives othersDerive
    have fits := Nat.lt_succ_self tokens.length
    have same := (parse_of_derives derives fits last.line).symm.trans
      (parse_of_derives othersDerive fits last.line)
    exact (Parsed.mk.inj same).1

/-- A name that is printed: within a limit of four the text is read, so it is derived, and it is
read within every larger limit as well. -/
theorem parse_iff_derives_print :
    let name : Token := ⟨.identifier, "a", .nil, 1⟩
    let tokens := [⟨.keyPrint, "print", .nil, 1⟩, name, ⟨.semicolon, ";", .nil, 1⟩]
    WithinNesting 4 tokens 1 ∧ Derives tokens [.print (.reference name)] ∧
      ∀ limit, 4 ≤ limit →
        parseClosed limit (tokens ++ [.endOfText 1]) = some ⟨[.print (.reference name)], []⟩ := by
  intro name tokens
  have noEnd : ∀ token ∈ tokens, token.kind ≠ .endOfFile := by decide
  have isEnd : (Token.endOfText 1).kind = .endOfFile := rfl
  have parsed : parse 4 tokens 1 = ⟨[.print (.reference name)], []⟩ := by cbv
  have within : WithinNesting 4 tokens 1 := by
    intro error member
    rw [parsed] at member
    cases member
  obtain ⟨iff, fits, -⟩ := parse_iff_derives noEnd isEnd
  have derives := (iff 4 [.print (.reference name)] within).mp (congrArg some parsed)
  exact ⟨within, derives, fun limit enough => fits limit _ derives enough⟩

end LoxLang.Grammar
