import LoxLang.Proofs.Evaluation.PairedRun
import LoxLang.Proofs.Evaluation.Readings
import LoxLang.Proofs.Grammar.Joining
import LoxLang.Proofs.Source.Layout

/-!
# Programs and their layout

What a source text means depends on its tokens, and on their lines only where lines are told: in
diagnostics and in messages. `sameConduct_of_layout` says so of every pair of texts with the same
tokens on whatever lines, whether they are programs or not, and of layout inserted into a text.
-/

namespace LoxLang

open Source Grammar

namespace Pairing

/-- Each token stands for the one at the same place of another list. -/
def inPlace (tokens others : List Token) : Pairing where
  Pairs token other := (token, other) ∈ tokens.zip others ∧ token.SameButLine other
  sameButLine paired := paired.2

/-- Each token stands for itself on the line that its own line is sent to. -/
def relined (send : Int → Int) : Pairing where
  Pairs token other := other = { token with line := send token.line }
  sameButLine := by
    rintro token _ rfl
    rfl

/-- Each token that a machine holds also stands for itself. -/
def holding (pairing : Pairing) (machine : Machine) : Pairing where
  Pairs token other := pairing.Pairs token other ∨ (other = token ∧ machine.Holds token)
  sameButLine := by
    rintro token other (paired | ⟨rfl, -⟩)
    · exact pairing.sameButLine paired
    · rfl

/-- A machine stands for itself if the tokens that it holds do. -/
theorem onMachine_holding (pairing : Pairing) (machine : Machine) :
    (pairing.holding machine).OnMachine machine machine :=
  onMachine_self fun _ isHeld => .inr ⟨rfl, isHeld⟩

/-- Tokens that differ in their lines alone stand for each other, place by place. -/
theorem forall₂_inPlace {tokens others : List Token}
    (same : List.Forall₂ Token.SameButLine tokens others) :
    List.Forall₂ (inPlace tokens others).Pairs tokens others :=
  List.forall₂_iff_zip.mpr ⟨same.length_eq, fun isIn =>
    ⟨isIn, (List.forall₂_iff_zip.mp same).2 isIn⟩⟩

end Pairing

variable {pairing : Pairing}

namespace Source.Scan

/-- Scans whose closed tokens stand for each other have tokens and ends that do. -/
theorem forall₂_tokens {scan other : Scan}
    (all : List.Forall₂ pairing.Pairs scan.closedTokens other.closedTokens) :
    List.Forall₂ pairing.Pairs scan.tokens other.tokens ∧
      pairing.Pairs (.endOfText scan.endLine) (.endOfText other.endLine) := by
  have backwards := List.forall₂_reverse_iff.mpr all
  simp only [closedTokens, List.reverse_append, List.reverse_singleton, List.singleton_append]
    at backwards
  obtain ⟨last, front⟩ := List.forall₂_cons.mp backwards
  exact ⟨List.forall₂_reverse_iff.mp front, last⟩

/-- The tokens of a scan, each on the line that is the number of its place. -/
def numbered (scan : Scan) : Scan :=
  ⟨scan.tokens.mapIdx fun place token => { token with line := place }, scan.tokens.length, []⟩

/-- The line of the token at a place. -/
def lineOf (scan : Scan) (place : Int) : Int :=
  (scan.closedTokens[place.toNat]?.map (·.line)).getD 0

/-- With the places as lines, every token is on the line of its place. -/
theorem closedTokens_numbered (scan : Scan) :
    scan.numbered.closedTokens =
      scan.closedTokens.mapIdx fun place token => { token with line := place } := by
  rw [closedTokens, closedTokens, List.mapIdx_concat]
  rfl

/-- The token at each place of a scan is the one that stands there with its line. -/
theorem forall₂_numbered {scan other : Scan}
    (same : List.Forall₂ Token.SameButLine scan.closedTokens other.closedTokens) :
    List.Forall₂ (Pairing.relined other.lineOf).Pairs scan.numbered.closedTokens
      other.closedTokens := by
  rw [closedTokens_numbered]
  obtain ⟨sameLength, areSame⟩ := List.forall₂_iff_get.mp same
  refine List.forall₂_iff_get.mpr
    ⟨by rw [List.length_mapIdx, sameLength], fun place _ inOther => ?_⟩
  have isPlace : other.lineOf place = (other.closedTokens.get ⟨place, inOther⟩).line := by
    simp [lineOf, List.getElem?_eq_getElem inOther]
  have isSame := areSame place (sameLength ▸ inOther) inOther
  simp only [Pairing.relined, List.get_eq_getElem, List.getElem_mapIdx] at isPlace isSame ⊢
  rw [isPlace]
  exact isSame

end Source.Scan

/-- A text whose tokens others stand for is read as trees that stand for theirs, and the same is
reported. -/
theorem Program.ofSource_companions (limit : Nat) {found : Scan} {other : String}
    (clean : (scan other).errors = [])
    (all : List.Forall₂ pairing.Pairs found.closedTokens (scan other).closedTokens) :
    List.Forall₂ pairing.OnStmt (parse limit found.tokens found.endLine).statements
        (Program.ofSource limit other).statements ∧
      List.Forall₂ pairing.OnDiagnostic
        ((parse limit found.tokens found.endLine).errors.map (·.diagnostic))
        (Program.ofSource limit other).diagnostics := by
  obtain ⟨inFront, endsAlike⟩ := Scan.forall₂_tokens all
  obtain ⟨statements, errors⟩ := parse_companions limit inFront endsAlike
  refine ⟨statements, ?_⟩
  simp only [ofSource, clean, List.map_nil, List.nil_append, List.forall₂_map_left_iff,
    List.forall₂_map_right_iff]
  exact errors.imp fun _ _ paired => paired.diagnostic

/-- What was printed does not depend on the clock that is left behind. -/
theorem Outcome.printed_withClock {α : Type} (outcome : Outcome α) (clock : Nat → Float) :
    (outcome.withClock clock).machine.printed = outcome.machine.printed := by
  cases outcome <;> rfl

/-- Of a text without wrong lexemes, what is wrong is what is wrong with its statements. -/
theorem Program.diagnostics_of_clean {limit : Nat} {source : String}
    (clean : (scan source).errors = []) :
    (Program.ofSource limit source).diagnostics =
      (parse limit (scan source).tokens (scan source).endLine).errors.map (·.diagnostic) := by
  rw [ofSource, clean]
  rfl

/-- The texts are read as the same trees and do the same, up to the lines of their tokens: the token
at each place of one stands for the token at that place of the other. -/
structure SameConduct (limits : Limits) (debugLevel : Nat) (machine : Machine)
    (source other : String) : Prop where
  statements :
    List.Forall₂ (Pairing.inPlace (scan source).closedTokens (scan other).closedTokens).OnStmt
      (Program.ofSource limits.nesting source).statements
      (Program.ofSource limits.nesting other).statements
  diagnostics :
    List.Forall₂ (Pairing.inPlace (scan source).closedTokens (scan other).closedTokens).OnDiagnostic
      (Program.ofSource limits.nesting source).diagnostics
      (Program.ofSource limits.nesting other).diagnostics
  /-- Lines follow their tokens, also where equal tokens stand on one line: each text is read as the
  tokens by their places are, with the lines of its tokens at those places. -/
  places : ∀ text ∈ [source, other],
    let pairing := Pairing.relined (scan text).lineOf
    let parsed := parse limits.nesting (scan source).numbered.tokens (scan source).numbered.endLine
    List.Forall₂ pairing.OnStmt parsed.statements
        (Program.ofSource limits.nesting text).statements ∧
      List.Forall₂ pairing.OnDiagnostic (parsed.errors.map (·.diagnostic))
        (Program.ofSource limits.nesting text).diagnostics
  /-- The runs end alike and print the same, if the clock tells the second one what it tells the
  first one. Functions that the machine held before keep their tokens. -/
  outcome : ∀ clock,
    machine.TellsAlike (Run.source limits debugLevel source machine).machine clock →
    let pairing := (Pairing.inPlace (scan source).closedTokens (scan other).closedTokens).holding
      machine
    let ended := Run.source limits debugLevel source machine
    let otherEnded := Run.source limits debugLevel other (machine.withClock clock)
    pairing.OnOutcome (List.Forall₂ pairing.OnDiagnostic) ended
        (otherEnded.withClock machine.clock) ∧
      otherEnded.machine.printed = ended.machine.printed

/-- Texts whose tokens differ in their lines alone have the same conduct on every machine. -/
theorem sameConduct_of_sameButLine (limits : Limits) (debugLevel : Nat) (machine : Machine)
    {source other : String} (clean : (scan source).errors = [])
    (otherClean : (scan other).errors = [])
    (same : List.Forall₂ Token.SameButLine (scan source).closedTokens (scan other).closedTokens) :
    SameConduct limits debugLevel machine source other := by
  have read {pairing : Pairing}
      (all : List.Forall₂ pairing.Pairs (scan source).closedTokens (scan other).closedTokens) :
      List.Forall₂ pairing.OnStmt (Program.ofSource limits.nesting source).statements
          (Program.ofSource limits.nesting other).statements ∧
        List.Forall₂ pairing.OnDiagnostic (Program.ofSource limits.nesting source).diagnostics
          (Program.ofSource limits.nesting other).diagnostics := by
    rw [Program.diagnostics_of_clean clean]
    exact Program.ofSource_companions limits.nesting otherClean all
  have inPlace := Pairing.forall₂_inPlace same
  obtain ⟨statements, diagnostics⟩ := read inPlace
  have itself : List.Forall₂ Token.SameButLine (scan source).closedTokens
      (scan source).closedTokens := List.forall₂_same.mpr fun _ _ => rfl
  -- Functions that the machine held before meet those of the program, so both have to be paired.
  let pairing :=
    (Pairing.inPlace (scan source).closedTokens (scan other).closedTokens).holding machine
  have all : List.Forall₂ pairing.Pairs (scan source).closedTokens (scan other).closedTokens :=
    inPlace.imp fun _ _ paired => .inl paired
  obtain ⟨runStatements, runDiagnostics⟩ := read all
  have outcome := Pairing.onRun_source limits debugLevel runStatements runDiagnostics
    (Pairing.onMachine_holding _ machine)
  refine ⟨statements, diagnostics, ?_, fun clock alike => ?_⟩
  · refine List.forall_mem_cons.mpr ⟨?_, List.forall_mem_singleton.mpr ?_⟩
    · exact Program.ofSource_companions limits.nesting clean (Scan.forall₂_numbered itself)
    · exact Program.ofSource_companions limits.nesting otherClean (Scan.forall₂_numbered same)
  · have alikeOther :
        machine.TellsAlike (Run.source limits debugLevel other machine).machine clock :=
      fun reading isTaken isBefore =>
        alike reading isTaken (Nat.lt_of_lt_of_eq isBefore outcome.machine.readings)
    have reads := Run.ReadsOnly.source limits debugLevel other
    have isPutBack := reads.putBack alikeOther
    refine ⟨isPutBack.symm ▸ outcome, ?_⟩
    rw [reads.withClock machine clock alikeOther, Outcome.printed_withClock]
    exact outcome.machine.printed

/-- Texts without scan errors whose tokens differ in their lines alone are read and run alike, and
so are a text without scan errors and the text with layout inserted between two of its pieces. They
are run alike as far as the clock tells both the same: wherever the first one does not read it. -/
theorem sameConduct_of_layout (limits : Limits) (debugLevel : Nat) (machine : Machine) :
    (∀ source other : String, (scan source).errors = [] → (scan other).errors = [] →
      List.Forall₂ Token.SameButLine (scan source).closedTokens (scan other).closedTokens →
      SameConduct limits debugLevel machine source other) ∧
    ∀ front layout behind : String, Between front.toList layout.toList behind.toList →
      (scan (front ++ behind)).errors = [] →
      SameConduct limits debugLevel machine (front ++ behind) (front ++ layout ++ behind) := by
  refine ⟨fun source other clean otherClean same =>
    sameConduct_of_sameButLine limits debugLevel machine clean otherClean same, ?_⟩
  intro front layout behind between clean
  obtain ⟨same, staysClean⟩ := sameButLine_scan between
  exact sameConduct_of_sameButLine limits debugLevel machine clean (staysClean clean) same

/-- A comment inside a statement puts the rest of it on the next line, and changes nothing else. -/
theorem sameConduct_of_layout_comment :
    SameConduct .standard 0 (.initial fun _ => 0) "print x;" "print // it\n x;" ∧
      SameConduct .standard 0 (.initial fun _ => 0) ("print " ++ "x;")
        ("print " ++ "// it\n" ++ "x;") := by
  have conduct := sameConduct_of_layout .standard 0 (.initial fun _ => 0)
  refine ⟨conduct.1 "print x;" "print // it\n x;" (by decide) (by decide) ?_,
    conduct.2 "print " "// it\n" "x;" ?_ (by decide)⟩
  · exact .cons rfl (.cons rfl (.cons rfl (.cons rfl .nil)))
  · have isLayout : IsLayout "x;".toList "// it\n".toList :=
      @IsLayout.comment _ " it".toList _ (by decide) (.inr rfl) (.lineEnd .nil)
    refine ⟨by decide, isLayout, ?_⟩
    rintro _ ⟨⟩ _ ⟨⟩
    exact ⟨by decide, by decide, by decide⟩

/-- Where the clock has gone on from one run to the next, a text that prints it tells them apart,
with a comment behind it or without one. -/
theorem layout_at_another_time :
    List.Forall₂ Token.SameButLine (scan "print clock();").closedTokens
        (scan "print clock(); // now").closedTokens ∧
      (Run.source ⟨8, 0⟩ 0 "print clock();" (.initial fun _ => 0)).machine.printed = ["0"] ∧
      (Run.source ⟨8, 0⟩ 0 "print clock(); // now" (.initial fun _ => 1)).machine.printed =
        ["1"] := by
  have isProgram : Program.ofSource 8 "print clock();" = ⟨[.printTime], []⟩ := by cbv
  have isCommented : Program.ofSource 8 "print clock(); // now" = ⟨[.printTime], []⟩ := by cbv
  refine ⟨?_, ?_, ?_⟩
  · exact .cons rfl (.cons rfl (.cons rfl (.cons rfl (.cons rfl (.cons rfl .nil)))))
  · rw [Run.source, isProgram, ← display_reading.1]
    rfl
  · rw [Run.source, isCommented, ← display_reading.2]
    rfl

end LoxLang
