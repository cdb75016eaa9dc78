import LoxLang.Evaluation.Program
import LoxLang.Proofs.Evaluation.Adequacy
import LoxLang.Proofs.Grammar.Exactness
import LoxLang.Proofs.Safety.Evaluation

/-!
# Trees that were read from text

The grammar derives no node that has no meaning where it stands and no operator that the
interpreter does not know, and a `return` only inside a function. A program without diagnostics
therefore fails at no site but regular ones, and its statements never come to their end by a
`return`.
-/

namespace LoxLang

open BigStep Grammar Rule

/-! ## Known operators -/

/-- Every site of the expression is regular. -/
def Expr.Regular (expr : Expr) : Prop := ∀ site ∈ expr.sites, site.Regular

/-- Every site of the statement is regular. -/
def Stmt.Regular (stmt : Stmt) : Prop := ∀ site ∈ stmt.sites, site.Regular

/-- The sites of statements are regular if each statement is. -/
theorem Stmt.forall_mem_allSites {stmts : List Stmt} (each : ∀ stmt ∈ stmts, stmt.Regular) :
    ∀ site ∈ Stmt.allSites stmts, site.Regular := by
  intro site member
  obtain ⟨stmt, isPart, isSite⟩ := Stmt.mem_allSites.mp member
  exact each stmt isPart site isSite

namespace Grammar

/-- The operators of every level but the logical ones are those that binary nodes know. -/
theorem Binding.operators_known (level : Binding) (noLogical : level ∉ [logicOr, logicAnd]) :
    ∀ kind ∈ level.operators, kind ∈ binaryKinds := by
  revert noLogical
  cases level <;> decide

/-- The operators of a level are known to the interpreter. -/
theorem Binding.node_regular {level : Binding} {left right : Expr} {operator : Token}
    (isOperator : operator.kind ∈ level.operators) (leftRegular : left.Regular)
    (rightRegular : right.Regular) : (level.node left operator right).Regular := by
  have parts : ∀ site ∈ left.sites ++ right.sites, site.Regular :=
    List.forall_mem_append.mpr ⟨leftRegular, rightRegular⟩
  cases level with
  | logicOr | logicAnd => exact List.forall_mem_cons.mpr ⟨trivial, parts⟩
  | equality | comparison | term | factor =>
    have known := Binding.operators_known _ (by decide) operator.kind isOperator
    exact List.forall_mem_cons.mpr ⟨known, parts⟩

/-- The operators of an expression that was read are known. -/
theorem Phrase.regular {symbol : Symbol} {tokens : List Token} {tree : Expr}
    (phrase : Phrase symbol tokens tree) : tree.Regular := by
  induction phrase with
  | assign _ _ _ value => exact List.forall_mem_cons.mpr ⟨trivial, value⟩
  | operate _ isOperator _ left right => exact Binding.node_regular isOperator left right
  | unary isOperator _ right => exact List.forall_mem_cons.mpr ⟨isOperator, right⟩
  | operations _ inner | operand _ inner | called _ inner | callee _ inner
  | grouping _ _ _ inner => exact inner
  | @call _ callee _ closing _ arguments _ _ _ _ _ _ calleeRegular each =>
    refine List.forall_mem_cons.mpr ⟨trivial, List.forall_mem_append.mpr ⟨calleeRegular, ?_⟩⟩
    intro site member
    obtain ⟨expr, isArgument, isSite⟩ := Expr.mem_allSites.mp member
    obtain ⟨argument, isPart, rfl⟩ := List.mem_map.mp isArgument
    exact each argument isPart site isSite
  | number | text | truth | falsehood | nil => exact List.forall_mem_nil _
  | name => exact List.forall_mem_singleton.mpr trivial

/-- An expression statement of the grammar is regular. -/
theorem ExpressionStatement.regular {tokens : List Token} {tree : Stmt}
    (evaluated : ExpressionStatement tokens tree) : tree.Regular := by
  obtain ⟨phrase, -⟩ := evaluated
  exact phrase.regular

/-- A variable declaration of the grammar is regular. -/
theorem VariableDeclaration.regular {tokens : List Token} {tree : Stmt}
    (declared : VariableDeclaration tokens tree) : tree.Regular := by
  cases declared with
  | bare => exact List.forall_mem_nil _
  | initialized _ _ _ phrase => exact phrase.regular

/-- An expression that may be absent is regular. -/
theorem OptionalPhrase.regular {tokens : List Token} {value : Option Expr}
    (optional : OptionalPhrase tokens value) :
    ∀ site ∈ Expr.optionalSites value, site.Regular := by
  cases optional with
  | absent => exact List.forall_mem_nil _
  | present phrase => exact phrase.regular

/-- What a for loop starts with is regular. -/
theorem ForInitializer.regular {tokens : List Token} {start : Option Stmt}
    (initializes : ForInitializer tokens start) : ∀ stmt ∈ start.toList, stmt.Regular := by
  cases initializes with
  | absent => exact List.forall_mem_nil _
  | declared declaration => exact List.forall_mem_singleton.mpr declaration.regular
  | evaluated statement => exact List.forall_mem_singleton.mpr statement.regular

/-- Braces add no site. -/
theorem braced_regular {stmts : List Stmt} (each : ∀ stmt ∈ stmts, stmt.Regular) :
    (braced stmts).Regular := by
  unfold braced
  split
  · exact each _ (List.mem_singleton.mpr rfl)
  · exact Stmt.forall_mem_allSites each

/-- A `for` loop has the sites of its clauses. -/
theorem forTree_regular {start : Option Stmt} {condition increment : Option Expr} {body : Stmt}
    (startRegular : ∀ stmt ∈ start.toList, stmt.Regular)
    (conditionRegular : ∀ site ∈ Expr.optionalSites condition, site.Regular)
    (incrementRegular : ∀ site ∈ Expr.optionalSites increment, site.Regular)
    (bodyRegular : body.Regular) : (forTree start condition increment body).Regular := by
  have tested : (condition.getD (.literal (.bool true))).Regular := by
    cases condition with
    | none => exact List.forall_mem_nil _
    | some condition => exact conditionRegular
  have increased : ∀ stmt ∈ (increment.map Stmt.expression).toList, stmt.Regular := by
    cases increment with
    | none => exact List.forall_mem_nil _
    | some increment => exact List.forall_mem_singleton.mpr incrementRegular
  have turned : (braced (body :: (increment.map .expression).toList)).Regular :=
    braced_regular (List.forall_mem_cons.mpr ⟨bodyRegular, increased⟩)
  refine braced_regular (List.forall_mem_append.mpr ⟨startRegular, ?_⟩)
  exact List.forall_mem_singleton.mpr (List.forall_mem_append.mpr ⟨tested, turned⟩)

/-- The operators of a statement that was read are known. -/
theorem Sentence.regular {inFunction : Bool} {form : Form} {tokens : List Token} {tree : Stmt}
    (sentence : Sentence inFunction form tokens tree) : tree.Regular := by
  induction sentence with
  | function _ _ _ _ _ _ _ _ _ _ each | block _ _ _ each =>
    refine Stmt.forall_mem_allSites fun stmt member => ?_
    obtain ⟨part, isPart, rfl⟩ := List.mem_map.mp member
    exact each part isPart
  | var declared => exact declared.regular
  | statement _ inner => exact inner
  | expression evaluated => exact evaluated.regular
  | print _ phrase => exact phrase.regular
  | ret _ phrase => exact phrase.regular
  | loop _ _ tested _ _ body => exact List.forall_mem_append.mpr ⟨tested.regular, body⟩
  | forLoop _ _ initializes tested _ increases _ _ body =>
    exact forTree_regular initializes.regular tested.regular increases.regular body
  | ifThen _ _ tested _ _ consequent =>
    refine List.forall_mem_append.mpr ⟨?_, List.forall_mem_nil _⟩
    exact List.forall_mem_append.mpr ⟨tested.regular, consequent⟩
  | ifElse _ _ tested _ _ _ _ consequent alternative =>
    refine List.forall_mem_append.mpr ⟨?_, alternative⟩
    exact List.forall_mem_append.mpr ⟨tested.regular, consequent⟩

end Grammar

/-! ## Returns -/

mutual

/-- A `return` stands in the statement outside of the functions that it declares. -/
def Stmt.mayReturn : Stmt → Bool
  | .ret _ _ => true
  | .block statements => Stmt.anyMayReturn statements
  | .conditional _ consequent alternative =>
    consequent.mayReturn || Stmt.optionalMayReturn alternative
  | .loop _ body => body.mayReturn
  | .expression _ | .print _ | .var _ _ | .function _ _ _ | .unexpected _ => false

/-- A `return` stands in one of the statements. -/
def Stmt.anyMayReturn : List Stmt → Bool
  | [] => false
  | stmt :: stmts => stmt.mayReturn || Stmt.anyMayReturn stmts

/-- A `return` stands in a statement that may be left out. -/
def Stmt.optionalMayReturn : Option Stmt → Bool
  | none => false
  | some stmt => stmt.mayReturn

end

/-- Statements return nothing if none of them does. -/
theorem Stmt.anyMayReturn_eq_false {stmts : List Stmt}
    (each : ∀ stmt ∈ stmts, stmt.mayReturn = false) : Stmt.anyMayReturn stmts = false := by
  induction stmts with
  | nil => rfl
  | cons stmt stmts inductionHypothesis =>
    obtain ⟨first, further⟩ := List.forall_mem_cons.mp each
    rw [Stmt.anyMayReturn, first, inductionHypothesis further, Bool.or_false]

namespace Grammar

/-- Statements in braces return nothing if none of them does. -/
theorem braced_mayReturn {stmts : List Stmt} (each : ∀ stmt ∈ stmts, stmt.mayReturn = false) :
    (braced stmts).mayReturn = false := by
  unfold braced
  split
  · exact each _ (List.mem_singleton.mpr rfl)
  · exact Stmt.anyMayReturn_eq_false each

/-- A variable declaration returns nothing. -/
theorem VariableDeclaration.mayReturn {tokens : List Token} {tree : Stmt}
    (declared : VariableDeclaration tokens tree) : tree.mayReturn = false := by
  cases declared <;> rfl

/-- An expression statement returns nothing. -/
theorem ExpressionStatement.mayReturn {tokens : List Token} {tree : Stmt}
    (evaluated : ExpressionStatement tokens tree) : tree.mayReturn = false := by
  cases evaluated
  rfl

/-- What a for loop starts with returns nothing. -/
theorem ForInitializer.mayReturn {tokens : List Token} {start : Option Stmt}
    (initializes : ForInitializer tokens start) :
    ∀ stmt ∈ start.toList, stmt.mayReturn = false := by
  cases initializes with
  | absent => exact List.forall_mem_nil _
  | declared declaration => exact List.forall_mem_singleton.mpr declaration.mayReturn
  | evaluated statement => exact List.forall_mem_singleton.mpr statement.mayReturn

/-- A for loop returns nothing if its parts do not. -/
theorem forTree_mayReturn {start : Option Stmt} {condition increment : Option Expr} {body : Stmt}
    (startReturns : ∀ stmt ∈ start.toList, stmt.mayReturn = false)
    (bodyReturns : body.mayReturn = false) :
    (forTree start condition increment body).mayReturn = false := by
  have increased : ∀ stmt ∈ (increment.map Stmt.expression).toList, stmt.mayReturn = false := by
    cases increment with
    | none => exact List.forall_mem_nil _
    | some increment => exact List.forall_mem_singleton.mpr rfl
  refine braced_mayReturn (List.forall_mem_append.mpr ⟨startReturns, ?_⟩)
  exact List.forall_mem_singleton.mpr
    (braced_mayReturn (List.forall_mem_cons.mpr ⟨bodyReturns, increased⟩))

/-- Outside of all functions the grammar derives no `return`. -/
theorem Sentence.mayReturn {inFunction : Bool} {form : Form} {tokens : List Token} {tree : Stmt}
    (sentence : Sentence inFunction form tokens tree) (outside : inFunction = false) :
    tree.mayReturn = false := by
  induction sentence with
  | function => rfl
  | var declared => exact declared.mayReturn
  | statement _ inner => exact inner outside
  | expression evaluated => exact evaluated.mayReturn
  | print => rfl
  | ret => exact nomatch outside
  | block _ _ _ each =>
    refine Stmt.anyMayReturn_eq_false fun stmt member => ?_
    obtain ⟨part, isPart, rfl⟩ := List.mem_map.mp member
    exact each part isPart outside
  | loop _ _ _ _ _ body => exact body outside
  | forLoop _ _ initializes _ _ _ _ _ body =>
    exact forTree_mayReturn initializes.mayReturn (body outside)
  | ifThen _ _ _ _ _ consequent =>
    exact (Bool.or_false _).trans (consequent outside)
  | ifElse _ _ _ _ _ _ _ consequent alternative =>
    exact Bool.or_eq_false_iff.mpr ⟨consequent outside, alternative outside⟩

end Grammar

namespace BigStep

/-- The task is to execute a statement in which a `return` stands. -/
def Task.mayReturn : Task → Bool
  | .execute _ stmt => stmt.mayReturn
  | .executeAll _ stmts => Stmt.anyMayReturn stmts
  | _ => false

/-- A statement, or one of several, came to its end by a `return`. -/
def Task.Returned : (task : Task) → Ending task.Result → Prop
  | .execute _ _, ending | .executeAll _ _, ending => ∃ value, ending = .ok (.returned value)
  | _, _ => False

/-- Only where a `return` stands a statement comes to its end by one; what a call returns has no
bearing on the statement that calls. -/
theorem Ends.mayReturn {limited : Bool} {task : Task} {before after : State}
    {ending : Ending task.Result} (ends : Ends limited task before ending after)
    (returned : task.Returned ending) : task.mayReturn = true := by
  induction ends with
  | ret | retNil => rfl
  | block _ body => exact body returned
  | chosen _ _ _ _ consequent => exact Bool.or_eq_true_iff.mpr (.inl (consequent returned))
  | refused _ _ _ _ alternative => exact Bool.or_eq_true_iff.mpr (.inr (alternative returned))
  | loopReturns _ _ _ _ body => exact body returned
  | loopTurns _ _ _ _ _ _ further => exact further returned
  | executeReturns _ first => exact Bool.or_eq_true_iff.mpr (.inl (first returned))
  | executeMore _ _ _ further => exact Bool.or_eq_true_iff.mpr (.inr (further returned))
  | @overflow task =>
    cases task with
    | execute | executeAll =>
      obtain ⟨value, isReturned⟩ := returned
      exact nomatch isReturned
    | _ => exact returned.elim
  | _ => rcases returned with ⟨_, ⟨⟩⟩

end BigStep

/-! ## Programs and lines -/

/-- Every statement of a program is one of its sentences. -/
theorem Grammar.Derives.sentence {tokens : List Token} {statements : List Stmt}
    (derives : Derives tokens statements) {stmt : Stmt} (isStatement : stmt ∈ statements) :
    ∃ used, Sentence false .declaration used stmt := by
  obtain ⟨each⟩ := derives
  obtain ⟨part, isPart, rfl⟩ := List.mem_map.mp isStatement
  exact ⟨part.1, each part isPart⟩

/-- The statements of a clean program are derived from the tokens of its text. -/
theorem Program.derives_of_isClean {limit : Nat} {text : String}
    (clean : (Program.ofSource limit text).isClean = true) :
    Derives (Source.scan text).tokens (Program.ofSource limit text).statements := by
  have noDiagnostics : (Program.ofSource limit text).diagnostics = [] := List.isEmpty_iff.mp clean
  have noErrors := List.map_eq_nil_iff.mp (List.append_eq_nil_iff.mp noDiagnostics).2
  exact derives_of_parse (congrArg (Parsed.mk _) noErrors)

/-- Without an error, an expression is read if its rule reads it. -/
theorem Grammar.reads_of_parseExpression {limit : Nat} {tokens : List Token} {endLine : Int}
    {expr : Expr} (parsed : parseExpression limit tokens endLine = (some expr, [])) :
    ∃ rest, Reads (wholeExpression limit) ⟨endLine, false⟩ tokens expr rest := by
  unfold parseExpression at parsed
  unfold Reads
  generalize wholeExpression limit ⟨endLine, false⟩ tokens = reply at parsed ⊢
  obtain ⟨errors, rest, result⟩ := reply
  obtain ⟨isFound, rfl⟩ := Prod.mk.inj parsed
  cases result with
  | ok value =>
    obtain rfl := Option.some.inj isFound
    exact ⟨rest, rfl⟩
  | error stop => exact nomatch isFound

end LoxLang
