import LoxLang.Proofs.Grammar.Exactness
import LoxLang.Proofs.Safety.Text

/-!
# The tokens of trees

A tree that was read holds no token but those it was read from, and the line of every token lies
between the first and the last line of the text.
-/

namespace LoxLang

open Grammar

/-! ## The tokens a tree holds -/

mutual

/-- The tokens of an expression. -/
def Expr.tokens : Expr → List Token
  | .literal _ => []
  | .reference name => [name]
  | .assign name value => name :: value.tokens
  | .binary left operator right => operator :: (left.tokens ++ right.tokens)
  | .logical left operator right => operator :: (left.tokens ++ right.tokens)
  | .unary operator right => operator :: right.tokens
  | .grouping inner => inner.tokens
  | .call callee paren arguments => paren :: (callee.tokens ++ Expr.allTokens arguments)
  | .unexpected _ => []

/-- The tokens of expressions. -/
def Expr.allTokens : List Expr → List Token
  | [] => []
  | expr :: exprs => expr.tokens ++ Expr.allTokens exprs

end

/-- The tokens of an expression that may be left out. -/
def Expr.optionalTokens : Option Expr → List Token
  | none => []
  | some expr => expr.tokens

mutual

/-- The tokens of a statement. -/
def Stmt.tokens : Stmt → List Token
  | .expression value => value.tokens
  | .print value => value.tokens
  | .var name start => name :: Expr.optionalTokens start
  | .block statements => Stmt.allTokens statements
  | .conditional condition consequent alternative =>
    condition.tokens ++ consequent.tokens ++ Stmt.optionalTokens alternative
  | .loop condition body => condition.tokens ++ body.tokens
  | .function name parameters body => name :: (parameters ++ Stmt.allTokens body)
  | .ret keyword value => keyword :: Expr.optionalTokens value
  | .unexpected _ => []

/-- The tokens of statements. -/
def Stmt.allTokens : List Stmt → List Token
  | [] => []
  | stmt :: stmts => stmt.tokens ++ Stmt.allTokens stmts

/-- The tokens of a statement that may be left out. -/
def Stmt.optionalTokens : Option Stmt → List Token
  | none => []
  | some stmt => stmt.tokens

end

/-- A token of some expressions is one of an expression among them. -/
theorem Expr.mem_allTokens {token : Token} {exprs : List Expr} :
    token ∈ Expr.allTokens exprs ↔ ∃ expr ∈ exprs, token ∈ expr.tokens := by
  induction exprs with
  | nil => simp [Expr.allTokens]
  | cons expr exprs inductionHypothesis => simp [Expr.allTokens, inductionHypothesis]

/-- A token of some statements is one of a statement among them. -/
theorem Stmt.mem_allTokens {token : Token} {stmts : List Stmt} :
    token ∈ Stmt.allTokens stmts ↔ ∃ stmt ∈ stmts, token ∈ stmt.tokens := by
  induction stmts with
  | nil => simp [Stmt.allTokens]
  | cons stmt stmts inductionHypothesis => simp [Stmt.allTokens, inductionHypothesis]

namespace Grammar

/-- Every item of a separated list stands in it. -/
theorem Separated.subset {items : List (List Token)} {tokens : List Token}
    (separated : Separated items tokens) : ∀ item ∈ items, item ⊆ tokens := by
  induction separated with
  | none => exact List.forall_mem_nil _
  | last item => exact List.forall_mem_singleton.mpr (List.Subset.refl item)
  | more item _ _ inductionHypothesis =>
    refine List.forall_mem_cons.mpr ⟨List.subset_append_left _ _, fun other isIn => ?_⟩
    have inRest := inductionHypothesis other isIn
    exact List.subset_append_of_subset_right _ (List.subset_cons_of_subset _ inRest)

/-- A node of any level holds its operator and the tokens of its operands. -/
theorem Binding.tokens_node (level : Binding) (left right : Expr) (operator : Token) :
    (level.node left operator right).tokens = operator :: (left.tokens ++ right.tokens) := by
  cases level <;> rfl

/-- The tokens of an expression are among those it was read from. -/
theorem Phrase.tokens_subset {symbol : Symbol} {tokens : List Token} {tree : Expr}
    (phrase : Phrase symbol tokens tree) : tree.tokens ⊆ tokens := by
  induction phrase with
  | assign _ _ _ value => exact List.cons_subset_cons _ (List.subset_cons_of_subset _ value)
  | operate _ _ _ left right =>
    intro token isIn
    rw [Binding.tokens_node] at isIn
    simp only [List.mem_cons, List.mem_append] at isIn ⊢
    rcases isIn with isOperator | isLeft | isRight
    · exact .inr (.inl isOperator)
    · exact .inl (left isLeft)
    · exact .inr (.inr (right isRight))
  | unary _ _ right => exact List.cons_subset_cons _ right
  | operations _ inner | operand _ inner | called _ inner | callee _ inner => exact inner
  | grouping _ _ _ inner =>
    exact List.subset_append_of_subset_left _ (List.subset_cons_of_subset _ inner)
  | call _ _ listed _ _ _ callee each =>
    intro token isIn
    simp only [Expr.tokens, List.mem_cons, List.mem_append] at isIn
    simp only [List.mem_append, List.mem_cons]
    rcases isIn with isParen | isCallee | isArgument
    · exact .inr (.inl isParen)
    · exact .inl (.inl (callee isCallee))
    · obtain ⟨tree, isTree, isIn⟩ := Expr.mem_allTokens.mp isArgument
      obtain ⟨argument, isPart, rfl⟩ := List.mem_map.mp isTree
      have inList := listed.subset argument.1 (List.mem_map_of_mem isPart)
      exact .inl (.inr (.inr (inList (each argument isPart isIn))))
  | number | text | truth | falsehood | nil => exact List.nil_subset _
  | name => exact List.Subset.refl _

/-- An expression statement holds no token but its own. -/
theorem ExpressionStatement.tokens_subset {tokens : List Token} {tree : Stmt}
    (evaluated : ExpressionStatement tokens tree) : tree.tokens ⊆ tokens := by
  obtain ⟨phrase, -⟩ := evaluated
  exact List.subset_append_of_subset_left _ phrase.tokens_subset

/-- A variable declaration holds no token but its own. -/
theorem VariableDeclaration.tokens_subset {tokens : List Token} {tree : Stmt}
    (declared : VariableDeclaration tokens tree) : tree.tokens ⊆ tokens := by
  cases declared with
  | bare => simp [Stmt.tokens, Expr.optionalTokens]
  | initialized _ _ _ phrase =>
    have inside := phrase.tokens_subset
    intro token isIn
    simp only [Stmt.tokens, Expr.optionalTokens, List.mem_cons] at isIn
    simp only [List.cons_append, List.mem_cons, List.mem_append]
    rcases isIn with isName | isStart
    · exact .inr (.inl isName)
    · exact .inr (.inr (.inr (.inl (inside isStart))))

/-- An expression that may be absent holds no token but its own. -/
theorem OptionalPhrase.tokens_subset {tokens : List Token} {value : Option Expr}
    (optional : OptionalPhrase tokens value) : Expr.optionalTokens value ⊆ tokens := by
  cases optional with
  | absent => exact List.nil_subset _
  | present phrase => exact phrase.tokens_subset

/-- What a for loop starts with holds no token but its own. -/
theorem ForInitializer.tokens_subset {tokens : List Token} {start : Option Stmt}
    (initializes : ForInitializer tokens start) : Stmt.allTokens start.toList ⊆ tokens := by
  cases initializes with
  | absent => exact List.nil_subset _
  | declared declaration => simpa [Stmt.allTokens] using declaration.tokens_subset
  | evaluated statement => simpa [Stmt.allTokens] using statement.tokens_subset

/-- Braces add no token. -/
theorem tokens_braced (stmts : List Stmt) : (braced stmts).tokens = Stmt.allTokens stmts := by
  unfold braced
  split
  · simp [Stmt.allTokens]
  · rfl

/-- A `for` loop holds the tokens of its clauses and of its body. -/
theorem tokens_forTree (start : Option Stmt) (condition increment : Option Expr) (body : Stmt) :
    (forTree start condition increment body).tokens =
      Stmt.allTokens start.toList ++ (Expr.optionalTokens condition ++
        (body.tokens ++ Expr.optionalTokens increment)) := by
  cases start <;> cases condition <;> cases increment <;>
    simp [forTree, tokens_braced, Stmt.allTokens, Stmt.tokens, Expr.tokens, Expr.optionalTokens]

/-- A token of a part is a token of all parts together. -/
private theorem mem_flatten_parts {parts : List (List Token × Stmt)} {token : Token}
    (each : ∀ part ∈ parts, part.2.tokens ⊆ part.1)
    (isIn : token ∈ Stmt.allTokens (parts.map (·.2))) : token ∈ (parts.map (·.1)).flatten := by
  obtain ⟨stmt, isStmt, isIn⟩ := Stmt.mem_allTokens.mp isIn
  obtain ⟨part, isPart, rfl⟩ := List.mem_map.mp isStmt
  exact List.mem_flatten.mpr ⟨part.1, List.mem_map_of_mem isPart, each part isPart isIn⟩

/-- The tokens of a statement are among those it was read from. -/
theorem Sentence.tokens_subset {inFunction : Bool} {form : Form} {tokens : List Token}
    {tree : Stmt} (sentence : Sentence inFunction form tokens tree) : tree.tokens ⊆ tokens := by
  induction sentence with
  | function _ _ _ listed _ _ _ _ _ _ each =>
    intro token isIn
    simp only [Stmt.tokens, List.mem_cons, List.mem_append] at isIn
    simp only [List.cons_append, List.append_assoc, List.mem_cons, List.mem_append]
    rcases isIn with isName | isParameter | isBody
    · exact .inr (.inl isName)
    · have inList := listed.subset [token] (List.mem_map_of_mem isParameter)
      exact .inr (.inr (.inr (.inl (inList (List.mem_singleton.mpr rfl)))))
    · exact .inr (.inr (.inr (.inr (.inr (.inr (.inl (mem_flatten_parts each isBody)))))))
  | var declared => exact declared.tokens_subset
  | statement _ inner => exact inner
  | expression evaluated => exact evaluated.tokens_subset
  | print _ phrase =>
    exact List.subset_append_of_subset_left _
      (List.subset_cons_of_subset _ phrase.tokens_subset)
  | ret _ phrase =>
    exact List.subset_append_of_subset_left _ (List.cons_subset_cons _ phrase.tokens_subset)
  | block _ _ _ each =>
    intro token isIn
    exact List.mem_append_left _ (List.mem_cons_of_mem _ (mem_flatten_parts each isIn))
  | loop _ _ tested _ _ body =>
    have inCondition := tested.tokens_subset
    intro token isIn
    simp only [Stmt.tokens, List.mem_append] at isIn
    simp only [List.cons_append, List.mem_cons, List.mem_append]
    rcases isIn with isCondition | isBody
    · exact .inr (.inr (.inl (inCondition isCondition)))
    · exact .inr (.inr (.inr (.inr (body isBody))))
  | forLoop _ _ initializes tested _ increases _ _ body =>
    have inStart := initializes.tokens_subset
    have inCondition := tested.tokens_subset
    have inIncrement := increases.tokens_subset
    intro token isIn
    rw [tokens_forTree] at isIn
    simp only [List.mem_append] at isIn
    simp only [List.cons_append, List.append_assoc, List.mem_cons, List.mem_append]
    rcases isIn with isStart | isCondition | isBody | isIncrement
    · exact .inr (.inr (.inl (inStart isStart)))
    · exact .inr (.inr (.inr (.inl (inCondition isCondition))))
    · exact .inr (.inr (.inr (.inr (.inr (.inr (.inr (body isBody)))))))
    · exact .inr (.inr (.inr (.inr (.inr (.inl (inIncrement isIncrement))))))
  | ifThen _ _ tested _ _ consequent =>
    have inCondition := tested.tokens_subset
    intro token isIn
    simp only [Stmt.tokens, Stmt.optionalTokens, List.append_nil, List.mem_append] at isIn
    simp only [List.cons_append, List.mem_cons, List.mem_append]
    rcases isIn with isCondition | isConsequent
    · exact .inr (.inr (.inl (inCondition isCondition)))
    · exact .inr (.inr (.inr (.inr (consequent isConsequent))))
  | ifElse _ _ tested _ _ _ _ consequent alternative =>
    have inCondition := tested.tokens_subset
    intro token isIn
    simp only [Stmt.tokens, Stmt.optionalTokens, List.mem_append] at isIn
    simp only [List.cons_append, List.append_assoc, List.mem_cons, List.mem_append]
    rcases isIn with (isCondition | isConsequent) | isAlternative
    · exact .inr (.inr (.inl (inCondition isCondition)))
    · exact .inr (.inr (.inr (.inr (.inl (consequent isConsequent)))))
    · exact .inr (.inr (.inr (.inr (.inr (.inr (alternative isAlternative))))))

/-- The trees of a program hold no token but those of the program. -/
theorem Derives.tokens_subset {tokens : List Token} {statements : List Stmt}
    (derives : Derives tokens statements) : Stmt.allTokens statements ⊆ tokens := by
  obtain ⟨each⟩ := derives
  intro token isIn
  exact mem_flatten_parts (fun part isPart => (each part isPart).tokens_subset) isIn

end Grammar

/-! ## Lines -/

namespace Source

/-- Lines are counted through one text and then through the other. -/
theorem lineAfter_append (line : Int) (front back : List Char) :
    lineAfter line (front ++ back) = lineAfter (lineAfter line front) back := by
  simp only [lineAfter, List.count_append, Int.natCast_add, Int.add_assoc]

/-- Lines are counted upwards only. -/
theorem le_lineAfter (line : Int) (text : List Char) : line ≤ lineAfter line text :=
  Int.le_add_of_nonneg_right (Int.natCast_nonneg _)

/-- Pieces are placed between the line they begin on and the line they end on. -/
theorem line_of_mem_placeOnto {pieces : List Piece} {placed : PlacedPiece} :
    ∀ {done : List PlacedPiece} {line : Int}, placed ∈ (placeOnto done line pieces).1 →
      placed ∈ done ∨
        (line ≤ placed.line ∧ placed.line ≤ lineAfter line (pieces.flatMap (·.text))) := by
  induction pieces with
  | nil => exact fun isIn => .inl (List.mem_reverse.mp isIn)
  | cons piece pieces inductionHypothesis =>
    intro done line isIn
    have first := le_lineAfter line piece.text
    rw [List.flatMap_cons, lineAfter_append]
    rcases inductionHypothesis isIn with isDone | ⟨least, most⟩
    · rcases List.mem_cons.mp isDone with rfl | isDone
      · exact .inr ⟨first, le_lineAfter _ _⟩
      · exact .inl isDone
    · exact .inr ⟨Int.le_trans first least, most⟩

/-- A text ends on the line after its line feeds. -/
theorem placeOnto_line (done : List PlacedPiece) (line : Int) (pieces : List Piece) :
    (placeOnto done line pieces).2 = lineAfter line (pieces.flatMap (·.text)) := by
  induction pieces generalizing done line with
  | nil => simp [placeOnto, lineAfter]
  | cons piece pieces inductionHypothesis =>
    rw [placeOnto, inductionHypothesis, List.flatMap_cons, lineAfter_append]

/-- Tokens stand on the lines of the text. -/
theorem line_of_mem_scan {source : String} {token : Token} (isIn : token ∈ (scan source).tokens) :
    1 ≤ token.line ∧ token.line ≤ (scan source).endLine := by
  obtain ⟨placed, isPlaced, isToken⟩ := List.mem_filterMap.mp isIn
  have isLine : token.line = placed.line := by
    unfold PlacedPiece.token? at isToken
    split at isToken
    next => rw [← Option.some.inj isToken]
    next => cases isToken
  have isEnd : (scan source).endLine = lineAfter 1 ((pieces source.toList).flatMap (·.text)) :=
    placeOnto_line [] 1 _
  rw [isLine, isEnd]
  rcases line_of_mem_placeOnto isPlaced with isDone | isBetween
  · cases isDone
  · exact isBetween

end Source

/-- The tokens in the tree of a clean program stand on the lines of its text. -/
theorem Program.line_of_mem_allTokens {limit : Nat} {text : String}
    (clean : (Program.ofSource limit text).isClean = true) {token : Token}
    (isIn : token ∈ Stmt.allTokens (Program.ofSource limit text).statements) :
    1 ≤ token.line ∧ token.line ≤ (Source.scan text).endLine :=
  Source.line_of_mem_scan ((derives_of_isClean clean).tokens_subset isIn)

end LoxLang
