import LoxLang.Proofs.Source.Token
import LoxLang.Proofs.Syntax.Form
import LoxLang.Proofs.Syntax.Parts

/-!
# Printed trees

A tree that was built from tokens is printed as the text of a form. If the tokens are those of a
text and no number in the tree is infinite, the form is a legible one.
-/

namespace LoxLang

open Source

/-! ## The forms of trees -/

/-- The form of a literal. -/
def Literal.form : Literal → Form
  | .nil => .word "nil"
  | .bool value => .word (if value then "true" else "false")
  | .number value => .word (Number.display value)
  | .text value => .quoted value

mutual

/-- The form of an expression. -/
def Expr.form : Expr → Form
  | .literal value => value.form
  | .reference name => .word name.lexeme
  | .assign name value => .group [.word "=", .word name.lexeme, value.form]
  | .binary left operator right => .group [.word operator.lexeme, left.form, right.form]
  | .logical left operator right => .group [.word operator.lexeme, left.form, right.form]
  | .unary operator right => .group [.word operator.lexeme, right.form]
  | .grouping inner => .group [.word "group", inner.form]
  | .call callee _ arguments => .group (.word "call" :: callee.form :: Expr.forms arguments)
  | .unexpected _ => .group []

/-- The forms of expressions. -/
def Expr.forms : List Expr → List Form
  | [] => []
  | expr :: exprs => expr.form :: Expr.forms exprs

end

mutual

/-- The form of a statement. -/
def Stmt.form : Stmt → Form
  | .expression value => .group [.word ";", value.form]
  | .print value => .group [.word "print", value.form]
  | .var name none => .group [.word "var", .word name.lexeme]
  | .var name (some start) => .group [.word "var", .word name.lexeme, .word "=", start.form]
  | .block statements => .group (.word "block" :: Stmt.forms statements)
  | .conditional condition consequent none =>
    .group [.word "if", condition.form, consequent.form]
  | .conditional condition consequent (some alternative) =>
    .group [.word "if-else", condition.form, consequent.form, alternative.form]
  | .loop condition body => .group [.word "while", condition.form, body.form]
  | .function name parameters body =>
    .group (.word "fun" :: .word name.lexeme ::
      .group (parameters.map fun name => .word name.lexeme) :: Stmt.forms body)
  | .ret _ none => .group [.word "return"]
  | .ret _ (some value) => .group [.word "return", value.form]
  | .unexpected _ => .group []

/-- The forms of statements. -/
def Stmt.forms : List Stmt → List Form
  | [] => []
  | stmt :: stmts => stmt.form :: Stmt.forms stmts

end

/-- The forms of expressions are the forms of each. -/
theorem Expr.forms_eq_map (exprs : List Expr) : Expr.forms exprs = exprs.map Expr.form := by
  induction exprs with
  | nil => rfl
  | cons expr exprs inductionHypothesis => rw [Expr.forms, inductionHypothesis, List.map_cons]

/-- The forms of statements are the forms of each. -/
theorem Stmt.forms_eq_map (stmts : List Stmt) : Stmt.forms stmts = stmts.map Stmt.form := by
  induction stmts with
  | nil => rfl
  | cons stmt stmts inductionHypothesis => rw [Stmt.forms, inductionHypothesis, List.map_cons]

/-! ## Trees are printed as their forms -/

variable {known : Token → Prop}

/-- A literal is printed as its form. -/
theorem Literal.printed_eq (literal : Literal) : literal.printed = literal.form.text := by
  cases literal <;> rfl

/-- Expressions are printed as their forms if each of them is. -/
private theorem printedAll_exprs {exprs : List Expr}
    (each : ∀ expr ∈ exprs, expr.toNode.printed = .ok expr.form.text) :
    Node.printedAll (Expr.toNodes exprs) = .ok (Form.texts (Expr.forms exprs)) := by
  induction exprs with
  | nil => rfl
  | cons expr exprs inductionHypothesis =>
    obtain ⟨isFirst, areFurther⟩ := List.forall_mem_cons.mp each
    rw [Expr.toNodes, Node.printedAll, isFirst, inductionHypothesis areFurther]
    rfl

/-- Statements are printed as their forms if each of them is. -/
private theorem printedAll_stmts {stmts : List Stmt}
    (each : ∀ stmt ∈ stmts, stmt.toNode.printed = .ok stmt.form.text) :
    Node.printedAll (Stmt.toNodes stmts) = .ok (Form.texts (Stmt.forms stmts)) := by
  induction stmts with
  | nil => rfl
  | cons stmt stmts inductionHypothesis =>
    obtain ⟨isFirst, areFurther⟩ := List.forall_mem_cons.mp each
    rw [Stmt.toNodes, Node.printedAll, isFirst, inductionHypothesis areFurther]
    rfl

/-- An expression is printed as its form, by induction on how it was built. -/
theorem Expr.Built.printed {expr : Expr} (built : expr.Built known) :
    expr.toNode.printed = .ok expr.form.text := by
  induction built with
  | literal _ =>
    rw [Expr.toNode, Node.printed, Literal.printed_eq]
    rfl
  | reference _ => rfl
  | assign _ _ value =>
    rw [Expr.toNode, Node.printed, value]
    rfl
  | binary _ _ _ left right | logical _ _ _ left right =>
    rw [Expr.toNode, Node.printed, left, right]
    rfl
  | unary _ _ right =>
    rw [Expr.toNode, Node.printed, right]
    rfl
  | grouping _ inner =>
    rw [Expr.toNode, Node.printed, inner]
    rfl
  | call _ _ _ callee each =>
    rw [Expr.toNode, Node.printed, callee, printedAll_exprs each]
    rfl

/-- A node that has a printed form is not left out. -/
private theorem ne_absent_of_printed {node : Node} {text : String}
    (printed : node.printed = .ok text) : node ≠ .absent := by
  rintro rfl
  cases printed

/-- A statement is printed as its form, by induction on how it was built. -/
theorem Stmt.Built.printed {stmt : Stmt} (built : stmt.Built known) :
    stmt.toNode.printed = .ok stmt.form.text := by
  induction built with
  | expression isValue | print isValue =>
    rw [Stmt.toNode, Node.printed, isValue.printed]
    rfl
  | @var name start _ isStart =>
    cases start with
    | none => rfl
    | some start =>
      have isPrinted := (isStart start rfl).printed
      rw [Stmt.toNode, Expr.optionNode, Node.printed, isPrinted]
      · rfl
      · exact ne_absent_of_printed isPrinted
  | block _ each =>
    rw [Stmt.toNode, Node.printed, printedAll_stmts each]
    rfl
  | @conditional _ _ alternative isCondition _ _ consequent each =>
    cases alternative with
    | none =>
      rw [Stmt.toNode, Stmt.optionNode, Node.printed, isCondition.printed, consequent]
      rfl
    | some alternative =>
      have isPrinted := each alternative rfl
      rw [Stmt.toNode, Stmt.optionNode, Node.printed, isCondition.printed, consequent, isPrinted]
      · rfl
      · exact ne_absent_of_printed isPrinted
  | loop isCondition _ body =>
    rw [Stmt.toNode, Node.printed, isCondition.printed, body]
    rfl
  | @function name parameters _ _ _ _ each =>
    have names : parameters.map (·.lexeme) =
        Form.texts (parameters.map fun name => .word name.lexeme) := by
      rw [Form.texts_eq_map, List.map_map]
      rfl
    rw [Stmt.toNode, Node.printed, printedAll_stmts each, names]
    rfl
  | @ret _ value _ isValue =>
    cases value with
    | none => rfl
    | some value =>
      have isPrinted := (isValue value rfl).printed
      rw [Stmt.toNode, Expr.optionNode, Node.printed, isPrinted]
      · rfl
      · exact ne_absent_of_printed isPrinted

/-! ## Forms of trees are legible -/

/-- A character of a word is plain. -/
theorem Form.isPlain_of_isWordCharacter {character : Char}
    (isWord : isWordCharacter character = true) : Form.isPlain character = true := by
  refine decide_eq_true fun isMark => ?_
  simp only [List.mem_cons, List.not_mem_nil, or_false] at isMark
  rcases isMark with rfl | rfl | rfl | rfl <;> cases isWord

/-- A digit is plain. -/
theorem Form.isPlain_of_isDigit {character : Char} (isDigit : Number.isDigit character = true) :
    Form.isPlain character = true :=
  Form.isPlain_of_isWordCharacter (by simp [isWordCharacter, isDigit])

/-- A lexeme is a word, unless it is a parenthesis or a string. -/
theorem Source.Lexeme.plain {kind : TokenKind} {text : List Char} (isLexeme : Lexeme kind text)
    (isWord : kind ∉ [.leftParen, .rightParen, .string]) :
    text ≠ [] ∧ ∀ character ∈ text, Form.isPlain character = true := by
  obtain ⟨first, tail, isText, -⟩ := isLexeme.goesOn
  refine ⟨isText ▸ List.cons_ne_nil first tail, ?_⟩
  cases isLexeme with
  | mark isMark =>
    have plain : marks.all (fun entry => entry.2 ∈ [.leftParen, .rightParen, .string] ||
        entry.1.all Form.isPlain) = true := rfl
    have isPlain := List.all_eq_true.mp plain _ isMark
    simp only [isWord, decide_false, Bool.false_or, List.all_eq_true] at isPlain
    exact isPlain
  | whole _ areDigits => exact fun character isIn => Form.isPlain_of_isDigit (areDigits _ isIn)
  | fraction _ wholeDigits _ areDigits =>
    intro character isIn
    rcases List.mem_append.mp isIn with isWhole | isFraction
    · exact Form.isPlain_of_isDigit (wholeDigits _ isWhole)
    · rcases List.mem_cons.mp isFraction with rfl | isDigit
      · rfl
      · exact Form.isPlain_of_isDigit (areDigits _ isDigit)
  | keyword isKeyword =>
    have areWords := List.all_eq_true.mp (keywords_spelled _ isKeyword).2.1
    exact fun character isIn => Form.isPlain_of_isWordCharacter (areWords character isIn)
  | identifier begins goesOn =>
    refine List.forall_mem_cons.mpr ⟨Form.isPlain_of_isWordCharacter ?_, fun character isIn =>
      Form.isPlain_of_isWordCharacter (goesOn character isIn)⟩
    simp [isWordCharacter, begins]
  | string => simp at isWord

/-- A token that is neither a parenthesis nor a string is a legible word. -/
theorem Token.Serves.legible {token : Token} {kinds : List TokenKind}
    (serves : token.Serves Token.Spelled kinds)
    (areWords : ∀ kind ∈ kinds, kind ∉ [.leftParen, .rightParen, .string]) :
    (Form.word token.lexeme).Legible := by
  obtain ⟨nonempty, plain⟩ := serves.isKnown.isLexeme.plain (areWords _ serves.isKind)
  exact .word nonempty plain

/-- A literal is legible if its number is finite. -/
theorem Literal.Built.legible {literal : Literal} (built : literal.Built Token.Spelled)
    (isFinite : ∀ number, literal = .number number → Number.IsFinite number) :
    literal.form.Legible := by
  cases built with
  | nil => exact .ofWord rfl
  | bool value => cases value <;> exact .ofWord rfl
  | @ofToken token value serves isValue =>
    have isLiteral := isValue.symm.trans serves.isKnown.isLiteral
    have isLexeme := serves.isKnown.isLexeme
    have isKind := serves.isKind
    simp only [List.mem_cons, List.not_mem_nil, or_false] at isKind
    rcases isKind with isNumber | isString
    · rw [isNumber, literalOf] at isLiteral
      obtain ⟨⟨first, rest, isText, -⟩, each⟩ :=
        Number.display_characters (isFinite _ isLiteral)
      rw [isLiteral]
      refine .word (isText ▸ List.cons_ne_nil first rest) fun character isIn => ?_
      rcases each character isIn with isDigit | isOther
      · exact Form.isPlain_of_isDigit isDigit
      · simp only [List.mem_cons, List.not_mem_nil, or_false] at isOther
        rcases isOther with rfl | rfl | rfl | rfl <;> rfl
    · rw [isString] at isLexeme isLiteral
      obtain ⟨body, isText, noQuote⟩ := isLexeme.quoted
      rw [isText] at isLiteral
      rw [isLiteral]
      refine .quoted ?_
      simpa using noQuote

/-- A literal expression is finite if its number is. -/
theorem Expr.IsFinite.literal {value : Literal} (isFinite : (Expr.literal value).IsFinite) :
    ∀ number, value = .number number → Number.IsFinite number := by
  rintro number rfl
  exact isFinite number .refl

/-- A finite expression is legible, by induction on how it was built. -/
theorem Expr.Built.legible {expr : Expr} (built : expr.Built Token.Spelled)
    (isFinite : expr.IsFinite) : expr.form.Legible := by
  induction built with
  | literal isValue => exact isValue.legible isFinite.literal
  | reference isName => exact isName.legible (by decide)
  | assign isName _ value =>
    have isValue := value (isFinite.part List.mem_cons_self)
    exact .named (.ofWord rfl) (List.forall_mem_cons.mpr
      ⟨isName.legible (by decide), List.forall_mem_singleton.mpr isValue⟩)
  | binary _ isOperator _ left right | logical _ isOperator _ left right =>
    have isLeft := left (isFinite.part List.mem_cons_self)
    have isRight := right (isFinite.part (List.mem_cons_of_mem _ List.mem_cons_self))
    exact .named (isOperator.legible (by decide))
      (List.forall_mem_cons.mpr ⟨isLeft, List.forall_mem_singleton.mpr isRight⟩)
  | unary isOperator _ right =>
    have isRight := right (isFinite.part List.mem_cons_self)
    exact .named (isOperator.legible (by decide)) (List.forall_mem_singleton.mpr isRight)
  | grouping _ inner =>
    have isInner := inner (isFinite.part List.mem_cons_self)
    exact .named (.ofWord rfl) (List.forall_mem_singleton.mpr isInner)
  | call _ _ _ callee each =>
    have isCallee := callee (isFinite.part List.mem_cons_self)
    refine .named (.ofWord rfl) (List.forall_mem_cons.mpr ⟨isCallee, ?_⟩)
    rw [forms_eq_map]
    exact List.forall_mem_map.mpr fun argument isIn =>
      each argument isIn (isFinite.part (List.mem_cons_of_mem _ isIn))

/-- A finite statement is legible, by induction on how it was built. -/
theorem Stmt.Built.legible {stmt : Stmt} (built : stmt.Built Token.Spelled)
    (isFinite : stmt.IsFinite) : stmt.form.Legible := by
  induction built with
  | expression isValue | print isValue =>
    have value := isValue.legible (isFinite.value List.mem_cons_self)
    exact .named (.ofWord rfl) (List.forall_mem_singleton.mpr value)
  | @var name start isName isStart =>
    have name := isName.legible (by decide)
    cases start with
    | none => exact .named (.ofWord rfl) (List.forall_mem_singleton.mpr name)
    | some start =>
      have start := (isStart start rfl).legible (isFinite.value List.mem_cons_self)
      exact .named (.ofWord rfl) (List.forall_mem_cons.mpr ⟨name,
        List.forall_mem_cons.mpr ⟨.ofWord rfl, List.forall_mem_singleton.mpr start⟩⟩)
  | block _ each =>
    refine .named (.ofWord rfl) ?_
    rw [forms_eq_map]
    exact List.forall_mem_map.mpr fun stmt isIn => each stmt isIn (isFinite.part isIn)
  | @conditional _ _ alternative isCondition _ _ consequent each =>
    have condition := isCondition.legible (isFinite.value List.mem_cons_self)
    have consequent := consequent (isFinite.part List.mem_cons_self)
    cases alternative with
    | none =>
      exact .named (.ofWord rfl)
        (List.forall_mem_cons.mpr ⟨condition, List.forall_mem_singleton.mpr consequent⟩)
    | some alternative =>
      have alternative := each alternative rfl
        (isFinite.part (List.mem_cons_of_mem _ List.mem_cons_self))
      exact .named (.ofWord rfl) (List.forall_mem_cons.mpr ⟨condition,
        List.forall_mem_cons.mpr ⟨consequent, List.forall_mem_singleton.mpr alternative⟩⟩)
  | loop isCondition _ body =>
    have condition := isCondition.legible (isFinite.value List.mem_cons_self)
    have body := body (isFinite.part List.mem_cons_self)
    exact .named (.ofWord rfl)
      (List.forall_mem_cons.mpr ⟨condition, List.forall_mem_singleton.mpr body⟩)
  | function isName areParameters _ each =>
    refine .named (.ofWord rfl) (List.forall_mem_cons.mpr ⟨isName.legible (by decide),
      List.forall_mem_cons.mpr ⟨.group ?_, ?_⟩⟩)
    · exact List.forall_mem_map.mpr fun parameter isIn =>
        (areParameters parameter isIn).legible (by decide)
    · rw [forms_eq_map]
      exact List.forall_mem_map.mpr fun stmt isIn => each stmt isIn (isFinite.part isIn)
  | @ret _ value _ isValue =>
    cases value with
    | none => exact .named (.ofWord rfl) (List.forall_mem_nil _)
    | some value =>
      have value := (isValue value rfl).legible (isFinite.value List.mem_cons_self)
      exact .named (.ofWord rfl) (List.forall_mem_singleton.mpr value)

end LoxLang
