import LoxLang.Proofs.Syntax.Printing

/-!
# Printed trees are told apart

Trees that were built from the tokens of texts, and in which all numbers are finite, have the same
printed form only if they differ in the lines of their tokens at most. The form of an expression
tells its kind, and the words in it tell the tokens that they stand for.
-/

namespace LoxLang

open Source

/-- Tokens stand for those that differ from them in the line at most. -/
def Pairing.upToLines : Pairing := ⟨Token.SameButLine, id⟩

/-- Items with the same images are related if any two of them with the same image are. -/
private theorem forall₂_of_map_eq {α β : Type} {image : α → β} {relation : α → α → Prop}
    {items others : List α}
    (related : ∀ item ∈ items, ∀ other ∈ others, image item = image other → relation item other)
    (same : items.map image = others.map image) : List.Forall₂ relation items others := by
  induction items generalizing others with
  | nil =>
    rw [List.map_nil, eq_comm, List.map_eq_nil_iff] at same
    rw [same]
    exact .nil
  | cons item items inductionHypothesis =>
    obtain ⟨other, further, rfl, isOther, areFurther⟩ := List.map_eq_cons_iff.mp same.symm
    refine .cons (related item List.mem_cons_self other List.mem_cons_self isOther.symm) ?_
    exact inductionHypothesis (fun item isIn other isOther =>
      related item (List.mem_cons_of_mem _ isIn) other (List.mem_cons_of_mem _ isOther))
      areFurther.symm

/-- Expressions that may be absent are related if those that are there are. -/
private theorem rel_of_form_eq {α : Type} {form : α → Form} {relation : α → α → Prop}
    {option otherOption : Option α}
    (same : Option.Rel (fun item other => form item = form other) option otherOption)
    (related : ∀ item ∈ option, ∀ other ∈ otherOption, form item = form other →
      relation item other) : Option.Rel relation option otherOption := by
  cases same with
  | none => exact .none
  | some same => exact .some (related _ rfl _ rfl same)

/-! ## Words -/

namespace Token.Serves

variable {token other : Token} {kinds : List TokenKind}

/-- A word of another kind is not the lexeme of the token. -/
theorem lexeme_ne (serves : token.Serves Token.Spelled kinds) {word : String} {kind : TokenKind}
    (isLexeme : Lexeme kind word.toList) (noKind : kind ∉ kinds) : token.lexeme ≠ word := by
  rintro rfl
  rw [← isLexeme.kind_unique serves.isKnown.isLexeme] at noKind
  exact noKind serves.isKind

/-- An operator is none of the other words that an expression can begin with. -/
theorem names_nothing (serves : token.Serves Token.Spelled kinds)
    (areOperators : ∀ kind ∈ kinds, kind ∉ [.equal, .identifier]) :
    token.lexeme ≠ "=" ∧ token.lexeme ≠ "group" ∧ token.lexeme ≠ "call" := by
  have noEqual : TokenKind.equal ∉ kinds := fun isIn => areOperators _ isIn (by decide)
  have noName : TokenKind.identifier ∉ kinds := fun isIn => areOperators _ isIn (by decide)
  exact ⟨serves.lexeme_ne (.mark (by decide)) noEqual,
    serves.lexeme_ne (.ofWord rfl rfl) noName, serves.lexeme_ne (.ofWord rfl rfl) noName⟩

/-- Tokens of a kind that has one lexeme only differ in their lines at most. -/
theorem sameButLine_of_fixed {kind : TokenKind} (serves : token.Serves Token.Spelled [kind])
    (otherServes : other.Serves Token.Spelled [kind])
    (fixed : kind ∉ [.identifier, .string, .number]) : token.SameButLine other := by
  have isKind := List.mem_singleton.mp serves.isKind
  exact serves.isKnown.sameButLine_of_kind otherServes.isKnown
    ((List.mem_singleton.mp otherServes.isKind).trans isKind.symm) (isKind ▸ fixed)

end Token.Serves

/-- A token is written as a logical operator if it is one. -/
theorem Token.Spelled.connective_iff {token : Token} (spelled : token.Spelled) :
    token.lexeme ∈ ["or", "and"] ↔ token.kind ∈ [.keyOr, .keyAnd] := by
  have disjunction : Lexeme .keyOr "or".toList := .keyword (by decide)
  have conjunction : Lexeme .keyAnd "and".toList := .keyword (by decide)
  have isLexeme := spelled.isLexeme
  simp only [List.mem_cons, List.not_mem_nil, or_false]
  constructor
  · rintro (isOr | isAnd)
    · rw [isOr] at isLexeme
      exact .inl (disjunction.kind_unique isLexeme)
    · rw [isAnd] at isLexeme
      exact .inr (conjunction.kind_unique isLexeme)
  · rintro (isOr | isAnd)
    · rw [isOr] at isLexeme
      exact .inl (String.toList_inj.mp (disjunction.text_unique isLexeme (by decide)))
    · rw [isAnd] at isLexeme
      exact .inr (String.toList_inj.mp (conjunction.text_unique isLexeme (by decide)))

/-! ## Literals -/

namespace Literal

variable {literal other : Literal}

/-- The form of a literal is not that of another one. -/
theorem eq_of_form_eq (isFinite : ∀ number, literal = .number number → Number.IsFinite number)
    (otherFinite : ∀ number, other = .number number → Number.IsFinite number)
    (same : literal.form = other.form) : literal = other := by
  cases literal with
  | nil =>
    cases other with
    | nil => rfl
    | bool value => cases value <;> simp [form] at same
    | number value =>
      exact absurd (Form.word.inj same).symm (Number.display_ne (otherFinite value rfl) rfl)
    | text => cases same
  | bool value =>
    cases other with
    | nil => cases value <;> simp [form] at same
    | bool other => cases value <;> cases other <;> simp [form] at same ⊢
    | number number =>
      refine absurd (Form.word.inj same).symm (Number.display_ne (otherFinite number rfl) ?_)
      cases value <;> rfl
    | text => cases same
  | number number =>
    have noWord {word : String} (begins : word.toList.head?.any isLetter = true) :=
      Number.display_ne (isFinite number rfl) begins
    cases other with
    | nil => exact absurd (Form.word.inj same) (noWord rfl)
    | bool value =>
      refine absurd (Form.word.inj same) (noWord ?_)
      cases value <;> rfl
    | number other =>
      exact congrArg _ (Number.eq_of_display_eq (isFinite number rfl) (otherFinite other rfl)
        (Form.word.inj same))
    | text => cases same
  | text body =>
    cases other with
    | text other => exact congrArg _ (Form.quoted.inj same)
    | nil | bool | number => cases same

end Literal

/-! ## Expressions -/

/-- The kind of the expressions that have this form. -/
def Form.exprKind : Form → NodeKind
  | .quoted _ => .literal
  | .word text =>
    if TokenKind.ofWord text = .identifier ∧ text.toList.head?.any isLetter = true then .reference
    else .literal
  | .group (.word name :: parts) =>
    if name = "=" then .assign
    else if name = "group" then .grouping
    else if name = "call" then .call
    else if name ∈ ["or", "and"] then .logical
    else if parts.length = 1 then .unary
    else .binary
  | .group _ => .absent

namespace Expr

variable {expr other : Expr}

/-- The form of an expression tells of which kind it is. -/
theorem Built.exprKind_form (built : expr.Built Token.Spelled) (isFinite : expr.IsFinite) :
    expr.form.exprKind = expr.toNode.kind := by
  cases built with
  | @literal value isValue =>
    cases value with
    | nil => rfl
    | bool value => cases value <;> rfl
    | number number =>
      exact if_neg fun isName => Number.display_ne (isFinite.literal number rfl) isName.2 rfl
    | text body => rfl
  | reference isName =>
    have isLexeme := isName.isKnown.isLexeme
    rw [List.mem_singleton.mp isName.isKind] at isLexeme
    exact if_pos isLexeme.isName
  | assign | grouping | call => rfl
  | binary _ isOperator _ | unary isOperator _ =>
    obtain ⟨noEqual, noGroup, noCall⟩ := isOperator.names_nothing (by decide)
    have noConnective := mt isOperator.isKnown.connective_iff.mp
      ((by decide : ∀ kind ∈ _, kind ∉ [.keyOr, .keyAnd]) _ isOperator.isKind)
    simp only [form, Form.exprKind, noEqual, noGroup, noCall, noConnective, if_false]
    rfl
  | logical _ isOperator _ =>
    obtain ⟨noEqual, noGroup, noCall⟩ := isOperator.names_nothing (by decide)
    have isConnective := isOperator.isKnown.connective_iff.mpr isOperator.isKind
    simp only [form, Form.exprKind, noEqual, noGroup, noCall, isConnective, if_true, if_false]
    rfl

/-- Expressions with the same form are nodes of the same kind. -/
private theorem kind_eq_of_form_eq (built : expr.Built Token.Spelled)
    (otherBuilt : other.Built Token.Spelled) (isFinite : expr.IsFinite)
    (otherFinite : other.IsFinite) (same : expr.form = other.form) :
    expr.toNode.kind = other.toNode.kind := by
  rw [← built.exprKind_form isFinite, same, otherBuilt.exprKind_form otherFinite]

/-- Expressions that were built from tokens have the same form only if they differ in the lines of
their tokens at most. -/
theorem Built.onExpr_of_form_eq (built : expr.Built Token.Spelled)
    (otherBuilt : other.Built Token.Spelled) (isFinite : expr.IsFinite)
    (otherFinite : other.IsFinite) (same : expr.form = other.form) :
    Pairing.upToLines.OnExpr expr other := by
  -- The kinds of both are the same, which leaves one case for each kind.
  induction built generalizing other with
  | literal isValue =>
    have sameKind := kind_eq_of_form_eq (.literal isValue) otherBuilt isFinite otherFinite same
    cases otherBuilt with
    | literal otherValue =>
      rw [Literal.eq_of_form_eq isFinite.literal otherFinite.literal same]
      exact .literal _
    | _ => cases sameKind
  | reference isName =>
    have sameKind := kind_eq_of_form_eq (.reference isName) otherBuilt isFinite otherFinite same
    cases otherBuilt with
    | reference otherName =>
      exact .reference (isName.isKnown.sameButLine otherName.isKnown (Form.word.inj same))
    | _ => cases sameKind
  | assign isName isValue value =>
    have sameKind := kind_eq_of_form_eq (.assign isName isValue) otherBuilt isFinite otherFinite
      same
    cases otherBuilt with
    | assign otherName otherValue =>
      simp only [form, Form.group.injEq, List.cons.injEq, Form.word.injEq, true_and,
        and_true] at same
      exact .assign (isName.isKnown.sameButLine otherName.isKnown same.1)
        (value otherValue (isFinite.part List.mem_cons_self)
          (otherFinite.part List.mem_cons_self) same.2)
    | _ => cases sameKind
  | binary isLeft isOperator isRight left right =>
    have sameKind := kind_eq_of_form_eq (.binary isLeft isOperator isRight) otherBuilt isFinite
      otherFinite same
    cases otherBuilt with
    | binary otherLeft otherOperator otherRight =>
      simp only [form, Form.group.injEq, List.cons.injEq, Form.word.injEq, and_true] at same
      obtain ⟨sameOperator, sameLeft, sameRight⟩ := same
      refine .binary ?_ (isOperator.isKnown.sameButLine otherOperator.isKnown sameOperator) ?_
      · exact left otherLeft (isFinite.part List.mem_cons_self)
          (otherFinite.part List.mem_cons_self) sameLeft
      · exact right otherRight (isFinite.part (List.mem_cons_of_mem _ List.mem_cons_self))
          (otherFinite.part (List.mem_cons_of_mem _ List.mem_cons_self)) sameRight
    | _ => cases sameKind
  | logical isLeft isOperator isRight left right =>
    have sameKind := kind_eq_of_form_eq (.logical isLeft isOperator isRight) otherBuilt isFinite
      otherFinite same
    cases otherBuilt with
    | logical otherLeft otherOperator otherRight =>
      simp only [form, Form.group.injEq, List.cons.injEq, Form.word.injEq, and_true] at same
      obtain ⟨sameOperator, sameLeft, sameRight⟩ := same
      refine .logical ?_ (isOperator.isKnown.sameButLine otherOperator.isKnown sameOperator) ?_
      · exact left otherLeft (isFinite.part List.mem_cons_self)
          (otherFinite.part List.mem_cons_self) sameLeft
      · exact right otherRight (isFinite.part (List.mem_cons_of_mem _ List.mem_cons_self))
          (otherFinite.part (List.mem_cons_of_mem _ List.mem_cons_self)) sameRight
    | _ => cases sameKind
  | unary isOperator isRight right =>
    have sameKind := kind_eq_of_form_eq (.unary isOperator isRight) otherBuilt isFinite
      otherFinite same
    cases otherBuilt with
    | unary otherOperator otherRight =>
      simp only [form, Form.group.injEq, List.cons.injEq, Form.word.injEq, and_true] at same
      exact .unary (isOperator.isKnown.sameButLine otherOperator.isKnown same.1)
        (right otherRight (isFinite.part List.mem_cons_self)
          (otherFinite.part List.mem_cons_self) same.2)
    | _ => cases sameKind
  | grouping isInner inner =>
    have sameKind := kind_eq_of_form_eq (.grouping isInner) otherBuilt isFinite otherFinite same
    cases otherBuilt with
    | grouping otherInner =>
      simp only [form, Form.group.injEq, List.cons.injEq, true_and, and_true] at same
      exact .grouping (inner otherInner (isFinite.part List.mem_cons_self)
        (otherFinite.part List.mem_cons_self) same)
    | _ => cases sameKind
  | call isCallee isParen areArguments callee each =>
    have sameKind := kind_eq_of_form_eq (.call isCallee isParen areArguments) otherBuilt isFinite
      otherFinite same
    cases otherBuilt with
    | call otherCallee otherParen otherArguments =>
      simp only [form, Form.group.injEq, List.cons.injEq, forms_eq_map, true_and] at same
      refine .call ?_ (isParen.sameButLine_of_fixed otherParen (by decide)) ?_
      · exact callee otherCallee (isFinite.part List.mem_cons_self)
          (otherFinite.part List.mem_cons_self) same.1
      · refine forall₂_of_map_eq (fun argument isIn other isOther sameForm => ?_) same.2
        exact each argument isIn (otherArguments other isOther)
          (isFinite.part (List.mem_cons_of_mem _ isIn))
          (otherFinite.part (List.mem_cons_of_mem _ isOther)) sameForm
    | _ => cases sameKind

end Expr

/-! ## Statements -/

/-- The kind of the statements that have this form. -/
def Form.stmtKind : Form → NodeKind
  | .group (.word name :: _) =>
    let kinds := [(";", .expression), ("print", .print), ("var", .var), ("block", .block),
      ("if", .conditional), ("if-else", .conditional), ("while", .loop), ("fun", .function),
      ("return", .ret)]
    (kinds.lookup name).getD .absent
  | _ => .absent

namespace Stmt

variable {known : Token → Prop} {stmt other : Stmt}

/-- The form of a statement tells of which kind it is. -/
theorem Built.stmtKind_form (built : stmt.Built known) : stmt.form.stmtKind = stmt.toNode.kind := by
  cases built with
  | @var _ start => cases start <;> rfl
  | @conditional _ _ alternative => cases alternative <;> rfl
  | @ret _ value => cases value <;> rfl
  | _ => rfl

/-- Statements with the same form are nodes of the same kind. -/
private theorem kind_eq_of_form_eq (built : stmt.Built known) (otherBuilt : other.Built known)
    (same : stmt.form = other.form) : stmt.toNode.kind = other.toNode.kind := by
  rw [← built.stmtKind_form, same, otherBuilt.stmtKind_form]

/-- Variable declarations with the same form have the same name and initializers of the same form.
-/
private theorem var_form_eq {name otherName : Token} {start otherStart : Option Expr}
    (same : (Stmt.var name start).form = (Stmt.var otherName otherStart).form) :
    name.lexeme = otherName.lexeme ∧
      Option.Rel (fun value other => value.form = other.form) start otherStart := by
  cases start <;> cases otherStart <;>
    simp only [form, Form.group.injEq, List.cons.injEq, Form.word.injEq, true_and, and_true,
      reduceCtorEq, and_false] at same
  · exact ⟨same, .none⟩
  · exact ⟨same.1, .some same.2⟩

/-- Conditionals with the same form have parts of the same form. -/
private theorem conditional_form_eq {condition otherCondition : Expr}
    {consequent otherConsequent : Stmt} {alternative otherAlternative : Option Stmt}
    (same : (Stmt.conditional condition consequent alternative).form =
      (Stmt.conditional otherCondition otherConsequent otherAlternative).form) :
    condition.form = otherCondition.form ∧ consequent.form = otherConsequent.form ∧
      Option.Rel (fun stmt other => stmt.form = other.form) alternative otherAlternative := by
  cases alternative <;> cases otherAlternative <;>
    simp only [form, Form.group.injEq, List.cons.injEq, true_and, and_true, reduceCtorEq,
      and_false] at same
  · exact ⟨same.1, same.2, .none⟩
  · exact ⟨same.1, same.2.1, .some same.2.2⟩

/-- Return statements with the same form have values of the same form. -/
private theorem ret_form_eq {keyword otherKeyword : Token} {value otherValue : Option Expr}
    (same : (Stmt.ret keyword value).form = (Stmt.ret otherKeyword otherValue).form) :
    Option.Rel (fun value other => value.form = other.form) value otherValue := by
  cases value <;> cases otherValue <;>
    simp only [form, Form.group.injEq, List.cons.injEq, true_and, and_true, reduceCtorEq,
      and_false] at same
  · exact .none
  · exact .some same

/-- Statements that were built from tokens have the same form only if they differ in the lines of
their tokens at most. -/
theorem Built.onStmt_of_form_eq (built : stmt.Built Token.Spelled)
    (otherBuilt : other.Built Token.Spelled) (isFinite : stmt.IsFinite)
    (otherFinite : other.IsFinite) (same : stmt.form = other.form) :
    Pairing.upToLines.OnStmt stmt other := by
  induction built generalizing other with
  | expression isValue =>
    have sameKind := kind_eq_of_form_eq (.expression isValue) otherBuilt same
    cases otherBuilt with
    | expression otherValue =>
      simp only [form, Form.group.injEq, List.cons.injEq, true_and, and_true] at same
      exact .expression (isValue.onExpr_of_form_eq otherValue (isFinite.value List.mem_cons_self)
        (otherFinite.value List.mem_cons_self) same)
    | _ => cases sameKind
  | print isValue =>
    have sameKind := kind_eq_of_form_eq (.print isValue) otherBuilt same
    cases otherBuilt with
    | print otherValue =>
      simp only [form, Form.group.injEq, List.cons.injEq, true_and, and_true] at same
      exact .print (isValue.onExpr_of_form_eq otherValue (isFinite.value List.mem_cons_self)
        (otherFinite.value List.mem_cons_self) same)
    | _ => cases sameKind
  | var isName isStart =>
    have sameKind := kind_eq_of_form_eq (.var isName isStart) otherBuilt same
    cases otherBuilt with
    | var otherName otherStart =>
      obtain ⟨sameName, sameStart⟩ := var_form_eq same
      refine .var (isName.isKnown.sameButLine otherName.isKnown sameName) ?_
      exact rel_of_form_eq sameStart fun start isIn other isOther =>
        (isStart start isIn).onExpr_of_form_eq (otherStart other isOther)
          (isFinite.value (Option.mem_toList.mpr isIn))
          (otherFinite.value (Option.mem_toList.mpr isOther))
    | _ => cases sameKind
  | block areBuilt each =>
    have sameKind := kind_eq_of_form_eq (.block areBuilt) otherBuilt same
    cases otherBuilt with
    | block othersBuilt =>
      simp only [form, Form.group.injEq, List.cons.injEq, forms_eq_map, true_and] at same
      refine .block (forall₂_of_map_eq (fun stmt isIn other isOther sameForm => ?_) same)
      exact each stmt isIn (othersBuilt other isOther) (isFinite.part isIn)
        (otherFinite.part isOther) sameForm
    | _ => cases sameKind
  | conditional isCondition isConsequent isAlternative consequent each =>
    have sameKind := kind_eq_of_form_eq (.conditional isCondition isConsequent isAlternative)
      otherBuilt same
    cases otherBuilt with
    | conditional otherCondition otherConsequent otherAlternative =>
      obtain ⟨sameCondition, sameConsequent, sameAlternative⟩ := conditional_form_eq same
      refine .conditional ?_ ?_ (rel_of_form_eq sameAlternative ?_)
      · exact isCondition.onExpr_of_form_eq otherCondition (isFinite.value List.mem_cons_self)
          (otherFinite.value List.mem_cons_self) sameCondition
      · exact consequent otherConsequent (isFinite.part List.mem_cons_self)
          (otherFinite.part List.mem_cons_self) sameConsequent
      · exact fun alternative isIn other isOther =>
          each alternative isIn (otherAlternative other isOther)
            (isFinite.part (List.mem_cons_of_mem _ (Option.mem_toList.mpr isIn)))
            (otherFinite.part (List.mem_cons_of_mem _ (Option.mem_toList.mpr isOther)))
    | _ => cases sameKind
  | loop isCondition isBody body =>
    have sameKind := kind_eq_of_form_eq (.loop isCondition isBody) otherBuilt same
    cases otherBuilt with
    | loop otherCondition otherBody =>
      simp only [form, Form.group.injEq, List.cons.injEq, true_and, and_true] at same
      refine .loop ?_ ?_
      · exact isCondition.onExpr_of_form_eq otherCondition (isFinite.value List.mem_cons_self)
          (otherFinite.value List.mem_cons_self) same.1
      · exact body otherBody (isFinite.part List.mem_cons_self)
          (otherFinite.part List.mem_cons_self) same.2
    | _ => cases sameKind
  | function isName areParameters isBody each =>
    have sameKind := kind_eq_of_form_eq (.function isName areParameters isBody) otherBuilt same
    cases otherBuilt with
    | function otherName otherParameters otherBody =>
      simp only [form, Form.group.injEq, List.cons.injEq, Form.word.injEq, forms_eq_map,
        true_and] at same
      obtain ⟨sameName, sameParameters, sameBody⟩ := same
      refine .function (isName.isKnown.sameButLine otherName.isKnown sameName) ?_ ?_
      · refine forall₂_of_map_eq (fun parameter isIn other isOther sameWord => ?_) sameParameters
        exact (areParameters parameter isIn).isKnown.sameButLine
          (otherParameters other isOther).isKnown (Form.word.inj sameWord)
      · refine forall₂_of_map_eq (fun stmt isIn other isOther sameForm => ?_) sameBody
        exact each stmt isIn (otherBody other isOther) (isFinite.part isIn)
          (otherFinite.part isOther) sameForm
    | _ => cases sameKind
  | ret isKeyword isValue =>
    have sameKind := kind_eq_of_form_eq (.ret isKeyword isValue) otherBuilt same
    cases otherBuilt with
    | ret otherKeyword otherValue =>
      refine .ret (isKeyword.sameButLine_of_fixed otherKeyword (by decide)) ?_
      exact rel_of_form_eq (ret_form_eq same) fun value isIn other isOther =>
        (isValue value isIn).onExpr_of_form_eq (otherValue other isOther)
          (isFinite.value (Option.mem_toList.mpr isIn))
          (otherFinite.value (Option.mem_toList.mpr isOther))
    | _ => cases sameKind

end Stmt

/-! ## Programs -/

namespace Program

/-- Every statement and every expression that stands anywhere in a program has a printed form,
whatever is wrong with the text of the program. Two statements, or two expressions, of one text or
of two have the same printed form only if they differ in the lines of their tokens at most, provided
that all numbers in them are finite. -/
theorem upToLines_of_printed_eq (limit otherLimit : Nat) (text otherText : String) :
    let program := ofSource limit text
    let otherProgram := ofSource otherLimit otherText
    (∀ stmt other, program.Holds stmt → otherProgram.Holds other →
      stmt.IsFinite → other.IsFinite →
      ∃ printed otherPrinted, stmt.toNode.printed = .ok printed ∧
        other.toNode.printed = .ok otherPrinted ∧
        (printed = otherPrinted → Pairing.upToLines.OnStmt stmt other)) ∧
    (∀ expr other, program.HoldsExpr expr → otherProgram.HoldsExpr other →
      expr.IsFinite → other.IsFinite →
      ∃ printed otherPrinted, expr.toNode.printed = .ok printed ∧
        other.toNode.printed = .ok otherPrinted ∧
        (printed = otherPrinted → Pairing.upToLines.OnExpr expr other)) := by
  intro program otherProgram
  constructor
  · intro stmt other holds otherHolds isFinite otherFinite
    have built := built_of_holds (spelled_of_mem_scan text) holds
    have otherBuilt := built_of_holds (spelled_of_mem_scan otherText) otherHolds
    refine ⟨_, _, built.printed, otherBuilt.printed, fun same => ?_⟩
    exact built.onStmt_of_form_eq otherBuilt isFinite otherFinite
      ((built.legible isFinite).eq_of_text_eq (otherBuilt.legible otherFinite) same)
  · intro expr other holds otherHolds isFinite otherFinite
    have built := built_of_holdsExpr (spelled_of_mem_scan text) holds
    have otherBuilt := built_of_holdsExpr (spelled_of_mem_scan otherText) otherHolds
    refine ⟨_, _, built.printed, otherBuilt.printed, fun same => ?_⟩
    exact built.onExpr_of_form_eq otherBuilt isFinite otherFinite
      ((built.legible isFinite).eq_of_text_eq (otherBuilt.legible otherFinite) same)

/-- A text, and the same text on the next line. -/
theorem upToLines_of_printed_eq_moved :
    let name (line : Int) : Token := ⟨.identifier, "a", .nil, line⟩
    let plus (line : Int) : Token := ⟨.plus, "+", .nil, line⟩
    let one : Float := Number.Decimal.toFloat ⟨1, 0⟩ false
    let sum (line : Int) : Expr :=
      .binary (.reference (name line)) (plus line) (.literal (.number one))
    let program := ofSource 4 "print a + 1;"
    let moved := ofSource 4 "\nprint a + 1;"
    (program.Holds (.print (sum 1)) ∧ Stmt.IsFinite (.print (sum 1)) ∧
      program.HoldsExpr (sum 1) ∧ (sum 1).IsFinite) ∧
    (moved.Holds (.print (sum 2)) ∧ Stmt.IsFinite (.print (sum 2)) ∧
      moved.HoldsExpr (sum 2) ∧ (sum 2).IsFinite) ∧
    Pairing.upToLines.OnStmt (.print (sum 1)) (.print (sum 2)) ∧
      Pairing.upToLines.OnExpr (sum 1) (sum 2) := by
  intro name plus one sum program moved
  let tokens (line : Int) : List Token := [⟨.keyPrint, "print", .nil, line⟩, name line, plus line,
    ⟨.number, "1", .number one, line⟩, ⟨.semicolon, ";", .nil, line⟩]
  have isParsed (line : Int) : Grammar.parse 4 (tokens line) line = ⟨[.print (sum line)], []⟩ := by
    cbv
  have isFinite : Number.IsFinite one := ⟨false, 4607182418800017408, by decide +kernel, by decide⟩
  have areFinite (line : Int) : ∀ token ∈ tokens line, token.IsFinite := by
    have noNumber {token : Token} (isNil : token.literal = .nil) : token.IsFinite :=
      fun number isNumber => by rw [isNil] at isNumber; cases isNumber
    simp only [tokens, List.forall_mem_cons]
    refine ⟨noNumber rfl, noNumber rfl, noNumber rfl, ?_, noNumber rfl, List.forall_mem_nil _⟩
    exact fun number isNumber => Literal.number.inj isNumber ▸ isFinite
  have read (text : String) (line : Int) (isScan : Source.scan text = ⟨tokens line, line, []⟩) :
      (ofSource 4 text).Holds (.print (sum line)) ∧ Stmt.IsFinite (.print (sum line)) ∧
        (ofSource 4 text).HoldsExpr (sum line) ∧ (sum line).IsFinite := by
    have statements : (ofSource 4 text).statements = [.print (sum line)] := by
      change (Grammar.parse 4 (Source.scan text).tokens (Source.scan text).endLine).statements = _
      rw [isScan, isParsed]
    have isIn : .print (sum line) ∈ (ofSource 4 text).statements :=
      statements ▸ List.mem_cons_self
    have built : Stmt.Built Token.IsFinite (.print (sum line)) :=
      built_of_mem_ofSource (by rw [isScan]; exact areFinite line) isIn
    have isValue : sum line ∈ (Stmt.print (sum line)).values := List.mem_cons_self
    exact ⟨⟨_, isIn, .refl⟩, built.isFinite, ⟨_, isIn, _, _, .refl, isValue, .refl⟩,
      (built.value isValue).isFinite⟩
  have first := read "print a + 1;" 1 (by decide +kernel)
  have second := read "\nprint a + 1;" 2 (by decide +kernel)
  refine ⟨first, second, ?_, ?_⟩
  · obtain ⟨printed, otherPrinted, isPrinted, isOther, alike⟩ :=
      (upToLines_of_printed_eq 4 4 "print a + 1;" "\nprint a + 1;").1 _ _ first.1 second.1
        first.2.1 second.2.1
    have same : (Stmt.print (sum 1)).toNode.printed = (Stmt.print (sum 2)).toNode.printed := rfl
    exact alike (Except.ok.inj (isPrinted.symm.trans (same.trans isOther)))
  · obtain ⟨printed, otherPrinted, isPrinted, isOther, alike⟩ :=
      (upToLines_of_printed_eq 4 4 "print a + 1;" "\nprint a + 1;").2 _ _ first.2.2.1
        second.2.2.1 first.2.2.2 second.2.2.2
    have same : (sum 1).toNode.printed = (sum 2).toNode.printed := rfl
    exact alike (Except.ok.inj (isPrinted.symm.trans (same.trans isOther)))

end Program
end LoxLang
