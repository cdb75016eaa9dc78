import LoxLang.Evaluation.Fault

/-!
# Operators

The values of operators on values of their operands. Arithmetic is that of IEEE doubles, division by
zero included; `+` also joins strings. Equality is defined between all values.
-/

namespace LoxLang.Operator

/-- The value of an operator that needs two numbers. -/
def onNumbers (operator : Token) (left right : Value) (result : Float → Float → Value) :
    Except RuntimeError Value :=
  match left, right with
  | .number left, .number right => .ok (result left right)
  | _, _ => .error ⟨.operandsNotNumbers, operator⟩

/-- The sum of two numbers, or two strings joined. -/
def plus (operator : Token) (left right : Value) : Except RuntimeError Value :=
  match left, right with
  | .number left, .number right => .ok (.number (left + right))
  | .text left, .text right => .ok (.text (left ++ right))
  | _, _ => .error ⟨.operandsNotAlike, operator⟩

/-- Division of doubles: a zero divisor gives an infinity, or no number. -/
def divide (left right : Float) : Float := left / right

/-- The value of a binary operator. -/
def binary (operator : Token) (left right : Value) : Except RuntimeError Value :=
  match operator.kind with
  | .plus => plus operator left right
  | .minus => onNumbers operator left right fun left right => .number (left - right)
  | .star => onNumbers operator left right fun left right => .number (left * right)
  | .slash => onNumbers operator left right fun left right => .number (divide left right)
  | .greater => onNumbers operator left right fun left right => .bool (right < left)
  | .greaterEqual => onNumbers operator left right fun left right => .bool (right ≤ left)
  | .less => onNumbers operator left right fun left right => .bool (left < right)
  | .lessEqual => onNumbers operator left right fun left right => .bool (left ≤ right)
  | .equalEqual => .ok (.bool (left.equals right))
  | .bangEqual => .ok (.bool (!left.equals right))
  | _ => .error ⟨.unknownBinary, operator⟩

/-- The value of a unary operator. -/
def unary (operator : Token) (operand : Value) : Except RuntimeError Value :=
  match operator.kind with
  | .bang => .ok (.bool !operand.isTruthy)
  | .minus =>
    match operand with
    | .number operand => .ok (.number (-operand))
    | _ => .error ⟨.operandNotNumber, operator⟩
  | _ => .error ⟨.unknownUnary, operator⟩

/-- Whether the left operand of a logical operator is its value: for `or` if it is truthy, for
every other operator if it is not. -/
def decides (operator : Token) (left : Value) : Bool :=
  if operator.kind = .keyOr then left.isTruthy else !left.isTruthy

end LoxLang.Operator
