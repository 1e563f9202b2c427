import BusTub.Table.TupleCodec
import Mathlib.Order.Defs.LinearOrder
import Mathlib.Order.Basic

/-!
# Expressions

The model of the expressions that executors evaluate: columns, constants, comparisons, arithmetic
and logic.

A truth value is false, NULL or true.  As a `Value` it is a BOOLEAN whose smallest number stands
for NULL.  How two values compare is up to their types, so the comparison is a parameter.
`Evaluate` and `EvaluateJoin` differ in where the columns come from, which is a parameter too.
-/

namespace BusTub

/-- What ends a statement: an exception with its message, or a step that has no meaning. -/
inductive SqlFault
  | exception (message : String)
  | undefinedBehaviour
deriving DecidableEq

/-! ## Truth values -/

/-- `CmpBool`. -/
inductive CmpBool
  | cmpFalse
  | cmpTrue
  | cmpNull
deriving DecidableEq, Repr

namespace CmpBool

/-- The order of the truth values: false, NULL, true. -/
def rank : CmpBool → ℕ
  | cmpFalse => 0
  | cmpNull => 1
  | cmpTrue => 2

theorem rank_injective : Function.Injective rank := by
  intro first second
  cases first <;> cases second <;> decide

instance : LinearOrder CmpBool := LinearOrder.lift' rank rank_injective

end CmpBool

theorem int32_range (number : ℤ) :
    -(256 ^ 4 : ℕ) ≤ Int.bmod number (2 ^ 32) * 2 ∧
      Int.bmod number (2 ^ 32) * 2 < (256 ^ 4 : ℕ) := by
  have hlower := Int.le_bmod (x := number) (m := 2 ^ 32) (by decide)
  have hupper := Int.bmod_lt (x := number) (m := 2 ^ 32) (by decide)
  generalize Int.bmod number (2 ^ 32) = result at *
  omega

namespace Value

/-- `IsNull`: the smallest number of a type stands for NULL. -/
def isNull : Value → Bool
  | .number type payload _ _ => payload * 2 = -(256 ^ type.size : ℕ)
  | .varchar data => data.isNone

/-- `ValueFactory::GetBooleanValue`. -/
def getBooleanValue : CmpBool → Value
  | .cmpFalse => .number .boolean 0 (by decide) (by decide)
  | .cmpTrue => .number .boolean 1 (by decide) (by decide)
  | .cmpNull => .number .boolean (-128) (by decide) (by decide)

/-- `ValueFactory::GetIntegerValue`, of a number that is cut to 32 bits. -/
def getIntegerValue (number : ℤ) : Value :=
  .number .integer (Int.bmod number (2 ^ 32))
    (int32_range number).1 (int32_range number).2

/-- `ValueFactory::GetNullValueByType(TypeId::INTEGER)`. -/
def integerNull : Value := getIntegerValue (-2 ^ 31)

/-- `GetAs<int32_t>`; strings are not asked. -/
def asInteger : Value → ℤ
  | .number _ payload _ _ => Int.bmod payload (2 ^ 32)
  | .varchar _ => 0

/-- `GetAs<bool>`; strings are not asked. -/
def asBool : Value → Bool
  | .number _ payload _ _ => payload % 256 ≠ 0
  | .varchar _ => false

end Value

/-! ## Expressions -/

/-- `ComparisonType`. -/
inductive ComparisonType
  | equal
  | notEqual
  | lessThan
  | lessThanOrEqual
  | greaterThan
  | greaterThanOrEqual
deriving DecidableEq, Repr

/-- `ArithmeticType`. -/
inductive ArithmeticType
  | plus
  | minus
deriving DecidableEq, Repr

/-- `LogicType`. -/
inductive LogicType
  | and
  | or
deriving DecidableEq, Repr

/-- `AbstractExpression`, with its subclasses. -/
inductive Expression
  | columnValue (tupleIdx colIdx : ℕ) (returnType : TypeId)
  | constantValue (value : Value)
  | comparison (type : ComparisonType) (left right : Expression)
  | arithmetic (type : ArithmeticType) (left right : Expression)
  | logic (type : LogicType) (left right : Expression)

abbrev ValueComparison := ComparisonType → Value → Value → Except SqlFault CmpBool

namespace Expression

/-- `GetReturnType`. -/
def getReturnType : Expression → TypeId
  | columnValue _ _ returnType => returnType
  | constantValue value => value.getTypeId
  | comparison _ _ _ => .number .boolean
  | arithmetic _ _ _ => .number .integer
  | logic _ _ _ => .number .boolean

/-- The constructor of `ArithmeticExpression`. -/
def arithmeticExpression (type : ArithmeticType) (left right : Expression) :
    Except SqlFault Expression :=
  if left.getReturnType ≠ .number .integer ∨ right.getReturnType ≠ .number .integer then
    .error (.exception "only support integer for now")
  else .ok (arithmetic type left right)

/-- The constructor of `LogicExpression`. -/
def logicExpression (type : LogicType) (left right : Expression) : Except SqlFault Expression :=
  if left.getReturnType ≠ .number .boolean ∨ right.getReturnType ≠ .number .boolean then
    .error (.exception "expect boolean from either side")
  else .ok (logic type left right)

/-- `ArithmeticExpression::PerformComputation`. -/
def computeArithmetic (type : ArithmeticType) (lhs rhs : Value) : Option ℤ :=
  if lhs.isNull || rhs.isNull then none
  else
    match type with
    | .plus => some (Int.bmod (lhs.asInteger + rhs.asInteger) (2 ^ 32))
    | .minus => some (Int.bmod (lhs.asInteger - rhs.asInteger) (2 ^ 32))

/-- `GetBoolAsCmpBool`. -/
def getBoolAsCmpBool (value : Value) : CmpBool :=
  if value.isNull then .cmpNull
  else if value.asBool then .cmpTrue
  else .cmpFalse

/-- `LogicExpression::PerformComputation`. -/
def computeLogic (type : LogicType) (lhs rhs : Value) : CmpBool :=
  let l := getBoolAsCmpBool lhs
  let r := getBoolAsCmpBool rhs
  match type with
  | .and =>
    if l = .cmpFalse ∨ r = .cmpFalse then .cmpFalse
    else if l = .cmpTrue ∧ r = .cmpTrue then .cmpTrue
    else .cmpNull
  | .or =>
    if l = .cmpFalse ∧ r = .cmpFalse then .cmpFalse
    else if l = .cmpTrue ∨ r = .cmpTrue then .cmpTrue
    else .cmpNull

/-- The loop that `Evaluate` and `EvaluateJoin` share.  `column` gives the value of a column,
by the index of the tuple and the index of the column. -/
def evaluateWith (compare : ValueComparison) (column : ℕ → ℕ → Except SqlFault Value) :
    Expression → Except SqlFault Value
  | columnValue tupleIdx colIdx _ => column tupleIdx colIdx
  | constantValue value => .ok value
  | comparison type left right => do
      let lhs ← left.evaluateWith compare column
      let rhs ← right.evaluateWith compare column
      let result ← compare type lhs rhs
      return Value.getBooleanValue result
  | arithmetic type left right => do
      let lhs ← left.evaluateWith compare column
      let rhs ← right.evaluateWith compare column
      match computeArithmetic type lhs rhs with
      | none => return Value.integerNull
      | some number => return Value.getIntegerValue number
  | logic type left right => do
      let lhs ← left.evaluateWith compare column
      let rhs ← right.evaluateWith compare column
      return Value.getBooleanValue (computeLogic type lhs rhs)

/-- `tuple->GetValue(&schema, col_idx_)`. -/
def columnOf (tuple : Tuple) (schema : Schema) (colIdx : ℕ) : Except SqlFault Value :=
  match tuple.getValue schema colIdx with
  | none => .error .undefinedBehaviour
  | some value => .ok value

/-- `Evaluate`. -/
def evaluate (compare : ValueComparison) (tuple : Tuple) (schema : Schema) :
    Expression → Except SqlFault Value :=
  evaluateWith compare fun _ colIdx => columnOf tuple schema colIdx

/-- `EvaluateJoin`. -/
def evaluateJoin (compare : ValueComparison) (leftTuple : Tuple) (leftSchema : Schema)
    (rightTuple : Tuple) (rightSchema : Schema) : Expression → Except SqlFault Value :=
  evaluateWith compare fun tupleIdx colIdx =>
    if tupleIdx = 0 then columnOf leftTuple leftSchema colIdx
    else columnOf rightTuple rightSchema colIdx

end Expression

/-! ## Truth values as values -/

@[simp] theorem getBoolAsCmpBool_getBooleanValue (truth : CmpBool) :
    Expression.getBoolAsCmpBool (Value.getBooleanValue truth) = truth := by
  cases truth <;> rfl

theorem getBooleanValue_injective : Function.Injective Value.getBooleanValue := by
  intro first second h
  rw [← getBoolAsCmpBool_getBooleanValue first, h, getBoolAsCmpBool_getBooleanValue]

@[simp] theorem computeLogic_and (first second : CmpBool) :
    Expression.computeLogic .and (Value.getBooleanValue first) (Value.getBooleanValue second) =
      min first second := by
  cases first <;> cases second <;> rfl

@[simp] theorem computeLogic_or (first second : CmpBool) :
    Expression.computeLogic .or (Value.getBooleanValue first) (Value.getBooleanValue second) =
      max first second := by
  cases first <;> cases second <;> rfl

end BusTub
