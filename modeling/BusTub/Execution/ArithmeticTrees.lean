import BusTub.Execution.Executors
import BusTub.Type.Arithmetic

/-!
# Trees of plus and minus

`ArithmeticExpression` takes the numbers of its operands and adds them as `int32_t`, instead of
calling `Value::Add`.  So an overflow wraps around, and a result that happens to be the smallest
INTEGER is a NULL to everything above it.

Over a tree, NULL still comes out whenever a leaf is NULL.  Without a NULL leaf the evaluation is
right exactly as long as every result on the way is an INTEGER that is not NULL, and then it is
what `Value::Add` and `Value::Subtract` compute as well.
-/

namespace BusTub

open TwosComplement

/-- The function of `Value` for an operator. -/
def ArithmeticType.operation : ArithmeticType → IntegerOperation
  | .plus => .add
  | .minus => .subtract

namespace Expression

/-! ## What a tree should evaluate to -/

/-- A tree of plus and minus over INTEGER columns and constants, for rows of the given types. -/
def IsArithmetic (types : List TypeId) : Expression → Prop
  | columnValue _ colIdx returnType =>
    returnType = .number .integer ∧ types[colIdx]? = some (.number .integer)
  | constantValue value => value.getTypeId = .number .integer
  | arithmetic _ left right => left.IsArithmetic types ∧ right.IsArithmetic types
  | comparison _ _ _ | logic _ _ _ => False

def leaves (row : Row) : Expression → List Value
  | columnValue _ colIdx _ => row[colIdx]?.toList
  | constantValue value => [value]
  | comparison _ left right | arithmetic _ left right | logic _ left right =>
    left.leaves row ++ right.leaves row

def SomeLeafNull (row : Row) (expression : Expression) : Prop :=
  ∃ leaf ∈ expression.leaves row, leaf.isNull = true

/-- The number that a tree has, computed with integers of any size. -/
def exactNumber (row : Row) : Expression → ℤ
  | columnValue _ colIdx _ => (row[colIdx]?.map Value.numberOf).getD 0
  | constantValue value => value.numberOf
  | arithmetic type left right =>
    type.operation.apply (left.exactNumber row) (right.exactNumber row)
  | comparison _ _ _ | logic _ _ _ => 0

/-- Every result on the way is an INTEGER that is not NULL; where a NULL takes part there is no
number. -/
def ResultsFit (row : Row) : Expression → Prop
  | columnValue _ _ _ | constantValue _ => True
  | comparison _ left right | logic _ left right => left.ResultsFit row ∧ right.ResultsFit row
  | arithmetic type left right => left.ResultsFit row ∧ right.ResultsFit row ∧
      (¬ (arithmetic type left right).SomeLeafNull row →
        Proper NumberType.integer.modulus ((arithmetic type left right).exactNumber row))

/-- The right outcome: NULL for a NULL leaf, otherwise the exact number if all results are
INTEGER numbers, and an error if not. -/
structure EvaluatesRight (row : Row) (expression : Expression) (outcome : Except SqlFault Value) :
    Prop where
  null_iff : (∃ value, outcome = .ok value ∧ value.isNull = true) ↔ expression.SomeLeafNull row
  exact : ¬ expression.SomeLeafNull row → expression.ResultsFit row →
    ∃ value, outcome = .ok value ∧ value.IsNumber .integer (expression.exactNumber row)
  refused : ¬ expression.SomeLeafNull row → ¬ expression.ResultsFit row →
    ∃ fault, outcome = .error fault

/-- The evaluation of a tree by `Value::Add` and `Value::Subtract`. -/
def evaluateByValue (row : Row) : Expression → Except SqlFault Value
  | arithmetic type left right => do
      let lhs ← left.evaluateByValue row
      let rhs ← right.evaluateByValue row
      Value.modify type.operation lhs rhs
  | expression => evaluateRow row expression

theorem someLeafNull_arithmetic {row : Row} {type : ArithmeticType} {left right : Expression} :
    (arithmetic type left right).SomeLeafNull row ↔
      left.SomeLeafNull row ∨ right.SomeLeafNull row := by
  simp [SomeLeafNull, leaves, or_and_right, exists_or]

/-! ## One node -/

def arithmeticValue (type : ArithmeticType) (lhs rhs : Value) : Value :=
  match computeArithmetic type lhs rhs with
  | none => Value.integerNull
  | some number => Value.getIntegerValue number

variable {type : ArithmeticType} {lhs rhs : Value} {x y : ℤ}

theorem integerNull_eq : Value.integerNull = Value.nullOf .integer := by decide

theorem getTypeId_arithmeticValue (type : ArithmeticType) (lhs rhs : Value) :
    (arithmeticValue type lhs rhs).getTypeId = .number .integer := by
  unfold arithmeticValue
  split <;> rfl

theorem arithmeticValue_of_null (h : lhs.isNull = true ∨ rhs.isNull = true) :
    arithmeticValue type lhs rhs = Value.nullOf .integer := by
  have hcompute : computeArithmetic type lhs rhs = none :=
    if_pos (Bool.or_eq_true_iff.mpr h)
  rw [arithmeticValue, hcompute, integerNull_eq]

/-- `GetAs<int32_t>` of an INTEGER is its number. -/
theorem asInteger_of_isNumber (h : lhs.IsNumber .integer x) : lhs.asInteger = x := by
  have hfits := h.proper.fits
  obtain ⟨htype, -, rfl⟩ := h
  cases lhs with
  | varchar data => cases htype
  | number source payload lower upper => exact hfits.bmod_eq

theorem arithmeticValue_of_isNumber (hleft : lhs.IsNumber .integer x)
    (hright : rhs.IsNumber .integer y) :
    arithmeticValue type lhs rhs = Value.wrap .integer (type.operation.apply x y) := by
  have hcompute : computeArithmetic type lhs rhs =
      some (Int.bmod (type.operation.apply x y) NumberType.integer.modulus) := by
    unfold computeArithmetic
    rw [hleft.isNull_eq, hright.isNull_eq, asInteger_of_isNumber hleft,
      asInteger_of_isNumber hright]
    cases type <;> rfl
  have hcut : Int.bmod (Int.bmod (type.operation.apply x y) NumberType.integer.modulus) (2 ^ 32) =
      Int.bmod (type.operation.apply x y) (256 ^ NumberType.integer.size) :=
    Int.bmod_bmod_of_dvd dvd_rfl
  rw [arithmeticValue, hcompute]
  simp only [Value.getIntegerValue, Value.wrap, hcut]

/-- `Value::Add` and `Value::Subtract` compute the same unless the result is no INTEGER. -/
theorem modify_eq_arithmeticValue (hleft : lhs.getTypeId = .number .integer)
    (hright : rhs.getTypeId = .number .integer)
    (h : lhs.isNull = true ∨ rhs.isNull = true ∨
      Fits NumberType.integer.modulus (type.operation.apply lhs.numberOf rhs.numberOf)) :
    Value.modify type.operation lhs rhs = .ok (arithmeticValue type lhs rhs) := by
  by_cases hnull : lhs.isNull = true ∨ rhs.isNull = true
  · rw [arithmeticValue_of_null hnull]
    cases lhs with
    | varchar data => cases hleft
    | number leftType payload lower upper =>
      obtain rfl := TypeId.number.inj hleft
      -- with a NULL operand the value layer does not look at the numbers
      have hcomparable : (Value.number .integer payload lower upper).checkComparable rhs =
          true := by
        rw [Value.checkComparable, hleft, hright]
      have hoperate : Value.operateNull .integer rhs = .ok (Value.nullOf .integer) := by
        rw [Value.operateNull, hright]
        rfl
      simp [Value.modify, hcomparable, Bool.or_eq_true_iff.mpr hnull, hoperate]
  · rw [← or_assoc, or_iff_right hnull] at h
    rw [not_or, Bool.not_eq_true, Bool.not_eq_true] at hnull
    have hlhs : lhs.IsNumber .integer lhs.numberOf := ⟨hleft, hnull.1, rfl⟩
    have hrhs : rhs.IsNumber .integer rhs.numberOf := ⟨hright, hnull.2, rfl⟩
    have hzero : type.operation.divides = true → rhs.numberOf ≠ 0 := by
      cases type <;> exact fun h => absurd h (by decide)
    rw [Value.modify_eq (by decide) (by decide) hlhs hrhs hzero,
      Value.method_eq hlhs.proper hrhs.proper hzero, arithmeticValue_of_isNumber hlhs hrhs]
    exact if_pos h

/-! ## Trees -/

variable {row : Row} {expression left right : Expression}

theorem evaluateRow_arithmetic (hleft : evaluateRow row left = .ok lhs)
    (hright : evaluateRow row right = .ok rhs) :
    evaluateRow row (arithmetic type left right) = .ok (arithmeticValue type lhs rhs) := by
  unfold evaluateRow at hleft hright
  simp only [evaluateRow, evaluateWith, hleft, hright, bind, Except.bind, arithmeticValue]
  cases computeArithmetic type lhs rhs <;> rfl

/-- What a tree does evaluate to: always a value of type INTEGER. -/
structure TreeValue (row : Row) (expression : Expression) (value : Value) : Prop where
  getTypeId_eq : value.getTypeId = .number .integer
  null : expression.SomeLeafNull row → value.isNull = true
  exact : ¬ expression.SomeLeafNull row → expression.ResultsFit row →
    value.IsNumber .integer (expression.exactNumber row)

theorem treeValue_leaf {value : Value} (hleaves : expression.leaves row = [value])
    (htype : value.getTypeId = .number .integer)
    (hnumber : expression.exactNumber row = value.numberOf) : TreeValue row expression value := by
  have hnull : expression.SomeLeafNull row ↔ value.isNull = true := by
    simp only [SomeLeafNull, hleaves, List.mem_singleton, exists_eq_left]
  refine ⟨htype, hnull.mp, fun hleaf _ => ⟨htype, ?_, hnumber.symm⟩⟩
  exact Bool.eq_false_iff.mpr fun h => hleaf (hnull.mpr h)

theorem TreeValue.arithmetic (hlhs : TreeValue row left lhs) (hrhs : TreeValue row right rhs) :
    TreeValue row (arithmetic type left right) (arithmeticValue type lhs rhs) where
  getTypeId_eq := getTypeId_arithmeticValue type lhs rhs
  null := by
    intro hleaf
    have hnull := (someLeafNull_arithmetic.mp hleaf).imp hlhs.null hrhs.null
    rw [arithmeticValue_of_null hnull]
    exact Value.isNull_nullOf .integer
  exact := by
    intro hleaf hfits
    have hresult := hfits.2.2 hleaf
    rw [someLeafNull_arithmetic, not_or] at hleaf
    rw [arithmeticValue_of_isNumber (hlhs.exact hleaf.1 hfits.1) (hrhs.exact hleaf.2 hfits.2.1)]
    exact Value.isNumber_wrap hresult

theorem exists_treeValue (htree : expression.IsArithmetic (row.map Value.getTypeId)) :
    ∃ value, evaluateRow row expression = .ok value ∧ TreeValue row expression value := by
  induction expression with
  | columnValue tupleIdx colIdx returnType =>
    obtain ⟨-, htype⟩ := htree
    rw [List.getElem?_map, Option.map_eq_some_iff] at htype
    obtain ⟨value, hvalue, htype⟩ := htype
    refine ⟨value, ?_, treeValue_leaf ?_ htype ?_⟩
    · simp [evaluateRow, evaluateWith, columnOfRow, hvalue]
    · simp [leaves, hvalue]
    · simp [exactNumber, hvalue]
  | constantValue value => exact ⟨value, rfl, treeValue_leaf rfl htree rfl⟩
  | arithmetic type left right ihLeft ihRight =>
    obtain ⟨lhs, hleft, hlhs⟩ := ihLeft htree.1
    obtain ⟨rhs, hright, hrhs⟩ := ihRight htree.2
    exact ⟨_, evaluateRow_arithmetic hleft hright, hlhs.arithmetic hrhs⟩
  | comparison type left right => exact htree.elim
  | logic type left right => exact htree.elim

/-- With results that fit, `Value::Add` and `Value::Subtract` would do. -/
theorem evaluateByValue_eq (htree : expression.IsArithmetic (row.map Value.getTypeId))
    (hfits : expression.ResultsFit row) :
    expression.evaluateByValue row = evaluateRow row expression := by
  induction expression with
  | columnValue tupleIdx colIdx returnType => rfl
  | constantValue value => rfl
  | arithmetic type left right ihLeft ihRight =>
    obtain ⟨lhs, hleft, hlhs⟩ := exists_treeValue htree.1
    obtain ⟨rhs, hright, hrhs⟩ := exists_treeValue htree.2
    -- a NULL operand settles the node, and otherwise its result fits
    have hnode : lhs.isNull = true ∨ rhs.isNull = true ∨
        Fits NumberType.integer.modulus (type.operation.apply lhs.numberOf rhs.numberOf) := by
      by_cases hleaf : (Expression.arithmetic type left right).SomeLeafNull row
      · rcases someLeafNull_arithmetic.mp hleaf with hnull | hnull
        · exact .inl (hlhs.null hnull)
        · exact .inr (.inl (hrhs.null hnull))
      · have hresult := (hfits.2.2 hleaf).fits
        rw [someLeafNull_arithmetic, not_or] at hleaf
        rw [(hlhs.exact hleaf.1 hfits.1).numberOf_eq, (hrhs.exact hleaf.2 hfits.2.1).numberOf_eq]
        exact .inr (.inr hresult)
    rw [evaluateRow_arithmetic hleft hright,
      ← modify_eq_arithmeticValue hlhs.getTypeId_eq hrhs.getTypeId_eq hnode, evaluateByValue,
      ihLeft htree.1 hfits.1, ihRight htree.2 hfits.2.1, hleft, hright]
    rfl
  | comparison type left right => exact htree.elim
  | logic type left right => exact htree.elim

/-- **Trees of plus and minus.**  On every tuple the evaluation of a tree over INTEGER columns and
constants is right if and only if a leaf is NULL or every result on the way is an INTEGER number.
In no case there is an error, and where all results fit, `Value::Add` and `Value::Subtract` give
the same. -/
theorem evaluate_right_iff {schema : OutputSchema} {tuple : Tuple}
    (hrow : HoldsRow schema tuple row) (htree : expression.IsArithmetic (columnTypes schema)) :
    (EvaluatesRight row expression (expression.evaluate Value.compare tuple (layout schema)) ↔
      expression.SomeLeafNull row ∨ expression.ResultsFit row) ∧
    (∃ value, expression.evaluate Value.compare tuple (layout schema) = .ok value) ∧
    (expression.ResultsFit row → expression.evaluateByValue row =
      expression.evaluate Value.compare tuple (layout schema)) := by
  rw [← hrow.types_eq] at htree
  rw [hrow.evaluate]
  obtain ⟨value, hvalue, htreeValue⟩ := exists_treeValue htree
  refine ⟨⟨?_, ?_⟩, ⟨value, hvalue⟩, evaluateByValue_eq htree⟩
  · -- the outcome is a value, so it is wrong where an error is due
    intro hright
    by_contra hneither
    rw [not_or] at hneither
    obtain ⟨fault, hfault⟩ := hright.refused hneither.1 hneither.2
    cases hvalue.symm.trans hfault
  · intro heither
    refine ⟨⟨?_, fun hleaf => ⟨value, hvalue, htreeValue.null hleaf⟩⟩, ?_, ?_⟩
    · rintro ⟨other, hother, hnull⟩
      obtain rfl := Except.ok.inj (hvalue.symm.trans hother)
      by_contra hleaf
      have hnumber := htreeValue.exact hleaf (heither.resolve_left hleaf)
      exact Bool.false_ne_true (hnumber.isNull_eq.symm.trans hnull)
    · exact fun hleaf hfits => ⟨value, hvalue, htreeValue.exact hleaf hfits⟩
    · exact fun hleaf hfits => absurd (heither.resolve_left hleaf) hfits

/-- `#0 + 5` on the row `(1)`, where all results fit. -/
theorem evaluate_right_sum :
    ∃ tuple, HoldsRow [("a", .number .integer)] tuple [Value.wrap .integer 1] ∧
      EvaluatesRight [Value.wrap .integer 1]
        (arithmetic .plus (columnValue 0 0 (.number .integer))
          (constantValue (Value.wrap .integer 5)))
        ((arithmetic .plus (columnValue 0 0 (.number .integer))
          (constantValue (Value.wrap .integer 5))).evaluate Value.compare tuple
            (layout [("a", .number .integer)])) := by
  have hrow : RowOf [("a", .number .integer)] [Value.wrap .integer 1] := ⟨rfl, by decide⟩
  obtain ⟨tuple, htuple⟩ := hrow.exists_holdsRow
  have htree : (arithmetic .plus (columnValue 0 0 (.number .integer))
      (constantValue (Value.wrap .integer 5))).IsArithmetic
        (columnTypes [("a", .number .integer)]) := ⟨⟨rfl, rfl⟩, rfl⟩
  have hright := (evaluate_right_iff htuple htree).1.mpr
    (.inr ⟨trivial, trivial, fun _ => by decide⟩)
  exact ⟨tuple, htuple, hright⟩

/-- `2147483647 + 1` has no NULL leaf and there is no INTEGER for it, but its evaluation is no
error: it returns NULL. -/
theorem not_evaluatesRight_overflow : ¬ EvaluatesRight []
    (arithmetic .plus (constantValue (Value.wrap .integer 2147483647))
      (constantValue (Value.wrap .integer 1)))
    ((arithmetic .plus (constantValue (Value.wrap .integer 2147483647))
      (constantValue (Value.wrap .integer 1))).evaluate Value.compare ⟨[], by decide⟩
        (layout [])) := by
  intro hright
  have hvalue : (arithmetic .plus (constantValue (Value.wrap .integer 2147483647))
      (constantValue (Value.wrap .integer 1))).evaluate Value.compare ⟨[], by decide⟩ (layout []) =
        .ok Value.integerNull := rfl
  have hleaf := hright.null_iff.mp ⟨_, hvalue, by decide⟩
  revert hleaf
  simp only [SomeLeafNull, leaves]
  decide

end Expression

end BusTub
