import BusTub.Execution.Executors

/-!
# Joins

What a nested loop join is to yield.  The executor is not implemented in the source; the
meaning is the standard one.  For each row of the left child, the rows of the right child
are tried in their order, and a left join adds a row that is padded with NULLs where no row
has matched.
-/

namespace BusTub

open FaultStream

/-- `EvaluateJoin`, on rows. -/
def evaluateJoinRows (left right : Row) : Expression → Except SqlFault Value :=
  Expression.evaluateWith Value.compare fun tupleIdx colIdx =>
    if tupleIdx = 0 then columnOfRow left colIdx else columnOfRow right colIdx

/-- `EvaluateJoin` of two tuples is that of the rows they hold. -/
theorem evaluateJoin_eq {leftSchema rightSchema : OutputSchema} {leftTuple rightTuple : Tuple}
    {left right : Row} (hleft : HoldsRow leftSchema leftTuple left)
    (hright : HoldsRow rightSchema rightTuple right) (expression : Expression) :
    expression.evaluateJoin Value.compare leftTuple (layout leftSchema) rightTuple
      (layout rightSchema) = evaluateJoinRows left right expression := by
  unfold Expression.evaluateJoin evaluateJoinRows
  congr 1
  funext tupleIdx colIdx
  rw [hleft.columnOf, hright.columnOf]

def joinRow (predicate : Expression) (left right : Row) : Except SqlFault (Option Row) := do
  let value ← evaluateJoinRows left right predicate
  return if passes value then some (left ++ right) else none

/-- `ValueFactory::GetNullValueByType`. -/
def getNullValueByType : TypeId → Value
  | .number type => Value.nullOf type
  | .varchar => .varchar none

def nullRow (schema : OutputSchema) : Row := (columnTypes schema).map getNullValueByType

/-- The rows of a left join for one row of the left child: the padded row, if none matched. -/
def padded (nulls left : Row) : Rows → Rows
  | .done => .next (left ++ nulls) .done
  | matched => matched

def nestedLoopJoinRows (predicate : Expression) (joinType : JoinType) (rightSchema : OutputSchema)
    (left right : Rows) : Rows :=
  match joinType with
  | .inner => left.flatMap fun row => right.filterMap (joinRow predicate row)
  | .left => left.flatMap fun row =>
    padded (nullRow rightSchema) row (right.filterMap (joinRow predicate row))
  | _ => .failed (.exception "join type not supported")

/-! ## The width of rows -/

def HasWidth (schema : OutputSchema) (row : Row) : Prop := row.length = schema.length

theorem all_padded {p : Row → Prop} {nulls left : Row} {matched : Rows} (h : matched.All p)
    (hpadded : p (left ++ nulls)) : (padded nulls left matched).All p := by
  cases matched with
  | done => exact all_next.mpr ⟨hpadded, h⟩
  | failed fault => exact h
  | next row rest => exact h

theorem all_joinRow {p q : Row → Prop} {predicate : Expression} {left : Row} {right : Rows}
    (hright : right.All p) (h : ∀ row, p row → q (left ++ row)) :
    (right.filterMap (joinRow predicate left)).All q := by
  refine all_filterMap hright fun row joined hrow hjoined => ?_
  rw [joinRow, Except.bind_eq_ok_iff] at hjoined
  obtain ⟨value, -, hjoined⟩ := hjoined
  have hsome := Except.ok.inj hjoined
  split_ifs at hsome
  exact Option.some.inj hsome ▸ h row hrow

theorem all_nestedLoopJoinRows {predicate : Expression} {joinType : JoinType}
    {schema leftSchema rightSchema : OutputSchema} {left right : Rows}
    (hleft : left.All (HasWidth leftSchema)) (hright : right.All (HasWidth rightSchema))
    (hschema : schema.length = leftSchema.length + rightSchema.length) :
    (nestedLoopJoinRows predicate joinType rightSchema left right).All (HasWidth schema) := by
  have hjoined : ∀ row, HasWidth leftSchema row →
      (right.filterMap (joinRow predicate row)).All (HasWidth schema) := by
    intro row hrow
    refine all_joinRow hright fun other hother => ?_
    rw [HasWidth, List.length_append, hrow, hother, hschema]
  cases joinType with
  | inner => exact all_flatMap hleft hjoined
  | left =>
    refine all_flatMap hleft fun row hrow => all_padded (hjoined row hrow) ?_
    rw [HasWidth, List.length_append, hrow, nullRow, List.length_map, columnTypes,
      List.length_map, hschema]
  | invalid | right | outer => exact all_failed _

end BusTub
