import BusTub.Binder.BindExpression

/-!
# Planning expressions

The model of `PlanExpression` and of the factory of binary operators, from bound expressions to
the expressions that executors evaluate.

The children of the plan node are known by their output schemas.  The aggregations that have been
planned are in the context; each aggregate call takes the next one.
-/

namespace BusTub

/-- The names and types of the columns of a plan node. -/
abbrev OutputSchema := List (String × TypeId)

/-- `UNNAMED_COLUMN`. -/
def unnamedColumn : String := "<unnamed>"

/-- `PlannerContext`: the planned aggregations, and the next of them. -/
structure PlannerContext where
  exprInAgg : List Expression
  nextAggregation : ℕ

namespace Planner

/-- `TryGetColIdx`. -/
def tryGetColIdx (schema : OutputSchema) (colName : String) : Option ℕ :=
  schema.findIdx? fun column => column.1 = colName

def columnOfChild (tupleIdx : ℕ) (schema : OutputSchema) (colIdx : ℕ) :
    Except SqlFault Expression :=
  match schema[colIdx]? with
  | none => .error .undefinedBehaviour
  | some column => .ok (.columnValue tupleIdx colIdx column.2)

/-- `PlanColumnRef`. -/
def planColumnRef (children : List OutputSchema) (names : List String) :
    Except SqlFault (String × Expression) :=
  let colName := ".".intercalate names
  match children with
  | [] => .error (.exception "column ref should have at least one child")
  | [schema] => do
      if 1 < schema.countP (fun column => column.1 = colName) then
        throw (.exception "duplicated column found in schema")
      match tryGetColIdx schema colName with
      | none => throw (.exception "Column does not exist")
      | some colIdx =>
        let expression ← columnOfChild 0 schema colIdx
        return (colName, expression)
  | [left, right] =>
    match tryGetColIdx left colName, tryGetColIdx right colName with
    | some _, some _ => .error (.exception ("ambiguous column name " ++ colName))
    | some colIdx, none => do
        let expression ← columnOfChild 0 left colIdx
        return (colName, expression)
    | none, some colIdx => do
        let expression ← columnOfChild 1 right colIdx
        return (colName, expression)
    | none, none => .error (.exception ("column name " ++ colName ++ " not found"))
  | _ => .error (.exception "no executor with expression has more than 2 children for now")

/-- `GetBinaryExpressionFromFactory`. -/
def getBinaryExpressionFromFactory (opName : String) (left right : Expression) :
    Except SqlFault Expression :=
  if opName = "=" ∨ opName = "==" then .ok (.comparison .equal left right)
  else if opName = "!=" ∨ opName = "<>" then .ok (.comparison .notEqual left right)
  else if opName = "<" then .ok (.comparison .lessThan left right)
  else if opName = "<=" then .ok (.comparison .lessThanOrEqual left right)
  else if opName = ">" then .ok (.comparison .greaterThan left right)
  else if opName = ">=" then .ok (.comparison .greaterThanOrEqual left right)
  else if opName = "+" then Expression.arithmeticExpression .plus left right
  else if opName = "-" then Expression.arithmeticExpression .minus left right
  else if opName = "and" then Expression.logicExpression .and left right
  else if opName = "or" then Expression.logicExpression .or left right
  else .error (.exception ("binary op " ++ opName ++ " not supported in planner yet"))

section Children

variable (children : List OutputSchema)

/-- `PlanExpression`: the name of the column and the expression. -/
def planExpression : BoundExpression → PlannerContext →
    Except SqlFault ((String × Expression) × PlannerContext)
  | .aggCall _ _ _, context =>
    match context.exprInAgg[context.nextAggregation]? with
    | none => .error (.exception "unexpected agg call")
    | some expression =>
      .ok ((unnamedColumn, expression),
        { context with nextAggregation := context.nextAggregation + 1 })
  | .columnRef colName, context => do
      let planned ← planColumnRef children colName
      return (planned, context)
  | .binaryOp opName larg rarg, context => do
      let ((_, left), context) ← planExpression larg context
      let ((_, right), context) ← planExpression rarg context
      let expression ← getBinaryExpressionFromFactory opName left right
      return ((unnamedColumn, expression), context)
  | .constant value, context => .ok ((unnamedColumn, .constantValue value), context)
  | .aliased name child, context => do
      let ((_, expression), context) ← planExpression child context
      return ((name, expression), context)
  | .star, _ => .error (.exception "expression type Star not supported in planner yet")
  | .unaryOp _ _, _ =>
    .error (.exception "expression type UnaryOperation not supported in planner yet")

end Children

end Planner

end BusTub
