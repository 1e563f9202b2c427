import BusTub.Binder.BoundStatement
import BusTub.Library.FuelledRun

/-!
# Planning select statements

The model of `PlanSelect`, `PlanSelectAgg` and `PlanTableRef`.

The planner is given the statement as a constant, but writes to it: `AddAggCallToContext` takes
the aggregate calls out of the select list and the HAVING clause and leaves calls of a made-up
name behind.  So planning returns the statement as it is left.  The list of CTEs in which names
are looked up belongs to a statement that is being planned, and is part of the state.

A CTE is planned where it is referred to, in the list that is current there.  Nothing bounds the
depth of such calls, so `planTableRef` has a bound as an argument.
-/

namespace BusTub

open FuelledRun

namespace Planner

/-! ## Schemas -/

/-- `RenameSchema`. -/
def renameSchema (schema : OutputSchema) (colNames : List String) :
    Except SqlFault OutputSchema :=
  if colNames.length ≠ schema.length then .error (.exception "mismatched number of columns")
  else .ok (colNames.zip (schema.map Prod.snd))

/-- `InferProjectionSchema`. -/
def inferProjectionSchema (expressions : List Expression) : OutputSchema :=
  expressions.map fun expression => (unnamedColumn, expression.getReturnType)

/-- `InferAggSchema`. -/
def inferAggSchema (groupBys aggregates : List Expression) : OutputSchema :=
  inferProjectionSchema groupBys ++ aggregates.map fun _ => (unnamedColumn, .number .integer)

def projectionOf (items : List (String × Expression)) (child : PlanNode) :
    Except SqlFault PlanNode := do
  let expressions := items.map Prod.snd
  let schema ← renameSchema (inferProjectionSchema expressions) (items.map Prod.fst)
  return .node (.projection expressions) schema [child]

/-! ## Clauses -/

def noAggregations : PlannerContext := ⟨[], 0⟩

/-- A loop of `PlanExpression`. -/
def planExpressions (children : List OutputSchema) :
    List BoundExpression → PlannerContext →
      Except SqlFault (List (String × Expression) × PlannerContext)
  | [], context => .ok ([], context)
  | item :: rest, context => do
      let (planned, context) ← planExpression children item context
      let (others, context) ← planExpressions children rest context
      return (planned :: others, context)

def planFilter (predicate : Option BoundExpression) (plan : PlanNode) (context : PlannerContext) :
    Except SqlFault (PlanNode × PlannerContext) :=
  match predicate with
  | none => .ok (plan, context)
  | some predicate => do
      let ((_, expression), context) ← planExpression [plan.outputSchema] predicate context
      return (.node (.filter expression) plan.outputSchema [plan], context)

def unnamedName (id : ℕ) : String := "__unnamed#" ++ toString id

/-- The names of the select list; those that are missing are numbered. -/
def nameColumns : List (String × Expression) → ℕ → List (String × Expression) × ℕ
  | [], id => ([], id)
  | (name, expression) :: rest, id =>
    if name = unnamedColumn then
      let (others, next) := nameColumns rest (id + 1)
      ((unnamedName id, expression) :: others, next)
    else
      let (others, next) := nameColumns rest id
      ((name, expression) :: others, next)

def planSelectList (selectList : List BoundExpression) (plan : PlanNode) (id : ℕ) :
    Except SqlFault (PlanNode × ℕ) := do
  let (items, _) ← planExpressions [plan.outputSchema] selectList noAggregations
  let (items, id) := nameColumns items id
  let plan ← projectionOf items plan
  return (plan, id)

def planDistinct (isDistinct : Bool) (plan : PlanNode) : PlanNode :=
  if isDistinct then
    .node (.aggregation (plan.outputSchema.mapIdx fun colIdx column =>
      .columnValue 0 colIdx column.2) [] []) plan.outputSchema [plan]
  else plan

def planSort (sort : List (OrderByType × BoundExpression)) (plan : PlanNode) :
    Except SqlFault PlanNode :=
  if sort.isEmpty then .ok plan
  else do
    let (items, _) ← planExpressions [plan.outputSchema] (sort.map Prod.snd) noAggregations
    let orderBys := (sort.map Prod.fst).zip (items.map Prod.snd)
    return .node (.sort orderBys) plan.outputSchema [plan]

/-- The number of a LIMIT or OFFSET clause, a `size_t`. -/
def planCount (clause : String) : BoundExpression → Except SqlFault ℕ
  | .constant value => do
      let _ ← value.castAs (.number .integer)
      if value.getTypeId = .number .integer then
        return (value.asInteger % 2 ^ 64).toNat
      else throw (.exception (clause ++ " clause must be an integer constant."))
  | _ => .error (.exception (clause ++ " clause must be an integer constant."))

def planLimit (limitCount limitOffset : Option BoundExpression) (plan : PlanNode) :
    Except SqlFault PlanNode := do
  let limit ← limitCount.mapM (planCount "LIMIT")
  let offset ← limitOffset.mapM (planCount "OFFSET")
  match limit, offset with
  | _, some _ => throw (.exception "OFFSET clause is not supported yet.")
  | some limit, none => return .node (.limit limit) plan.outputSchema [plan]
  | none, none => return plan

/-! ## Aggregations -/

/-- `BoundAggCall`. -/
structure AggCall where
  funcName : String
  isDistinct : Bool
  args : List BoundExpression

/-- `AddAggCallToContext`: the expression that is left, and the calls of the context. -/
def addAggCallToContext : BoundExpression → List AggCall →
    Except SqlFault (BoundExpression × List AggCall)
  | .aggCall funcName isDistinct args, aggregations =>
    .ok (.aggCall ("__pseudo_agg#" ++ toString aggregations.length) isDistinct [],
      aggregations ++ [⟨funcName, isDistinct, args⟩])
  | .columnRef colName, aggregations => .ok (.columnRef colName, aggregations)
  | .binaryOp opName larg rarg, aggregations => do
      let (larg, aggregations) ← addAggCallToContext larg aggregations
      let (rarg, aggregations) ← addAggCallToContext rarg aggregations
      return (.binaryOp opName larg rarg, aggregations)
  | .constant value, aggregations => .ok (.constant value, aggregations)
  | .aliased name child, aggregations => do
      let (child, aggregations) ← addAggCallToContext child aggregations
      return (.aliased name child, aggregations)
  | .star, _ => .error (.exception "expression type Star not supported in planner yet")
  | .unaryOp _ _, _ =>
    .error (.exception "expression type UnaryOperation not supported in planner yet")

def addAggCalls : List BoundExpression → List AggCall →
    Except SqlFault (List BoundExpression × List AggCall)
  | [], aggregations => .ok ([], aggregations)
  | item :: rest, aggregations => do
      let (item, aggregations) ← addAggCallToContext item aggregations
      let (rest, aggregations) ← addAggCalls rest aggregations
      return (item :: rest, aggregations)

def addHavingCalls (having : Option BoundExpression) (aggregations : List AggCall) :
    Except SqlFault (Option BoundExpression × List AggCall) :=
  match having with
  | none => .ok (none, aggregations)
  | some predicate => do
      let (predicate, aggregations) ← addAggCallToContext predicate aggregations
      return (some predicate, aggregations)

/-- What `AddAggCallToContext` leaves of an expression, and the calls behind it. -/
inductive AggCallAdded : BoundExpression → List AggCall → BoundExpression → List AggCall → Prop
  | aggCall (funcName : String) (isDistinct : Bool) (args : List BoundExpression)
      (calls : List AggCall) :
      AggCallAdded (.aggCall funcName isDistinct args) calls
        (.aggCall ("__pseudo_agg#" ++ toString calls.length) isDistinct [])
        (calls ++ [⟨funcName, isDistinct, args⟩])
  | columnRef (colName : List String) (calls : List AggCall) :
      AggCallAdded (.columnRef colName) calls (.columnRef colName) calls
  | constant (value : Value) (calls : List AggCall) :
      AggCallAdded (.constant value) calls (.constant value) calls
  | binaryOp {opName : String} {larg rarg larg' rarg' : BoundExpression}
      {calls middle calls' : List AggCall} (hlarg : AggCallAdded larg calls larg' middle)
      (hrarg : AggCallAdded rarg middle rarg' calls') :
      AggCallAdded (.binaryOp opName larg rarg) calls (.binaryOp opName larg' rarg') calls'
  | aliased {name : String} {child child' : BoundExpression} {calls calls' : List AggCall}
      (hchild : AggCallAdded child calls child' calls') :
      AggCallAdded (.aliased name child) calls (.aliased name child') calls'

inductive AggCallsAdded :
    List BoundExpression → List AggCall → List BoundExpression → List AggCall → Prop
  | nil (calls : List AggCall) : AggCallsAdded [] calls [] calls
  | cons {item item' : BoundExpression} {rest rest' : List BoundExpression}
      {calls middle calls' : List AggCall} (hitem : AggCallAdded item calls item' middle)
      (hrest : AggCallsAdded rest middle rest' calls') :
      AggCallsAdded (item :: rest) calls (item' :: rest') calls'

theorem aggCallAdded_of_ok {expression left : BoundExpression} {calls calls' : List AggCall}
    (h : addAggCallToContext expression calls = .ok (left, calls')) :
    AggCallAdded expression calls left calls' := by
  fun_induction BoundExpression.hasAggCall expression generalizing left calls calls' with
  | case1 funcName isDistinct args =>
    cases h
    exact .aggCall funcName isDistinct args calls
  | case2 opName larg rarg ihl ihr =>
    simp only [addAggCallToContext, Except.bind_eq_ok_iff] at h
    obtain ⟨⟨larg', middle⟩, hlarg, ⟨rarg', last⟩, hrarg, h⟩ := h
    cases h
    exact .binaryOp (ihl hlarg) (ihr hrarg)
  | case3 opName arg ih => cases h
  | case4 name child ih =>
    simp only [addAggCallToContext, Except.bind_eq_ok_iff] at h
    obtain ⟨⟨child', last⟩, hchild, h⟩ := h
    cases h
    exact .aliased (ih hchild)
  | case5 => cases h
  | case6 colName =>
    cases h
    exact .columnRef colName calls
  | case7 value =>
    cases h
    exact .constant value calls

theorem aggCallsAdded_of_ok {list left : List BoundExpression} {calls calls' : List AggCall}
    (h : addAggCalls list calls = .ok (left, calls')) : AggCallsAdded list calls left calls' := by
  induction list generalizing left calls with
  | nil =>
    obtain ⟨rfl, rfl⟩ := Prod.mk.inj (Except.ok.inj h)
    exact .nil calls
  | cons item rest ih =>
    simp only [addAggCalls, Except.bind_eq_ok_iff] at h
    obtain ⟨⟨item', middle⟩, hitem, ⟨rest', last⟩, hrest, h⟩ := h
    cases h
    exact .cons (aggCallAdded_of_ok hitem) (ih hrest)

/-- `GetAggCallFromFactory`. -/
def getAggCallFromFactory (funcName : String) (args : List Expression) :
    Except SqlFault (AggregationType × List Expression) :=
  match args with
  | [] =>
    if funcName = "count_star" then .ok (.countStarAggregate, [])
    else .error (.exception ("unsupported agg_call " ++ funcName ++ " with 0 args"))
  | [expression] =>
    if funcName = "min" then .ok (.minAggregate, [expression])
    else if funcName = "max" then .ok (.maxAggregate, [expression])
    else if funcName = "sum" then .ok (.sumAggregate, [expression])
    else if funcName = "count" then .ok (.countAggregate, [expression])
    else .error (.exception ("unsupported agg_call " ++ funcName ++ " with 1 args"))
  | args => .error (.exception ("unsupported agg_call " ++ funcName ++ " with " ++
      toString args.length ++ " args"))

/-- `PlanAggCall`, and the input of the aggregate: `count(*)` counts a constant. -/
def planAggCall (child : OutputSchema) (aggCall : AggCall) :
    Except SqlFault (AggregationType × Expression) := do
  if aggCall.isDistinct then throw (.exception "distinct agg is not implemented yet")
  let (args, _) ← planExpressions [child] aggCall.args noAggregations
  let (aggType, expressions) ← getAggCallFromFactory aggCall.funcName (args.map Prod.snd)
  match expressions with
  | [] => return (aggType, .constantValue (Value.getIntegerValue 1))
  | [expression] => return (aggType, expression)
  | _ => throw (.exception "only agg call of zero/one arg is supported")

/-- The aggregation node, and the columns that stand for the aggregate calls. -/
def planAggregation (groupBys : List (String × Expression))
    (aggregates : List (AggregationType × Expression)) (child : PlanNode) :
    Except SqlFault (PlanNode × PlannerContext) := do
  let groupByExprs := groupBys.map Prod.snd
  let inputExprs := aggregates.map Prod.snd
  let terms := List.range aggregates.length
  let outputColNames := groupBys.map Prod.fst ++ terms.map fun term => "agg#" ++ toString term
  let schema ← renameSchema (inferAggSchema groupByExprs inputExprs) outputColNames
  return (.node (.aggregation groupByExprs inputExprs (aggregates.map Prod.fst)) schema [child],
    ⟨terms.map fun term => .columnValue 0 (groupByExprs.length + term) (.number .integer), 0⟩)

/-- `PlanSelectAgg`. -/
def planSelectAgg (clauses : SelectClauses) (child : PlanNode) :
    Except SqlFault (PlanNode × SelectClauses) := do
  let (groupBys, _) ← planExpressions [child.outputSchema] clauses.groupBy noAggregations
  let (having, aggregations) ← addHavingCalls clauses.having []
  let (selectList, aggregations) ← addAggCalls clauses.selectList aggregations
  let aggregates ← aggregations.mapM (planAggCall child.outputSchema)
  let (plan, context) ← planAggregation groupBys aggregates child
  let (plan, context) ← planFilter having plan context
  let (items, _) ← planExpressions [plan.outputSchema] selectList context
  let plan ← projectionOf items plan
  return (plan, { clauses with having, selectList })

def hasAggregations : List BoundExpression → Except SqlFault Bool
  | [] => .ok false
  | item :: rest => do
      if ← item.hasAggregation then return true
      else hasAggregations rest

/-- The select list, with aggregations or without; the clauses as they are left. -/
def planItems (clauses : SelectClauses) (plan : PlanNode) (id : ℕ) :
    Except SqlFault (PlanNode × SelectClauses × ℕ) := do
  let hasAgg ← hasAggregations clauses.selectList
  if clauses.having.isSome || !clauses.groupBy.isEmpty || hasAgg then
    let (plan, clauses) ← planSelectAgg clauses plan
    return (plan, clauses, id)
  else
    let (plan, id) ← planSelectList clauses.selectList plan id
    return (plan, clauses, id)

/-- `PlanSelect` behind the FROM clause. -/
def planClauses (clauses : SelectClauses) (plan : PlanNode) (id : ℕ) :
    Except SqlFault (PlanNode × SelectClauses × ℕ) := do
  let (plan, _) ← planFilter clauses.whereClause plan noAggregations
  let (plan, clauses, id) ← planItems clauses plan id
  let plan ← planSort clauses.sort (planDistinct clauses.isDistinct plan)
  let plan ← planLimit clauses.limitCount clauses.limitOffset plan
  return (plan, clauses, id)

/-! ## Tables -/

/-- The state of the planner: the CTEs in scope, none if there is no list, and the next number
for things without a name. -/
structure PlannerState where
  ctes : List BoundSubquery
  universalId : ℕ

abbrev Planned (Source : Type) := PlanNode × Source × PlannerState

/-- `PlanBaseTableRef`, with `InferScanSchema`. -/
def planBaseTableRef (catalog : TableCatalog) (table : String) (aliasName : Option String)
    (schema : OutputSchema) : Except SqlFault PlanNode :=
  match catalog table with
  | none => .error .undefinedBehaviour
  | some (oid, _) =>
    let scanSchema := schema.map fun column =>
      (getBoundTableName table aliasName ++ "." ++ column.1, column.2)
    if "__".isPrefixOf table then
      if "__mock".isPrefixOf table then .ok (.node (.mockScan table) scanSchema [])
      else .error (.exception ("unsupported internal table: " ++ table))
    else .ok (.node (.seqScan oid table none) scanSchema [])

/-- `PlanExpressionListRef`. -/
def planExpressionListRef (values : List (List BoundExpression)) (identifier : String) :
    Except SqlFault PlanNode := do
  let allExprs ← values.mapM fun row => do
    let (items, _) ← planExpressions [] row noAggregations
    return items.map Prod.snd
  match allExprs with
  | [] => throw .undefinedBehaviour
  | firstRow :: _ =>
    let schema := firstRow.mapIdx fun idx expression =>
      (identifier ++ "." ++ toString idx, expression.getReturnType)
    return .node (.values allExprs) schema []

/-- `InferJoinSchema`, and the join. -/
def joinOf (predicate : Expression) (joinType : JoinType) (left right : PlanNode) : PlanNode :=
  .node (.nestedLoopJoin predicate joinType) (left.outputSchema ++ right.outputSchema)
    [left, right]

/-- The plan of a statement without a FROM clause: one empty row. -/
def emptyRow : PlanNode := .node (.values [[]]) [] []

section From

variable (planFrom : PlannerState → BoundTableRef → FuelledRun SqlFault (Planned BoundTableRef))

def planFromClause (state : PlannerState) :
    BoundTableRef → FuelledRun SqlFault (Planned BoundTableRef)
  | .empty => .ok (emptyRow, .empty, state)
  | table => planFrom state table

/-- The state in which the FROM clause is planned: a statement with CTEs sets its own list. -/
def PlannerState.enter (state : PlannerState) (ctes : List BoundSubquery) : PlannerState :=
  if ctes.isEmpty then state else { state with ctes }

/-- `PlanSelect`.  The context guard gives the list of the surrounding statement back. -/
def planSelectWith (state : PlannerState) :
    SelectStatement → FuelledRun SqlFault (Planned SelectStatement)
  | .mk table clauses ctes => do
      let (plan, table, inner) ← planFromClause planFrom (state.enter ctes) table
      let (plan, clauses, universalId) ← lift (planClauses clauses plan inner.universalId)
      return (plan, .mk table clauses (if ctes.isEmpty then [] else inner.ctes),
        ⟨if ctes.isEmpty then inner.ctes else state.ctes, universalId⟩)

/-- The loop of `PlanSubquery` over the columns: each gets a name of the select list, with the
alias in front. -/
def subqueryItems (aliasName : String) :
    List (List String) → ℕ → OutputSchema → Except SqlFault (List (String × Expression))
  | _, _, [] => .ok []
  | [], _, _ :: _ => .error .undefinedBehaviour
  | name :: selectListName, idx, column :: rest => do
      let items ← subqueryItems aliasName selectListName (idx + 1) rest
      return (aliasName ++ "." ++ ".".intercalate name, .columnValue 0 idx column.2) :: items

/-- `PlanSubquery`. -/
def planSubqueryWith (state : PlannerState) (query : BoundSubquery) (aliasName : String) :
    FuelledRun SqlFault (Planned BoundSubquery) := do
  let (selectNode, subquery, state) ← planSelectWith planFrom state query.subquery
  let items ← lift (subqueryItems aliasName query.selectListName 0 selectNode.outputSchema)
  let plan ← lift (projectionOf items selectNode)
  return (plan, .mk subquery query.selectListName query.aliasName, state)

def replaceCTE (name : String) (query : BoundSubquery) : List BoundSubquery → List BoundSubquery
  | [] => []
  | cte :: rest =>
    if cte.aliasName = name then query :: rest else cte :: replaceCTE name query rest

/-- `PlanCTERef`; the list must be there. -/
def planCTERefWith (state : PlannerState) (cteName aliasName : String) :
    FuelledRun SqlFault (Planned BoundTableRef) :=
  if state.ctes.isEmpty then .error (.fault .undefinedBehaviour)
  else
    match findCTE state.ctes cteName with
    | none => .error (.fault (.exception "CTE not found"))
    | some cte => do
        let (plan, cte, state) ← planSubqueryWith planFrom state cte aliasName
        return (plan, .cte cteName aliasName,
          { state with ctes := replaceCTE cteName cte state.ctes })

end From

/-- `PlanTableRef`. -/
def planTableRef (catalog : TableCatalog) :
    ℕ → PlannerState → BoundTableRef → FuelledRun SqlFault (Planned BoundTableRef)
  | 0, _, _ => .error .outOfFuel
  | fuel + 1, state, tableRef =>
    match tableRef with
    | .baseTable table oid aliasName schema => do
        let plan ← lift (planBaseTableRef catalog table aliasName schema)
        return (plan, .baseTable table oid aliasName schema, state)
    | .crossProduct left right => do
        let (leftPlan, left, state) ← planTableRef catalog fuel state left
        let (rightPlan, right, state) ← planTableRef catalog fuel state right
        return (joinOf (.constantValue (Value.getBooleanValue .cmpTrue)) .inner leftPlan
          rightPlan, .crossProduct left right, state)
    | .join joinType left right condition => do
        let (leftPlan, left, state) ← planTableRef catalog fuel state left
        let (rightPlan, right, state) ← planTableRef catalog fuel state right
        let ((_, predicate), _) ← lift (planExpression
          [leftPlan.outputSchema, rightPlan.outputSchema] condition noAggregations)
        return (joinOf predicate joinType leftPlan rightPlan,
          .join joinType left right condition, state)
    | .expressionList values identifier => do
        let plan ← lift (planExpressionListRef values identifier)
        return (plan, .expressionList values identifier, state)
    | .subquery query => do
        let (plan, query, state) ←
          planSubqueryWith (planTableRef catalog fuel) state query query.aliasName
        return (plan, .subquery query, state)
    | .cte cteName aliasName =>
      planCTERefWith (planTableRef catalog fuel) state cteName aliasName
    | .empty =>
      .error (.fault (.exception "the table ref type Empty is not supported in planner yet"))

/-- `PlanSelect`, with a bound on the depth of table references. -/
def planSelect (catalog : TableCatalog) (fuel : ℕ) :
    PlannerState → SelectStatement → FuelledRun SqlFault (Planned SelectStatement) :=
  planSelectWith (planTableRef catalog fuel)

/-! ## What planning returns -/

theorem projectionOf_eq (items : List (String × Expression)) (child : PlanNode) :
    projectionOf items child = .ok (.node (.projection (items.map Prod.snd))
      (items.map fun item => (item.1, item.2.getReturnType)) [child]) := by
  have hschema : renameSchema (inferProjectionSchema (items.map Prod.snd)) (items.map Prod.fst) =
      .ok (items.map fun item => (item.1, item.2.getReturnType)) := by
    rw [renameSchema, if_neg (by simp [inferProjectionSchema]), inferProjectionSchema,
      List.map_map, List.map_map, List.zip_map']
    rfl
  simp only [projectionOf, hschema]
  rfl

theorem length_planExpressions {children : List OutputSchema} {list : List BoundExpression}
    {context context' : PlannerContext} {items : List (String × Expression)}
    (h : planExpressions children list context = .ok (items, context')) :
    items.length = list.length := by
  induction list generalizing context context' items with
  | nil =>
    cases h
    rfl
  | cons item rest ih =>
    simp only [planExpressions, Except.bind_eq_ok_iff] at h
    obtain ⟨planned, -, ⟨others, inner⟩, hothers, h⟩ := h
    cases h
    rw [List.length_cons, List.length_cons, ih hothers]

section Returned

variable {planFrom : PlannerState → BoundTableRef → FuelledRun SqlFault (Planned BoundTableRef)}
  {catalog : TableCatalog} {state state' : PlannerState} {plan : PlanNode}

theorem planSelectWith_ok {table : BoundTableRef} {clauses : SelectClauses}
    {ctes : List BoundSubquery} {statement : SelectStatement}
    (h : planSelectWith planFrom state (.mk table clauses ctes) = .ok (plan, statement, state')) :
    ∃ source table' inner clauses',
      planFromClause planFrom (state.enter ctes) table = .ok (source, table', inner) ∧
      planClauses clauses source inner.universalId = .ok (plan, clauses', state'.universalId) ∧
      statement = .mk table' clauses' (if ctes.isEmpty then [] else inner.ctes) ∧
      state'.ctes = if ctes.isEmpty then inner.ctes else state.ctes := by
  simp only [planSelectWith, Except.bind_eq_ok_iff, lift_eq_ok_iff] at h
  obtain ⟨⟨source, table', inner⟩, hfrom, ⟨plan', clauses', id⟩, hclauses, h⟩ := h
  obtain ⟨rfl, rfl, rfl⟩ := Except.ok.inj h
  exact ⟨source, table', inner, clauses', hfrom, hclauses, rfl, rfl⟩

theorem planSubqueryWith_ok {query query' : BoundSubquery} {aliasName : String}
    (h : planSubqueryWith planFrom state query aliasName = .ok (plan, query', state')) :
    ∃ selectNode subquery items,
      planSelectWith planFrom state query.subquery = .ok (selectNode, subquery, state') ∧
      subqueryItems aliasName query.selectListName 0 selectNode.outputSchema = .ok items ∧
      plan = .node (.projection (items.map Prod.snd))
        (items.map fun item => (item.1, item.2.getReturnType)) [selectNode] ∧
      query' = .mk subquery query.selectListName query.aliasName := by
  simp only [planSubqueryWith, Except.bind_eq_ok_iff, lift_eq_ok_iff, projectionOf_eq] at h
  obtain ⟨⟨selectNode, subquery, inner⟩, hselect, items, hitems, node, hnode, h⟩ := h
  obtain ⟨rfl, rfl, rfl⟩ := Except.ok.inj h
  exact ⟨selectNode, subquery, items, hselect, hitems, (Except.ok.inj hnode).symm, rfl⟩

/-- What `planTableRef` returns, in terms of its calls. -/
inductive TablePlanned (catalog : TableCatalog)
    (planFrom : PlannerState → BoundTableRef → FuelledRun SqlFault (Planned BoundTableRef))
    (state : PlannerState) : BoundTableRef → Planned BoundTableRef → Prop
  | baseTable {table : String} {oid : ℕ} {aliasName : Option String} {schema : OutputSchema}
      {plan : PlanNode} (hplan : planBaseTableRef catalog table aliasName schema = .ok plan) :
      TablePlanned catalog planFrom state (.baseTable table oid aliasName schema)
        (plan, .baseTable table oid aliasName schema, state)
  | crossProduct {left right left' right' : BoundTableRef} {leftPlan rightPlan : PlanNode}
      {middle state' : PlannerState} (hleft : planFrom state left = .ok (leftPlan, left', middle))
      (hright : planFrom middle right = .ok (rightPlan, right', state')) :
      TablePlanned catalog planFrom state (.crossProduct left right)
        (joinOf (.constantValue (Value.getBooleanValue .cmpTrue)) .inner leftPlan rightPlan,
          .crossProduct left' right', state')
  | join {joinType : JoinType} {left right left' right' : BoundTableRef}
      {condition : BoundExpression} {leftPlan rightPlan : PlanNode} {middle state' : PlannerState}
      {predicate : String × Expression} {context : PlannerContext}
      (hleft : planFrom state left = .ok (leftPlan, left', middle))
      (hright : planFrom middle right = .ok (rightPlan, right', state'))
      (hcondition : planExpression [leftPlan.outputSchema, rightPlan.outputSchema] condition
        noAggregations = .ok (predicate, context)) :
      TablePlanned catalog planFrom state (.join joinType left right condition)
        (joinOf predicate.2 joinType leftPlan rightPlan, .join joinType left' right' condition,
          state')
  | expressionList {values : List (List BoundExpression)} {identifier : String} {plan : PlanNode}
      (hplan : planExpressionListRef values identifier = .ok plan) :
      TablePlanned catalog planFrom state (.expressionList values identifier)
        (plan, .expressionList values identifier, state)
  | subquery {query query' : BoundSubquery} {plan : PlanNode} {state' : PlannerState}
      (hquery : planSubqueryWith planFrom state query query.aliasName =
        .ok (plan, query', state')) :
      TablePlanned catalog planFrom state (.subquery query) (plan, .subquery query', state')
  | cte {cteName aliasName : String} {query query' : BoundSubquery} {plan : PlanNode}
      {inner : PlannerState} (hfind : findCTE state.ctes cteName = some query)
      (hquery : planSubqueryWith planFrom state query aliasName = .ok (plan, query', inner)) :
      TablePlanned catalog planFrom state (.cte cteName aliasName)
        (plan, .cte cteName aliasName,
          { inner with ctes := replaceCTE cteName query' inner.ctes })

theorem tablePlanned_of_ok {fuel : ℕ} {tableRef : BoundTableRef} {result : Planned BoundTableRef}
    (h : planTableRef catalog (fuel + 1) state tableRef = .ok result) :
    TablePlanned catalog (planTableRef catalog fuel) state tableRef result := by
  cases tableRef with
  | empty => cases h
  | baseTable table oid aliasName schema =>
    simp only [planTableRef, Except.bind_eq_ok_iff, lift_eq_ok_iff] at h
    obtain ⟨plan, hplan, h⟩ := h
    exact Except.ok.inj h ▸ .baseTable hplan
  | crossProduct left right =>
    simp only [planTableRef, Except.bind_eq_ok_iff] at h
    obtain ⟨⟨leftPlan, left', middle⟩, hleft, ⟨rightPlan, right', last⟩, hright, h⟩ := h
    exact Except.ok.inj h ▸ .crossProduct hleft hright
  | join joinType left right condition =>
    simp only [planTableRef, Except.bind_eq_ok_iff, lift_eq_ok_iff] at h
    obtain ⟨⟨leftPlan, left', middle⟩, hleft, ⟨rightPlan, right', last⟩, hright,
      ⟨predicate, context⟩, hcondition, h⟩ := h
    exact Except.ok.inj h ▸ .join hleft hright hcondition
  | expressionList values identifier =>
    simp only [planTableRef, Except.bind_eq_ok_iff, lift_eq_ok_iff] at h
    obtain ⟨plan, hplan, h⟩ := h
    exact Except.ok.inj h ▸ .expressionList hplan
  | subquery query =>
    simp only [planTableRef, Except.bind_eq_ok_iff] at h
    obtain ⟨⟨plan, query', last⟩, hquery, h⟩ := h
    exact Except.ok.inj h ▸ .subquery hquery
  | cte cteName aliasName =>
    simp only [planTableRef, planCTERefWith] at h
    split_ifs at h
    cases hfind : findCTE state.ctes cteName with
    | none => simp only [hfind, reduceCtorEq] at h
    | some query =>
      simp only [hfind, Except.bind_eq_ok_iff] at h
      obtain ⟨⟨plan, query', inner⟩, hquery, h⟩ := h
      exact Except.ok.inj h ▸ .cte hfind hquery

/-- **The induction over the depth of calls**, for what is returned. -/
theorem planTableRef_induction
    {motive : PlannerState → BoundTableRef → Planned BoundTableRef → Prop}
    (hstep : ∀ planFrom, (∀ state tableRef result, planFrom state tableRef = .ok result →
        motive state tableRef result) →
      ∀ state tableRef result, TablePlanned catalog planFrom state tableRef result →
        motive state tableRef result)
    {fuel : ℕ} {tableRef : BoundTableRef} {result : Planned BoundTableRef}
    (h : planTableRef catalog fuel state tableRef = .ok result) :
    motive state tableRef result := by
  induction fuel generalizing state tableRef result with
  | zero => cases h
  | succ fuel ih =>
    exact hstep (planTableRef catalog fuel) (fun state tableRef result h => ih h) _ _ _
      (tablePlanned_of_ok h)

end Returned

end Planner

end BusTub
