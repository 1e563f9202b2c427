import BusTub.Execution.Plan

/-!
# Executors

The model of `ValuesExecutor`, `FilterExecutor`, `ProjectionExecutor` and of the loop in
`ExecutionEngine::Execute`.  An executor is asked for one tuple after the other by `Next`; the
cursor of the `Values` node below it is its state.

The loops are unfolded into the sequence of all tuples, and the tuples are decoded into rows: on
rows the executors are operations on sequences, in which the layout of the tuples is gone.
-/

namespace BusTub

open FaultStream

/-! ## Tuples -/

def layout (schema : OutputSchema) : Schema :=
  Schema.create (schema.map fun column => ⟨column.2, 0⟩)

def columnTypes (schema : OutputSchema) : List TypeId := schema.map Prod.snd

/-- The constructor of a tuple; one that its `int32_t` offsets cannot address has no meaning. -/
def buildTuple (schema : OutputSchema) (values : List Value) : Except SqlFault Tuple :=
  if encodedSize values < 2 ^ 31 then
    match Tuple.ofValues values (layout schema) with
    | none => .error .undefinedBehaviour
    | some tuple => .ok tuple
  else .error .undefinedBehaviour

def decodeTuple (schema : OutputSchema) (tuple : Tuple) : Row :=
  (layout schema).columns.map (Tuple.readColumn (Tuple.memoryOf tuple.data))

/-- The test of `FilterExecutor`. -/
def passes (value : Value) : Bool := !value.isNull && value.asBool

namespace Executor

/-- `ValuesExecutor::Next`, for one row; the expressions are given no tuple. -/
def valuesTuple (schema : OutputSchema) (rowExpr : List Expression) : Except SqlFault Tuple := do
  let values ← rowExpr.mapM (Expression.evaluateWith Value.compare fun _ _ =>
    .error .undefinedBehaviour)
  buildTuple schema values

/-- `FilterExecutor::Next`, for one tuple of the child. -/
def filterTuple (childSchema : OutputSchema) (predicate : Expression) (tuple : Tuple) :
    Except SqlFault (Option Tuple) := do
  let value ← predicate.evaluate Value.compare tuple (layout childSchema)
  return if passes value then some tuple else none

/-- `ProjectionExecutor::Next`, for one tuple of the child. -/
def projectionTuple (childSchema schema : OutputSchema) (expressions : List Expression)
    (childTuple : Tuple) : Except SqlFault Tuple := do
  let values ← expressions.mapM (Expression.evaluate Value.compare childTuple (layout childSchema))
  buildTuple schema values

/-- The loop of `FilterExecutor::Next`, for as many tuples of the child. -/
def filterLoop (childNext : ℕ → Except SqlFault (Option (Tuple × ℕ))) (childSchema : OutputSchema)
    (predicate : Expression) : ℕ → ℕ → Except SqlFault (Option (Tuple × ℕ))
  | 0, _ => .error .undefinedBehaviour
  | fuel + 1, cursor => do
      match ← childNext cursor with
      | none => return none
      | some (tuple, cursor) =>
        match ← filterTuple childSchema predicate tuple with
        | some tuple => return some (tuple, cursor)
        | none => filterLoop childNext childSchema predicate fuel cursor

/-- The number of rows of the `Values` node. -/
def leafRows : PlanNode → ℕ
  | .node (.values rows) _ [] => rows.length
  | .node (.filter _) _ [child] => leafRows child
  | .node (.projection _) _ [child] => leafRows child
  | _ => 0

/-- `Next`: the next tuple and the cursor behind it, if there is one.  Other executors are not
modelled. -/
def next : PlanNode → ℕ → Except SqlFault (Option (Tuple × ℕ))
  | .node (.values rows) schema [], cursor =>
    match rows[cursor]? with
    | none => .ok none
    | some rowExpr => do
        let tuple ← valuesTuple schema rowExpr
        return some (tuple, cursor + 1)
  | .node (.filter predicate) _ [child], cursor =>
    filterLoop (next child) child.outputSchema predicate (leafRows child + 1) cursor
  | .node (.projection expressions) schema [child], cursor => do
      match ← next child cursor with
      | none => return none
      | some (childTuple, cursor) =>
        let tuple ← projectionTuple child.outputSchema schema expressions childTuple
        return some (tuple, cursor)
  | _, _ => .error .undefinedBehaviour

/-- The loop of `ExecutionEngine::Execute`, for as many tuples. -/
def executeLoop (plan : PlanNode) : ℕ → ℕ → FaultStream SqlFault Tuple
  | 0, _ => .failed .undefinedBehaviour
  | fuel + 1, cursor =>
    match next plan cursor with
    | .error fault => .failed fault
    | .ok none => .done
    | .ok (some (tuple, cursor)) => .next tuple (executeLoop plan fuel cursor)

/-- `ExecutionEngine::Execute`, after `Init`: the tuples, and how they end.  An exception ends
the loop and is not passed on. -/
def execute (plan : PlanNode) : FaultStream SqlFault Tuple :=
  executeLoop plan (leafRows plan + 1) 0

end Executor

/-! ## Rows -/

def columnOfRow (row : Row) (colIdx : ℕ) : Except SqlFault Value :=
  match row[colIdx]? with
  | none => .error .undefinedBehaviour
  | some value => .ok value

/-- `Evaluate`, on a row. -/
def evaluateRow (row : Row) : Expression → Except SqlFault Value :=
  Expression.evaluateWith Value.compare fun _ colIdx => columnOfRow row colIdx

/-- The rows that a `Filter` keeps. -/
def filterRow (predicate : Expression) (row : Row) : Except SqlFault (Option Row) := do
  let value ← evaluateRow row predicate
  return if passes value then some row else none

def buildRow (values : List Value) : Except SqlFault Row :=
  if encodedSize values < 2 ^ 31 then .ok values else .error .undefinedBehaviour

/-- The row that a `Projection` makes. -/
def projectionRow (expressions : List Expression) (row : Row) : Except SqlFault Row := do
  let values ← expressions.mapM (evaluateRow row)
  buildRow values

/-- The executors on rows; the other nodes have a meaning of their own. -/
def executorSemantics (others : NodeSemantics) : NodeSemantics
  | .values rows, _, [] => (ofList rows).mapM fun rowExpr => projectionRow rowExpr []
  | .filter predicate, _, [(_, child)] => child.filterMap (filterRow predicate)
  | .projection expressions, _, [(_, child)] => child.mapM (projectionRow expressions)
  | kind, schema, children => others kind schema children

/-! ## All tuples of an executor -/

namespace Executor

def tuplesFrom : PlanNode → ℕ → FaultStream SqlFault Tuple
  | .node (.values rows) schema [], cursor =>
    (ofList (rows.drop cursor)).mapM (valuesTuple schema)
  | .node (.filter predicate) _ [child], cursor =>
    (tuplesFrom child cursor).filterMap (filterTuple child.outputSchema predicate)
  | .node (.projection expressions) schema [child], cursor =>
    (tuplesFrom child cursor).mapM (projectionTuple child.outputSchema schema expressions)
  | _, _ => .failed .undefinedBehaviour

/-- A plan of `Values`, `Filter` and `Projection` nodes. -/
inductive Pipeline : PlanNode → Prop
  | values (rows : List (List Expression)) (schema : OutputSchema) :
      Pipeline (.node (.values rows) schema [])
  | filter {child : PlanNode} (predicate : Expression) (schema : OutputSchema)
      (pipeline : Pipeline child) : Pipeline (.node (.filter predicate) schema [child])
  | projection {child : PlanNode} (expressions : List Expression) (schema : OutputSchema)
      (pipeline : Pipeline child) : Pipeline (.node (.projection expressions) schema [child])

/-- A call of `Next` takes the first of the tuples. -/
inductive Takes (tuples : ℕ → FaultStream SqlFault Tuple) (bound cursor : ℕ) :
    Except SqlFault (Option (Tuple × ℕ)) → FaultStream SqlFault Tuple → Prop
  | done : Takes tuples bound cursor (.ok none) .done
  | failed (fault : SqlFault) : Takes tuples bound cursor (.error fault) (.failed fault)
  | next (tuple : Tuple) (cursor' : ℕ) (lower : cursor < cursor') (upper : cursor' ≤ bound) :
      Takes tuples bound cursor (.ok (some (tuple, cursor'))) (.next tuple (tuples cursor'))

variable {bound : ℕ}

variable {cursor : ℕ}

theorem Takes.of_le {tuples : ℕ → FaultStream SqlFault Tuple} {cursor' : ℕ}
    {result : Except SqlFault (Option (Tuple × ℕ))} {stream : FaultStream SqlFault Tuple}
    (h : Takes tuples bound cursor' result stream) (hle : cursor ≤ cursor') :
    Takes tuples bound cursor result stream := by
  cases h with
  | done => exact .done
  | failed fault => exact .failed fault
  | next tuple later lower upper => exact .next tuple later (by omega) upper

theorem filterLoop_takes {childNext : ℕ → Except SqlFault (Option (Tuple × ℕ))}
    {tuples : ℕ → FaultStream SqlFault Tuple} (childSchema : OutputSchema)
    (predicate : Expression)
    (hchild : ∀ cursor ≤ bound, Takes tuples bound cursor (childNext cursor) (tuples cursor))
    (fuel : ℕ) (hcursor : cursor ≤ bound) (hfuel : bound < cursor + fuel) :
    Takes (fun cursor => (tuples cursor).filterMap (filterTuple childSchema predicate)) bound cursor
      (filterLoop childNext childSchema predicate fuel cursor)
      ((tuples cursor).filterMap (filterTuple childSchema predicate)) := by
  induction fuel generalizing cursor with
  | zero => omega
  | succ fuel ih =>
    rw [filterLoop]
    generalize hresult : childNext cursor = result
    generalize hstream : tuples cursor = stream
    have hstep := hchild cursor hcursor
    rw [hresult, hstream] at hstep
    cases hstep with
    | done => exact .done
    | failed fault => exact .failed fault
    | next tuple cursor' lower upper =>
      simp only [bind, Except.bind, filterMap]
      rcases filterTuple childSchema predicate tuple with fault | _ | passed
      · exact .failed fault
      -- the tuple is dropped and the loop goes on behind it
      · exact (ih upper (by omega)).of_le lower.le
      · exact .next passed cursor' lower upper

variable {plan : PlanNode}

/-- **`Next`** takes the first of the tuples behind the cursor. -/
theorem next_takes (h : Pipeline plan)
    (hcursor : cursor ≤ leafRows plan) :
    Takes (tuplesFrom plan) (leafRows plan) cursor (next plan cursor) (tuplesFrom plan cursor) := by
  induction h generalizing cursor with
  | values rows schema =>
    rw [next, tuplesFrom]
    -- the cursor is the number of the next row
    by_cases hrow : cursor < rows.length
    · rw [List.getElem?_eq_getElem hrow, List.drop_eq_getElem_cons hrow]
      simp only [ofList, mapM, filterMap, bind, Except.bind]
      cases valuesTuple schema rows[cursor] with
      | error fault => exact .failed fault
      | ok tuple => exact .next tuple (cursor + 1) (by omega) hrow
    · rw [List.getElem?_eq_none (by omega), List.drop_of_length_le (by omega)]
      exact .done
  | filter predicate schema _ ih =>
    exact filterLoop_takes _ predicate (fun cursor hle => ih hle) _ hcursor (by omega)
  | @projection child expressions schema _ ih =>
    rw [next, tuplesFrom]
    have hstep := ih hcursor
    generalize next child cursor = result at hstep
    generalize tuplesFrom child cursor = stream at hstep
    cases hstep with
    | done => exact .done
    | failed fault => exact .failed fault
    | next childTuple cursor' lower upper =>
      simp only [mapM, filterMap, bind, Except.bind]
      cases projectionTuple child.outputSchema schema expressions childTuple with
      | error fault => exact .failed fault
      | ok tuple => exact .next tuple cursor' lower upper

theorem executeLoop_eq (h : Pipeline plan) (fuel : ℕ)
    (hcursor : cursor ≤ leafRows plan) (hfuel : leafRows plan < cursor + fuel) :
    executeLoop plan fuel cursor = tuplesFrom plan cursor := by
  induction fuel generalizing cursor with
  | zero => omega
  | succ fuel ih =>
    rw [executeLoop]
    have hstep := next_takes h hcursor
    generalize next plan cursor = result at hstep
    generalize hstream : tuplesFrom plan cursor = stream at hstep
    cases hstep with
    | done => rfl
    | failed fault => rfl
    | next tuple cursor' lower upper => exact congrArg _ (ih upper (by omega))

/-- **The loop of `Execute`** yields all tuples. -/
theorem execute_eq_tuples (h : Pipeline plan) :
    execute plan = tuplesFrom plan 0 :=
  executeLoop_eq h _ (Nat.zero_le _) (by omega)

end Executor

/-! ## Types -/

namespace Expression

/-- The columns are those of a row with values of the given types. -/
def WellTyped (types : List TypeId) : Expression → Prop
  | columnValue _ colIdx returnType => types[colIdx]? = some returnType
  | constantValue _ => True
  | comparison _ left right | arithmetic _ left right | logic _ left right =>
    WellTyped types left ∧ WellTyped types right

end Expression

theorem getTypeId_of_evaluateRow {row : Row} {expression : Expression} {value : Value}
    (htyped : expression.WellTyped (row.map Value.getTypeId))
    (h : evaluateRow row expression = .ok value) :
    value.getTypeId = expression.getReturnType := by
  cases expression with
  | columnValue tupleIdx colIdx returnType =>
    simp only [evaluateRow, Expression.evaluateWith, columnOfRow] at h
    simp only [Expression.WellTyped, List.getElem?_map] at htyped
    cases hrow : row[colIdx]? with
    | none => simp [hrow] at htyped
    | some found =>
      rw [hrow] at h htyped
      cases h
      exact Option.some.inj htyped
  | constantValue constant =>
    cases h
    rfl
  | comparison type left right =>
    simp only [evaluateRow, Expression.evaluateWith, Except.bind_eq_ok_iff] at h
    obtain ⟨lhs, -, rhs, -, result, -, h⟩ := h
    cases h
    cases result <;> rfl
  | arithmetic type left right =>
    simp only [evaluateRow, Expression.evaluateWith, Except.bind_eq_ok_iff] at h
    obtain ⟨lhs, -, rhs, -, h⟩ := h
    split at h
    · cases h
      rfl
    · cases h
      rfl
  | logic type left right =>
    simp only [evaluateRow, Expression.evaluateWith, Except.bind_eq_ok_iff] at h
    obtain ⟨lhs, -, rhs, -, h⟩ := h
    cases h
    cases Expression.computeLogic type lhs rhs <;> rfl

theorem getTypeId_of_mapM {row : Row} {expressions : List Expression} {values : List Value}
    (htyped : ∀ expression ∈ expressions, expression.WellTyped (row.map Value.getTypeId))
    (h : expressions.mapM (evaluateRow row) = .ok values) :
    values.map Value.getTypeId = expressions.map Expression.getReturnType := by
  induction expressions generalizing values with
  | nil =>
    cases h
    rfl
  | cons expression rest ih =>
    rw [List.forall_mem_cons] at htyped
    simp only [List.mapM_cons, Except.bind_eq_ok_iff] at h
    obtain ⟨value, hvalue, others, hothers, h⟩ := h
    cases h
    rw [List.map_cons, List.map_cons, getTypeId_of_evaluateRow htyped.1 hvalue,
      ih htyped.2 hothers]

/-- The node's expressions match its schema and those of its children. -/
def TypedNode (kind : PlanKind) (schema : OutputSchema) (children : List OutputSchema) : Prop :=
  match kind, children with
  | .values rows, [] => ∀ rowExpr ∈ rows,
      rowExpr.map Expression.getReturnType = columnTypes schema ∧
        ∀ expression ∈ rowExpr, expression.WellTyped []
  | .filter predicate, [child] =>
    columnTypes schema = columnTypes child ∧ predicate.WellTyped (columnTypes child)
  | .projection expressions, [child] =>
    expressions.map Expression.getReturnType = columnTypes schema ∧
      ∀ expression ∈ expressions, expression.WellTyped (columnTypes child)
  | _, _ => False

def PlanNode.Typed (plan : PlanNode) : Prop :=
  plan.Everywhere PlanNode.outputSchema TypedNode

/-! ## From tuples to rows -/

/-- The row has values of the types of the schema, and fits in a tuple. -/
structure RowOf (schema : OutputSchema) (row : Row) : Prop where
  types_eq : row.map Value.getTypeId = columnTypes schema
  fits : encodedSize row < 2 ^ 31

structure HoldsRow (schema : OutputSchema) (tuple : Tuple) (row : Row) : Prop extends
    RowOf schema row where
  built : Tuple.ofValues row (layout schema) = some tuple

variable {schema : OutputSchema} {tuple : Tuple} {row : Row}

theorem columnTypes_eq (schema : OutputSchema) :
    columnTypes schema = (schema.map fun column => (⟨column.2, 0⟩ : Column)).map
      Column.columnType := by
  simp [columnTypes]

theorem HoldsRow.getValue (h : HoldsRow schema tuple row) (index : ℕ) :
    tuple.getValue (layout schema) index = row[index]? := by
  obtain ⟨tuple', hbuilt, -, hread⟩ :=
    ofValues_spec (h.types_eq.trans (columnTypes_eq schema)) h.fits
  obtain rfl : tuple = tuple' := Option.some.inj (h.built.symm.trans hbuilt)
  exact hread _ (fun cell _ => rfl) index

theorem HoldsRow.decodeTuple_eq (h : HoldsRow schema tuple row) :
    decodeTuple schema tuple = row := by
  apply List.ext_getElem?
  intro index
  rw [← h.getValue index, decodeTuple, List.getElem?_map]
  rfl

theorem HoldsRow.columnOf (h : HoldsRow schema tuple row) (colIdx : ℕ) :
    Expression.columnOf tuple (layout schema) colIdx = columnOfRow row colIdx := by
  have hvalue := h.getValue colIdx
  cases hrow : row[colIdx]? <;> simp only [Expression.columnOf, hvalue, columnOfRow, hrow]

theorem HoldsRow.evaluate (h : HoldsRow schema tuple row) (expression : Expression) :
    expression.evaluate Value.compare tuple (layout schema) = evaluateRow row expression := by
  unfold Expression.evaluate evaluateRow
  congr 1
  funext tupleIdx colIdx
  exact h.columnOf colIdx

theorem layout_congr {schema' : OutputSchema} (h : columnTypes schema' = columnTypes schema) :
    layout schema' = layout schema := by
  have hlayout : ∀ other : OutputSchema, layout other =
      Schema.create ((columnTypes other).map fun type => ⟨type, 0⟩) := fun other => by
    rw [columnTypes, List.map_map]
    rfl
  rw [hlayout, hlayout, h]

theorem HoldsRow.congr {schema' : OutputSchema} (h : HoldsRow schema tuple row)
    (htypes : columnTypes schema' = columnTypes schema) : HoldsRow schema' tuple row :=
  ⟨⟨h.types_eq.trans htypes.symm, h.fits⟩, by rw [layout_congr htypes, h.built]⟩

theorem RowOf.exists_holdsRow (h : RowOf schema row) : ∃ tuple, HoldsRow schema tuple row := by
  obtain ⟨tuple, hbuilt, -, -⟩ :=
    ofValues_spec (h.types_eq.trans (columnTypes_eq schema)) h.fits
  exact ⟨tuple, h, hbuilt⟩

theorem buildTuple_spec (htypes : row.map Value.getTypeId = columnTypes schema) :
    buildRow row = (buildTuple schema row).map (decodeTuple schema) ∧
      ∀ tuple, buildTuple schema row = .ok tuple → HoldsRow schema tuple row := by
  by_cases hfits : encodedSize row < 2 ^ 31
  · obtain ⟨tuple, hholds⟩ := RowOf.exists_holdsRow ⟨htypes, hfits⟩
    have hbuild : buildTuple schema row = .ok tuple := by
      rw [buildTuple, if_pos hfits, hholds.built]
    rw [hbuild, buildRow, if_pos hfits]
    refine ⟨?_, fun tuple' heq => Except.ok.inj heq ▸ hholds⟩
    rw [Except.map, hholds.decodeTuple_eq]
  · rw [buildTuple, if_neg hfits, buildRow, if_neg hfits]
    exact ⟨rfl, nofun⟩

theorem projectionRow_spec {expressions : List Expression}
    (htypes : expressions.map Expression.getReturnType = columnTypes schema)
    (htyped : ∀ expression ∈ expressions, expression.WellTyped (row.map Value.getTypeId)) :
    projectionRow expressions row =
      ((expressions.mapM (evaluateRow row) >>= buildTuple schema).map (decodeTuple schema)) ∧
    ∀ tuple, expressions.mapM (evaluateRow row) >>= buildTuple schema = .ok tuple →
      ∃ values, HoldsRow schema tuple values := by
  rw [projectionRow]
  cases hvalues : expressions.mapM (evaluateRow row) with
  | error fault => exact ⟨rfl, nofun⟩
  | ok values =>
    obtain ⟨hbuild, hholds⟩ :=
      buildTuple_spec ((getTypeId_of_mapM htyped hvalues).trans htypes)
    exact ⟨hbuild, fun tuple htuple => ⟨values, hholds tuple htuple⟩⟩

namespace Executor

variable {schema : OutputSchema}

theorem typed_cases {kind : PlanKind} {children : List PlanNode}
    (h : (PlanNode.node kind schema children).Typed) :
    (∃ rows, kind = .values rows ∧ children = [] ∧ TypedNode kind schema []) ∨
    (∃ predicate child, kind = .filter predicate ∧ children = [child] ∧
      child.Typed ∧ TypedNode kind schema [child.outputSchema]) ∨
    ∃ expressions child, kind = .projection expressions ∧ children = [child] ∧
      child.Typed ∧ TypedNode kind schema [child.outputSchema] := by
  obtain ⟨hnode, hchildren⟩ := h
  rcases children with _ | ⟨child, _ | ⟨second, rest⟩⟩
  · cases kind with
    | values rows => exact .inl ⟨rows, rfl, rfl, hnode⟩
    | _ => exact hnode.elim
  · cases kind with
    | filter predicate => exact .inr (.inl ⟨predicate, child, rfl, rfl, hchildren.1, hnode⟩)
    | projection expressions =>
      exact .inr (.inr ⟨expressions, child, rfl, rfl, hchildren.1, hnode⟩)
    | _ => exact hnode.elim
  · cases kind <;> exact hnode.elim

variable {plan : PlanNode}

theorem pipeline_of_typed (h : plan.Typed) : Pipeline plan := by
  induction plan using PlanNode.induction with
  | hnode kind schema children ih =>
    rcases typed_cases h with ⟨rows, rfl, rfl, -⟩ | ⟨predicate, child, rfl, rfl, hchild, -⟩ |
      ⟨expressions, child, rfl, rfl, hchild, -⟩
    · exact .values rows schema
    · exact .filter predicate schema (ih child List.mem_cons_self hchild)
    · exact .projection expressions schema (ih child List.mem_cons_self hchild)

variable (others : NodeSemantics)

theorem meaning_filter (predicate : Expression) (schema : OutputSchema)
    (child : PlanNode) :
    (PlanNode.node (.filter predicate) schema [child]).meaning (executorSemantics others) =
      (child.meaning (executorSemantics others)).filterMap (filterRow predicate) := rfl

theorem meaning_projection (expressions : List Expression)
    (schema : OutputSchema) (child : PlanNode) :
    (PlanNode.node (.projection expressions) schema [child]).meaning (executorSemantics others) =
      (child.meaning (executorSemantics others)).mapM (projectionRow expressions) := rfl

theorem filterTuple_eq {childSchema : OutputSchema} {predicate : Expression}
    {tuple passed : Tuple} (h : filterTuple childSchema predicate tuple = .ok (some passed)) :
    passed = tuple := by
  rw [filterTuple, Except.bind_eq_ok_iff] at h
  obtain ⟨value, -, h⟩ := h
  have hsome := Except.ok.inj h
  split_ifs at hsome
  exact (Option.some.inj hsome).symm

/-- The rows of the tuples that a plan yields are its meaning, and each tuple holds a row of its
schema. -/
def YieldsRows (others : NodeSemantics) (plan : PlanNode) : Prop :=
  (tuplesFrom plan 0).map (decodeTuple plan.outputSchema) =
      plan.meaning (executorSemantics others) ∧
    (tuplesFrom plan 0).All fun tuple => ∃ row, HoldsRow plan.outputSchema tuple row

theorem yieldsRows_values {rows : List (List Expression)}
    (hnode : TypedNode (.values rows) schema []) :
    YieldsRows others (.node (.values rows) schema []) := by
  have hspec : ∀ rowExpr ∈ rows, projectionRow rowExpr [] =
      (valuesTuple schema rowExpr).map (decodeTuple schema) ∧
      ∀ tuple, valuesTuple schema rowExpr = .ok tuple →
        ∃ values, HoldsRow schema tuple values :=
    fun rowExpr hmem => projectionRow_spec (hnode rowExpr hmem).1 (hnode rowExpr hmem).2
  have hrows : (ofList rows : FaultStream SqlFault _).All (· ∈ rows) := by
    simp [All]
  constructor
  · exact map_mapM (hrows.imp fun rowExpr hmem => (hspec rowExpr hmem).1)
  · exact all_mapM hrows fun rowExpr tuple hmem => (hspec rowExpr hmem).2 tuple

theorem yieldsRows_filter {others : NodeSemantics} {predicate : Expression}
    {child : PlanNode} (hnode : TypedNode (.filter predicate) schema [child.outputSchema])
    (h : YieldsRows others child) :
    YieldsRows others (.node (.filter predicate) schema [child]) := by
  obtain ⟨hrows, hall⟩ := h
  obtain ⟨htypes, -⟩ := hnode
  constructor
  · rw [meaning_filter, ← hrows, filterMap_map]
    refine map_filterMap (hall.imp fun tuple ⟨row, hrow⟩ => ?_)
    rw [filterRow, filterTuple, hrow.decodeTuple_eq, hrow.evaluate]
    cases evaluateRow row predicate with
    | error fault => rfl
    | ok value =>
      -- the tuple that passes is read with the schema of the filter, whose types are the child's
      have hdecode := (hrow.congr htypes).decodeTuple_eq
      simp only [bind, Except.bind]
      by_cases hpasses : passes value = true
      · rw [if_pos hpasses, if_pos hpasses, ← hdecode]
        rfl
      · rw [if_neg hpasses, if_neg hpasses]
        rfl
  · refine all_filterMap hall fun tuple passed ⟨row, hrow⟩ hpassed => ⟨row, ?_⟩
    rw [filterTuple_eq hpassed]
    exact hrow.congr htypes

theorem yieldsRows_projection {others : NodeSemantics} {expressions : List Expression}
    {child : PlanNode}
    (hnode : TypedNode (.projection expressions) schema [child.outputSchema])
    (h : YieldsRows others child) :
    YieldsRows others (.node (.projection expressions) schema [child]) := by
  obtain ⟨hrows, hall⟩ := h
  obtain ⟨htypes, htyped⟩ := hnode
  have hspec : (tuplesFrom child 0).All fun tuple =>
      projectionRow expressions (decodeTuple child.outputSchema tuple) =
        (projectionTuple child.outputSchema schema expressions tuple).map
          (decodeTuple schema) ∧
      ∀ tuple', projectionTuple child.outputSchema schema expressions tuple = .ok tuple' →
        ∃ values, HoldsRow schema tuple' values := by
    refine hall.imp fun tuple ⟨row, hrow⟩ => ?_
    rw [hrow.decodeTuple_eq, projectionTuple, funext hrow.evaluate]
    exact projectionRow_spec htypes (hrow.types_eq ▸ htyped)
  constructor
  · rw [meaning_projection, ← hrows, mapM_map]
    exact map_mapM (hspec.imp fun tuple h => h.1)
  · exact all_mapM hspec fun tuple tuple' h => h.2 tuple'

/-- **Executors on rows.** -/
theorem tuples_rows (h : plan.Typed) :
    YieldsRows others plan := by
  induction plan using PlanNode.induction with
  | hnode kind schema children ih =>
    rcases typed_cases h with ⟨rows, rfl, rfl, hnode⟩ |
      ⟨predicate, child, rfl, rfl, hchild, hnode⟩ | ⟨expressions, child, rfl, rfl, hchild, hnode⟩
    · exact yieldsRows_values others hnode
    · exact yieldsRows_filter hnode (ih child List.mem_cons_self hchild)
    · exact yieldsRows_projection hnode (ih child List.mem_cons_self hchild)

/-- **What `Execute` yields**, as rows. -/
theorem execute_rows (h : plan.Typed) :
    (execute plan).map (decodeTuple plan.outputSchema) =
      plan.meaning (executorSemantics others) := by
  rw [execute_eq_tuples (pipeline_of_typed h), (tuples_rows others h).1]

theorem meaning_rowOf (h : plan.Typed) :
    (plan.meaning (executorSemantics others)).All (RowOf plan.outputSchema) := by
  obtain ⟨hrows, hall⟩ := tuples_rows others h
  rw [← hrows]
  exact all_map (hall.imp fun tuple ⟨row, hrow⟩ => hrow.decodeTuple_eq ▸ hrow.toRowOf)

end Executor

end BusTub
