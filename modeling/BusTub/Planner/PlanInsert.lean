import BusTub.Planner.RowTypes

/-!
# Planning INSERT and UPDATE

The model of `PlanInsert` and `PlanUpdate`.

An INSERT compares the types of the table with those of the schema that the select statement has;
what is in the rows of a VALUES list is not looked at.  An UPDATE plans the expressions of the SET
clause, one after the other, into a list with a place for each column, and compares no types at
all.  So the rows that are built have the types of their columns if and only if the statement
takes care of it.
-/

namespace BusTub

open FuelledRun Binder

/-- `BoundBaseTableRef`. -/
structure BoundBaseTable where
  table : String
  oid : ℕ
  aliasName : Option String
  schema : OutputSchema

/-- `InferScanSchema`: the columns, with the name of the table in front. -/
def BoundBaseTable.scanSchema (table : BoundBaseTable) : OutputSchema :=
  table.schema.map fun column =>
    (getBoundTableName table.table table.aliasName ++ "." ++ column.1, column.2)

/-- `InsertStatement`. -/
structure InsertStatement where
  table : BoundBaseTable
  select : SelectStatement

/-- `UpdateStatement`; a target is a column and its new value. -/
structure UpdateStatement where
  table : BoundBaseTable
  filterExpr : BoundExpression
  targetExpr : List (List String × BoundExpression)

/-- `GetColIdx`; other expressions are not asked. -/
def Expression.getColIdx : Expression → ℕ
  | .columnValue _ colIdx _ => colIdx
  | _ => 0

namespace Planner

/-! ## The code -/

/-- `PlanInsert`. -/
def planInsert (catalog : TableCatalog) (fuel : ℕ) (state : PlannerState)
    (statement : InsertStatement) : FuelledRun SqlFault PlanNode := do
  let (select, _, _) ← planSelect catalog fuel state statement.select
  if columnTypes statement.table.schema ≠ columnTypes select.outputSchema then
    throw (.fault (.exception "table schema mismatch"))
  return .node (.insert statement.table.oid)
    [("__bustub_internal.insert_rows", .number .integer)] [select]

def planTargets (schema : OutputSchema) : List (List String × BoundExpression) →
    List (Option Expression) → Except SqlFault (List (Option Expression))
  | [], targetExprs => .ok targetExprs
  | (col, targetExpr) :: rest, targetExprs => do
      let ((_, targetAbstractExpr), _) ← planExpression [schema] targetExpr noAggregations
      let (_, colAbstractExpr) ← planColumnRef [schema] col
      planTargets schema rest (targetExprs.set colAbstractExpr.getColIdx (some targetAbstractExpr))

/-- The loop over the places that are left: these columns keep their values. -/
def fillTargets (schema : OutputSchema) (targetExprs : List (Option Expression)) :
    List Expression :=
  (targetExprs.zip schema).mapIdx fun idx place =>
    place.1.getD (.columnValue 0 idx place.2.2)

/-- `PlanUpdate`. -/
def planUpdate (catalog : TableCatalog) (statement : UpdateStatement) :
    Except SqlFault PlanNode := do
  let table ← planBaseTableRef catalog statement.table.table statement.table.aliasName
    statement.table.schema
  let ((_, condition), _) ←
    planExpression [table.outputSchema] statement.filterExpr noAggregations
  let filter := PlanNode.node (.filter condition) table.outputSchema [table]
  let targetExprs ← planTargets filter.outputSchema statement.targetExpr
    (List.replicate filter.outputSchema.length none)
  return .node (.update statement.table.oid (fillTargets filter.outputSchema targetExprs))
    [("__bustub_internal.update_rows", .number .integer)] [filter]

/-! ## Targets -/

def lastTarget (name : String) : List (List String × BoundExpression) → Option BoundExpression
  | [] => none
  | (col, targetExpr) :: rest =>
    match lastTarget name rest with
    | some later => some later
    | none => if joinName col = name then some targetExpr else none

theorem place_unique {schema : OutputSchema} {name : String} {first second : ℕ}
    {firstColumn secondColumn : String × TypeId}
    (hcount : schema.countP (fun column => column.1 = name) ≤ 1)
    (hfirst : schema[first]? = some firstColumn) (hfirstName : firstColumn.1 = name)
    (hsecond : schema[second]? = some secondColumn) (hsecondName : secondColumn.1 = name) :
    first = second := by
  induction schema generalizing first second with
  | nil => cases hfirst
  | cons column rest ih =>
    -- the name at the head and again behind it would be two occurrences
    have hrest : ∀ {place : ℕ} {found : String × TypeId}, rest[place]? = some found →
        found.1 = name → 0 < rest.countP fun column => column.1 = name := by
      intro place found hfound hname
      exact List.countP_pos_iff.mpr ⟨found, List.mem_of_getElem? hfound, decide_eq_true hname⟩
    rw [List.countP_cons] at hcount
    cases first with
    | zero =>
      cases second with
      | zero => rfl
      | succ second =>
        obtain rfl : column = firstColumn := Option.some.inj hfirst
        have hpos := hrest hsecond hsecondName
        rw [if_pos (decide_eq_true hfirstName)] at hcount
        omega
    | succ first =>
      cases second with
      | zero =>
        obtain rfl : column = secondColumn := Option.some.inj hsecond
        have hpos := hrest hfirst hfirstName
        rw [if_pos (decide_eq_true hsecondName)] at hcount
        omega
      | succ second => exact congrArg _ (ih (by omega) hfirst hsecond)

structure Placed (schema : OutputSchema) (targets : List (List String × BoundExpression))
    (before after : List (Option Expression)) : Prop where
  length_eq : after.length = before.length
  kept : ∀ (idx : ℕ) (column : String × TypeId), schema[idx]? = some column →
    lastTarget column.1 targets = none → after[idx]? = before[idx]?
  assigned : ∀ (idx : ℕ) (column : String × TypeId) (targetExpr : BoundExpression),
    schema[idx]? = some column → lastTarget column.1 targets = some targetExpr →
      idx < before.length → ∃ name planned context,
        planExpression [schema] targetExpr noAggregations = .ok ((name, planned), context) ∧
          after[idx]? = some (some planned)

theorem planTargets_placed {schema : OutputSchema}
    {targets : List (List String × BoundExpression)} {before after : List (Option Expression)}
    (h : planTargets schema targets before = .ok after) : Placed schema targets before after := by
  induction targets generalizing before with
  | nil =>
    cases h
    exact ⟨rfl, fun _ _ _ _ => rfl, fun _ _ _ _ hlast => by cases hlast⟩
  | cons target rest ih =>
    obtain ⟨col, targetExpr⟩ := target
    simp only [planTargets, Except.bind_eq_ok_iff] at h
    obtain ⟨⟨⟨name, planned⟩, context⟩, hplanned, ⟨colName, column⟩, hcolumn, h⟩ := h
    obtain ⟨hcount, colIdx, found, rfl, hfoundName, hfound, -⟩ := planColumnRef_ok hcolumn
    dsimp only [Expression.getColIdx] at h
    -- what later targets leave alone is as this one has set it
    obtain ⟨hlength, hkept, hassigned⟩ := ih h
    rw [List.length_set] at hlength hassigned
    -- the target was resolved by name, so it writes to the one place of that name
    have hplace : ∀ (idx : ℕ) (other : String × TypeId), schema[idx]? = some other →
        (joinName col = other.1 ↔ idx = colIdx) := by
      intro idx other hother
      constructor
      · exact fun hname => place_unique hcount hother hname.symm hfound hfoundName
      · rintro rfl
        rw [← hfoundName, Option.some.inj (hother.symm.trans hfound)]
    refine ⟨hlength, ?_, ?_⟩
    · intro idx other hother hlast
      cases hrest : lastTarget other.1 rest with
      | some later => simp [lastTarget, hrest] at hlast
      | none =>
        have hne : ¬ joinName col = other.1 := by
          intro hname
          simp [lastTarget, hrest, hname] at hlast
        rw [hkept idx other hother hrest,
          List.getElem?_set_ne (fun hidx => hne ((hplace idx other hother).mpr hidx.symm))]
    · intro idx other expression hother hlast hlt
      cases hrest : lastTarget other.1 rest with
      | some later =>
        simp only [lastTarget, hrest, Option.some.injEq] at hlast
        obtain rfl := hlast
        exact hassigned idx other later hother hrest hlt
      | none =>
        simp only [lastTarget, hrest, Option.ite_none_right_eq_some, Option.some.injEq] at hlast
        obtain ⟨hname, rfl⟩ := hlast
        obtain rfl := (hplace idx other hother).mp hname
        refine ⟨name, planned, context, hplanned, ?_⟩
        rw [hkept idx other hother hrest]
        exact List.getElem?_set_self hlt

/-- The expression for a column: its new value, or the column itself. -/
inductive TargetOf (schema : OutputSchema) (targets : List (List String × BoundExpression))
    (idx : ℕ) (column : String × TypeId) : Expression → Prop
  | kept (hlast : lastTarget column.1 targets = none) :
      TargetOf schema targets idx column (.columnValue 0 idx column.2)
  | assigned {targetExpr : BoundExpression} {name : String} {planned : Expression}
      {context : PlannerContext} (hlast : lastTarget column.1 targets = some targetExpr)
      (hplanned : planExpression [schema] targetExpr noAggregations =
        .ok ((name, planned), context)) : TargetOf schema targets idx column planned

section Targets

variable {schema : OutputSchema} {targets : List (List String × BoundExpression)}
  {places : List (Option Expression)}

theorem length_fillTargets_of_ok
    (h : planTargets schema targets (List.replicate schema.length none) = .ok places) :
    (fillTargets schema places).length = schema.length := by
  have hlength := (planTargets_placed h).length_eq
  simp [fillTargets, hlength]

variable {idx : ℕ} {column : String × TypeId}

theorem getElem?_fillTargets {place : Option Expression}
    (hplace : places[idx]? = some place) (hcolumn : schema[idx]? = some column) :
    (fillTargets schema places)[idx]? = some (place.getD (.columnValue 0 idx column.2)) := by
  have hzip : (places.zip schema)[idx]? = some (place, column) :=
    List.getElem?_zip_eq_some.mpr ⟨hplace, hcolumn⟩
  rw [fillTargets, List.getElem?_mapIdx, hzip]
  rfl

theorem fillTargets_targetOf
    (h : planTargets schema targets (List.replicate schema.length none) = .ok places)
    (hcolumn : schema[idx]? = some column) :
    ∃ planned, (fillTargets schema places)[idx]? = some planned ∧
      TargetOf schema targets idx column planned := by
  obtain ⟨-, hkept, hassigned⟩ := planTargets_placed h
  have hlt : idx < schema.length := (List.getElem?_eq_some_iff.mp hcolumn).1
  cases hlast : lastTarget column.1 targets with
  | none =>
    have hplace := hkept idx column hcolumn hlast
    rw [List.getElem?_replicate, if_pos hlt] at hplace
    exact ⟨_, getElem?_fillTargets hplace hcolumn, .kept hlast⟩
  | some targetExpr =>
    obtain ⟨name, planned, context, hplanned, hplace⟩ :=
      hassigned idx column targetExpr hcolumn hlast (by rwa [List.length_replicate])
    exact ⟨planned, getElem?_fillTargets hplace hcolumn, .assigned hlast hplanned⟩

def TargetsTyped (schema : OutputSchema) (targets : List (List String × BoundExpression)) : Prop :=
  ∀ column ∈ schema, ∀ targetExpr, lastTarget column.1 targets = some targetExpr →
    targetExpr.valueType schema = some column.2

theorem TargetOf.getReturnType_iff {planned : Expression}
    (h : TargetOf schema targets idx column planned) :
    planned.getReturnType = column.2 ↔ ∀ targetExpr,
      lastTarget column.1 targets = some targetExpr →
        targetExpr.valueType schema = some column.2 := by
  cases h with
  | kept hlast => simp [Expression.getReturnType, hlast]
  | @assigned targetExpr name _ context hlast hplanned =>
    have hplanned' : planExpression (some schema).toList targetExpr noAggregations =
        .ok ((name, planned), context) := hplanned
    obtain ⟨-, htype, -⟩ := planExpression_typed hplanned'
    rw [Option.getD_some] at htype
    simp [hlast, htype]

theorem TargetOf.wellTyped {planned : Expression}
    (h : TargetOf schema targets idx column planned) (hcolumn : schema[idx]? = some column) :
    planned.WellTyped (columnTypes schema) := by
  cases h with
  | kept hlast => simp [Expression.WellTyped, columnTypes, hcolumn]
  | @assigned targetExpr name _ context hlast hplanned =>
    have hplanned' : planExpression (some schema).toList targetExpr noAggregations =
        .ok ((name, planned), context) := hplanned
    exact (planExpression_typed hplanned').2.2

/-- **The targets have the types of their columns** if and only if the last one for each column
does. -/
theorem fillTargets_typed_iff
    (h : planTargets schema targets (List.replicate schema.length none) = .ok places) :
    (fillTargets schema places).map Expression.getReturnType = columnTypes schema ↔
      TargetsTyped schema targets := by
  constructor
  · intro htypes column hmem
    obtain ⟨idx, hcolumn⟩ := List.mem_iff_getElem?.mp hmem
    obtain ⟨planned, hplanned, htarget⟩ := fillTargets_targetOf h hcolumn
    have htype := congrArg (fun types : List TypeId => types[idx]?) htypes
    simp only [columnTypes, List.getElem?_map, hplanned, hcolumn, Option.map_some,
      Option.some.injEq] at htype
    exact htarget.getReturnType_iff.mp htype
  · intro htyped
    refine List.ext_getElem? fun idx => ?_
    rw [columnTypes, List.getElem?_map, List.getElem?_map]
    cases hcolumn : schema[idx]? with
    | none =>
      rw [List.getElem?_eq_none_iff, ← length_fillTargets_of_ok h] at hcolumn
      rw [List.getElem?_eq_none hcolumn]
      rfl
    | some column =>
      obtain ⟨planned, hplanned, htarget⟩ := fillTargets_targetOf h hcolumn
      rw [hplanned, Option.map_some, Option.map_some,
        htarget.getReturnType_iff.mpr (htyped column (List.mem_of_getElem? hcolumn))]

theorem fillTargets_wellTyped
    (h : planTargets schema targets (List.replicate schema.length none) = .ok places) :
    ∀ expression ∈ fillTargets schema places, expression.WellTyped (columnTypes schema) := by
  intro expression hmem
  obtain ⟨idx, hget⟩ := List.mem_iff_getElem?.mp hmem
  have hlt : idx < schema.length :=
    length_fillTargets_of_ok h ▸ (List.getElem?_eq_some_iff.mp hget).1
  have hcolumn := List.getElem?_eq_getElem hlt
  obtain ⟨planned, hplanned, htarget⟩ := fillTargets_targetOf h hcolumn
  obtain rfl := Option.some.inj (hget.symm.trans hplanned)
  exact htarget.wellTyped hcolumn

end Targets

/-! ## Statements that build rows -/

inductive RowStatement
  | values (values : List (List BoundExpression)) (identifier : String)
  | insert (statement : InsertStatement)
  | update (statement : UpdateStatement)

def planRows (catalog : TableCatalog) (fuel : ℕ) (state : PlannerState) :
    RowStatement → FuelledRun SqlFault PlanNode
  | .values values identifier => lift (planExpressionListRef values identifier)
  | .insert statement => planInsert catalog fuel state statement
  | .update statement => lift (planUpdate catalog statement)

/-- Each expression has the type of the column that it is stored into: of the schema of the
`Values` nodes, or of the table of an UPDATE. -/
def TypeCorrect (plan : PlanNode) : RowStatement → Prop
  | .values _ _ | .insert _ => plan.AllValues RowsTyped
  | .update statement => ∃ targetExprs schema child,
      plan = .node (.update statement.table.oid targetExprs) schema [child] ∧
        targetExprs.map Expression.getReturnType = columnTypes statement.table.schema

/-- Each tuple that is built holds the values that it is built from. -/
def RowsKept (plan : PlanNode) : RowStatement → Prop
  | .values _ _ | .insert _ => plan.AllValues RowsDecode
  | .update statement => ∃ targetExprs schema child,
      plan = .node (.update statement.table.oid targetExprs) schema [child] ∧
        ∀ row, RowOf statement.table.schema row →
          DecodesBack statement.table.schema targetExprs row

/-- The statement takes care of types: the rows of each VALUES list that is planned have the same
types, and the last new value for each column has its type. -/
def WellTypedRows (fuel : ℕ) (scope : List BoundSubquery) : RowStatement → Prop
  | .values values _ => SameTypes values
  | .insert statement =>
    ∀ list ∈ listsOfSelect (plannedLists fuel) scope statement.select, SameTypes list.1
  | .update statement => TargetsTyped statement.table.scanSchema statement.targetExpr

variable {catalog : TableCatalog} {plan : PlanNode}

theorem planInsert_ok {fuel : ℕ} {state : PlannerState}
    {statement : InsertStatement}
    (h : planInsert catalog fuel state statement = .ok plan) :
    ∃ select statement' state', planSelect catalog fuel state statement.select =
        .ok (select, statement', state') ∧ StackedOn select plan := by
  simp only [planInsert, Except.bind_eq_ok_iff] at h
  obtain ⟨⟨select, statement', state'⟩, hselect, h⟩ := h
  refine ⟨select, statement', state', hselect, ?_⟩
  split_ifs at h
  · cases h
  · cases h
    exact .node (by simp) .source

theorem columnTypes_scanSchema (table : BoundBaseTable) :
    columnTypes table.scanSchema = columnTypes table.schema := by
  simp [columnTypes, BoundBaseTable.scanSchema]

theorem outputSchema_planBaseTableRef {table : BoundBaseTable}
    (h : planBaseTableRef catalog table.table table.aliasName table.schema = .ok plan) :
    plan.outputSchema = table.scanSchema := by
  unfold planBaseTableRef at h
  cases hfound : catalog table.table with
  | none =>
    rw [hfound] at h
    cases h
  | some found =>
    simp only [hfound] at h
    split_ifs at h
    · cases h
      rfl
    · cases h
      rfl

theorem planUpdate_ok {statement : UpdateStatement}
    (h : planUpdate catalog statement = .ok plan) :
    ∃ places schema child,
      planTargets statement.table.scanSchema statement.targetExpr
        (List.replicate statement.table.scanSchema.length none) = .ok places ∧
      plan = .node (.update statement.table.oid
        (fillTargets statement.table.scanSchema places)) schema [child] := by
  simp only [planUpdate, Except.bind_eq_ok_iff, PlanNode.outputSchema_node] at h
  obtain ⟨table, htable, ⟨⟨_, condition⟩, _⟩, -, places, hplaces, h⟩ := h
  rw [outputSchema_planBaseTableRef htable] at hplaces h
  cases h
  exact ⟨places, _, _, hplaces, rfl⟩

/-- **Plans that build rows** are type-correct if and only if the statement takes care of it, and
then every tuple that is built holds the values that it is built from. -/
theorem planRows_typed_iff {catalog : TableCatalog} {fuel : ℕ} {state : PlannerState}
    {statement : RowStatement} {plan : PlanNode}
    (h : planRows catalog fuel state statement = .ok plan) :
    (TypeCorrect plan statement ↔ WellTypedRows fuel state.ctes statement) ∧
      (TypeCorrect plan statement → RowsKept plan statement) := by
  cases statement with
  | values values identifier =>
    obtain ⟨rows, schema, rfl, hplanned⟩ := planExpressionListRef_ok (lift_eq_ok_iff.mp h)
    constructor
    · exact allValues_values.trans hplanned.rowsTyped_iff
    · intro htyped
      exact allValues_values.mpr (hplanned.rowsDecode (allValues_values.mp htyped))
  | insert statement =>
    obtain ⟨select, statement', state', hselect, hstacked⟩ := planInsert_ok h
    constructor
    · exact hstacked.allValues_iff.trans (planSelect_rowsTyped_iff hselect)
    · intro htyped
      exact hstacked.allValues_iff.mpr
        (planSelect_rowsDecode hselect (hstacked.allValues_iff.mp htyped))
  | update statement =>
    obtain ⟨places, schema, child, hplaces, rfl⟩ := planUpdate_ok (lift_eq_ok_iff.mp h)
    have htypes := columnTypes_scanSchema statement.table
    -- an UPDATE is about its own expressions, not about the scan below
    have hcorrect : TypeCorrect (.node (.update statement.table.oid
        (fillTargets statement.table.scanSchema places)) schema [child]) (.update statement) ↔
        (fillTargets statement.table.scanSchema places).map Expression.getReturnType =
          columnTypes statement.table.scanSchema := by
      rw [htypes]
      constructor
      · rintro ⟨targetExprs, schema', child', hplan, htyped⟩
        obtain ⟨⟨-, rfl⟩, -, -⟩ := PlanNode.node.inj hplan
        exact htyped
      · exact fun htyped => ⟨_, _, _, rfl, htyped⟩
    rw [hcorrect]
    refine ⟨fillTargets_typed_iff hplaces, fun htyped => ⟨_, _, _, rfl, fun row hrow => ?_⟩⟩
    refine decodesBack_of_typed (htyped.trans htypes) ?_
    rw [hrow.types_eq, ← htypes]
    exact fillTargets_wellTyped hplaces

/-- `VALUES (1), (2)`. -/
def twoNumbers : RowStatement :=
  .values [[.constant (Value.getIntegerValue 1)], [.constant (Value.getIntegerValue 2)]] "t"

theorem planRows_typed_two_numbers :
    ∃ plan, planRows (fun _ => none) 0 ⟨[], 0⟩ twoNumbers = .ok plan ∧
      TypeCorrect plan twoNumbers ∧ RowsKept plan twoNumbers := by
  have hplan : ∃ plan, planRows (fun _ => none) 0 ⟨[], 0⟩ twoNumbers = .ok plan := ⟨_, rfl⟩
  obtain ⟨plan, hplan⟩ := hplan
  obtain ⟨hiff, hkept⟩ := planRows_typed_iff hplan
  have hsame : WellTypedRows 0 [] twoNumbers := by
    simp [twoNumbers, WellTypedRows, SameTypes, BoundExpression.valueType,
      Value.getIntegerValue, Value.getTypeId]
  exact ⟨plan, hplan, hiff.mpr hsame, hkept (hiff.mpr hsame)⟩

/-- `1 = 1`. -/
def oneIsOne : BoundExpression :=
  .binaryOp "=" (.constant (Value.getIntegerValue 1)) (.constant (Value.getIntegerValue 1))

/-- `VALUES (1), (1 = 1)`. -/
def numberAndTruth : List (List BoundExpression) :=
  [[.constant (Value.getIntegerValue 1)], [oneIsOne]]

/-- The table `t` with the column `a`. -/
def tableT : BoundBaseTable := ⟨"t", 0, none, [("a", .number .integer)]⟩

/-- `INSERT INTO t VALUES (1), (1 = 1)`. -/
def insertNumberAndTruth : InsertStatement :=
  ⟨tableT, .mk (.expressionList numberAndTruth "v")
    ⟨[.columnRef ["v", "0"]], none, [], none, none, none, [], false⟩ []⟩

/-- `UPDATE t SET a = (1 = 1)`. -/
def updateTruth : UpdateStatement :=
  ⟨tableT, .constant (Value.getBooleanValue .cmpTrue), [(["t", "a"], oneIsOne)]⟩

/-- The planner accepts a truth value for a column of numbers, in a VALUES list, in an INSERT and
in an UPDATE.  A tuple that is built from it does not hold it: a number is read from it. -/
theorem planRows_truth_as_number :
    (∃ plan, planRows (fun _ => some (0, tableT.schema)) 1 ⟨[], 0⟩
        (.values numberAndTruth "v") = .ok plan ∧
      ¬ TypeCorrect plan (.values numberAndTruth "v") ∧
      ¬ RowsKept plan (.values numberAndTruth "v")) ∧
    (∃ plan, planRows (fun _ => some (0, tableT.schema)) 1 ⟨[], 0⟩
        (.insert insertNumberAndTruth) = .ok plan ∧
      ¬ TypeCorrect plan (.insert insertNumberAndTruth)) ∧
    ∃ plan, planRows (fun _ => some (0, tableT.schema)) 1 ⟨[], 0⟩ (.update updateTruth) =
        .ok plan ∧
      ¬ TypeCorrect plan (.update updateTruth) := by
  refine ⟨⟨_, rfl, ?_, ?_⟩, ⟨_, rfl, ?_⟩, ⟨_, rfl, ?_⟩⟩
  · intro htyped
    have hrow := allValues_values.mp htyped _ (List.mem_cons_of_mem _ List.mem_cons_self)
    exact absurd hrow (by decide)
  · intro hkept
    have hrow := allValues_values.mp hkept _ (List.mem_cons_of_mem _ List.mem_cons_self)
    have hdecoded := congrArg (List.map Value.getTypeId)
      (hrow [Value.getBooleanValue .cmpTrue] _ rfl rfl)
    exact absurd hdecoded (by decide)
  · intro htyped
    have hrow := htyped.2.1.2.1.1 _ (List.mem_cons_of_mem _ List.mem_cons_self)
    exact absurd hrow (by decide)
  · rintro ⟨targetExprs, schema, child, hplan, htyped⟩
    obtain ⟨⟨-, rfl⟩, -, -⟩ := PlanNode.node.inj hplan
    exact absurd htyped (by decide)

end Planner

end BusTub
