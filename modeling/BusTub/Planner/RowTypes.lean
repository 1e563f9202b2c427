import BusTub.Planner.PlanSelect
import BusTub.Binder.ResolveColumn
import BusTub.Execution.Executors

/-!
# The types of VALUES lists

The schema of a `Values` node is inferred from the first row of the list; the other rows are
planned without a look at it.  So the rows have the types of the schema if and only if any two
rows have the same types, and the tuples that are built from them hold the values then.

VALUES lists stand anywhere in the FROM clause of a statement, in its subqueries and in its CTEs.
`plannedLists` are those that planning a table reference comes across, and these are the `Values`
nodes of the plan.
-/

namespace BusTub

open FuelledRun Binder Expression BoundExpression

/-! ## The types of planned expressions -/

/-- The type of the values of an expression, for columns with these names and types. -/
def BoundExpression.valueType (columns : OutputSchema) : BoundExpression → Option TypeId
  | .constant value => some value.getTypeId
  | .columnRef colName => (columns.find? fun column => column.1 = joinName colName).map Prod.snd
  | .binaryOp opName _ _ =>
    some (if opName = "+" ∨ opName = "-" then .number .integer else .number .boolean)
  | .aliased _ child => child.valueType columns
  | .aggCall _ _ _ | .star | .unaryOp _ _ => none

namespace Planner

variable {schema : OutputSchema} {planned : Expression}

theorem planColumnRef_ok {colName : List String} {name : String}
    (h : planColumnRef [schema] colName = .ok (name, planned)) :
    schema.countP (fun column => column.1 = joinName colName) ≤ 1 ∧
      ∃ colIdx column, planned = .columnValue 0 colIdx column.2 ∧ column.1 = joinName colName ∧
        schema[colIdx]? = some column ∧
        schema.find? (fun column => column.1 = joinName colName) = some column := by
  simp only [planColumnRef] at h
  rw [← joinName] at h
  split_ifs at h with hcount
  · cases h
  refine ⟨Nat.le_of_not_lt hcount, ?_⟩
  cases hfind : tryGetColIdx schema (joinName colName) with
  | none =>
    rw [hfind] at h
    cases h
  | some colIdx =>
    simp only [hfind, Except.bind_eq_ok_iff] at h
    obtain ⟨expression, hcolumn, h⟩ := h
    cases h
    obtain ⟨hlt, hname, hbefore⟩ := List.findIdx?_eq_some_iff_getElem.mp hfind
    simp only [columnOfChild, List.getElem?_eq_getElem hlt] at hcolumn
    refine ⟨colIdx, schema[colIdx], (Except.ok.inj hcolumn).symm, of_decide_eq_true hname,
      List.getElem?_eq_getElem hlt, ?_⟩
    rw [List.find?_eq_some_iff_getElem]
    exact ⟨hname, colIdx, hlt, rfl, fun other hother => by simpa using hbefore other hother⟩

variable {opName : String}

theorem getBinaryExpressionFromFactory_ok {left right : Expression}
    (h : getBinaryExpressionFromFactory opName left right = .ok planned) :
    ((opName = "+" ∨ opName = "-") ∧ ∃ type, planned = .arithmetic type left right) ∨
      (¬ (opName = "+" ∨ opName = "-") ∧
        ((∃ type, planned = .comparison type left right) ∨
          ∃ type, planned = .logic type left right)) := by
  by_cases harithmetic : opName = "+" ∨ opName = "-"
  · refine .inl ⟨harithmetic, ?_⟩
    rcases harithmetic with rfl | rfl
    all_goals
      simp only [getBinaryExpressionFromFactory, arithmeticExpression, String.reduceEq,
        or_self, if_false, if_true] at h
      split_ifs at h
      exact ⟨_, (Except.ok.inj h).symm⟩
  · refine .inr ⟨harithmetic, ?_⟩
    rw [not_or] at harithmetic
    rw [getBinaryExpressionFromFactory, if_neg harithmetic.1, if_neg harithmetic.2] at h
    -- the comparisons come first, then "and" and "or"
    iterate 6
      rcases ite_eq_iff.mp h with ⟨-, hcomparison⟩ | ⟨-, h⟩
      · exact .inl ⟨_, (Except.ok.inj hcomparison).symm⟩
    iterate 2
      rcases ite_eq_iff.mp h with ⟨-, hlogic⟩ | ⟨-, h⟩
      · rw [logicExpression] at hlogic
        split_ifs at hlogic
        exact .inr ⟨_, (Except.ok.inj hlogic).symm⟩
    cases h

theorem getReturnType_binary {left right : Expression}
    (h : getBinaryExpressionFromFactory opName left right = .ok planned) :
    planned.getReturnType =
      if opName = "+" ∨ opName = "-" then .number .integer else .number .boolean := by
  obtain ⟨hop, type, rfl⟩ | ⟨hop, ⟨type, rfl⟩ | ⟨type, rfl⟩⟩ := getBinaryExpressionFromFactory_ok h
  · rw [if_pos hop, getReturnType]
  · rw [if_neg hop, getReturnType]
  · rw [if_neg hop, getReturnType]

theorem wellTyped_binary {left right : Expression} {types : List TypeId}
    (h : getBinaryExpressionFromFactory opName left right = .ok planned)
    (hleft : left.WellTyped types) (hright : right.WellTyped types) : planned.WellTyped types := by
  obtain ⟨-, type, rfl⟩ | ⟨-, ⟨type, rfl⟩ | ⟨type, rfl⟩⟩ := getBinaryExpressionFromFactory_ok h
  all_goals exact ⟨hleft, hright⟩

/-- **The type of a planned expression** can be read off the bound one. -/
theorem planExpression_typed {child : Option OutputSchema} {expression : BoundExpression}
    {name : String} {context : PlannerContext}
    (h : planExpression child.toList expression noAggregations = .ok ((name, planned), context)) :
    context = noAggregations ∧
      expression.valueType (child.getD []) = some planned.getReturnType ∧
      planned.WellTyped (columnTypes (child.getD [])) := by
  fun_induction hasAggCall expression generalizing name planned context with
  | case1 funcName isDistinct args => cases h
  | case2 opName larg rarg ihl ihr =>
    simp only [planExpression, Except.bind_eq_ok_iff] at h
    obtain ⟨⟨⟨_, left⟩, _⟩, hleft, ⟨⟨_, right⟩, _⟩, hright, planned', hfactory, h⟩ := h
    obtain ⟨hplanned, rfl⟩ := Prod.mk.inj (Except.ok.inj h)
    cases hplanned
    obtain ⟨rfl, -, hleftTyped⟩ := ihl hleft
    obtain ⟨rfl, -, hrightTyped⟩ := ihr hright
    exact ⟨rfl, congrArg some (getReturnType_binary hfactory).symm,
      wellTyped_binary hfactory hleftTyped hrightTyped⟩
  | case3 opName arg ih => cases h
  | case4 name' child' ih =>
    simp only [planExpression, Except.bind_eq_ok_iff] at h
    obtain ⟨⟨⟨_, inner⟩, _⟩, hinner, h⟩ := h
    obtain ⟨hplanned, rfl⟩ := Prod.mk.inj (Except.ok.inj h)
    cases hplanned
    exact ih hinner
  | case5 => cases h
  | case6 colName =>
    simp only [planExpression, Except.bind_eq_ok_iff] at h
    obtain ⟨⟨_, column⟩, hcolumn, h⟩ := h
    obtain ⟨hplanned, rfl⟩ := Prod.mk.inj (Except.ok.inj h)
    cases hplanned
    cases child with
    | none => cases hcolumn
    | some schema =>
      -- the type of a column reference is that of the column that was found
      obtain ⟨-, colIdx, found, rfl, hname, hget, hfind⟩ := planColumnRef_ok hcolumn
      refine ⟨rfl, ?_, ?_⟩
      · simp [valueType, hfind, getReturnType]
      · simp [Expression.WellTyped, columnTypes, hget]
  | case7 value =>
    obtain ⟨hplanned, rfl⟩ := Prod.mk.inj (Except.ok.inj h)
    cases hplanned
    exact ⟨rfl, rfl, trivial⟩

theorem planExpressions_typed {child : Option OutputSchema} {list : List BoundExpression}
    {items : List (String × Expression)} {context : PlannerContext}
    (h : planExpressions child.toList list noAggregations = .ok (items, context)) :
    list.map (valueType (child.getD [])) =
        (items.map Prod.snd).map (some ∘ getReturnType) ∧
      ∀ expression ∈ items.map Prod.snd,
        expression.WellTyped (columnTypes (child.getD [])) := by
  induction list generalizing items context with
  | nil =>
    cases h
    exact ⟨rfl, List.forall_mem_nil _⟩
  | cons expression rest ih =>
    simp only [planExpressions, Except.bind_eq_ok_iff] at h
    obtain ⟨⟨⟨name, planned⟩, middle⟩, hplanned, ⟨others, last⟩, hothers, h⟩ := h
    cases h
    obtain ⟨rfl, htype, htyped⟩ := planExpression_typed hplanned
    obtain ⟨htypes, hall⟩ := ih hothers
    refine ⟨?_, List.forall_mem_cons.mpr ⟨htyped, hall⟩⟩
    rw [List.map_cons, htype, htypes]
    rfl

/-! ## One list -/

abbrev ValuesList := List (List BoundExpression) × String

def SameTypes (values : List (List BoundExpression)) : Prop :=
  ∀ row ∈ values, ∀ other ∈ values,
    row.map (valueType []) = other.map (valueType [])

def RowsTyped (rows : List (List Expression)) (schema : OutputSchema) : Prop :=
  ∀ rowExpr ∈ rows, rowExpr.map getReturnType = columnTypes schema

/-- The tuple that is built from the values of the expressions, on a row, holds these values. -/
def DecodesBack (schema : OutputSchema) (expressions : List Expression) (row : Row) : Prop :=
  ∀ values tuple, expressions.mapM (evaluateRow row) = .ok values →
    buildTuple schema values = .ok tuple → decodeTuple schema tuple = values

/-- Every tuple of a `Values` node holds the values of its row. -/
def RowsDecode (rows : List (List Expression)) (schema : OutputSchema) : Prop :=
  ∀ rowExpr ∈ rows, DecodesBack schema rowExpr []

theorem decodesBack_of_typed {expressions : List Expression} {row : Row}
    (htypes : expressions.map getReturnType = columnTypes schema)
    (htyped : ∀ expression ∈ expressions, expression.WellTyped (row.map Value.getTypeId)) :
    DecodesBack schema expressions row := by
  intro values tuple hvalues hbuild
  have hholds : HoldsRow schema tuple values :=
    (buildTuple_spec ((getTypeId_of_mapM htyped hvalues).trans htypes)).2 tuple hbuild
  exact hholds.decodeTuple_eq

/-- The `Values` node of a list, with what the planner knows about it. -/
structure ListPlanned (values : List (List BoundExpression)) (rows : List (List Expression))
    (schema : OutputSchema) : Prop where
  types_eq : values.map (List.map (valueType [])) =
    rows.map (List.map (some ∘ getReturnType))
  first_row : ∃ firstRow ∈ rows, columnTypes schema = firstRow.map getReturnType
  no_columns : ∀ rowExpr ∈ rows, ∀ expression ∈ rowExpr, expression.WellTyped []

variable {values : List (List BoundExpression)} {rows : List (List Expression)}

theorem planRows_typed
    (h : (values.mapM fun row => do
      let (items, _) ← planExpressions [] row noAggregations
      return items.map Prod.snd) = Except.ok rows) :
    values.map (List.map (valueType [])) =
        rows.map (List.map (some ∘ getReturnType)) ∧
      ∀ rowExpr ∈ rows, ∀ expression ∈ rowExpr, expression.WellTyped [] := by
  induction values generalizing rows with
  | nil =>
    cases h
    exact ⟨rfl, List.forall_mem_nil _⟩
  | cons row rest ih =>
    simp only [List.mapM_cons, Except.bind_eq_ok_iff] at h
    obtain ⟨rowExpr, ⟨⟨items, context⟩, hitems, hrow⟩, others, hothers, h⟩ := h
    cases h
    cases hrow
    have hitems' : planExpressions (none : Option OutputSchema).toList row noAggregations =
        .ok (items, context) := hitems
    obtain ⟨htypes, htyped⟩ := planExpressions_typed hitems'
    obtain ⟨hothersTypes, hothersTyped⟩ := ih hothers
    refine ⟨?_, List.forall_mem_cons.mpr ⟨htyped, hothersTyped⟩⟩
    rw [List.map_cons, List.map_cons, hothersTypes]
    exact congrArg (· :: _) htypes

theorem planExpressionListRef_ok {identifier : String}
    {plan : PlanNode} (h : planExpressionListRef values identifier = .ok plan) :
    ∃ rows schema, plan = .node (.values rows) schema [] ∧ ListPlanned values rows schema := by
  simp only [planExpressionListRef, Except.bind_eq_ok_iff] at h
  obtain ⟨rows, hrows, h⟩ := h
  obtain ⟨htypes, htyped⟩ := planRows_typed hrows
  cases rows with
  | nil => cases h
  | cons firstRow others =>
    cases h
    refine ⟨_, _, rfl, htypes, ⟨firstRow, List.mem_cons_self, ?_⟩, htyped⟩
    refine List.ext_getElem? fun idx => ?_
    simp [columnTypes, Function.comp_def]

/-- **The rows of a list** have the types of the schema if and only if they have the same types. -/
theorem ListPlanned.rowsTyped_iff
    (h : ListPlanned values rows schema) :
    RowsTyped rows schema ↔ SameTypes values := by
  obtain ⟨firstRow, hfirst, hschema⟩ := h.first_row
  have hsame : SameTypes values ↔ ∀ rowExpr ∈ rows, ∀ other ∈ rows,
      rowExpr.map getReturnType = other.map getReturnType := by
    have hmap : SameTypes values ↔
        ∀ types ∈ values.map (List.map (valueType [])),
          ∀ others ∈ values.map (List.map (valueType [])), types = others := by
      simp only [SameTypes, List.forall_mem_map]
    rw [hmap, h.types_eq]
    simp only [List.forall_mem_map, ← List.map_map,
      (List.map_injective_iff.mpr (Option.some_injective TypeId)).eq_iff]
  rw [hsame]
  constructor
  · intro htyped rowExpr hrow other hother
    exact (htyped rowExpr hrow).trans (htyped other hother).symm
  · intro hrows rowExpr hrow
    exact (hrows rowExpr hrow firstRow hfirst).trans hschema.symm

theorem ListPlanned.rowsDecode
    (h : ListPlanned values rows schema)
    (htyped : RowsTyped rows schema) : RowsDecode rows schema := by
  intro rowExpr hrow
  exact decodesBack_of_typed (htyped rowExpr hrow) (h.no_columns rowExpr hrow)

/-! ## All lists of a plan -/

end Planner

/-- All `Values` nodes of the plan are such. -/
def PlanNode.AllValues (p : List (List Expression) → OutputSchema → Prop) : PlanNode → Prop :=
  PlanNode.Everywhere (fun _ => ()) fun kind schema _ =>
    match kind with
    | .values rows => p rows schema
    | _ => True

namespace Planner

/-- The `Values` node of the list is such. -/
def Meets (p : List (List Expression) → OutputSchema → Prop) (list : ValuesList) : Prop :=
  ∃ rows schema, planExpressionListRef list.1 list.2 = .ok (.node (.values rows) schema []) ∧
    p rows schema

/-- The scope of the FROM clause of a statement: a statement with CTEs has its own. -/
def scopeOf (scope ctes : List BoundSubquery) : List BoundSubquery :=
  if ctes.isEmpty then scope else ctes

def listsOfSelect (lists : List BoundSubquery → BoundTableRef → List ValuesList)
    (scope : List BoundSubquery) : SelectStatement → List ValuesList
  | .mk table _ ctes => lists (scopeOf scope ctes) table

/-- The lists that are planned with a table reference; a CTE is planned where it is referred to. -/
def plannedLists : ℕ → List BoundSubquery → BoundTableRef → List ValuesList
  | 0, _, _ => []
  | fuel + 1, scope, tableRef =>
    match tableRef with
    | .expressionList values identifier => [(values, identifier)]
    | .crossProduct left right | .join _ left right _ =>
      plannedLists fuel scope left ++ plannedLists fuel scope right
    | .subquery query => listsOfSelect (plannedLists fuel) scope query.subquery
    | .cte cteName _ =>
      match findCTE scope cteName with
      | none => []
      | some cte => listsOfSelect (plannedLists fuel) scope cte.subquery
    | .empty | .baseTable _ _ _ _ => []

/-! ## What planning leaves of the lists -/

def SameLists (first second : BoundTableRef) : Prop :=
  ∀ fuel scope, plannedLists fuel scope first = plannedLists fuel scope second

structure SameQuery (first second : BoundSubquery) : Prop where
  aliasName_eq : second.aliasName = first.aliasName
  lists_eq : ∀ fuel scope, listsOfSelect (plannedLists fuel) scope first.subquery =
    listsOfSelect (plannedLists fuel) scope second.subquery

abbrev SameScope : List BoundSubquery → List BoundSubquery → Prop := List.Forall₂ SameQuery

theorem SameQuery.refl (query : BoundSubquery) : SameQuery query query := ⟨rfl, fun _ _ => rfl⟩

theorem SameQuery.trans {first second third : BoundSubquery} (h : SameQuery first second)
    (h' : SameQuery second third) : SameQuery first third :=
  ⟨h'.aliasName_eq.trans h.aliasName_eq,
    fun fuel scope => (h.lists_eq fuel scope).trans (h'.lists_eq fuel scope)⟩

instance : Std.Refl SameQuery := ⟨SameQuery.refl⟩

theorem SameScope.refl (scope : List BoundSubquery) : SameScope scope scope :=
  List.forall₂_refl scope

theorem SameScope.trans {first second third : List BoundSubquery} (h : SameScope first second)
    (h' : SameScope second third) : SameScope first third := by
  induction h generalizing third with
  | nil => exact h'
  | cons hquery hrest ih =>
    cases h' with
    | cons hquery' hrest' => exact .cons (hquery.trans hquery') (ih hrest')

theorem scopeOf_sameScope {scope scope' ctes ctes' : List BoundSubquery}
    (hscope : SameScope scope scope') (hctes : SameScope ctes ctes') :
    SameScope (scopeOf scope ctes) (scopeOf scope' ctes') := by
  cases hctes with
  | nil => exact hscope
  | cons hcte hrest => exact .cons hcte hrest

theorem findCTE_sameScope {scope scope' : List BoundSubquery} (h : SameScope scope scope')
    (name : String) : Option.Rel SameQuery (findCTE scope name) (findCTE scope' name) := by
  induction h with
  | nil => exact .none
  | @cons cte cte' rest rest' hcte hrest ih =>
    by_cases hname : cte.aliasName = name
    · have hname' : cte'.aliasName = name := hcte.aliasName_eq.trans hname
      simp only [findCTE, List.find?_cons, hname, hname', decide_true]
      exact .some hcte
    · have hname' : cte'.aliasName ≠ name := hcte.aliasName_eq ▸ hname
      simp only [findCTE, List.find?_cons, hname, hname', decide_false]
      exact ih

/-- **Scopes with the same lists** lead to the same lists. -/
theorem plannedLists_sameScope {scope scope' : List BoundSubquery} (h : SameScope scope scope')
    (fuel : ℕ) (tableRef : BoundTableRef) :
    plannedLists fuel scope tableRef = plannedLists fuel scope' tableRef := by
  induction fuel generalizing scope scope' tableRef with
  | zero => rfl
  | succ fuel ih =>
    have hselect : ∀ statement, listsOfSelect (plannedLists fuel) scope statement =
        listsOfSelect (plannedLists fuel) scope' statement := by
      rintro ⟨table, clauses, ctes⟩
      exact ih (scopeOf_sameScope h (SameScope.refl ctes)) table
    cases tableRef with
    | empty => rfl
    | baseTable table oid aliasName schema => rfl
    | expressionList values identifier => rfl
    | crossProduct left right => rw [plannedLists, plannedLists, ih h left, ih h right]
    | join joinType left right condition =>
      rw [plannedLists, plannedLists, ih h left, ih h right]
    | subquery query => exact hselect query.subquery
    | cte cteName aliasName =>
      have hfind := findCTE_sameScope h cteName
      rw [plannedLists, plannedLists]
      generalize findCTE scope cteName = found at hfind
      generalize findCTE scope' cteName = found' at hfind
      cases hfind with
      | none => rfl
      | @some cte cte' hcte => exact (hselect cte.subquery).trans (hcte.lists_eq fuel scope')

theorem replaceCTE_sameScope {scope scope' : List BoundSubquery} {name : String}
    {query query' : BoundSubquery} (h : SameScope scope scope')
    (hfind : findCTE scope name = some query) (hquery : SameQuery query query') :
    SameScope scope (replaceCTE name query' scope') := by
  induction h with
  | nil => cases hfind
  | @cons cte cte' rest rest' hcte hrest ih =>
    by_cases hname : cte.aliasName = name
    · have hfound : cte = query := by simpa [findCTE, hname] using hfind
      rw [replaceCTE, if_pos (hcte.aliasName_eq.trans hname)]
      exact .cons (hfound ▸ hquery) hrest
    · have hfind' : findCTE rest name = some query := by
        simpa [findCTE, hname] using hfind
      rw [replaceCTE, if_neg (hcte.aliasName_eq ▸ hname)]
      exact .cons hcte (ih hfind')

/-! ## Nodes above the FROM clause -/

/-- The plan is the source, or a node above such a plan that is not a `Values` node. -/
inductive StackedOn (source : PlanNode) : PlanNode → Prop
  | source : StackedOn source source
  | node {kind : PlanKind} {schema : OutputSchema} {child : PlanNode}
      (hkind : ∀ rows, kind ≠ .values rows) (hchild : StackedOn source child) :
      StackedOn source (.node kind schema [child])

theorem StackedOn.trans {first second third : PlanNode} (h : StackedOn first second)
    (h' : StackedOn second third) : StackedOn first third := by
  induction h' with
  | source => exact h
  | node hkind hchild ih => exact .node hkind ih

variable {source : PlanNode}

theorem StackedOn.allValues_iff {plan : PlanNode}
    {p : List (List Expression) → OutputSchema → Prop} (h : StackedOn source plan) :
    plan.AllValues p ↔ source.AllValues p := by
  induction h with
  | source => rfl
  | @node kind schema child hkind hchild ih =>
    rw [← ih, PlanNode.AllValues, PlanNode.Everywhere, PlanNode.EverywhereIn,
      PlanNode.EverywhereIn, and_true]
    refine and_iff_right ?_
    cases kind with
    | values rows => exact absurd rfl (hkind rows)
    | _ => trivial

theorem projectionOf_stacked {items : List (String × Expression)} {plan : PlanNode}
    (h : projectionOf items source = .ok plan) : StackedOn source plan := by
  obtain rfl := Except.ok.inj ((projectionOf_eq items source).symm.trans h)
  exact .node (by simp) .source

theorem planFilter_stacked {predicate : Option BoundExpression} {plan : PlanNode}
    {context context' : PlannerContext}
    (h : planFilter predicate source context = .ok (plan, context')) : StackedOn source plan := by
  cases predicate with
  | none =>
    cases h
    exact .source
  | some predicate =>
    simp only [planFilter, Except.bind_eq_ok_iff] at h
    obtain ⟨⟨⟨_, expression⟩, _⟩, -, h⟩ := h
    cases h
    exact .node (by simp) .source

theorem planSelectAgg_stacked {clauses left : SelectClauses} {plan : PlanNode}
    (h : planSelectAgg clauses source = .ok (plan, left)) : StackedOn source plan := by
  simp only [planSelectAgg, planAggregation, Except.bind_eq_ok_iff] at h
  obtain ⟨_, -, _, -, _, -, _, -, ⟨aggregation, context⟩, ⟨schema, -, haggregation⟩,
    ⟨filtered, _⟩, hfilter, _, -, projection, hprojection, h⟩ := h
  cases haggregation
  cases h
  exact StackedOn.trans (.node (by simp) .source)
    ((planFilter_stacked hfilter).trans (projectionOf_stacked hprojection))

theorem planItems_stacked {clauses clauses' : SelectClauses} {plan : PlanNode} {id id' : ℕ}
    (h : planItems clauses source id = .ok (plan, clauses', id')) : StackedOn source plan := by
  simp only [planItems, Except.bind_eq_ok_iff] at h
  obtain ⟨hasAgg, -, h⟩ := h
  split_ifs at h
  · rw [Except.bind_eq_ok_iff] at h
    obtain ⟨⟨plan', left⟩, hplan, h⟩ := h
    cases h
    exact planSelectAgg_stacked hplan
  · simp only [planSelectList, Except.bind_eq_ok_iff] at h
    obtain ⟨⟨plan', _⟩, ⟨_, -, projection, hprojection, hplan⟩, h⟩ := h
    cases hplan
    cases h
    exact projectionOf_stacked hprojection

theorem planDistinct_stacked (isDistinct : Bool) (source : PlanNode) :
    StackedOn source (planDistinct isDistinct source) := by
  rw [planDistinct]
  split_ifs
  · exact .node (by simp) .source
  · exact .source

theorem planSort_stacked {sort : List (OrderByType × BoundExpression)} {plan : PlanNode}
    (h : planSort sort source = .ok plan) : StackedOn source plan := by
  unfold planSort at h
  split_ifs at h
  · cases h
    exact .source
  · rw [Except.bind_eq_ok_iff] at h
    obtain ⟨items, -, h⟩ := h
    cases h
    exact .node (by simp) .source

theorem planLimit_stacked {limitCount limitOffset : Option BoundExpression}
    {plan : PlanNode} (h : planLimit limitCount limitOffset source = .ok plan) :
    StackedOn source plan := by
  simp only [planLimit, Except.bind_eq_ok_iff] at h
  obtain ⟨limit, -, offset, -, h⟩ := h
  split at h
  · cases h
  · cases h
    exact .node (by simp) .source
  · cases h
    exact .source

theorem planClauses_stacked {clauses clauses' : SelectClauses} {plan : PlanNode}
    {id id' : ℕ} (h : planClauses clauses source id = .ok (plan, clauses', id')) :
    StackedOn source plan := by
  simp only [planClauses, Except.bind_eq_ok_iff] at h
  obtain ⟨⟨filtered, _⟩, hfilter, ⟨items, clauses₁, id₁⟩, hitems, sorted, hsort, limited, hlimit,
    h⟩ := h
  cases h
  exact (planFilter_stacked hfilter).trans ((planItems_stacked hitems).trans
    ((planDistinct_stacked _ _).trans ((planSort_stacked hsort).trans (planLimit_stacked hlimit))))

/-! ## Planning tables -/

section Tables

variable {p : List (List Expression) → OutputSchema → Prop} {catalog : TableCatalog} {fuel : ℕ}
  {planFrom : PlannerState → BoundTableRef → FuelledRun SqlFault (Planned BoundTableRef)}
  {state state' : PlannerState} {plan : PlanNode}

/-- The `Values` nodes of the plan are those of the lists. -/
def PlansLists (p : List (List Expression) → OutputSchema → Prop) (lists : List ValuesList)
    (plan : PlanNode) : Prop :=
  plan.AllValues p ↔ ∀ list ∈ lists, Meets p list

/-- What planning does to a table reference, as far as lists are concerned. -/
structure TableKept (p : List (List Expression) → OutputSchema → Prop) (fuel : ℕ)
    (state : PlannerState) (tableRef : BoundTableRef) (result : Planned BoundTableRef) :
    Prop where
  plans : PlansLists p (plannedLists fuel state.ctes tableRef) result.1
  lists : SameLists tableRef result.2.1
  scope : SameScope state.ctes result.2.2.ctes

theorem planFromClause_kept (hempty : p [[]] [])
    (hfrom : ∀ state tableRef result, planFrom state tableRef = .ok result →
      TableKept p fuel state tableRef result)
    {tableRef : BoundTableRef} {result : Planned BoundTableRef}
    (h : planFromClause planFrom state tableRef = .ok result) :
    TableKept p fuel state tableRef result := by
  cases tableRef with
  | empty =>
    cases h
    have hlists : plannedLists fuel state.ctes .empty = [] := by cases fuel <;> rfl
    refine ⟨?_, fun _ _ => rfl, SameScope.refl _⟩
    rw [PlansLists, hlists]
    exact iff_of_true ⟨hempty, trivial⟩ (List.forall_mem_nil _)
  | _ => exact hfrom _ _ _ h

theorem planSelectWith_kept (hempty : p [[]] [])
    (hfrom : ∀ state tableRef result, planFrom state tableRef = .ok result →
      TableKept p fuel state tableRef result) {statement statement' : SelectStatement}
    (h : planSelectWith planFrom state statement = .ok (plan, statement', state')) :
    PlansLists p (listsOfSelect (plannedLists fuel) state.ctes statement) plan ∧
      (∀ fuel scope, listsOfSelect (plannedLists fuel) scope statement =
        listsOfSelect (plannedLists fuel) scope statement') ∧
      SameScope state.ctes state'.ctes := by
  obtain ⟨table, clauses, ctes⟩ := statement
  obtain ⟨source, table', inner, clauses', htable, hclauses, rfl, hctes⟩ := planSelectWith_ok h
  obtain ⟨hplans, hlists, hscope⟩ := planFromClause_kept hempty hfrom htable
  have henter : (state.enter ctes).ctes = scopeOf state.ctes ctes := by
    rw [PlannerState.enter, scopeOf]
    split_ifs <;> rfl
  rw [henter] at hplans hscope
  refine ⟨(planClauses_stacked hclauses).allValues_iff.trans hplans, ?_, ?_⟩
  · intro fuel scope
    -- the CTEs of the statement are those that its FROM clause has left
    have hown : SameScope ctes (if ctes.isEmpty then [] else inner.ctes) := by
      split_ifs with hisEmpty
      · rw [List.isEmpty_iff.mp hisEmpty]
        exact .nil
      · rwa [scopeOf, if_neg hisEmpty] at hscope
    rw [listsOfSelect, listsOfSelect, hlists fuel,
      plannedLists_sameScope (scopeOf_sameScope (SameScope.refl scope) hown)]
  · rw [hctes]
    split_ifs with hisEmpty
    · rwa [scopeOf, if_pos hisEmpty] at hscope
    · exact SameScope.refl _

theorem planSubqueryWith_kept (hempty : p [[]] [])
    (hfrom : ∀ state tableRef result, planFrom state tableRef = .ok result →
      TableKept p fuel state tableRef result) {query query' : BoundSubquery} {aliasName : String}
    (h : planSubqueryWith planFrom state query aliasName = .ok (plan, query', state')) :
    PlansLists p (listsOfSelect (plannedLists fuel) state.ctes query.subquery) plan ∧
      SameQuery query query' ∧ SameScope state.ctes state'.ctes := by
  obtain ⟨selectNode, subquery, items, hselect, -, rfl, rfl⟩ := planSubqueryWith_ok h
  obtain ⟨hplans, hlists, hscope⟩ := planSelectWith_kept hempty hfrom hselect
  have hstacked : StackedOn selectNode (.node (.projection (items.map Prod.snd))
      (items.map fun item => (item.1, item.2.getReturnType)) [selectNode]) :=
    .node (by simp) .source
  exact ⟨hstacked.allValues_iff.trans hplans, ⟨rfl, hlists⟩, hscope⟩

variable {schema : OutputSchema}

theorem allValues_leaf {kind : PlanKind}
    (hkind : ∀ rows, kind ≠ .values rows) : (PlanNode.node kind schema []).AllValues p := by
  refine ⟨?_, trivial⟩
  cases kind with
  | values rows => exact absurd rfl (hkind rows)
  | _ => trivial

theorem planBaseTableRef_allValues {table : String} {aliasName : Option String}
    (h : planBaseTableRef catalog table aliasName schema = .ok plan) :
    plan.AllValues p := by
  unfold planBaseTableRef at h
  cases hfound : catalog table with
  | none =>
    rw [hfound] at h
    cases h
  | some found =>
    simp only [hfound] at h
    split_ifs at h
    · cases h
      exact allValues_leaf (by simp)
    · cases h
      exact allValues_leaf (by simp)

theorem plansLists_join {predicate : Expression} {joinType : JoinType} {left right : PlanNode}
    {leftLists rightLists : List ValuesList} (hleft : PlansLists p leftLists left)
    (hright : PlansLists p rightLists right) :
    PlansLists p (leftLists ++ rightLists) (joinOf predicate joinType left right) := by
  unfold PlansLists at hleft hright ⊢
  rw [List.forall_mem_append, ← hleft, ← hright]
  simp [joinOf, PlanNode.AllValues, PlanNode.Everywhere, PlanNode.EverywhereIn]

theorem allValues_values {rows : List (List Expression)} :
    (PlanNode.node (.values rows) schema []).AllValues p ↔ p rows schema :=
  and_iff_left trivial

theorem plansLists_expressionList {values : List (List BoundExpression)} {identifier : String}
    (h : planExpressionListRef values identifier = .ok plan) :
    PlansLists p [(values, identifier)] plan := by
  obtain ⟨rows, schema, rfl, -⟩ := planExpressionListRef_ok h
  have hmeets : Meets p (values, identifier) ↔ p rows schema := by
    constructor
    · rintro ⟨rows', schema', hplan, hp⟩
      obtain ⟨⟨rfl⟩, rfl, -⟩ := PlanNode.node.inj (Except.ok.inj (h.symm.trans hplan))
      exact hp
    · exact fun hp => ⟨rows, schema, h, hp⟩
  rw [PlansLists, List.forall_mem_singleton, hmeets]
  exact allValues_values

theorem tableKept_sides {left right left' right' : BoundTableRef} {leftPlan rightPlan : PlanNode}
    {middle : PlannerState} (predicate : Expression) (joinType : JoinType)
    (hleft : TableKept p fuel state left (leftPlan, left', middle))
    (hright : TableKept p fuel middle right (rightPlan, right', state')) :
    PlansLists p (plannedLists fuel state.ctes left ++ plannedLists fuel state.ctes right)
        (joinOf predicate joinType leftPlan rightPlan) ∧
      (∀ fuel scope, plannedLists fuel scope left ++ plannedLists fuel scope right =
        plannedLists fuel scope left' ++ plannedLists fuel scope right') ∧
      SameScope state.ctes state'.ctes := by
  have hplans := hright.plans
  rw [← plannedLists_sameScope hleft.scope] at hplans
  refine ⟨plansLists_join hleft.plans hplans, fun fuel scope => ?_,
    hleft.scope.trans hright.scope⟩
  exact congrArg₂ _ (hleft.lists fuel scope) (hright.lists fuel scope)

/-- **The `Values` nodes of a table reference** are those of the lists that are planned with it. -/
theorem planTableRef_values (hempty : p [[]] []) {tableRef : BoundTableRef}
    {result : Planned BoundTableRef} (h : planTableRef catalog fuel state tableRef = .ok result) :
    TableKept p fuel state tableRef result := by
  induction fuel generalizing state tableRef result with
  | zero => cases h
  | succ fuel ih =>
    -- nested statements are planned with the rest of the fuel
    have hfrom : ∀ state tableRef result, planTableRef catalog fuel state tableRef = .ok result →
        TableKept p fuel state tableRef result := fun state tableRef result h => ih h
    cases tablePlanned_of_ok h with
    | baseTable hplan =>
      exact ⟨iff_of_true (planBaseTableRef_allValues hplan) (List.forall_mem_nil _),
        fun _ _ => rfl, SameScope.refl _⟩
    | crossProduct hleft hright =>
      obtain ⟨hplans, hlists, hscope⟩ := tableKept_sides _ _ (ih hleft) (ih hright)
      refine ⟨hplans, fun fuel scope => ?_, hscope⟩
      cases fuel with
      | zero => rfl
      | succ fuel => exact hlists fuel scope
    | join hleft hright hcondition =>
      obtain ⟨hplans, hlists, hscope⟩ := tableKept_sides _ _ (ih hleft) (ih hright)
      refine ⟨hplans, fun fuel scope => ?_, hscope⟩
      cases fuel with
      | zero => rfl
      | succ fuel => exact hlists fuel scope
    | expressionList hplan =>
      exact ⟨plansLists_expressionList hplan, fun _ _ => rfl, SameScope.refl _⟩
    | subquery hquery =>
      obtain ⟨hplans, hsame, hscope⟩ := planSubqueryWith_kept hempty hfrom hquery
      refine ⟨hplans, fun fuel scope => ?_, hscope⟩
      cases fuel with
      | zero => rfl
      | succ fuel => exact hsame.lists_eq fuel scope
    | cte hfind hquery =>
      obtain ⟨hplans, hsame, hscope⟩ := planSubqueryWith_kept hempty hfrom hquery
      refine ⟨?_, fun _ _ => rfl, replaceCTE_sameScope hscope hfind hsame⟩
      rw [plannedLists, hfind]
      exact hplans

/-- **The `Values` nodes of a statement.** -/
theorem planSelect_values (hempty : p [[]] []) {statement statement' : SelectStatement}
    (h : planSelect catalog fuel state statement = .ok (plan, statement', state')) :
    PlansLists p (listsOfSelect (plannedLists fuel) state.ctes statement) plan :=
  (planSelectWith_kept hempty (fun _ _ _ h => planTableRef_values hempty h) h).1

theorem Meets.listPlanned {list : ValuesList} (h : Meets p list) :
    ∃ rows schema, planExpressionListRef list.1 list.2 = .ok (.node (.values rows) schema []) ∧
      p rows schema ∧ ListPlanned list.1 rows schema := by
  obtain ⟨rows, schema, hplan, hp⟩ := h
  obtain ⟨rows', schema', hnode, hlist⟩ := planExpressionListRef_ok hplan
  obtain ⟨⟨rfl⟩, rfl, -⟩ := PlanNode.node.inj hnode
  exact ⟨rows, schema, hplan, hp, hlist⟩

theorem allValues_true (plan : PlanNode) : plan.AllValues fun _ _ => True := by
  induction plan using PlanNode.induction with
  | hnode kind schema children ih =>
    refine ⟨by cases kind <;> trivial, ?_⟩
    induction children with
    | nil => trivial
    | cons child rest ihrest =>
      rw [List.forall_mem_cons] at ih
      exact ⟨ih.1, ihrest ih.2⟩

/-- **The rows of a statement** have the types of their columns if and only if the rows of each of
its lists have the same types. -/
theorem planSelect_rowsTyped_iff {statement statement' : SelectStatement}
    (h : planSelect catalog fuel state statement = .ok (plan, statement', state')) :
    plan.AllValues RowsTyped ↔
      ∀ list ∈ listsOfSelect (plannedLists fuel) state.ctes statement, SameTypes list.1 := by
  -- the lists have been planned, as there is a plan
  have haccepted := (planSelect_values trivial h).mp (allValues_true plan)
  have hempty : RowsTyped [[]] [] := List.forall_mem_singleton.mpr rfl
  refine (planSelect_values hempty h).trans (forall₂_congr fun list hlist => ?_)
  obtain ⟨rows, schema, hplan, -, hplanned⟩ := (haccepted list hlist).listPlanned
  rw [← hplanned.rowsTyped_iff]
  constructor
  · rintro ⟨rows', schema', hplan', htyped⟩
    obtain ⟨⟨rfl⟩, rfl, -⟩ := PlanNode.node.inj (Except.ok.inj (hplan.symm.trans hplan'))
    exact htyped
  · exact fun htyped => ⟨rows, schema, hplan, htyped⟩

/-- And then every tuple of a `Values` node holds the values of its row. -/
theorem planSelect_rowsDecode {statement statement' : SelectStatement}
    (h : planSelect catalog fuel state statement = .ok (plan, statement', state'))
    (htyped : plan.AllValues RowsTyped) : plan.AllValues RowsDecode := by
  have hemptyTyped : RowsTyped [[]] [] := List.forall_mem_singleton.mpr rfl
  have hemptyDecode : RowsDecode [[]] [] :=
    List.forall_mem_singleton.mpr (decodesBack_of_typed rfl (List.forall_mem_nil _))
  have hlists := (planSelect_values hemptyTyped h).mp htyped
  refine (planSelect_values hemptyDecode h).mpr fun list hlist => ?_
  obtain ⟨rows, schema, hplan, hrows, hplanned⟩ := (hlists list hlist).listPlanned
  exact ⟨rows, schema, hplan, hplanned.rowsDecode hrows⟩

end Tables

end Planner

end BusTub
