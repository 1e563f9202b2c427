import BusTub.Binder.WellBound
import BusTub.Planner.ColumnNames

/-!
# Planning a statement again

What planning leaves behind of a statement.  `AddAggCallToContext` replaces the aggregate calls of
the select list and of the HAVING clause by calls that the planner does not know.  A statement
without aggregate calls is left as it was, and planning it again gives the same plan, up to the
numbers in the names of columns that have none.

The numbers do not matter, because the names in question cannot be written: the binder puts a
qualifier in front of the name of every column, and so there is a dot in it.
-/

namespace BusTub

open FuelledRun Binder

/-! ## Statements without aggregate calls -/

structure SelectClauses.NoAggregates (clauses : SelectClauses) : Prop where
  selectList : ∀ item ∈ clauses.selectList, item.hasAggCall = false
  having : ∀ predicate ∈ clauses.having, predicate.hasAggCall = false

/-- No select statement in the FROM clause has aggregate calls. -/
def BoundTableRef.NoAggregates (tableRef : BoundTableRef) : Prop :=
  ∀ statement ∈ tableRef.statements, statement.clauses.NoAggregates

def SelectStatement.NoAggregates (statement : SelectStatement) : Prop :=
  ∀ inner ∈ statement.statements, inner.clauses.NoAggregates

def BoundSubquery.NoAggregates (query : BoundSubquery) : Prop := query.subquery.NoAggregates

namespace Planner

variable {planFrom : PlannerState → BoundTableRef → FuelledRun SqlFault (Planned BoundTableRef)}
  {catalog : TableCatalog} {state state' : PlannerState} {plan : PlanNode}

theorem noAggregates_join {left right : BoundTableRef}
    (h : ∀ statement ∈ left.statements ++ right.statements, statement.clauses.NoAggregates) :
    left.NoAggregates ∧ right.NoAggregates :=
  List.forall_mem_append.mp h

theorem noAggregates_mk {table : BoundTableRef} {clauses : SelectClauses}
    {ctes : List BoundSubquery} (h : (SelectStatement.mk table clauses ctes).NoAggregates) :
    clauses.NoAggregates ∧ table.NoAggregates ∧ ∀ cte ∈ ctes, cte.NoAggregates := by
  rw [SelectStatement.NoAggregates, SelectStatement.statements, List.forall_mem_cons,
    List.forall_mem_append] at h
  refine ⟨h.1, h.2.1, fun cte hcte inner hinner => h.2.2 inner ?_⟩
  exact mem_statementsOf.mpr ⟨cte, hcte, cte.statements_eq ▸ hinner⟩

theorem AggCallAdded.unchanged {expression left : BoundExpression} {calls calls' : List AggCall}
    (h : AggCallAdded expression calls left calls') (hno : expression.hasAggCall = false) :
    left = expression ∧ calls' = calls := by
  induction h with
  | aggCall funcName isDistinct args calls => cases hno
  | columnRef colName calls => exact ⟨rfl, rfl⟩
  | constant value calls => exact ⟨rfl, rfl⟩
  | binaryOp hlarg hrarg ihl ihr =>
    obtain ⟨hl, hr⟩ := Bool.or_eq_false_iff.mp hno
    obtain ⟨rfl, rfl⟩ := ihl hl
    obtain ⟨rfl, rfl⟩ := ihr hr
    exact ⟨rfl, rfl⟩
  | aliased hchild ih =>
    obtain ⟨rfl, rfl⟩ := ih hno
    exact ⟨rfl, rfl⟩

theorem addAggCalls_unchanged {list list' : List BoundExpression} {calls calls' : List AggCall}
    (hno : ∀ item ∈ list, item.hasAggCall = false)
    (h : addAggCalls list calls = .ok (list', calls')) : list' = list ∧ calls' = calls := by
  replace h := aggCallsAdded_of_ok h
  induction h with
  | nil calls => exact ⟨rfl, rfl⟩
  | cons hitem hrest ih =>
    rw [List.forall_mem_cons] at hno
    obtain ⟨rfl, rfl⟩ := hitem.unchanged hno.1
    obtain ⟨rfl, rfl⟩ := ih hno.2
    exact ⟨rfl, rfl⟩

theorem addHavingCalls_unchanged {having having' : Option BoundExpression}
    {calls calls' : List AggCall} (hno : ∀ predicate ∈ having, predicate.hasAggCall = false)
    (h : addHavingCalls having calls = .ok (having', calls')) :
    having' = having ∧ calls' = calls := by
  cases having with
  | none =>
    cases h
    exact ⟨rfl, rfl⟩
  | some predicate =>
    simp only [addHavingCalls, Except.bind_eq_ok_iff] at h
    obtain ⟨⟨predicate', middle⟩, hpredicate, h⟩ := h
    cases h
    obtain ⟨rfl, rfl⟩ := (aggCallAdded_of_ok hpredicate).unchanged (hno predicate rfl)
    exact ⟨rfl, rfl⟩

theorem planSelectAgg_unchanged {clauses clauses' : SelectClauses} {child : PlanNode}
    (hno : clauses.NoAggregates) (h : planSelectAgg clauses child = .ok (plan, clauses')) :
    clauses' = clauses := by
  simp only [planSelectAgg, Except.bind_eq_ok_iff] at h
  obtain ⟨_, -, ⟨having, calls⟩, hhaving, ⟨selectList, calls'⟩, hselect, _, -, _, -, _, -, _, -, _,
    -, h⟩ := h
  cases h
  rw [(addHavingCalls_unchanged hno.having hhaving).1,
    (addAggCalls_unchanged hno.selectList hselect).1]

theorem planClauses_unchanged {clauses clauses' : SelectClauses} {source : PlanNode} {id id' : ℕ}
    (hno : clauses.NoAggregates)
    (h : planClauses clauses source id = .ok (plan, clauses', id')) : clauses' = clauses := by
  simp only [planClauses, planItems, Except.bind_eq_ok_iff] at h
  obtain ⟨_, -, ⟨items, clauses₁, id₁⟩, ⟨hasAgg, -, hitems⟩, _, -, _, -, h⟩ := h
  obtain ⟨-, rfl, -⟩ := Except.ok.inj h
  split_ifs at hitems <;> rw [Except.bind_eq_ok_iff] at hitems
  · obtain ⟨⟨plan', clauses'⟩, hagg, hitems⟩ := hitems
    obtain ⟨-, rfl, -⟩ := Except.ok.inj hitems
    exact planSelectAgg_unchanged hno hagg
  · obtain ⟨_, -, hitems⟩ := hitems
    obtain ⟨-, rfl, -⟩ := Except.ok.inj hitems
    rfl

/-! ## Planning leaves such statements as they are -/

/-- What planning leaves of a FROM clause and of the CTEs in scope, if these have no aggregate
calls. -/
def Unchanged (state : PlannerState) (tableRef : BoundTableRef) (result : Planned BoundTableRef) :
    Prop :=
  (∀ cte ∈ state.ctes, cte.NoAggregates) →
    result.2.2.ctes = state.ctes ∧ (tableRef.NoAggregates → result.2.1 = tableRef)

theorem planFromClause_unchanged {tableRef : BoundTableRef} {result : Planned BoundTableRef}
    (hfrom : ∀ state tableRef result, planFrom state tableRef = .ok result →
      Unchanged state tableRef result)
    (h : planFromClause planFrom state tableRef = .ok result) :
    Unchanged state tableRef result := by
  cases tableRef with
  | empty => exact fun _ => Except.ok.inj h ▸ ⟨rfl, fun _ => rfl⟩
  | _ => exact hfrom _ _ _ h

theorem planSelectWith_unchanged {statement statement' : SelectStatement}
    (hfrom : ∀ state tableRef result, planFrom state tableRef = .ok result →
      Unchanged state tableRef result) (hctes : ∀ cte ∈ state.ctes, cte.NoAggregates)
    (h : planSelectWith planFrom state statement = .ok (plan, statement', state')) :
    state'.ctes = state.ctes ∧ (statement.NoAggregates → statement' = statement) := by
  obtain ⟨table, clauses, ctes⟩ := statement
  obtain ⟨source, table', inner, clauses', htable, hclauses, rfl, hctes'⟩ := planSelectWith_ok h
  have hunchanged := planFromClause_unchanged hfrom htable
  cases ctes with
  -- without a WITH clause the definitions around the statement are used
  | nil =>
    obtain ⟨hinner, htable'⟩ := hunchanged hctes
    refine ⟨hctes'.trans hinner, fun hno => ?_⟩
    obtain ⟨hnoClauses, hnoTable, -⟩ := noAggregates_mk hno
    have htables : table' = table := htable' hnoTable
    rw [htables, planClauses_unchanged hnoClauses hclauses]
    rfl
  | cons cte rest =>
    refine ⟨hctes', fun hno => ?_⟩
    obtain ⟨hnoClauses, hnoTable, hnoCtes⟩ := noAggregates_mk hno
    obtain ⟨hinner, htable'⟩ := hunchanged hnoCtes
    have htables : table' = table := htable' hnoTable
    have hctes'' : inner.ctes = cte :: rest := hinner
    rw [htables, planClauses_unchanged hnoClauses hclauses, hctes'']
    rfl

theorem planSubqueryWith_unchanged {query query' : BoundSubquery} {aliasName : String}
    (hfrom : ∀ state tableRef result, planFrom state tableRef = .ok result →
      Unchanged state tableRef result) (hctes : ∀ cte ∈ state.ctes, cte.NoAggregates)
    (h : planSubqueryWith planFrom state query aliasName = .ok (plan, query', state')) :
    state'.ctes = state.ctes ∧ (query.NoAggregates → query' = query) := by
  obtain ⟨selectNode, subquery, items, hselect, -, -, rfl⟩ := planSubqueryWith_ok h
  obtain ⟨hstate, hsubquery⟩ := planSelectWith_unchanged hfrom hctes hselect
  refine ⟨hstate, fun hno => ?_⟩
  rw [hsubquery hno]
  cases query
  rfl

theorem replaceCTE_self {ctes : List BoundSubquery} {name : String} {query : BoundSubquery}
    (h : findCTE ctes name = some query) : replaceCTE name query ctes = ctes := by
  induction ctes with
  | nil => rfl
  | cons cte rest ih =>
    rw [replaceCTE]
    split_ifs with hname
    · rw [show cte = query by simpa [findCTE, hname] using h]
    · rw [ih (by simpa [findCTE, hname] using h)]

/-- **Planning changes no definition without aggregate calls.** -/
theorem planTableRef_unchanged {fuel : ℕ} {tableRef : BoundTableRef}
    {result : Planned BoundTableRef}
    (h : planTableRef catalog fuel state tableRef = .ok result) :
    Unchanged state tableRef result := by
  refine planTableRef_induction (fun planFrom hfrom state tableRef result h hctes => ?_) h
  cases h with
  | baseTable hplan => exact ⟨rfl, fun _ => rfl⟩
  | crossProduct hleft hright | join hleft hright hcondition =>
    obtain ⟨hmiddle, hleft'⟩ := hfrom _ _ _ hleft hctes
    obtain ⟨hlast, hright'⟩ := hfrom _ _ _ hright (hmiddle ▸ hctes)
    refine ⟨hlast.trans hmiddle, fun hno => ?_⟩
    obtain ⟨hnoLeft, hnoRight⟩ := noAggregates_join hno
    have hleft'' := hleft' hnoLeft
    have hright'' := hright' hnoRight
    dsimp only at hleft'' hright'' ⊢
    rw [hleft'', hright'']
  | expressionList hplan => exact ⟨rfl, fun _ => rfl⟩
  | subquery hquery =>
    obtain ⟨hstate, hquery'⟩ := planSubqueryWith_unchanged hfrom hctes hquery
    refine ⟨hstate, fun hno => congrArg BoundTableRef.subquery (hquery' fun inner hinner => ?_)⟩
    exact hno inner (by rwa [BoundTableRef.statements, BoundSubquery.statements_eq])
  | cte hfind hquery =>
    obtain ⟨hstate, hquery'⟩ := planSubqueryWith_unchanged hfrom hctes hquery
    refine ⟨?_, fun _ => rfl⟩
    -- the definition that was planned is put back in its place, as it was
    have hno := hctes _ (List.mem_of_find?_eq_some hfind)
    rw [hquery' hno, hstate, replaceCTE_self hfind]

end Planner

/-- No statement has aggregate calls, and all columns have a qualifier. -/
def SelectStatement.Replannable (statement : SelectStatement) : Prop :=
  ∀ inner ∈ statement.statements, inner.clauses.NoAggregates ∧ inner.Qualified

/-- The same for the statements in a FROM clause and for the conditions of its joins. -/
def BoundTableRef.Replannable (tableRef : BoundTableRef) : Prop :=
  tableRef.QualifiedJoins ∧
    ∀ inner ∈ tableRef.statements, inner.clauses.NoAggregates ∧ inner.Qualified

namespace Planner

theorem joinName_ne_unnamedName {name : List String} (h : 2 ≤ name.length) (id : ℕ) :
    joinName name ≠ unnamedName id := by
  intro hequal
  rcases name with _ | ⟨first, _ | ⟨second, rest⟩⟩
  · cases h
  · simp at h
  · have hdot : '.' ∈ (joinName (first :: second :: rest)).toList := by
      rw [joinName_cons (List.cons_ne_nil _ _), String.toList_append, String.toList_append]
      simp
    rw [hequal, unnamedName, String.toList_append, List.mem_append] at hdot
    cases hdot with
    | inl hword => exact absurd hword (by decide)
    | inr hnumber =>
      have hdigits : (toString id).toList = Nat.toDigits 10 id := by simp [toString, Nat.repr]
      rw [hdigits] at hnumber
      exact absurd (Nat.isDigit_of_mem_toDigits (by decide) (by decide) hnumber) (by decide)

/-! ## Plans up to made-up names -/

/-- The names are equal, or both are made up. -/
def SameName (name name' : String) : Prop :=
  name = name' ∨ (∃ id, name = unnamedName id) ∧ ∃ id, name' = unnamedName id

/-- The same thing under such names: columns of one type, or one expression. -/
def SimilarColumn {α : Type} (column column' : String × α) : Prop :=
  column.2 = column'.2 ∧ SameName column.1 column'.1

abbrev SimilarSchema : OutputSchema → OutputSchema → Prop := List.Forall₂ SimilarColumn

end Planner

mutual

/-- Plans that differ in made-up names only. -/
def PlanNode.Similar : PlanNode → PlanNode → Prop
  | .node kind schema children, .node kind' schema' children' =>
    kind = kind' ∧ Planner.SimilarSchema schema schema' ∧ PlanNode.SimilarAll children children'

def PlanNode.SimilarAll : List PlanNode → List PlanNode → Prop
  | [], [] => True
  | child :: rest, child' :: rest' => child.Similar child' ∧ PlanNode.SimilarAll rest rest'
  | _, _ => False

end

namespace Planner

variable {planFrom : PlannerState → BoundTableRef → FuelledRun SqlFault (Planned BoundTableRef)}
  {catalog : TableCatalog} {state state' : PlannerState} {plan source source' : PlanNode}

theorem SameName.refl (name : String) : SameName name name := .inl rfl

theorem SimilarSchema.refl (schema : OutputSchema) : SimilarSchema schema schema :=
  List.forall₂_same.mpr fun column _ => ⟨rfl, .refl column.1⟩

mutual

theorem PlanNode.Similar.refl : ∀ plan : PlanNode, plan.Similar plan
  | .node _ schema children => ⟨rfl, .refl schema, similarAll_refl children⟩

theorem similarAll_refl : ∀ plans : List PlanNode, PlanNode.SimilarAll plans plans
  | [] => trivial
  | plan :: rest => ⟨PlanNode.Similar.refl plan, similarAll_refl rest⟩

end

theorem similar_node {kind : PlanKind} {schema schema' : OutputSchema}
    (hschema : SimilarSchema schema schema') (h : source.Similar source') :
    (PlanNode.node kind schema [source]).Similar (.node kind schema' [source']) :=
  ⟨rfl, hschema, h, trivial⟩

theorem PlanNode.Similar.schema (h : source.Similar source') :
    SimilarSchema source.outputSchema source'.outputSchema := by
  cases source
  cases source'
  exact h.2.1

theorem map_snd_similar {α : Type} {columns columns' : List (String × α)}
    (h : List.Forall₂ SimilarColumn columns columns') :
    columns.map Prod.snd = columns'.map Prod.snd := by
  induction h with
  | nil => rfl
  | cons hcolumn _ ih => exact congrArg₂ List.cons hcolumn.1 ih

theorem SimilarColumn.name_iff {α : Type} {column column' : String × α}
    (h : SimilarColumn column column') {name : String} (hname : ∀ id, name ≠ unnamedName id) :
    column.1 = name ↔ column'.1 = name := by
  obtain ⟨-, hequal | ⟨⟨id, hid⟩, id', hid'⟩⟩ := h
  · rw [hequal]
  · rw [hid, hid']
    exact iff_of_false (hname id).symm (hname id').symm

theorem tryGetColIdx_similar {schema schema' : OutputSchema} (h : SimilarSchema schema schema')
    {name : String} (hname : ∀ id, name ≠ unnamedName id) :
    tryGetColIdx schema name = tryGetColIdx schema' name := by
  rw [tryGetColIdx, tryGetColIdx]
  induction h with
  | nil => rfl
  | cons hcolumn _ ih =>
    rw [List.findIdx?_cons, List.findIdx?_cons, ih, decide_eq_decide.mpr (hcolumn.name_iff hname)]

theorem countP_similar {schema schema' : OutputSchema} (h : SimilarSchema schema schema')
    {name : String} (hname : ∀ id, name ≠ unnamedName id) :
    schema.countP (fun column => column.1 = name) =
      schema'.countP (fun column => column.1 = name) := by
  induction h with
  | nil => rfl
  | cons hcolumn _ ih =>
    rw [List.countP_cons, List.countP_cons, ih, decide_eq_decide.mpr (hcolumn.name_iff hname)]

theorem columnOfChild_similar {schema schema' : OutputSchema} (h : SimilarSchema schema schema')
    (tupleIdx colIdx : ℕ) :
    columnOfChild tupleIdx schema colIdx = columnOfChild tupleIdx schema' colIdx := by
  have htypes := congrArg (·[colIdx]?) (map_snd_similar h)
  rw [columnOfChild, columnOfChild]
  cases hcolumn : schema[colIdx]? <;> cases hcolumn' : schema'[colIdx]? <;>
    simp_all

/-- **Columns with a qualifier are found at the same places.** -/
theorem planColumnRef_similar {children children' : List OutputSchema} {name : List String}
    (hname : 2 ≤ name.length) (h : List.Forall₂ SimilarSchema children children') :
    planColumnRef children name = planColumnRef children' name := by
  have hmade : ∀ id, ".".intercalate name ≠ unnamedName id := joinName_ne_unnamedName hname
  match h with
  | .nil => rfl
  | .cons hschema .nil =>
    simp only [planColumnRef, countP_similar hschema hmade, tryGetColIdx_similar hschema hmade,
      columnOfChild_similar hschema]
  | .cons hleft (.cons hright .nil) =>
    simp only [planColumnRef, tryGetColIdx_similar hleft hmade,
      tryGetColIdx_similar hright hmade, columnOfChild_similar hleft,
      columnOfChild_similar hright]
  | .cons _ (.cons _ (.cons _ _)) => rfl

theorem planExpression_similar {children children' : List OutputSchema}
    (h : List.Forall₂ SimilarSchema children children') {expression : BoundExpression}
    (hqualified : expression.Qualified) (context : PlannerContext) :
    planExpression children expression context = planExpression children' expression context := by
  fun_induction BoundExpression.Qualified expression generalizing context with
  | case1 colName => rw [planExpression, planExpression, planColumnRef_similar hqualified h]
  | case2 opName larg rarg ihl ihr =>
    simp [planExpression, ihl hqualified.1, ihr hqualified.2]
  | case3 opName arg ih => rfl
  | case4 name child ih => rw [planExpression, planExpression, ih hqualified]
  | case5 => rfl
  | case6 value => rfl
  | case7 funcName isDistinct args => rfl

theorem planExpressions_similar {children children' : List OutputSchema}
    (h : List.Forall₂ SimilarSchema children children') {list : List BoundExpression}
    (hqualified : ∀ item ∈ list, item.Qualified) (context : PlannerContext) :
    planExpressions children list context = planExpressions children' list context := by
  induction list generalizing context with
  | nil => rfl
  | cons item rest ih =>
    rw [List.forall_mem_cons] at hqualified
    simp [planExpressions, planExpression_similar h hqualified.1, ih hqualified.2]

/-! ## Clauses over similar plans -/

theorem planFilter_similar (h : source.Similar source') {predicate : Option BoundExpression}
    (hqualified : ∀ expression ∈ predicate, expression.Qualified)
    {context context' : PlannerContext}
    (hplan : planFilter predicate source context = .ok (plan, context')) :
    ∃ plan', planFilter predicate source' context = .ok (plan', context') ∧
      plan.Similar plan' := by
  cases predicate with
  | none =>
    cases hplan
    exact ⟨source', rfl, h⟩
  | some predicate =>
    simp only [planFilter, Except.bind_eq_ok_iff] at hplan
    obtain ⟨⟨planned, last⟩, hpredicate, hplan⟩ := hplan
    cases hplan
    rw [planExpression_similar (.cons (PlanNode.Similar.schema h) .nil) (hqualified _ rfl)]
      at hpredicate
    refine ⟨_, by simp only [planFilter, hpredicate]; rfl, ?_⟩
    exact similar_node (PlanNode.Similar.schema h) h

theorem nameColumns_similar (items : List (String × Expression)) (id id' : ℕ) :
    List.Forall₂ SimilarColumn (nameColumns items id).1 (nameColumns items id').1 := by
  induction items generalizing id id' with
  | nil => exact .nil
  | cons item rest ih =>
    rw [nameColumns, nameColumns]
    split_ifs
    · exact .cons ⟨rfl, .inr ⟨⟨id, rfl⟩, id', rfl⟩⟩ (ih _ _)
    · exact .cons ⟨rfl, .refl _⟩ (ih _ _)

variable (h : source.Similar source')
include h

theorem projectionOf_similar
    {items items' : List (String × Expression)}
    (hitems : List.Forall₂ SimilarColumn items items')
    (hplan : projectionOf items source = .ok plan) :
    ∃ plan', projectionOf items' source' = .ok plan' ∧ plan.Similar plan' := by
  rw [projectionOf_eq] at hplan
  cases hplan
  refine ⟨_, projectionOf_eq items' source', ?_⟩
  rw [map_snd_similar hitems]
  refine similar_node ?_ h
  rw [SimilarSchema, List.forall₂_map_left_iff, List.forall₂_map_right_iff]
  exact hitems.imp fun item item' hitem => ⟨congrArg Expression.getReturnType hitem.1, hitem.2⟩

theorem planSelectList_similar {selectList : List BoundExpression}
    (hqualified : ∀ item ∈ selectList, item.Qualified) {id last : ℕ}
    (hplan : planSelectList selectList source id = .ok (plan, last)) (id' : ℕ) :
    ∃ plan' last', planSelectList selectList source' id' = .ok (plan', last') ∧
      plan.Similar plan' := by
  simp only [planSelectList, Except.bind_eq_ok_iff] at hplan
  obtain ⟨⟨items, context⟩, hitems, node, hnode, hplan⟩ := hplan
  cases hplan
  rw [planExpressions_similar (.cons (PlanNode.Similar.schema h) .nil) hqualified] at hitems
  obtain ⟨plan', hplan', hsimilar⟩ :=
    projectionOf_similar h (nameColumns_similar items id id') hnode
  exact ⟨plan', _, by simp only [planSelectList, hitems, bind, Except.bind, hplan']; rfl, hsimilar⟩

theorem planDistinct_similar (isDistinct : Bool) :
    (planDistinct isDistinct source).Similar (planDistinct isDistinct source') := by
  cases isDistinct with
  | false => exact h
  | true =>
    have hgroups : (source.outputSchema.mapIdx fun colIdx column =>
          Expression.columnValue 0 colIdx column.2) =
        source'.outputSchema.mapIdx fun colIdx column => .columnValue 0 colIdx column.2 := by
      refine List.ext_getElem? fun colIdx => ?_
      have htypes := congrArg (fun types => types[colIdx]?.map (Expression.columnValue 0 colIdx))
        (map_snd_similar (PlanNode.Similar.schema h))
      simp only [List.getElem?_map, Option.map_map] at htypes
      rwa [List.getElem?_mapIdx, List.getElem?_mapIdx]
    simp only [planDistinct, if_true, hgroups]
    exact similar_node (PlanNode.Similar.schema h) h

theorem planSort_similar {sort : List (OrderByType × BoundExpression)}
    (hqualified : ∀ item ∈ sort, item.2.Qualified) (hplan : planSort sort source = .ok plan) :
    ∃ plan', planSort sort source' = .ok plan' ∧ plan.Similar plan' := by
  unfold planSort at hplan ⊢
  split_ifs at hplan ⊢ with hempty
  · exact ⟨source', rfl, Except.ok.inj hplan ▸ h⟩
  · rw [Except.bind_eq_ok_iff] at hplan
    obtain ⟨⟨items, context⟩, hitems, hplan⟩ := hplan
    cases hplan
    rw [planExpressions_similar (.cons (PlanNode.Similar.schema h) .nil)
      (List.forall_mem_map.mpr hqualified)] at hitems
    exact ⟨_, by simp only [hitems]; rfl, similar_node (PlanNode.Similar.schema h) h⟩

theorem planLimit_similar
    {limitCount limitOffset : Option BoundExpression}
    (hplan : planLimit limitCount limitOffset source = .ok plan) :
    ∃ plan', planLimit limitCount limitOffset source' = .ok plan' ∧ plan.Similar plan' := by
  simp only [planLimit, Except.bind_eq_ok_iff] at hplan
  obtain ⟨limit, hlimit, offset, hoffset, hplan⟩ := hplan
  simp only [planLimit, hlimit, hoffset, bind, Except.bind]
  cases offset with
  | some offset => cases hplan
  | none =>
    cases limit with
    | none => exact ⟨source', rfl, Except.ok.inj hplan ▸ h⟩
    | some limit =>
      cases hplan
      exact ⟨_, rfl, similar_node (PlanNode.Similar.schema h) h⟩

theorem planAggregation_similar
    {groupBys : List (String × Expression)} {aggregates : List (AggregationType × Expression)}
    {context : PlannerContext}
    (hplan : planAggregation groupBys aggregates source = .ok (plan, context)) :
    ∃ plan', planAggregation groupBys aggregates source' = .ok (plan', context) ∧
      plan.Similar plan' := by
  simp only [planAggregation, Except.bind_eq_ok_iff] at hplan
  obtain ⟨schema, hschema, hplan⟩ := hplan
  cases hplan
  exact ⟨_, by simp only [planAggregation, hschema]; rfl, similar_node (.refl schema) h⟩

theorem planSelectAgg_similar {clauses clauses' : SelectClauses}
    (hno : clauses.NoAggregates) (hqualified : clauses.Qualified)
    (hplan : planSelectAgg clauses source = .ok (plan, clauses')) :
    ∃ plan', planSelectAgg clauses source' = .ok (plan', clauses') ∧ plan.Similar plan' := by
  simp only [planSelectAgg, Except.bind_eq_ok_iff] at hplan
  obtain ⟨⟨groupBys, context⟩, hgroups, ⟨having, calls⟩, hhaving, ⟨selectList, calls'⟩, hselect,
    aggregates, haggregates, ⟨node, planned⟩, hnode, ⟨filtered, used⟩, hfiltered, ⟨items, last⟩,
    hitems, projected, hprojected, hplan⟩ := hplan
  cases hplan
  obtain ⟨rfl, rfl⟩ := addHavingCalls_unchanged hno.having hhaving
  obtain ⟨rfl, rfl⟩ := addAggCalls_unchanged hno.selectList hselect
  rw [planExpressions_similar (.cons (PlanNode.Similar.schema h) .nil) hqualified.groupBy]
    at hgroups
  -- no call was taken out, so there is none to plan
  obtain rfl : aggregates = [] := (Except.ok.inj haggregates).symm
  obtain ⟨node', hnode', hsimilar⟩ := planAggregation_similar h hnode
  obtain ⟨filtered', hfiltered', hsimilar⟩ :=
    planFilter_similar hsimilar hqualified.having hfiltered
  rw [planExpressions_similar (.cons (PlanNode.Similar.schema hsimilar) .nil)
    hqualified.selectList] at hitems
  obtain ⟨plan', hplan', hsimilar⟩ := projectionOf_similar hsimilar
    (List.forall₂_same.mpr fun item _ => ⟨rfl, .refl item.1⟩) hprojected
  refine ⟨plan', ?_, hsimilar⟩
  simp only [planSelectAgg, hgroups, hhaving, hselect, bind, Except.bind, List.mapM_nil, pure,
    Except.pure, hnode', hfiltered', hitems, hplan']

theorem planItems_similar {clauses clauses' : SelectClauses}
    (hno : clauses.NoAggregates) (hqualified : clauses.Qualified) {id last : ℕ}
    (hplan : planItems clauses source id = .ok (plan, clauses', last)) (id' : ℕ) :
    ∃ plan' last', planItems clauses source' id' = .ok (plan', clauses', last') ∧
      plan.Similar plan' := by
  simp only [planItems, Except.bind_eq_ok_iff] at hplan
  obtain ⟨hasAgg, hhas, hplan⟩ := hplan
  simp only [planItems, hhas, bind, Except.bind]
  split_ifs at hplan ⊢
  · rw [Except.bind_eq_ok_iff] at hplan
    obtain ⟨⟨node, left⟩, hnode, hplan⟩ := hplan
    obtain ⟨rfl, rfl, rfl⟩ := Except.ok.inj hplan
    obtain ⟨plan', hplan', hsimilar⟩ := planSelectAgg_similar h hno hqualified hnode
    exact ⟨plan', id', by rw [hplan']; rfl, hsimilar⟩
  · rw [Except.bind_eq_ok_iff] at hplan
    obtain ⟨⟨node, next⟩, hnode, hplan⟩ := hplan
    obtain ⟨rfl, rfl, rfl⟩ := Except.ok.inj hplan
    obtain ⟨plan', last', hplan', hsimilar⟩ :=
      planSelectList_similar h hqualified.selectList hnode id'
    exact ⟨plan', last', by rw [hplan']; rfl, hsimilar⟩

theorem planClauses_similar {clauses clauses' : SelectClauses}
    (hno : clauses.NoAggregates) (hqualified : clauses.Qualified) {id last : ℕ}
    (hplan : planClauses clauses source id = .ok (plan, clauses', last)) (id' : ℕ) :
    ∃ plan' last', planClauses clauses source' id' = .ok (plan', clauses', last') ∧
      plan.Similar plan' := by
  obtain rfl := planClauses_unchanged hno hplan
  simp only [planClauses, Except.bind_eq_ok_iff] at hplan
  obtain ⟨⟨filtered, context⟩, hfiltered, ⟨projected, left, next⟩, hprojected, sorted, hsorted,
    limited, hlimited, hplan⟩ := hplan
  obtain ⟨rfl, rfl, rfl⟩ := Except.ok.inj hplan
  obtain ⟨filtered', hfiltered', hsimilar⟩ :=
    planFilter_similar h hqualified.whereClause hfiltered
  obtain ⟨projected', last', hprojected', hsimilar⟩ :=
    planItems_similar hsimilar hno hqualified hprojected id'
  obtain ⟨sorted', hsorted', hsimilar⟩ :=
    planSort_similar (planDistinct_similar hsimilar _) hqualified.sort hsorted
  obtain ⟨limited', hlimited', hsimilar⟩ := planLimit_similar hsimilar hlimited
  refine ⟨limited', last', ?_, hsimilar⟩
  simp only [planClauses, hfiltered', hprojected', hsorted', hlimited', bind, Except.bind]
  rfl

omit h

/-! ## Planning with other numbers -/

theorem replannable_mk {table : BoundTableRef} {clauses : SelectClauses}
    {ctes : List BoundSubquery} (h : (SelectStatement.mk table clauses ctes).Replannable) :
    clauses.NoAggregates ∧ clauses.Qualified ∧ table.Replannable ∧
      ∀ cte ∈ ctes, cte.subquery.Replannable := by
  rw [SelectStatement.Replannable, SelectStatement.statements, List.forall_mem_cons,
    List.forall_mem_append] at h
  obtain ⟨⟨hno, hjoins, hqualified⟩, htable, hctes⟩ := h
  refine ⟨hno, hqualified, ⟨hjoins, htable⟩, fun cte hcte inner hinner => hctes inner ?_⟩
  exact mem_statementsOf.mpr ⟨cte, hcte, cte.statements_eq ▸ hinner⟩

theorem replannable_sides {left right : BoundTableRef}
    (hjoins : left.QualifiedJoins ∧ right.QualifiedJoins)
    (h : ∀ inner ∈ left.statements ++ right.statements,
      inner.clauses.NoAggregates ∧ inner.Qualified) :
    left.Replannable ∧ right.Replannable := by
  rw [List.forall_mem_append] at h
  exact ⟨⟨hjoins.1, h.1⟩, hjoins.2, h.2⟩

/-- What is planned once is planned to a similar plan with any number, and left as it is. -/
def Replans
    (planFrom : PlannerState → BoundTableRef → FuelledRun SqlFault (Planned BoundTableRef)) :
    Prop :=
  ∀ state tableRef result, planFrom state tableRef = .ok result →
    (∀ cte ∈ state.ctes, cte.subquery.Replannable) → tableRef.Replannable →
    ∀ id, ∃ plan' id', planFrom ⟨state.ctes, id⟩ tableRef =
      .ok (plan', tableRef, ⟨state.ctes, id'⟩) ∧ result.1.Similar plan'

theorem planFromClause_replans (hfrom : Replans planFrom) : Replans (planFromClause planFrom) := by
  intro state tableRef result h hctes htable id
  cases tableRef with
  | empty =>
    cases h
    exact ⟨emptyRow, id, rfl, rfl, .nil, trivial⟩
  | _ => exact hfrom _ _ _ h hctes htable id

theorem planSelectWith_replans (hfrom : Replans planFrom) {statement statement' : SelectStatement}
    (h : planSelectWith planFrom state statement = .ok (plan, statement', state'))
    (hctes : ∀ cte ∈ state.ctes, cte.subquery.Replannable) (hstatement : statement.Replannable)
    (id : ℕ) :
    ∃ plan' id', planSelectWith planFrom ⟨state.ctes, id⟩ statement =
      .ok (plan', statement, ⟨state.ctes, id'⟩) ∧ plan.Similar plan' := by
  obtain ⟨table, clauses, ctes⟩ := statement
  obtain ⟨hno, hqualified, htable, hown⟩ := replannable_mk hstatement
  obtain ⟨source, table', inner, clauses', htableOk, hclauses, -, -⟩ := planSelectWith_ok h
  have hscope : ∀ cte ∈ (state.enter ctes).ctes, cte.subquery.Replannable := by
    rw [PlannerState.enter]
    split_ifs
    · exact hctes
    · exact hown
  obtain ⟨source', next, hsource', hsimilar⟩ :=
    planFromClause_replans hfrom _ _ _ htableOk hscope htable id
  obtain rfl := planClauses_unchanged hno hclauses
  obtain ⟨plan', id', hplan', hsimilar⟩ := planClauses_similar hsimilar hno hqualified hclauses next
  refine ⟨plan', id', ?_, hsimilar⟩
  have henter : PlannerState.enter ⟨state.ctes, id⟩ ctes = ⟨(state.enter ctes).ctes, id⟩ := by
    rw [PlannerState.enter, PlannerState.enter]
    split_ifs <;> rfl
  simp only [planSelectWith, henter, hsource', hplan', lift, bind, Except.bind, pure, Except.pure]
  cases ctes <;> rfl

theorem subqueryItems_similar {schema schema' : OutputSchema} (h : SimilarSchema schema schema')
    (aliasName : String) (names : List (List String)) (idx : ℕ) :
    subqueryItems aliasName names idx schema = subqueryItems aliasName names idx schema' := by
  induction h generalizing names idx with
  | nil => rfl
  | cons hcolumn _ ih =>
    cases names with
    | nil => rfl
    | cons name names => rw [subqueryItems, subqueryItems, ih, hcolumn.1]

theorem planSubqueryWith_replans (hfrom : Replans planFrom) {query query' : BoundSubquery}
    {aliasName : String}
    (h : planSubqueryWith planFrom state query aliasName = .ok (plan, query', state'))
    (hctes : ∀ cte ∈ state.ctes, cte.subquery.Replannable) (hquery : query.subquery.Replannable)
    (id : ℕ) :
    ∃ plan' id', planSubqueryWith planFrom ⟨state.ctes, id⟩ query aliasName =
      .ok (plan', query, ⟨state.ctes, id'⟩) ∧ plan.Similar plan' := by
  obtain ⟨selectNode, subquery, items, hselect, hitems, rfl, -⟩ := planSubqueryWith_ok h
  obtain ⟨selectNode', id', hselect', hsimilar⟩ :=
    planSelectWith_replans hfrom hselect hctes hquery id
  rw [subqueryItems_similar (PlanNode.Similar.schema hsimilar)] at hitems
  refine ⟨_, id', ?_, similar_node (.refl _) hsimilar⟩
  simp only [planSubqueryWith, hselect', hitems, projectionOf_eq, lift, bind, Except.bind, pure,
    Except.pure]
  cases query
  rfl

theorem joinOf_similar {left right left' right' : PlanNode} (hleft : left.Similar left')
    (hright : right.Similar right') (predicate : Expression) (joinType : JoinType) :
    (joinOf predicate joinType left right).Similar (joinOf predicate joinType left' right') :=
  ⟨rfl, List.rel_append (PlanNode.Similar.schema hleft) (PlanNode.Similar.schema hright),
    hleft, hright, trivial⟩

theorem planSides_replans {fuel : ℕ} (ih : Replans (planTableRef catalog fuel))
    {left right left' right' : BoundTableRef} {leftPlan rightPlan : PlanNode}
    {middle : PlannerState}
    (hleft : planTableRef catalog fuel state left = .ok (leftPlan, left', middle))
    (hright : planTableRef catalog fuel middle right = .ok (rightPlan, right', state'))
    (hctes : ∀ cte ∈ state.ctes, cte.subquery.Replannable)
    (hsides : left.Replannable ∧ right.Replannable) (id : ℕ) :
    ∃ leftPlan' rightPlan' next last,
      planTableRef catalog fuel ⟨state.ctes, id⟩ left =
        .ok (leftPlan', left, ⟨state.ctes, next⟩) ∧
      planTableRef catalog fuel ⟨state.ctes, next⟩ right =
        .ok (rightPlan', right, ⟨state.ctes, last⟩) ∧
      leftPlan.Similar leftPlan' ∧ rightPlan.Similar rightPlan' := by
  have hmiddle : middle.ctes = state.ctes :=
    (planTableRef_unchanged hleft fun cte hcte inner hinner => (hctes cte hcte inner hinner).1).1
  obtain ⟨leftPlan', next, hleft', hsimilar⟩ := ih _ _ _ hleft hctes hsides.1 id
  obtain ⟨rightPlan', last, hright', hsimilar'⟩ :=
    ih _ _ _ hright (hmiddle ▸ hctes) hsides.2 next
  rw [hmiddle] at hright'
  exact ⟨leftPlan', rightPlan', next, last, hleft', hright', hsimilar, hsimilar'⟩

/-- **Planning again gives the same plan**, with other numbers. -/
theorem planTableRef_replans (fuel : ℕ) : Replans (planTableRef catalog fuel) := by
  induction fuel with
  | zero => exact fun _ _ _ h => nomatch h
  | succ fuel ih =>
    intro state tableRef result h hctes htable id
    cases tablePlanned_of_ok h with
    | baseTable hplan =>
      exact ⟨_, id, by simp only [planTableRef, hplan]; rfl, PlanNode.Similar.refl _⟩
    | crossProduct hleft hright =>
      obtain ⟨_, _, _, last, hleft', hright', hsimilar, hsimilar'⟩ :=
        planSides_replans ih hleft hright hctes (replannable_sides htable.1 htable.2) id
      exact ⟨_, last, by simp only [planTableRef, hleft', hright', bind, Except.bind]; rfl,
        joinOf_similar hsimilar hsimilar' _ _⟩
    | join hleft hright hcondition =>
      obtain ⟨⟨hqualified, hjoins⟩, hstatements⟩ := htable
      obtain ⟨_, _, _, last, hleft', hright', hsimilar, hsimilar'⟩ :=
        planSides_replans ih hleft hright hctes (replannable_sides hjoins hstatements) id
      -- the condition has qualified columns, whose names do not depend on the numbers
      rw [planExpression_similar (.cons (PlanNode.Similar.schema hsimilar)
        (.cons (PlanNode.Similar.schema hsimilar') .nil)) hqualified] at hcondition
      refine ⟨_, last, ?_, joinOf_similar hsimilar hsimilar' _ _⟩
      simp only [planTableRef, hleft', hright', hcondition, bind, Except.bind, lift]
      rfl
    | expressionList hplan =>
      exact ⟨_, id, by simp only [planTableRef, hplan]; rfl, PlanNode.Similar.refl _⟩
    | @subquery query query' plan last hquery =>
      have hreplannable : query.subquery.Replannable := by
        rw [SelectStatement.Replannable, ← BoundSubquery.statements_eq]
        exact htable.2
      obtain ⟨plan', id', hquery', hsimilar⟩ :=
        planSubqueryWith_replans ih hquery hctes hreplannable id
      exact ⟨plan', id', by simp only [planTableRef, hquery']; rfl, hsimilar⟩
    | cte hfind hquery =>
      have hmem := List.mem_of_find?_eq_some hfind
      obtain ⟨plan', id', hquery', hsimilar⟩ :=
        planSubqueryWith_replans ih hquery hctes (hctes _ hmem) id
      refine ⟨plan', id', ?_, hsimilar⟩
      have hempty : state.ctes.isEmpty = false :=
        List.isEmpty_eq_false_iff.mpr (List.ne_nil_of_mem hmem)
      simp only [planTableRef, planCTERefWith, hempty, hfind, hquery', bind, Except.bind,
        replaceCTE_self hfind]
      rfl

/-! ## Planning a bound statement again -/

/-- The statements of a bound statement, and the CTEs in scope of one, can be planned again if
they have no aggregate calls. -/
theorem replannable_of_bound {parsed : ParseSelect} {id id' : ℕ}
    {bound statement : SelectStatement}
    (hbound : bindSelect catalog [] parsed id = .ok (bound, id'))
    (hstatement : ∀ inner ∈ statement.statements, inner ∈ bound.statements)
    (hno : statement.NoAggregates) : statement.Replannable := by
  have hqualified := (bindSelect_wellBound parsed (List.forall_mem_nil _) hbound).qualified
  exact fun inner hinner => ⟨hno inner hinner, hqualified inner (hstatement inner hinner)⟩

def parseTargets (targetList : List ParseNode) : ParseClauses :=
  ⟨.none, some targetList, none, [], none, none, none, []⟩

/-- `WITH c AS (body) SELECT * FROM c, c AS d`. -/
def parseTwice (body : ParseSelect) : ParseSelect :=
  .select false [.select "c" false body] [.rangeVar "c" none, .rangeVar "c" (some "d")]
    (parseTargets [.columnStar])

/-- `SELECT 1 AS x`. -/
def parseOne : ParseSelect :=
  .select false [] [] (parseTargets [.resTarget (some "x") (.aConst (.integer 1))])

def boundTwice (body : SelectStatement) (column : String) : SelectStatement :=
  .mk (.crossProduct (.cte "c" "c") (.cte "c" "d"))
    (selectOnly [.columnRef ["c", column], .columnRef ["d", column]]) [.mk body [[column]] "c"]

theorem bindSelect_twice {parsed : ParseSelect} {body : SelectStatement} {column : String} {id : ℕ}
    (hbody : bindSelect catalog [] parsed 0 = .ok (body, 0))
    (hcolumn : selectListNames body.clauses.selectList 0 = ([[column]], id)) :
    bindSelect catalog [] (parseTwice parsed) 0 = .ok (boundTwice body column, id) := by
  have hctes : bindCTE catalog [] false [.select "c" false parsed] 0 =
      .ok ([.mk body [[column]] "c"], id) := by
    simp only [bindCTE, hbody, bind, Except.bind, subqueryOf, hcolumn]
    rfl
  rw [parseTwice, bindSelect, hctes]
  rfl

/-- `SELECT count(*)`. -/
def parseCount : ParseSelect :=
  .select false [] [] (parseTargets [.funcCall "count" false []])

/-- The statement `SELECT count(*)`, for a name of the call. -/
def boundCount (funcName : String) : SelectStatement :=
  .mk .empty (selectOnly [.aggCall funcName false []]) []

theorem bindSelect_count (ctes : List BoundSubquery) (id : ℕ) :
    bindSelect catalog ctes parseCount id = .ok (boundCount "count_star", id) := by
  have hlower : "count".toLower = "count" := by decide +kernel
  have hcall : bindFuncCall "count" false [] = .ok (.aggCall "count_star" false []) := by
    simp [bindFuncCall, hlower]
  have hlist : bindSelectList ctes .empty [.funcCall "count" false []] [] false =
      .ok [.aggCall "count_star" false []] := by
    simp only [bindSelectList, bindInScope, bindExpression, bindArguments, bind, Except.bind, hcall]
    rfl
  simp only [parseCount, bindSelect, bindCTE, bindFrom, parseTargets, bindClauses, bindDistinct,
    bind, Except.bind, List.isEmpty_nil, if_true, hlist]
  rfl

end Planner

end BusTub
