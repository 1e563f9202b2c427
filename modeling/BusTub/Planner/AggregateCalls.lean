import BusTub.Planner.PlanSelect

/-!
# Aggregate calls and the columns that stand for them

`PlanSelectAgg` goes over the HAVING clause and the select list twice.  First it takes the
aggregate calls out of them, into a list from which the aggregation node is made.  Then it plans
what is left, and takes the next column of that node whenever it meets a call.  All that the two
passes share is a counter.

They meet the calls in the same order, so each call is planned as the column that holds its own
aggregate.
-/

namespace BusTub

namespace Planner

/-! ## What the plan should be -/

def aggregateNamed : String → Option AggregationType
  | "min" => some .minAggregate
  | "max" => some .maxAggregate
  | "sum" => some .sumAggregate
  | "count" => some .countAggregate
  | _ => none

/-- What an aggregate call asks for: the type of the aggregate, and its argument as an expression
on the rows of the child. -/
inductive AsksFor (child : OutputSchema) : AggCall → AggregationType → Expression → Prop
  | countStar : AsksFor child ⟨"count_star", false, []⟩ .countStarAggregate
      (.constantValue (Value.getIntegerValue 1))
  | ofArgument {funcName name : String} {argument : BoundExpression} {input : Expression}
      {type : AggregationType} {context : PlannerContext}
      (hinput : planExpression [child] argument noAggregations = .ok ((name, input), context))
      (htype : aggregateNamed funcName = some type) :
      AsksFor child ⟨funcName, false, [argument]⟩ type input

/-- `AggregationPlanNode`. -/
structure AggregationNode where
  groupBys : List Expression
  aggregates : List Expression
  aggTypes : List AggregationType

def AggregationNode.outputs (node : AggregationNode) :
    List (Expression ⊕ AggregationType × Expression) :=
  node.groupBys.map .inl ++ (node.aggTypes.zip node.aggregates).map .inr

def AggregationNode.Carries (node : AggregationNode) (column : ℕ) (type : AggregationType)
    (input : Expression) : Prop :=
  node.outputs[column]? = some (.inr (type, input))

/-- The expression is planned over the output of the aggregation node.  Its aggregate calls, from
left to right, are the given columns, and each of these carries what the call asks for. -/
inductive PlannedOver (child : OutputSchema) (node : AggregationNode) (schema : OutputSchema) :
    BoundExpression → Expression → List ℕ → Prop
  | aggCall {funcName : String} {isDistinct : Bool} {args : List BoundExpression} {column : ℕ}
      {type : AggregationType} {input : Expression}
      (hasks : AsksFor child ⟨funcName, isDistinct, args⟩ type input)
      (hcarries : node.Carries column type input) :
      PlannedOver child node schema (.aggCall funcName isDistinct args)
        (.columnValue 0 column (.number .integer)) [column]
  | columnRef {colName : List String} {name : String} {planned : Expression}
      (hplanned : planColumnRef [schema] colName = .ok (name, planned)) :
      PlannedOver child node schema (.columnRef colName) planned []
  | constant (value : Value) :
      PlannedOver child node schema (.constant value) (.constantValue value) []
  | binaryOp {opName : String} {larg rarg : BoundExpression} {left right planned : Expression}
      {leftColumns rightColumns : List ℕ}
      (hlarg : PlannedOver child node schema larg left leftColumns)
      (hrarg : PlannedOver child node schema rarg right rightColumns)
      (hplanned : getBinaryExpressionFromFactory opName left right = .ok planned) :
      PlannedOver child node schema (.binaryOp opName larg rarg) planned
        (leftColumns ++ rightColumns)
  | aliased {name : String} {expression : BoundExpression} {planned : Expression}
      {columns : List ℕ} (hplanned : PlannedOver child node schema expression planned columns) :
      PlannedOver child node schema (.aliased name expression) planned columns

inductive ListPlannedOver (child : OutputSchema) (node : AggregationNode)
    (schema : OutputSchema) : List BoundExpression → List Expression → List ℕ → Prop
  | nil : ListPlannedOver child node schema [] [] []
  | cons {item : BoundExpression} {rest : List BoundExpression} {planned : Expression}
      {others : List Expression} {columns otherColumns : List ℕ}
      (hitem : PlannedOver child node schema item planned columns)
      (hrest : ListPlannedOver child node schema rest others otherColumns) :
      ListPlannedOver child node schema (item :: rest) (planned :: others)
        (columns ++ otherColumns)

/-- The plan over the aggregation node: a filter for the HAVING clause, if there is one. -/
inductive HavingPlannedOver (child : OutputSchema) (node : AggregationNode)
    (schema : OutputSchema) (plan : PlanNode) : Option BoundExpression → PlanNode → List ℕ → Prop
  | none : HavingPlannedOver child node schema plan none plan []
  | some {predicate : BoundExpression} {planned : Expression} {columns : List ℕ}
      (hpredicate : PlannedOver child node schema predicate planned columns) :
      HavingPlannedOver child node schema plan (some predicate)
        (.node (.filter planned) schema [plan]) columns

/-! ## The two passes -/

theorem getAggCallFromFactory_ok {funcName : String} {args inputs : List Expression}
    {type : AggregationType} (h : getAggCallFromFactory funcName args = .ok (type, inputs)) :
    inputs = args ∧ ((args = [] ∧ funcName = "count_star" ∧ type = .countStarAggregate) ∨
      ∃ input, args = [input] ∧ aggregateNamed funcName = some type) := by
  match args with
  | [] =>
    rw [getAggCallFromFactory] at h
    split_ifs at h with hname
    cases h
    exact ⟨rfl, .inl ⟨rfl, hname, rfl⟩⟩
  | [input] =>
    rw [getAggCallFromFactory] at h
    split_ifs at h with hname hname hname hname <;> cases h <;> subst hname <;>
      exact ⟨rfl, .inr ⟨input, rfl, rfl⟩⟩
  | first :: second :: rest => cases h

theorem asksFor_of_ok {child : OutputSchema} {call : AggCall} {type : AggregationType}
    {input : Expression} (h : planAggCall child call = .ok (type, input)) :
    AsksFor child call type input := by
  obtain ⟨funcName, isDistinct, args⟩ := call
  cases isDistinct with
  | true => cases h
  | false =>
    simp only [planAggCall, Bool.false_eq_true, if_false, Except.bind_eq_ok_iff] at h
    obtain ⟨⟨items, context⟩, hitems, ⟨aggType, inputs⟩, hfactory, h⟩ := h
    have hlength := length_planExpressions hitems
    obtain ⟨rfl, ⟨hargs, rfl, rfl⟩ | ⟨planned, hargs, htype⟩⟩ := getAggCallFromFactory_ok hfactory
    · simp only [hargs] at h
      cases h
      obtain rfl := List.map_eq_nil_iff.mp hargs
      obtain rfl := List.length_eq_zero_iff.mp hlength.symm
      exact .countStar
    · simp only [hargs] at h
      cases h
      obtain ⟨⟨name, planned'⟩, rfl, rfl⟩ := List.map_eq_singleton_iff.mp hargs
      obtain ⟨argument, rfl⟩ := List.length_eq_one_iff.mp hlength.symm
      simp only [planExpressions, Except.bind_eq_ok_iff] at hitems
      obtain ⟨⟨item, context'⟩, hitem, _, -, hitems⟩ := hitems
      obtain ⟨hcons, -⟩ := Prod.mk.inj (Except.ok.inj hitems)
      obtain rfl := (List.cons.inj hcons).1
      exact .ofArgument hitem htype

theorem AggCallAdded.isPrefix {expression left : BoundExpression} {calls calls' : List AggCall}
    (h : AggCallAdded expression calls left calls') : calls <+: calls' := by
  induction h with
  | aggCall funcName isDistinct args calls => exact List.prefix_append _ _
  | columnRef colName calls => exact List.prefix_rfl
  | constant value calls => exact List.prefix_rfl
  | binaryOp hlarg hrarg ihlarg ihrarg => exact ihlarg.trans ihrarg
  | aliased hchild ih => exact ih

theorem AggCallsAdded.isPrefix {list left : List BoundExpression} {calls calls' : List AggCall}
    (h : AggCallsAdded list calls left calls') : calls <+: calls' := by
  induction h with
  | nil calls => exact List.prefix_rfl
  | cons hitem hrest ih => exact hitem.isPrefix.trans ih

def aggregationContext (groupByCount aggregateCount nextAggregation : ℕ) : PlannerContext :=
  ⟨(List.range aggregateCount).map fun term =>
    .columnValue 0 (groupByCount + term) (.number .integer), nextAggregation⟩

section Passes

variable {child schema : OutputSchema} {groupBys : List Expression}
  {all : List AggCall} {aggregates : List (AggregationType × Expression)}

def nodeOf (groupBys : List Expression) (aggregates : List (AggregationType × Expression)) :
    AggregationNode :=
  ⟨groupBys, aggregates.map Prod.snd, aggregates.map Prod.fst⟩

theorem carries_nodeOf {term : ℕ} {type : AggregationType} {input : Expression}
    (h : aggregates[term]? = some (type, input)) :
    (nodeOf groupBys aggregates).Carries (groupBys.length + term) type input := by
  have hzip : (aggregates.map Prod.fst).zip (aggregates.map Prod.snd) = aggregates :=
    by rw [List.zip_map']; simp
  rw [AggregationNode.Carries, AggregationNode.outputs,
    List.getElem?_append_right (by simp [nodeOf])]
  simp [nodeOf, hzip, h]

/-- **One expression**: the calls that the first pass took out of it are the columns that the
second pass puts in. -/
theorem AggCallAdded.plannedOver {expression left : BoundExpression} {calls calls' : List AggCall}
    {name : String} {planned : Expression} {context : PlannerContext}
    (h : AggCallAdded expression calls left calls') (hall : calls' <+: all)
    (haggregates : all.mapM (planAggCall child) = .ok aggregates)
    (hplan : planExpression [schema] left
      (aggregationContext groupBys.length aggregates.length calls.length) =
        .ok ((name, planned), context)) :
    ∃ count, calls'.length = calls.length + count ∧
      context = aggregationContext groupBys.length aggregates.length calls'.length ∧
      PlannedOver child (nodeOf groupBys aggregates) schema expression planned
        (List.range' (groupBys.length + calls.length) count) := by
  induction h generalizing name planned context with
  | aggCall funcName isDistinct args calls =>
    -- the call is the next one of the list, and its column the next one of the context
    have hcall : all[calls.length]? = some ⟨funcName, isDistinct, args⟩ := by
      obtain ⟨rest, rfl⟩ := hall
      simp
    obtain ⟨⟨type, input⟩, hask, hget⟩ := Except.getElem?_of_mapM haggregates hcall
    have hlt : calls.length < aggregates.length := (List.getElem?_eq_some_iff.mp hget).1
    simp only [planExpression, aggregationContext, List.getElem?_map,
      List.getElem?_range hlt, Option.map_some] at hplan
    obtain ⟨hexpression, rfl⟩ := Prod.mk.inj (Except.ok.inj hplan)
    cases hexpression
    refine ⟨1, by simp, by simp [aggregationContext], ?_⟩
    exact .aggCall (asksFor_of_ok hask) (carries_nodeOf hget)
  | columnRef colName calls =>
    simp only [planExpression, Except.bind_eq_ok_iff] at hplan
    obtain ⟨⟨colName', planned'⟩, hcolumn, hplan⟩ := hplan
    obtain ⟨hexpression, rfl⟩ := Prod.mk.inj (Except.ok.inj hplan)
    cases hexpression
    exact ⟨0, rfl, rfl, .columnRef hcolumn⟩
  | constant value calls =>
    obtain ⟨hexpression, rfl⟩ := Prod.mk.inj (Except.ok.inj hplan)
    cases hexpression
    exact ⟨0, rfl, rfl, .constant value⟩
  | binaryOp hlarg hrarg ihlarg ihrarg =>
    simp only [planExpression, Except.bind_eq_ok_iff] at hplan
    obtain ⟨⟨⟨_, first⟩, middle⟩, hfirst, ⟨⟨_, second⟩, last⟩, hsecond, planned', hfactory,
      hplan⟩ := hplan
    obtain ⟨hexpression, rfl⟩ := Prod.mk.inj (Except.ok.inj hplan)
    cases hexpression
    obtain ⟨leftCount, hleftCount, rfl, hleft⟩ := ihlarg (hrarg.isPrefix.trans hall) hfirst
    obtain ⟨rightCount, hrightCount, rfl, hright⟩ := ihrarg hall hsecond
    refine ⟨leftCount + rightCount, by omega, rfl, ?_⟩
    rw [hleftCount, ← Nat.add_assoc] at hright
    rw [← List.range'_append_1]
    exact .binaryOp hleft hright hfactory
  | aliased hchild ih =>
    simp only [planExpression, Except.bind_eq_ok_iff] at hplan
    obtain ⟨⟨⟨_, first⟩, middle⟩, hfirst, hplan⟩ := hplan
    obtain ⟨hexpression, rfl⟩ := Prod.mk.inj (Except.ok.inj hplan)
    cases hexpression
    obtain ⟨count, hcount, rfl, hplanned⟩ := ih hall hfirst
    exact ⟨count, hcount, rfl, .aliased hplanned⟩

/-- **The select list**, item by item. -/
theorem AggCallsAdded.plannedOver {list left : List BoundExpression}
    {calls calls' : List AggCall} {items : List (String × Expression)} {context : PlannerContext}
    (h : AggCallsAdded list calls left calls') (hall : calls' <+: all)
    (haggregates : all.mapM (planAggCall child) = .ok aggregates)
    (hplan : planExpressions [schema] left
      (aggregationContext groupBys.length aggregates.length calls.length) =
        .ok (items, context)) :
    ∃ count, calls'.length = calls.length + count ∧
      ListPlannedOver child (nodeOf groupBys aggregates) schema list (items.map Prod.snd)
        (List.range' (groupBys.length + calls.length) count) := by
  induction h generalizing items context with
  | nil calls =>
    cases hplan
    exact ⟨0, rfl, .nil⟩
  | cons hitem hrest ih =>
    simp only [planExpressions, Except.bind_eq_ok_iff] at hplan
    obtain ⟨⟨⟨name, planned⟩, middle⟩, hfirst, ⟨others, last⟩, hothers, hplan⟩ := hplan
    cases hplan
    obtain ⟨count, hcount, rfl, hplanned⟩ :=
      hitem.plannedOver (hrest.isPrefix.trans hall) haggregates hfirst
    -- the columns of the rest start where those of this item end
    obtain ⟨otherCount, hotherCount, hlist⟩ := ih hall hothers
    refine ⟨count + otherCount, by omega, ?_⟩
    rw [hcount, ← Nat.add_assoc] at hlist
    rw [← List.range'_append_1]
    exact .cons hplanned hlist

theorem planFilter_plannedOver {having left : Option BoundExpression} {calls : List AggCall}
    {plan source : PlanNode} {context : PlannerContext}
    (h : addHavingCalls having [] = .ok (left, calls)) (hall : calls <+: all)
    (haggregates : all.mapM (planAggCall child) = .ok aggregates)
    (hplan : planFilter left plan (aggregationContext groupBys.length aggregates.length 0) =
      .ok (source, context)) :
    context = aggregationContext groupBys.length aggregates.length calls.length ∧
      source.outputSchema = plan.outputSchema ∧
      HavingPlannedOver child (nodeOf groupBys aggregates) plan.outputSchema plan having source
        (List.range' groupBys.length calls.length) := by
  cases having with
  | none =>
    cases h
    cases hplan
    exact ⟨rfl, rfl, .none⟩
  | some predicate =>
    simp only [addHavingCalls, Except.bind_eq_ok_iff] at h
    obtain ⟨⟨predicate', calls''⟩, hadded, h⟩ := h
    cases h
    simp only [planFilter, Except.bind_eq_ok_iff] at hplan
    obtain ⟨⟨⟨name, planned⟩, last⟩, hexpression, hplan⟩ := hplan
    cases hplan
    obtain ⟨count, hcount, rfl, hplanned⟩ :=
      (aggCallAdded_of_ok hadded).plannedOver hall haggregates hexpression
    rw [List.length_nil, Nat.zero_add] at hcount
    rw [hcount]
    exact ⟨rfl, rfl, .some hplanned⟩

end Passes

/-- The names and types of the output of the aggregation node. -/
def aggregationSchema (groupBys : List (String × Expression)) (aggregateCount : ℕ) :
    OutputSchema :=
  groupBys.map (fun item => (item.1, item.2.getReturnType)) ++
    (List.range aggregateCount).map fun term => ("agg#" ++ toString term, .number .integer)

theorem planAggregation_eq (groupBys : List (String × Expression))
    (aggregates : List (AggregationType × Expression)) (child : PlanNode) :
    planAggregation groupBys aggregates child =
      .ok (.node (.aggregation (groupBys.map Prod.snd) (aggregates.map Prod.snd)
          (aggregates.map Prod.fst)) (aggregationSchema groupBys aggregates.length) [child],
        aggregationContext (groupBys.map Prod.snd).length aggregates.length 0) := by
  have htypes : ((aggregates.map Prod.snd).map fun _ =>
      (unnamedColumn, TypeId.number .integer)).map Prod.snd =
      (List.range aggregates.length).map fun _ => .number .integer := by
    simp [Function.comp_def]
  have hschema : renameSchema
      (inferAggSchema (groupBys.map Prod.snd) (aggregates.map Prod.snd))
      (groupBys.map Prod.fst ++
        (List.range aggregates.length).map fun term => "agg#" ++ toString term) =
      .ok (aggregationSchema groupBys aggregates.length) := by
    rw [renameSchema, if_neg (by simp [inferAggSchema, inferProjectionSchema]), inferAggSchema,
      inferProjectionSchema, List.map_append, List.zip_append (by simp), htypes, List.zip_map',
      List.map_map, List.map_map, List.zip_map']
    rfl
  simp only [planAggregation, hschema]
  rfl

/-- **Aggregate calls are paired with their own outputs.**  The plan is a projection over an
aggregation node, perhaps with a filter between.  The calls of the HAVING clause and of the select
list are, in this order, the aggregate columns of that node, each of them once, and each carries
what its call asks for. -/
theorem planSelectAgg_paired {clauses left : SelectClauses} {child plan : PlanNode}
    (h : planSelectAgg clauses child = .ok (plan, left)) :
    ∃ (node : AggregationNode) (schema projected : OutputSchema) (source : PlanNode)
      (expressions : List Expression) (havingColumns selectColumns : List ℕ),
      plan = .node (.projection expressions) projected [source] ∧
      HavingPlannedOver child.outputSchema node schema
        (.node (.aggregation node.groupBys node.aggregates node.aggTypes) schema [child])
        clauses.having source havingColumns ∧
      ListPlannedOver child.outputSchema node schema clauses.selectList expressions
        selectColumns ∧
      node.groupBys.length = clauses.groupBy.length ∧
      schema.length = node.outputs.length ∧
      havingColumns ++ selectColumns = List.range' node.groupBys.length node.aggTypes.length := by
  simp only [planSelectAgg, Except.bind_eq_ok_iff] at h
  obtain ⟨⟨groupBys, _⟩, hgroupBys, ⟨having, calls⟩, hhaving, ⟨selectList, all⟩, hselect,
    aggregates, haggregates, ⟨aggregation, context⟩, haggregation, ⟨source, context'⟩, hfilter,
    ⟨items, _⟩, hitems, projection, hprojection, h⟩ := h
  cases h
  obtain rfl := Except.ok.inj ((projectionOf_eq items source).symm.trans hprojection)
  obtain ⟨rfl, rfl⟩ := Prod.mk.inj
    (Except.ok.inj ((planAggregation_eq groupBys aggregates child).symm.trans haggregation))
  -- the calls of HAVING come first in the list, those of the select list are added to it
  have hadded := aggCallsAdded_of_ok hselect
  obtain ⟨rfl, hsource, hhavingPlanned⟩ :=
    planFilter_plannedOver hhaving hadded.isPrefix haggregates hfilter
  rw [hsource] at hitems
  obtain ⟨count, hcount, hlist⟩ := hadded.plannedOver List.prefix_rfl haggregates hitems
  refine ⟨nodeOf (groupBys.map Prod.snd) aggregates, _, _, source, _, _, _, rfl, hhavingPlanned,
    hlist, ?_, ?_, ?_⟩
  · simp [nodeOf, length_planExpressions hgroupBys]
  · simp [nodeOf, AggregationNode.outputs, PlanNode.outputSchema, aggregationSchema]
  · rw [List.range'_append_1, ← hcount, ← Except.length_of_mapM haggregates]
    simp [nodeOf]

/-- `SELECT max(a) + max(b) FROM t HAVING count(*) > 1`. -/
def maximaClauses : SelectClauses :=
  ⟨[.binaryOp "+" (.aggCall "max" false [.columnRef ["t", "a"]])
      (.aggCall "max" false [.columnRef ["t", "b"]])], none, [],
    some (.binaryOp ">" (.aggCall "count_star" false [])
      (.constant (Value.getIntegerValue 1))), none, none, [], false⟩

/-- The table with the columns `a` and `b`. -/
def tableOfTwo : PlanNode :=
  .node (.seqScan 0 "t" none) [("t.a", .number .integer), ("t.b", .number .integer)] []

theorem planSelectAgg_paired_maxima :
    ∃ plan left, planSelectAgg maximaClauses tableOfTwo = .ok (plan, left) ∧
      ∃ (node : AggregationNode) (schema projected : OutputSchema) (source : PlanNode)
        (expressions : List Expression) (havingColumns selectColumns : List ℕ),
        plan = .node (.projection expressions) projected [source] ∧
        ListPlannedOver tableOfTwo.outputSchema node schema maximaClauses.selectList expressions
          selectColumns ∧
        havingColumns ++ selectColumns =
          List.range' node.groupBys.length node.aggTypes.length := by
  have hplan : ∃ plan left, planSelectAgg maximaClauses tableOfTwo = .ok (plan, left) :=
    ⟨_, _, rfl⟩
  obtain ⟨plan, left, hplan⟩ := hplan
  obtain ⟨node, schema, projected, source, expressions, havingColumns, selectColumns, hprojection,
    -, hselect, -, -, hcolumns⟩ := planSelectAgg_paired hplan
  exact ⟨plan, left, hplan, node, schema, projected, source, expressions, havingColumns,
    selectColumns, hprojection, hselect, hcolumns⟩

end Planner

end BusTub
