import BusTub.Execution.Executors

/-!
# Merging projections

The model of `OptimizeMergeProjection`.  A projection that returns the columns of its child as
they are is replaced by the child, which takes over the schema of the projection.

On rows, such a projection changes nothing, and the rows of a node do not depend on its schema.
That the tuples hold these rows, under the new schema too, is what `execute_rows` says.
-/

namespace BusTub

open FaultStream Executor

namespace Optimizer

/-- The loop over the expressions, from an index: all of them are columns in their places. -/
def isIdenticalFrom : ℕ → List Expression → Bool
  | _, [] => true
  | idx, .columnValue tupleIdx colIdx _ :: rest =>
    if tupleIdx = 0 ∧ colIdx = idx then isIdenticalFrom (idx + 1) rest else false
  | _, _ :: _ => false

def withSchema (schema : OutputSchema) : PlanNode → PlanNode
  | .node kind _ children => .node kind schema children

def mergeProjection : PlanNode → Except SqlFault PlanNode
  | .node (.projection expressions) schema [child] =>
    if columnTypes child.outputSchema = columnTypes schema ∧
        isIdenticalFrom 0 expressions = true then .ok (withSchema schema child)
    else .ok (.node (.projection expressions) schema [child])
  | .node (.projection _) _ _ =>
    .error (.exception "Projection with multiple children?? That's weird!")
  | plan => .ok plan

/-- `OptimizeMergeProjection`. -/
def optimizeMergeProjection : PlanNode → Except SqlFault PlanNode :=
  PlanNode.bottomUp mergeProjection

/-! ## Identical projections -/

theorem mapM_of_isIdentical {expressions : List Expression} {row : Row} {idx : ℕ}
    (h : isIdenticalFrom idx expressions = true) (hlength : idx + expressions.length = row.length) :
    expressions.mapM (evaluateRow row) = .ok (row.drop idx) := by
  induction expressions generalizing idx with
  | nil =>
    rw [List.drop_of_length_le (by simpa using hlength.ge)]
    rfl
  | cons expression rest ih =>
    cases expression with
    | columnValue tupleIdx colIdx returnType =>
      rw [isIdenticalFrom] at h
      split_ifs at h with hcolumn
      obtain ⟨-, rfl⟩ := hcolumn
      rw [List.length_cons] at hlength
      have hcolIdx : colIdx < row.length := by omega
      have hrest := ih h (by omega)
      have hvalue : evaluateRow row (.columnValue tupleIdx colIdx returnType) =
          .ok row[colIdx] := by
        simp [evaluateRow, Expression.evaluateWith, columnOfRow, List.getElem?_eq_getElem hcolIdx]
      rw [List.mapM_cons, hvalue, List.drop_eq_getElem_cons hcolIdx]
      simp only [bind, Except.bind, hrest]
      rfl
    | _ => cases h

variable {schema : OutputSchema}

theorem projectionRow_of_isIdentical {expressions : List Expression}
    {row : Row} (h : isIdenticalFrom 0 expressions = true)
    (hlength : expressions.length = schema.length) (hrow : RowOf schema row) :
    projectionRow expressions row = .ok row := by
  have hcount : row.length = schema.length := by
    simpa [columnTypes] using congrArg List.length hrow.types_eq
  rw [projectionRow, mapM_of_isIdentical h (by omega)]
  exact if_pos hrow.fits

/-! ## The schema of a node -/

theorem typedNode_congr {kind : PlanKind} {schema' : OutputSchema}
    {children : List OutputSchema} (h : TypedNode kind schema children)
    (htypes : columnTypes schema = columnTypes schema') : TypedNode kind schema' children := by
  unfold TypedNode at *
  rw [← htypes]
  exact h

theorem everywhere_withSchema {plan : PlanNode}
    (h : plan.Typed) (htypes : columnTypes plan.outputSchema = columnTypes schema) :
    (withSchema schema plan).Typed := by
  cases plan with
  | node kind schema' children =>
    exact ⟨typedNode_congr h.1 htypes, h.2⟩

theorem meaning_withSchema (others : NodeSemantics) {plan : PlanNode}
    (h : plan.Typed) :
    (withSchema schema plan).meaning (executorSemantics others) =
      plan.meaning (executorSemantics others) := by
  cases plan with
  | node kind schema' children =>
    rcases typed_cases h with ⟨rows, rfl, rfl, -⟩ | ⟨predicate, child, rfl, rfl, -⟩ |
      ⟨expressions, child, rfl, rfl, -⟩ <;> rfl

/-- **The rule** keeps the rows of a node. -/
theorem mergeProjection_spec (others : NodeSemantics) (plan : PlanNode)
    (h : plan.Typed) :
    ∃ plan', mergeProjection plan = .ok plan' ∧ plan'.Typed ∧
      plan'.Replaces (executorSemantics others) plan := by
  cases plan with
  | node kind schema children =>
    rcases typed_cases h with ⟨rows, rfl, rfl, -⟩ | ⟨predicate, child, rfl, rfl, -⟩ |
      ⟨expressions, child, rfl, rfl, hchild, hnode⟩
    · exact ⟨_, rfl, h, rfl, rfl⟩
    · exact ⟨_, rfl, h, rfl, rfl⟩
    · rw [mergeProjection]
      split_ifs with hidentical
      · obtain ⟨htypes, hcolumns⟩ := hidentical
        refine ⟨_, rfl, everywhere_withSchema hchild htypes, ?_, ?_⟩
        · cases child
          rfl
        · have hlength : expressions.length = child.outputSchema.length := by
            have hcount := congrArg List.length (hnode.1.trans htypes.symm)
            simpa [columnTypes] using hcount
          rw [meaning_withSchema others hchild, meaning_projection]
          -- each row of the child is projected to itself
          refine (filterMap_id ((meaning_rowOf others hchild).imp fun row hrow => ?_)).symm
          rw [projectionRow_of_isIdentical hcolumns hlength hrow]
          rfl
      · exact ⟨_, rfl, h, rfl, rfl⟩

/-- **Merging projections** changes neither the schema of a plan nor the rows it yields. -/
theorem optimizeMergeProjection_preserves (plan : PlanNode) (h : plan.Typed) :
    ∃ plan', optimizeMergeProjection plan = .ok plan' ∧
      plan'.outputSchema = plan.outputSchema ∧
      (Executor.execute plan').map (decodeTuple plan'.outputSchema) =
        (Executor.execute plan).map (decodeTuple plan.outputSchema) := by
  let others : NodeSemantics := fun _ _ _ => .done
  obtain ⟨plan', hplan, heverywhere, hreplaces⟩ :=
    PlanNode.bottomUp_spec (fun _ _ h => h.outputSchema_eq) (mergeProjection_spec others) plan h
  refine ⟨plan', hplan, hreplaces.outputSchema_eq, ?_⟩
  rw [execute_rows others heverywhere, execute_rows others h, hreplaces.meaning_eq]

/-- A projection that renames the one column of two rows. -/
theorem optimizeMergeProjection_rename :
    let leaf : PlanNode := .node (.values [[.constantValue (Value.wrap .integer 1)],
      [.constantValue (Value.wrap .integer 2)]]) [("a", .number .integer)] []
    let plan : PlanNode :=
      .node (.projection [.columnValue 0 0 (.number .integer)]) [("b", .number .integer)] [leaf]
    optimizeMergeProjection plan = .ok (withSchema [("b", .number .integer)] leaf) ∧
      ∃ plan', optimizeMergeProjection plan = .ok plan' ∧
        plan'.outputSchema = plan.outputSchema ∧
        (Executor.execute plan').map (decodeTuple plan'.outputSchema) =
          (Executor.execute plan).map (decodeTuple plan.outputSchema) := by
  intro leaf plan
  refine ⟨rfl, optimizeMergeProjection_preserves plan ?_⟩
  simp [plan, leaf, PlanNode.Typed, PlanNode.Everywhere, PlanNode.EverywhereIn, TypedNode,
    columnTypes, Expression.WellTyped, Expression.getReturnType, Value.wrap, Value.getTypeId]

end Optimizer

end BusTub
