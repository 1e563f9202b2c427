import BusTub.Execution.Joins

/-!
# Merging filters into joins

The model of `OptimizeMergeFilterNLJ`.  A filter over a nested loop join without a condition is
replaced by the join with the predicate of the filter as its condition; the columns of the
predicate are renumbered, as they now come from two rows.

The join keeps its type.  For an inner join this is right: the filter goes into the two loops.
For a left join it is not: a row that has no match under the new condition is padded with NULLs,
where the filter would have dropped it.
-/

namespace BusTub

open FaultStream

namespace Optimizer

/-- `RewriteExpressionForJoin`. -/
def rewriteExpressionForJoin (leftColumnCnt rightColumnCnt : ℕ) :
    Expression → Except SqlFault Expression
  | .columnValue tupleIdx colIdx returnType =>
    if tupleIdx ≠ 0 then
      .error (.exception "tuple_idx cannot be value other than 0 before this stage.")
    else if colIdx < leftColumnCnt then .ok (.columnValue 0 colIdx returnType)
    else if colIdx < leftColumnCnt + rightColumnCnt then
      .ok (.columnValue 1 (colIdx - leftColumnCnt) returnType)
    else .error (.exception "col_idx not in range")
  | .constantValue value => .ok (.constantValue value)
  | .comparison type left right => do
      let left ← rewriteExpressionForJoin leftColumnCnt rightColumnCnt left
      let right ← rewriteExpressionForJoin leftColumnCnt rightColumnCnt right
      return .comparison type left right
  | .arithmetic type left right => do
      let left ← rewriteExpressionForJoin leftColumnCnt rightColumnCnt left
      let right ← rewriteExpressionForJoin leftColumnCnt rightColumnCnt right
      return .arithmetic type left right
  | .logic type left right => do
      let left ← rewriteExpressionForJoin leftColumnCnt rightColumnCnt left
      let right ← rewriteExpressionForJoin leftColumnCnt rightColumnCnt right
      return .logic type left right

/-- `IsPredicateTrue`. -/
def isPredicateTrue : Expression → Except SqlFault Bool
  | .constantValue value => do
      let boolean ← value.castAs (.number .boolean)
      return boolean.asBool
  | _ => .ok false

def mergeFilterNLJ : PlanNode → Except SqlFault PlanNode
  | .node (.filter predicate) schema
      [.node (.nestedLoopJoin condition joinType) joinSchema [left, right]] => do
      if ← isPredicateTrue condition then
        let predicate ← rewriteExpressionForJoin left.outputSchema.length
          right.outputSchema.length predicate
        return .node (.nestedLoopJoin predicate joinType) schema [left, right]
      else
        return .node (.filter predicate) schema
          [.node (.nestedLoopJoin condition joinType) joinSchema [left, right]]
  | .node (.filter _) _ [.node (.nestedLoopJoin _ _) _ _] =>
    .error (.exception "NLJ should have exactly 2 children.")
  | .node (.filter predicate) schema [child] => .ok (.node (.filter predicate) schema [child])
  | .node (.filter _) _ _ =>
    .error (.exception "Filter with multiple children?? Impossible!")
  | plan => .ok plan

/-- `OptimizeMergeFilterNLJ`. -/
def optimizeMergeFilterNLJ : PlanNode → Except SqlFault PlanNode :=
  PlanNode.bottomUp mergeFilterNLJ

/-- Nested loop joins have the standard meaning, and the executors that are not modelled any
meaning. -/
def joinSemantics (others : NodeSemantics) : NodeSemantics
  | .nestedLoopJoin predicate joinType, _, [(_, left), (rightSchema, right)] =>
    nestedLoopJoinRows predicate joinType rightSchema left right
  | kind, schema, children => executorSemantics others kind schema children

/-! ## Rewriting expressions -/

/-- Columns have the tuple index zero, and are in range. -/
def ColumnsBelow (count : ℕ) : Expression → Prop
  | .columnValue tupleIdx colIdx _ => tupleIdx = 0 ∧ colIdx < count
  | .constantValue _ => True
  | .comparison _ left right | .arithmetic _ left right | .logic _ left right =>
    ColumnsBelow count left ∧ ColumnsBelow count right

theorem columnOfRow_append_left {left right : Row} {colIdx : ℕ} (h : colIdx < left.length) :
    columnOfRow (left ++ right) colIdx = columnOfRow left colIdx := by
  rw [columnOfRow, columnOfRow, List.getElem?_append_left h]

theorem columnOfRow_append_right {left right : Row} {colIdx : ℕ} (h : left.length ≤ colIdx) :
    columnOfRow (left ++ right) colIdx = columnOfRow right (colIdx - left.length) := by
  rw [columnOfRow, columnOfRow, List.getElem?_append_right h]

/-- The expression on two rows is what the other one is on the joined row. -/
def RewrittenAs (leftCount : ℕ) (expression rewritten : Expression) : Prop :=
  ∀ left right : Row, left.length = leftCount →
    evaluateJoinRows left right rewritten = evaluateRow (left ++ right) expression

/-- **Rewriting** succeeds, and keeps the meaning. -/
theorem rewriteExpressionForJoin_spec {leftCount rightCount : ℕ} {expression : Expression}
    (h : ColumnsBelow (leftCount + rightCount) expression) :
    ∃ rewritten, rewriteExpressionForJoin leftCount rightCount expression = .ok rewritten ∧
      RewrittenAs leftCount expression rewritten := by
  induction expression with
  | columnValue tupleIdx colIdx returnType =>
    obtain ⟨rfl, hcolIdx⟩ := h
    rw [rewriteExpressionForJoin, if_neg (by simp)]
    -- a column of the left row keeps its index, one of the right row is counted from its start
    split_ifs with hleft
    · refine ⟨_, rfl, fun left right hlength => ?_⟩
      exact (columnOfRow_append_left (hlength ▸ hleft)).symm
    · refine ⟨_, rfl, fun left right hlength => ?_⟩
      subst hlength
      exact (columnOfRow_append_right (Nat.le_of_not_lt hleft)).symm
  | constantValue value => exact ⟨_, rfl, fun left right hlength => rfl⟩
  | comparison type left right ihleft ihright | arithmetic type left right ihleft ihright
  | logic type left right ihleft ihright =>
    obtain ⟨left', hleft, hleftEq⟩ := ihleft h.1
    obtain ⟨right', hright, hrightEq⟩ := ihright h.2
    rw [rewriteExpressionForJoin, hleft, hright]
    refine ⟨_, rfl, fun first second hlength => ?_⟩
    have hfirst := hleftEq first second hlength
    have hsecond := hrightEq first second hlength
    simp only [evaluateJoinRows, evaluateRow] at hfirst hsecond
    simp [evaluateJoinRows, evaluateRow, Expression.evaluateWith, hfirst, hsecond]

theorem eq_constant_of_rewrite {leftCount rightCount : ℕ} {expression : Expression} {value : Value}
    (h : rewriteExpressionForJoin leftCount rightCount expression = .ok (.constantValue value)) :
    expression = .constantValue value := by
  cases expression with
  | columnValue tupleIdx colIdx returnType =>
    rw [rewriteExpressionForJoin] at h
    split_ifs at h <;> cases h
  | constantValue constant => exact congrArg _ (by simpa [rewriteExpressionForJoin] using h)
  | comparison type left right | arithmetic type left right | logic type left right =>
    simp only [rewriteExpressionForJoin, Except.bind_eq_ok_iff] at h
    obtain ⟨left', -, right', -, h⟩ := h
    cases h

theorem length_of_projectionRow {expressions : List Expression} {row projected : Row}
    (h : projectionRow expressions row = .ok projected) :
    projected.length = expressions.length := by
  rw [projectionRow, Except.bind_eq_ok_iff] at h
  obtain ⟨values, hvalues, hbuild⟩ := h
  rw [buildRow] at hbuild
  split_ifs at hbuild
  cases hbuild
  exact Except.length_of_mapM hvalues

theorem filterRow_eq {predicate : Expression} {row kept : Row}
    (h : filterRow predicate row = .ok (some kept)) : kept = row := by
  rw [filterRow, Except.bind_eq_ok_iff] at h
  obtain ⟨value, -, h⟩ := h
  have hsome := Except.ok.inj h
  split_ifs at hsome
  exact (Option.some.inj hsome).symm

/-! ## The rule -/

def BooleanIfConstant (predicate : Expression) : Prop :=
  ∀ value, predicate = .constantValue value →
    value.getTypeId = .number .boolean ∧ value.isNull = false

/-- What the rule needs: constant predicates are BOOLEANs, a join without a condition is not a
left join, the columns of a filter exist, and schemas have the width of the rows. -/
def MergeableNode (kind : PlanKind) (schema : OutputSchema) (children : List OutputSchema) : Prop :=
  match kind, children with
  | .filter predicate, [child] => schema.length = child.length ∧ BooleanIfConstant predicate ∧
      ColumnsBelow child.length predicate
  | .filter _, _ => False
  | .nestedLoopJoin predicate joinType, [left, right] =>
    schema.length = left.length + right.length ∧ BooleanIfConstant predicate ∧
      (isPredicateTrue predicate = .ok true → joinType ≠ .left)
  | .nestedLoopJoin _ _, _ => False
  | .values rows, [] => ∀ rowExpr ∈ rows, rowExpr.length = schema.length
  | .projection expressions, [_] => expressions.length = schema.length
  | _, _ => True

end Optimizer

def PlanNode.Mergeable (plan : PlanNode) : Prop :=
  plan.Everywhere PlanNode.outputSchema Optimizer.MergeableNode

namespace Optimizer

def RowsHaveWidth (others : NodeSemantics) : Prop :=
  ∀ kind schema children, (others kind schema children).All (HasWidth schema)

variable {predicate : Expression}

theorem isPredicateTrue_spec (h : BooleanIfConstant predicate) :
    ∃ truth, isPredicateTrue predicate = .ok truth ∧
      (truth = true →
        ∀ left right : Row, joinRow predicate left right = .ok (some (left ++ right))) := by
  cases predicate with
  | constantValue value =>
    obtain ⟨htype, hnull⟩ := h value rfl
    cases value with
    | varchar data => cases htype
    | number type payload lower upper =>
      obtain rfl := TypeId.number.inj htype
      refine ⟨_, rfl, fun htrue left right => ?_⟩
      have hpasses : passes (.number .boolean payload lower upper) = true := by
        rw [passes, hnull]
        exact htrue
      simp only [joinRow, evaluateJoinRows, Expression.evaluateWith, bind, Except.bind,
        if_pos hpasses]
      rfl
  | _ => exact ⟨false, rfl, fun htrue => absurd htrue Bool.false_ne_true⟩

variable {others : NodeSemantics}

variable {joinType : JoinType} {children : List PlanNode}

theorem mergeable_join {condition : Expression} {schema : OutputSchema}
    (h : (PlanNode.node (.nestedLoopJoin condition joinType) schema children).Mergeable) :
    ∃ left right, children = [left, right] ∧ left.Mergeable ∧
      right.Mergeable ∧ MergeableNode (.nestedLoopJoin condition joinType) schema
        [left.outputSchema, right.outputSchema] := by
  obtain ⟨hnode, hchildren⟩ := h
  rcases children with _ | ⟨left, _ | ⟨right, _ | ⟨third, rest⟩⟩⟩
  · exact hnode.elim
  · exact hnode.elim
  · exact ⟨left, right, rfl, hchildren.1, hchildren.2.1, hnode⟩
  · exact hnode.elim

theorem mergeable_filter {schema : OutputSchema}
    (h : (PlanNode.node (.filter predicate) schema children).Mergeable) :
    ∃ child, children = [child] ∧ child.Mergeable ∧
      MergeableNode (.filter predicate) schema [child.outputSchema] := by
  obtain ⟨hnode, hchildren⟩ := h
  rcases children with _ | ⟨child, _ | ⟨second, rest⟩⟩
  · exact hnode.elim
  · exact ⟨child, rfl, hchildren.1, hnode⟩
  · exact hnode.elim

theorem meaning_hasWidth (hothers : RowsHaveWidth others) {plan : PlanNode}
    (h : plan.Mergeable) :
    (plan.meaning (joinSemantics others)).All (HasWidth plan.outputSchema) := by
  induction plan using PlanNode.induction with
  | hnode kind schema children ih =>
    cases kind with
    | filter predicate =>
      obtain ⟨child, rfl, hchild, hnode⟩ := mergeable_filter h
      refine all_filterMap (ih child List.mem_cons_self hchild) fun row kept hrow hkept => ?_
      rw [filterRow_eq hkept]
      exact hrow.trans hnode.1.symm
    | nestedLoopJoin condition joinType =>
      obtain ⟨left, right, rfl, hleft, hright, hnode⟩ := mergeable_join h
      exact all_nestedLoopJoinRows (ih left (by simp) hleft) (ih right (by simp) hright) hnode.1
    | values rows =>
      cases children with
      | nil =>
        have hrows : (ofList rows : FaultStream SqlFault _).All (· ∈ rows) := by
          simp [All]
        refine all_mapM hrows fun rowExpr row hmem hrow => ?_
        exact (length_of_projectionRow hrow).trans (h.1 rowExpr hmem)
      | cons child rest => exact hothers _ _ _
    | projection expressions =>
      -- with another number of children the node has no executor of its own
      rcases children with _ | ⟨child, _ | ⟨second, rest⟩⟩
      · exact hothers _ _ _
      · refine all_mapM (ih child List.mem_cons_self h.2.1) fun row projected _ hprojected => ?_
        exact (length_of_projectionRow hprojected).trans h.1
      · exact hothers _ _ _
    | _ => exact hothers _ _ _

/-- **The filter goes into the loops** of a join without a condition. -/
theorem filter_join {condition rewritten : Expression}
    {leftSchema rightSchema : OutputSchema} {left right : Rows}
    (hcondition : ∀ first second : Row,
      joinRow condition first second = .ok (some (first ++ second)))
    (hrewritten : RewrittenAs leftSchema.length predicate rewritten)
    (hleft : left.All (HasWidth leftSchema)) (hjoin : joinType ≠ .left) :
    (nestedLoopJoinRows condition joinType rightSchema left right).filterMap
      (filterRow predicate) = nestedLoopJoinRows rewritten joinType rightSchema left right := by
  cases joinType with
  | left => exact absurd rfl hjoin
  | invalid | right | outer => rfl
  | inner =>
    simp only [nestedLoopJoinRows, filterMap_flatMap, filterMap_filterMap]
    refine flatMap_congr (hleft.imp fun row hrow => ?_)
    refine filterMap_congr fun other _ => ?_
    refine (andThen_of_ok (hcondition row other)).trans ?_
    rw [filterRow, joinRow, hrewritten row other hrow]

theorem mergeFilterNLJ_join (hothers : RowsHaveWidth others) {condition : Expression}
    {schema joinSchema : OutputSchema}
    (h : (PlanNode.node (.filter predicate) schema
      [.node (.nestedLoopJoin condition joinType) joinSchema children]).Mergeable) :
    ∃ plan', mergeFilterNLJ (.node (.filter predicate) schema
        [.node (.nestedLoopJoin condition joinType) joinSchema children]) = .ok plan' ∧
      plan'.Mergeable ∧ plan'.Replaces (joinSemantics others)
        (.node (.filter predicate) schema
          [.node (.nestedLoopJoin condition joinType) joinSchema children]) := by
  obtain ⟨child, hchild, hjoin, hwidth, hboolean, hcolumns⟩ := mergeable_filter h
  obtain rfl := (List.cons.inj hchild).1
  obtain ⟨left, right, rfl, hleft, hright, hjoinWidth, hjoinBoolean, hjoinType⟩ :=
    mergeable_join hjoin
  obtain ⟨truth, htruth, hpasses⟩ := isPredicateTrue_spec hjoinBoolean
  cases truth with
  | false =>
    -- the join has a condition of its own, and the rule leaves the plan
    refine ⟨_, ?_, h, rfl, rfl⟩
    simp only [mergeFilterNLJ, htruth, bind, Except.bind]
    rfl
  | true =>
    obtain ⟨rewritten, hrewrite, hrewritten⟩ :=
      rewriteExpressionForJoin_spec (hjoinWidth ▸ hcolumns)
    refine ⟨.node (.nestedLoopJoin rewritten joinType) schema [left, right], ?_, ?_, rfl, ?_⟩
    · simp only [mergeFilterNLJ, htruth, bind, Except.bind, if_true, hrewrite]
      rfl
    · refine ⟨⟨hwidth.trans hjoinWidth, ?_, fun _ => hjoinType htruth⟩, hleft, hright, trivial⟩
      rintro value rfl
      exact hboolean value (eq_constant_of_rewrite hrewrite)
    · exact (filter_join (hpasses rfl) hrewritten (meaning_hasWidth hothers hleft)
        (hjoinType htruth)).symm

/-- **The rule** keeps the rows of a node. -/
theorem mergeFilterNLJ_spec (hothers : RowsHaveWidth others) (plan : PlanNode)
    (h : plan.Mergeable) :
    ∃ plan', mergeFilterNLJ plan = .ok plan' ∧ plan'.Mergeable ∧
      plan'.Replaces (joinSemantics others) plan := by
  cases plan with
  | node kind schema children =>
    cases kind with
    | filter predicate =>
      obtain ⟨child, rfl, -⟩ := mergeable_filter h
      cases child with
      | node childKind childSchema grandchildren =>
        cases childKind with
        | nestedLoopJoin condition joinType => exact mergeFilterNLJ_join hothers h
        | _ => exact ⟨_, rfl, h, rfl, rfl⟩
    | _ => exact ⟨_, rfl, h, rfl, rfl⟩

def oneRow (name : String) (number : ℤ) : PlanNode :=
  .node (.values [[.constantValue (Value.wrap .integer number)]]) [(name, .number .integer)] []

/-- The rows of `1` and of `2`, joined without a condition and then filtered by `a = b`. -/
def filteredJoin (joinType : JoinType) : PlanNode :=
  let schema := [("a", .number .integer), ("b", .number .integer)]
  .node (.filter (.comparison .equal (.columnValue 0 0 (.number .integer))
      (.columnValue 0 1 (.number .integer)))) schema
    [.node (.nestedLoopJoin (.constantValue (Value.getBooleanValue .cmpTrue)) joinType) schema
      [oneRow "a" 1, oneRow "b" 2]]

end Optimizer

end BusTub
