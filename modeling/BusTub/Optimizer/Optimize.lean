import BusTub.Optimizer.IndexRules
import BusTub.Optimizer.MergeProjection

/-!
# The optimizer

`Optimize` runs the rules one after the other.  The executors that are implemented run plans of
`Values`, `Filter` and `Projection` nodes, and of the rules only the first one changes such a plan.
-/

namespace BusTub

open Executor PlanNode

namespace Optimizer

/-- `OptimizeSortLimitAsTopN`, which is not implemented. -/
def optimizeSortLimitAsTopN (plan : PlanNode) : Except SqlFault PlanNode := .ok plan

/-- `OptimizeCustom`. -/
def optimizeCustom (db : Database) (plan : PlanNode) : Except SqlFault PlanNode := do
  let plan ← optimizeMergeProjection plan
  let plan ← optimizeMergeFilterNLJ plan
  let plan ← optimizeNLJAsIndexJoin db plan
  let plan ← optimizeOrderByAsIndexScan db plan
  optimizeSortLimitAsTopN plan

/-- `Optimize`. -/
def optimize (db : Database) (forceStarterRule : Bool) (plan : PlanNode) :
    Except SqlFault PlanNode :=
  if forceStarterRule then do
    let plan ← optimizeMergeProjection plan
    let plan ← optimizeMergeFilterNLJ plan
    let plan ← optimizeNLJAsIndexJoin db plan
    let plan ← optimizeOrderByAsIndexScan db plan
    optimizeSortLimitAsTopN plan
  else optimizeCustom db plan

variable {plan : PlanNode}

/-- A rule that changes no node of a plan that can be executed does not change the plan. -/
theorem bottomUp_of_typed {rule : PlanNode → Except SqlFault PlanNode}
    (hrule : ∀ plan : PlanNode, plan.Typed → rule plan = .ok plan) (h : plan.Typed) :
    bottomUp rule plan = .ok plan := by
  induction plan using PlanNode.induction with
  | hnode kind schema children ih =>
    have hchildren : bottomUpAll rule children = .ok children := by
      rcases typed_cases h with ⟨_, -, rfl, -⟩ | ⟨_, child, -, rfl, hchild, -⟩ |
        ⟨_, child, -, rfl, hchild, -⟩
      · rfl
      all_goals
        rw [bottomUpAll, ih child List.mem_cons_self hchild]
        rfl
    rw [bottomUp, hchildren]
    exact hrule _ h

theorem mergeFilterNLJ_of_typed (plan : PlanNode) (h : plan.Typed) :
    mergeFilterNLJ plan = .ok plan := by
  obtain ⟨kind, schema, children⟩ := plan
  rcases typed_cases h with ⟨_, rfl, rfl, -⟩ | ⟨_, child, rfl, rfl, hchild, -⟩ |
    ⟨_, _, rfl, rfl, -⟩
  · rfl
  · -- the child of a filter is no join
    obtain ⟨kind, schema, children⟩ := child
    rcases typed_cases hchild with ⟨_, rfl, -⟩ | ⟨_, _, rfl, -⟩ | ⟨_, _, rfl, -⟩ <;> rfl
  · rfl

theorem indexRules_of_typed (db : Database) (plan : PlanNode) (h : plan.Typed) :
    nljAsIndexJoin db plan = .ok plan ∧ orderByAsIndexScan db plan = .ok plan := by
  obtain ⟨kind, schema, children⟩ := plan
  rcases typed_cases h with ⟨_, rfl, -⟩ | ⟨_, _, rfl, -⟩ | ⟨_, _, rfl, -⟩ <;> exact ⟨rfl, rfl⟩

theorem laterRules_of_typed (db : Database) (h : plan.Typed) :
    optimizeMergeFilterNLJ plan = .ok plan ∧ optimizeNLJAsIndexJoin db plan = .ok plan ∧
      optimizeOrderByAsIndexScan db plan = .ok plan :=
  ⟨bottomUp_of_typed mergeFilterNLJ_of_typed h,
    bottomUp_of_typed (fun plan h => (indexRules_of_typed db plan h).1) h,
    bottomUp_of_typed (fun plan h => (indexRules_of_typed db plan h).2) h⟩

end Optimizer

end BusTub
