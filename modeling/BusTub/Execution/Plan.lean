import BusTub.Execution.Aggregation
import BusTub.Library.FaultStream
import BusTub.Planner.PlanExpression

/-!
# Plans

The model of the plan nodes.  A node has a kind, with the fields of its class, an output schema
and children.

An optimizer rule goes through a plan from the leaves to the root: it clones each node with its
optimized children, and may then replace it.  A plan means what its nodes make of the meanings of
their children, so a rule that keeps the meaning of single nodes keeps the meaning of plans.  What
a rule needs is asked of every node, in terms of the node itself and of a view of its children,
their schemas or their rows.
-/

namespace BusTub

/-- `JoinType`. -/
inductive JoinType
  | invalid
  | left
  | right
  | inner
  | outer
deriving DecidableEq, Repr

/-- `OrderByType`. -/
inductive OrderByType
  | invalid
  | default
  | asc
  | desc
deriving DecidableEq, Repr

inductive PlanKind
  | seqScan (tableOid : ℕ) (tableName : String) (filterPredicate : Option Expression)
  | indexScan (indexOid : ℕ)
  | insert (tableOid : ℕ)
  | update (tableOid : ℕ) (targetExpressions : List Expression)
  | delete (tableOid : ℕ)
  | aggregation (groupBys aggregates : List Expression) (aggTypes : List AggregationType)
  | limit (limit : ℕ)
  | nestedLoopJoin (predicate : Expression) (joinType : JoinType)
  | nestedIndexJoin (keyPredicate : Expression) (innerTableOid indexOid : ℕ)
      (indexName indexTableName : String) (innerTableSchema : OutputSchema) (joinType : JoinType)
  | hashJoin (leftKeyExpression rightKeyExpression : Expression) (joinType : JoinType)
  | filter (predicate : Expression)
  | values (values : List (List Expression))
  | projection (expressions : List Expression)
  | sort (orderBys : List (OrderByType × Expression))
  | topN (orderBys : List (OrderByType × Expression)) (n : ℕ)
  | mockScan (table : String)

/-- `AbstractPlanNode`. -/
inductive PlanNode
  | node (kind : PlanKind) (outputSchema : OutputSchema) (children : List PlanNode)

abbrev Row := List Value

abbrev Rows := FaultStream SqlFault Row

/-- What a node makes of the rows of its children, which come with their schemas. -/
abbrev NodeSemantics := PlanKind → OutputSchema → List (OutputSchema × Rows) → Rows

namespace PlanNode

/-- `OutputSchema`. -/
def outputSchema : PlanNode → OutputSchema
  | node _ schema _ => schema

/-- `GetChildren`. -/
def children : PlanNode → List PlanNode
  | node _ _ children => children

@[simp] theorem outputSchema_node (kind : PlanKind) (schema : OutputSchema)
    (children : List PlanNode) : (node kind schema children).outputSchema = schema := rfl

theorem induction {motive : PlanNode → Prop}
    (hnode : ∀ kind schema children, (∀ child ∈ children, motive child) →
      motive (node kind schema children)) (plan : PlanNode) : motive plan := by
  refine PlanNode.rec (motive_1 := motive)
    (motive_2 := fun children => ∀ child ∈ children, motive child) ?_ ?_ ?_ plan
  · exact fun kind schema children ih => hnode kind schema children ih
  · exact fun child hmem => nomatch hmem
  · exact fun head tail hhead htail => List.forall_mem_cons.mpr ⟨hhead, htail⟩

/-! ## Optimizer rules -/

mutual

def bottomUp (rule : PlanNode → Except SqlFault PlanNode) : PlanNode → Except SqlFault PlanNode
  | node kind schema children => do
      let children ← bottomUpAll rule children
      rule (node kind schema children)

def bottomUpAll (rule : PlanNode → Except SqlFault PlanNode) :
    List PlanNode → Except SqlFault (List PlanNode)
  | [] => .ok []
  | child :: rest => do
      let child ← bottomUp rule child
      let rest ← bottomUpAll rule rest
      return child :: rest

end

/-! ## Meanings -/

mutual

def meaning (semantics : NodeSemantics) : PlanNode → Rows
  | node kind schema children => semantics kind schema (meanings semantics children)

def meanings (semantics : NodeSemantics) : List PlanNode → List (OutputSchema × Rows)
  | [] => []
  | child :: rest => (child.outputSchema, meaning semantics child) :: meanings semantics rest

end

mutual

/-- Every node of the plan meets a condition, on its class, its schema and a view of its
children. -/
def Everywhere {View : Type} (view : PlanNode → View)
    (condition : PlanKind → OutputSchema → List View → Prop) : PlanNode → Prop
  | node kind schema children =>
    condition kind schema (children.map view) ∧ EverywhereIn view condition children

def EverywhereIn {View : Type} (view : PlanNode → View)
    (condition : PlanKind → OutputSchema → List View → Prop) : List PlanNode → Prop
  | [] => True
  | child :: rest => Everywhere view condition child ∧ EverywhereIn view condition rest

end

variable {semantics : NodeSemantics} {rule : PlanNode → Except SqlFault PlanNode} {View : Type}
  {view : PlanNode → View} {condition : PlanKind → OutputSchema → List View → Prop}

structure Replaces (semantics : NodeSemantics) (plan' plan : PlanNode) : Prop where
  outputSchema_eq : plan'.outputSchema = plan.outputSchema
  meaning_eq : plan'.meaning semantics = plan.meaning semantics

theorem bottomUpAll_spec
    (hview : ∀ plan plan', Replaces semantics plan' plan → view plan' = view plan)
    {children : List PlanNode} (h : EverywhereIn view condition children)
    (ih : ∀ child ∈ children, Everywhere view condition child → ∃ child',
      bottomUp rule child = .ok child' ∧ Everywhere view condition child' ∧
        Replaces semantics child' child) :
    ∃ children', bottomUpAll rule children = .ok children' ∧
      EverywhereIn view condition children' ∧ children'.map view = children.map view ∧
      meanings semantics children' = meanings semantics children := by
  induction children with
  | nil => exact ⟨[], rfl, trivial, rfl, rfl⟩
  | cons child rest ihrest =>
    rw [List.forall_mem_cons] at ih
    obtain ⟨child', hchild, heverywhere, hreplaces⟩ := ih.1 h.1
    obtain ⟨rest', hrest, heverywhere', hviews, hmeanings⟩ := ihrest h.2 ih.2
    refine ⟨child' :: rest', ?_, ⟨heverywhere, heverywhere'⟩, ?_, ?_⟩
    · rw [bottomUpAll, hchild]
      simp only [bind, Except.bind, hrest]
      rfl
    · rw [List.map_cons, List.map_cons, hview _ _ hreplaces, hviews]
    · rw [meanings, meanings, hreplaces.outputSchema_eq, hreplaces.meaning_eq, hmeanings]

/-- **Optimizer rules.**  If the rule can be applied to every node that meets the condition,
and keeps its meaning, then this is so for every plan. -/
theorem bottomUp_spec (hview : ∀ plan plan', Replaces semantics plan' plan → view plan' = view plan)
    (hrule : ∀ plan, Everywhere view condition plan → ∃ plan', rule plan = .ok plan' ∧
      Everywhere view condition plan' ∧ Replaces semantics plan' plan)
    (plan : PlanNode) (h : Everywhere view condition plan) :
    ∃ plan', bottomUp rule plan = .ok plan' ∧ Everywhere view condition plan' ∧
      Replaces semantics plan' plan := by
  induction plan using PlanNode.induction with
  | hnode kind schema children ih =>
    obtain ⟨children', hchildren, heverywhere, hviews, hmeanings⟩ :=
      bottomUpAll_spec hview h.2 ih
    obtain ⟨plan', hplan, hcondition, hreplaces⟩ :=
      hrule (node kind schema children') (by rw [Everywhere, hviews]; exact ⟨h.1, heverywhere⟩)
    refine ⟨plan', ?_, hcondition, hreplaces.outputSchema_eq, ?_⟩
    · rw [bottomUp, hchildren]
      exact hplan
    · rw [hreplaces.meaning_eq, meaning, meaning, hmeanings]

end PlanNode

end BusTub
