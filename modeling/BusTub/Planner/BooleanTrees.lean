import BusTub.Planner.PlanExpression
import Mathlib.Data.List.Forall2
import Mathlib.Order.MinMax

/-!
# AND and OR from the parser to the value

A tree of ANDs and ORs over comparisons is bound, planned and evaluated.  In SQL, AND is the
minimum of its arguments and OR the maximum, under false < NULL < true.

The stages are followed one at a time: what a bound expression `Yields` is known once it is
planned and evaluated, and the operator that the binder builds from two bound expressions yields
the minimum.  `BindBoolExpr` builds the same operator for AND and for OR, so a tree yields the
least value of its leaves.  That is its SQL value exactly if the SQL value is as small as the
leaves allow.
-/

namespace BusTub

/-! ## Trees -/

/-- A comparison: an operator that the planner takes for one, and its operands. -/
structure ComparisonLeaf where
  name : String
  type : ComparisonType
  isComparison : ∀ left right, Planner.getBinaryExpressionFromFactory name left right =
    .ok (.comparison type left right)
  left : ParseNode
  right : ParseNode

/-- A tree of ANDs and ORs with two or more arguments. -/
inductive BoolTree
  | leaf (leaf : ComparisonLeaf)
  | node (op : LogicType) (first second : BoolTree) (rest : List BoolTree)

namespace BoolTree

@[elab_as_elim, induction_eliminator]
theorem induction {motive : BoolTree → Prop} (leaf : ∀ leaf, motive (.leaf leaf))
    (node : ∀ op first second rest, motive first → motive second → (∀ tree ∈ rest, motive tree) →
      motive (.node op first second rest)) (tree : BoolTree) : motive tree :=
  @BoolTree.rec motive (fun trees => ∀ tree ∈ trees, motive tree) leaf
    (fun op first second rest hfirst hsecond hrest =>
      node op first second rest hfirst hsecond hrest)
    (fun _ hmem => (nomatch hmem))
    (fun _ _ hfirst hrest tree hmem =>
      (List.mem_cons.mp hmem).elim (fun heq => heq ▸ hfirst) (hrest tree)) tree

section Fold

variable {Result : Type*} (leaf : ComparisonLeaf → Result)
  (node : LogicType → Result → Result → List Result → Result)

mutual

def fold : BoolTree → Result
  | .leaf comparison => leaf comparison
  | .node op first second rest => node op (fold first) (fold second) (foldList rest)

def foldList : List BoolTree → List Result
  | [] => []
  | tree :: rest => fold tree :: foldList rest

end

theorem foldList_eq (trees : List BoolTree) :
    foldList leaf node trees = trees.map (fold leaf node) := by
  induction trees with
  | nil => rfl
  | cons tree rest ih => rw [foldList, ih, List.map_cons]

theorem fold_node (op : LogicType) (first second : BoolTree) (rest : List BoolTree) :
    fold leaf node (.node op first second rest) =
      node op (fold leaf node first) (fold leaf node second) (rest.map (fold leaf node)) := by
  rw [fold, foldList_eq]

end Fold

def toParseNode : BoolTree → ParseNode :=
  fold (fun comparison =>
      .aExpr true comparison.name (some comparison.left) (some comparison.right))
    fun op first second rest =>
      .boolExpr (match op with | .and => .andExpr | .or => .orExpr) (first :: second :: rest)

def leaves : BoolTree → List ComparisonLeaf :=
  fold (fun comparison => [comparison]) fun _ first second rest => first ++ second ++ rest.flatten

section Values

variable (value : ComparisonLeaf → CmpBool)

def combine : LogicType → CmpBool → CmpBool → CmpBool
  | .and => min
  | .or => max

def sqlValue : BoolTree → CmpBool :=
  fold value fun op first second rest => rest.foldl (combine op) (combine op first second)

def leastValue : BoolTree → CmpBool :=
  fold value fun _ first second rest => rest.foldl min (min first second)

/-- Choosing one argument of every AND, all leaves that are left have values up to `bound`. -/
def Bounded (bound : CmpBool) : BoolTree → Prop :=
  fold (fun comparison => value comparison ≤ bound) fun op first second rest =>
    match op with
    | .and => ∃ argument ∈ first :: second :: rest, argument
    | .or => ∀ argument ∈ first :: second :: rest, argument

variable {value}

theorem foldl_min_le_iff (start bound : CmpBool) (values : List CmpBool) :
    values.foldl min start ≤ bound ↔ ∃ truth ∈ start :: values, truth ≤ bound := by
  induction values generalizing start with
  | nil => simp
  | cons first rest ih =>
    rw [List.foldl_cons, ih]
    simp only [List.mem_cons, exists_eq_or_imp, min_le_iff, or_assoc]

theorem foldl_max_le_iff (start bound : CmpBool) (values : List CmpBool) :
    values.foldl max start ≤ bound ↔ ∀ truth ∈ start :: values, truth ≤ bound := by
  induction values generalizing start with
  | nil => simp
  | cons first rest ih =>
    rw [List.foldl_cons, ih]
    simp [and_assoc]

theorem sqlValue_le_iff {bound : CmpBool} {tree : BoolTree} :
    tree.sqlValue value ≤ bound ↔ tree.Bounded value bound := by
  induction tree with
  | leaf comparison => exact Iff.rfl
  | node op first second rest hfirst hsecond hrest =>
    have harguments : ∀ tree ∈ first :: second :: rest,
        (tree.sqlValue value ≤ bound ↔ tree.Bounded value bound) := by
      simp only [List.mem_cons, forall_eq_or_imp]
      exact ⟨hfirst, hsecond, hrest⟩
    rw [sqlValue, Bounded, fold_node, fold_node]
    cases op with
    | and =>
      rw [show combine .and = min from rfl, ← List.foldl_cons, foldl_min_le_iff]
      change (∃ truth ∈ (first :: second :: rest).map (sqlValue value), truth ≤ bound) ↔
        ∃ argument ∈ (first :: second :: rest).map (Bounded value bound), argument
      simp only [List.mem_map, exists_exists_and_eq_and]
      exact exists_congr fun tree => and_congr_right (harguments tree)
    | or =>
      rw [show combine .or = max from rfl, ← List.foldl_cons, foldl_max_le_iff]
      change (∀ truth ∈ (first :: second :: rest).map (sqlValue value), truth ≤ bound) ↔
        ∀ argument ∈ (first :: second :: rest).map (Bounded value bound), argument
      simp only [List.mem_map, forall_exists_index, and_imp, forall_apply_eq_imp_iff₂]
      exact forall₂_congr harguments

theorem leastValue_le_of_bounded {bound : CmpBool} {tree : BoolTree}
    (h : tree.Bounded value bound) : tree.leastValue value ≤ bound := by
  induction tree with
  | leaf comparison => exact h
  | node op first second rest hfirst hsecond hrest =>
    have harguments : ∀ tree ∈ first :: second :: rest,
        tree.Bounded value bound → tree.leastValue value ≤ bound := by
      simp only [List.mem_cons, forall_eq_or_imp]
      exact ⟨hfirst, hsecond, hrest⟩
    rw [Bounded, fold_node] at h
    rw [leastValue, fold_node, ← List.foldl_cons, foldl_min_le_iff]
    change ∃ truth ∈ (first :: second :: rest).map (leastValue value), truth ≤ bound
    simp only [List.mem_map, exists_exists_and_eq_and]
    cases op with
    | and =>
      change ∃ argument ∈ (first :: second :: rest).map (Bounded value bound), argument at h
      simp only [List.mem_map, exists_exists_and_eq_and] at h
      obtain ⟨tree, hmem, hbounded⟩ := h
      exact ⟨tree, hmem, harguments tree hmem hbounded⟩
    | or =>
      have hbounded : first.Bounded value bound := h _ List.mem_cons_self
      exact ⟨first, List.mem_cons_self, hfirst hbounded⟩

theorem leastValue_le_sqlValue (tree : BoolTree) :
    tree.leastValue value ≤ tree.sqlValue value :=
  leastValue_le_of_bounded (sqlValue_le_iff.mp le_rfl)

end Values

end BoolTree

/-! ## The stages -/

section Stages

variable (resolveColumn : List String → Except SqlFault BoundExpression)
  (children : List OutputSchema) (compare : ValueComparison)
  (column : ℕ → ℕ → Except SqlFault Value)

/-- The node is bound, planned, and evaluated on the row with the given columns. -/
def execute (context : PlannerContext) (node : ParseNode) : Except SqlFault Value := do
  let bound ← Binder.bindExpression resolveColumn node
  let ((_, expression), _) ← Planner.planExpression children bound context
  expression.evaluateWith compare column

/-- The bound expression is planned as `expression`. -/
def PlansAs (bound : BoundExpression) (expression : Expression) : Prop :=
  ∀ context, ∃ name,
    Planner.planExpression children bound context = .ok ((name, expression), context)

/-- The node is an operand with the given value: it is bound, and planned without an aggregate
call. -/
def Computes (node : ParseNode) (result : Value) : Prop :=
  ∃ bound expression, Binder.bindExpression resolveColumn node = .ok bound ∧
    PlansAs children bound expression ∧ expression.evaluateWith compare column = .ok result

def ComparisonLeaf.Has (comparison : ComparisonLeaf) (truth : CmpBool) : Prop :=
  ∃ lhs rhs, Computes resolveColumn children compare column comparison.left lhs ∧
    Computes resolveColumn children compare column comparison.right rhs ∧
    compare comparison.type lhs rhs = .ok truth

/-- The bound expression is planned as a truth value, and evaluates to the given one. -/
def Yields (bound : BoundExpression) (truth : CmpBool) : Prop :=
  ∃ expression, PlansAs children bound expression ∧
    expression.getReturnType = .number .boolean ∧
    expression.evaluateWith compare column = .ok (Value.getBooleanValue truth)

variable {children compare column}

theorem PlansAs.binaryOp {opName : String} {larg rarg : BoundExpression}
    {left right expression : Expression} (hleft : PlansAs children larg left)
    (hright : PlansAs children rarg right)
    (hfactory : Planner.getBinaryExpressionFromFactory opName left right = .ok expression) :
    PlansAs children (.binaryOp opName larg rarg) expression := by
  intro context
  obtain ⟨leftName, hleft⟩ := hleft context
  obtain ⟨rightName, hright⟩ := hright context
  refine ⟨unnamedColumn, ?_⟩
  simp only [Planner.planExpression, hleft, hright, hfactory, bind, Except.bind, pure, Except.pure]

theorem Yields.and {larg rarg : BoundExpression} {first second : CmpBool}
    (hleft : Yields children compare column larg first)
    (hright : Yields children compare column rarg second) :
    Yields children compare column (.binaryOp "and" larg rarg) (min first second) := by
  obtain ⟨left, hplansLeft, htypeLeft, hvalueLeft⟩ := hleft
  obtain ⟨right, hplansRight, htypeRight, hvalueRight⟩ := hright
  have hfactory : Planner.getBinaryExpressionFromFactory "and" left right =
      .ok (.logic .and left right) := by
    simp [Planner.getBinaryExpressionFromFactory, Expression.logicExpression, htypeLeft, htypeRight]
  refine ⟨.logic .and left right, hplansLeft.binaryOp hplansRight hfactory, rfl, ?_⟩
  simp only [Expression.evaluateWith, hvalueLeft, hvalueRight, bind, Except.bind, computeLogic_and]
  rfl

theorem foldl_isStar {start : BoundExpression} (h : start.isStar = false)
    (exprs : List BoundExpression) :
    (exprs.foldl (fun expr arg => .binaryOp "and" expr arg) start).isStar = false := by
  induction exprs generalizing start with
  | nil => exact h
  | cons first rest ih => exact ih rfl

theorem Yields.foldl {start : BoundExpression} {truth : CmpBool}
    (hstart : Yields children compare column start truth) {exprs : List BoundExpression}
    {truths : List CmpBool} (hexprs : List.Forall₂ (Yields children compare column) exprs truths) :
    Yields children compare column
      (exprs.foldl (fun expr arg => .binaryOp "and" expr arg) start) (truths.foldl min truth) := by
  induction hexprs generalizing start truth with
  | nil => exact hstart
  | cons hfirst _ ih => exact ih (hstart.and hfirst)

variable {resolveColumn}

theorem ComparisonLeaf.Has.yields {comparison : ComparisonLeaf} {truth : CmpBool}
    (h : comparison.Has resolveColumn children compare column truth) :
    ∃ bound,
      Binder.bindExpression resolveColumn (BoolTree.leaf comparison).toParseNode = .ok bound ∧
      bound.isStar = false ∧ Yields children compare column bound truth := by
  obtain ⟨lhs, rhs, ⟨larg, left, hbindLeft, hplansLeft, hvalueLeft⟩,
    ⟨rarg, right, hbindRight, hplansRight, hvalueRight⟩, hcompare⟩ := h
  refine ⟨.binaryOp comparison.name larg rarg, ?_, rfl,
    .comparison comparison.type left right,
    hplansLeft.binaryOp hplansRight (comparison.isComparison left right), rfl, ?_⟩
  · rw [BoolTree.toParseNode, BoolTree.fold]
    simp only [Binder.bindExpression, Binder.bindOptional, hbindLeft, hbindRight, bind, Except.bind]
    rfl
  · simp only [Expression.evaluateWith, hvalueLeft, hvalueRight, hcompare, bind, Except.bind]
    rfl

theorem exists_forall₂ {First Second : Type*} {relation : First → Second → Prop}
    {firsts : List First} (h : ∀ first ∈ firsts, ∃ second, relation first second) :
    ∃ seconds, List.Forall₂ relation firsts seconds := by
  induction firsts with
  | nil => exact ⟨[], List.Forall₂.nil⟩
  | cons first rest ih =>
    obtain ⟨second, hsecond⟩ := h first List.mem_cons_self
    obtain ⟨seconds, hseconds⟩ := ih fun other hmem => h other (List.mem_cons_of_mem _ hmem)
    exact ⟨second :: seconds, List.Forall₂.cons hsecond hseconds⟩

variable {value : ComparisonLeaf → CmpBool}

/-- **The stages on a tree.**  A tree is bound, and yields the least value of its leaves. -/
theorem BoolTree.yields {tree : BoolTree}
    (h : ∀ comparison ∈ tree.leaves,
      comparison.Has resolveColumn children compare column (value comparison)) :
    ∃ bound, Binder.bindExpression resolveColumn tree.toParseNode = .ok bound ∧
      bound.isStar = false ∧ Yields children compare column bound (tree.leastValue value) := by
  induction tree with
  | leaf comparison => exact (h comparison List.mem_cons_self).yields
  | node op first second rest hfirst hsecond hrest =>
    rw [leaves, fold_node] at h
    obtain ⟨firstBound, hbindFirst, hstarFirst, hyieldsFirst⟩ := hfirst fun comparison hmem =>
      h comparison (List.mem_append_left _ (List.mem_append_left _ hmem))
    obtain ⟨secondBound, hbindSecond, hstarSecond, hyieldsSecond⟩ :=
      hsecond fun comparison hmem =>
        h comparison (List.mem_append_left _ (List.mem_append_right _ hmem))
    obtain ⟨bounds, hbounds⟩ := exists_forall₂ fun tree hmem =>
      hrest tree hmem fun comparison hcomparison => h comparison
        (List.mem_append_right _ (List.mem_flatten.mpr
          ⟨_, List.mem_map_of_mem hmem, hcomparison⟩))
    have hlist : Binder.bindExpressionList resolveColumn
        (first.toParseNode :: second.toParseNode :: rest.map toParseNode) =
          .ok (firstBound :: secondBound :: bounds) := by
      apply Binder.bindExpressionList_eq
      refine .cons ⟨hbindFirst, hstarFirst⟩ (.cons ⟨hbindSecond, hstarSecond⟩ ?_)
      rw [List.forall₂_map_left_iff]
      exact hbounds.imp fun _ _ hbound => ⟨hbound.1, hbound.2.1⟩
    have hyields : List.Forall₂ (Yields children compare column) bounds
        (rest.map (leastValue value)) := by
      rw [List.forall₂_map_right_iff]
      exact (hbounds.imp fun _ _ hbound => hbound.2.2).flip
    refine ⟨bounds.foldl (fun expr arg => .binaryOp "and" expr arg)
      (.binaryOp "and" firstBound secondBound), ?_, ?_, ?_⟩
    · rw [toParseNode, fold_node]
      change Binder.bindExpression resolveColumn (.boolExpr _
        (first.toParseNode :: second.toParseNode :: rest.map toParseNode)) = _
      rw [Binder.bindExpression, hlist]
      cases op <;> rfl
    · exact foldl_isStar rfl bounds
    · rw [leastValue, fold_node]
      exact (hyieldsFirst.and hyieldsSecond).foldl hyields

theorem execute_eq {tree : BoolTree}
    (h : ∀ comparison ∈ tree.leaves,
      comparison.Has resolveColumn children compare column (value comparison))
    (context : PlannerContext) :
    execute resolveColumn children compare column context tree.toParseNode =
      .ok (Value.getBooleanValue (tree.leastValue value)) := by
  obtain ⟨bound, hbind, -, expression, hplans, -, hvalue⟩ := tree.yields h
  obtain ⟨name, hplan⟩ := hplans context
  simp only [execute, hbind, hplan, hvalue, bind, Except.bind]

end Stages

/-! ## A query -/

def compareIntegers : ValueComparison := fun type lhs rhs =>
  match lhs, rhs with
  | .number .integer left _ _, .number .integer right _ _ =>
    if lhs.isNull || rhs.isNull then .ok .cmpNull
    else
      let holds : Bool :=
        match type with
        | .equal => left = right
        | .notEqual => left ≠ right
        | .lessThan => left < right
        | .lessThanOrEqual => left ≤ right
        | .greaterThan => right < left
        | .greaterThanOrEqual => right ≤ left
      .ok (if holds then .cmpTrue else .cmpFalse)
  | _, _ => .error (.exception "type error")

/-- `left < right`. -/
def lessThanLeaf (left right : ParseConstant) : ComparisonLeaf where
  name := "<"
  type := .lessThan
  isComparison _ _ := rfl
  left := .aConst left
  right := .aConst right

/-- A query without tables: the value of its one expression. -/
def select (node : ParseNode) : Except SqlFault Value :=
  execute (fun _ => .error .undefinedBehaviour) [] compareIntegers
    (fun _ _ => .error .undefinedBehaviour) ⟨[], 0⟩ node

def selectLeaf (comparison : ComparisonLeaf) : CmpBool :=
  match select (BoolTree.leaf comparison).toParseNode with
  | .ok result => Expression.getBoolAsCmpBool result
  | .error _ => .cmpNull

/-- `null < 2` and `2 < 3`, under one operator. -/
def nullAndTrue (op : LogicType) : BoolTree :=
  .node op (.leaf (lessThanLeaf .null (.integer 2)))
    (.leaf (lessThanLeaf (.integer 2) (.integer 3))) []

end BusTub
