import BusTub.Optimizer.MergeFilterNLJ
import BusTub.Library.ObjectHeap

/-!
# Rewriting expressions for joins, on objects

Expressions are objects that point to their children, and are shared: the filter that a predicate
comes from keeps pointing to it.  `RewriteExpressionForJoin` makes new objects, first for the
children and then for the expression itself.  Here it runs on a heap of such objects, so that one
can ask what happens to the ones that were there.

On the trees that the objects stand for it is `rewriteExpressionForJoin`.
-/

namespace BusTub

open ObjectHeap

inductive ExpressionNode
  | columnValue (tupleIdx colIdx : ℕ) (returnType : TypeId)
  | constantValue (value : Value)
  | comparison (type : ComparisonType)
  | arithmetic (type : ArithmeticType)
  | logic (type : LogicType)
deriving DecidableEq

/-- An expression as an object; `children_` are the addresses of its children. -/
structure ExpressionObject where
  node : ExpressionNode
  children : List ℕ
deriving DecidableEq

abbrev ExpressionHeap := Heap ExpressionObject

/-- The object at the address, with everything below it, is the expression. -/
def Expression.HeldAt (heap : ExpressionHeap) : Expression → ℕ → Prop
  | .columnValue tupleIdx colIdx returnType, address =>
    heap.get? address = some ⟨.columnValue tupleIdx colIdx returnType, []⟩
  | .constantValue value, address => heap.get? address = some ⟨.constantValue value, []⟩
  | .comparison type left right, address =>
    ∃ first second, heap.get? address = some ⟨.comparison type, [first, second]⟩ ∧
      left.HeldAt heap first ∧ right.HeldAt heap second
  | .arithmetic type left right, address =>
    ∃ first second, heap.get? address = some ⟨.arithmetic type, [first, second]⟩ ∧
      left.HeldAt heap first ∧ right.HeldAt heap second
  | .logic type left right, address =>
    ∃ first second, heap.get? address = some ⟨.logic type, [first, second]⟩ ∧
      left.HeldAt heap first ∧ right.HeldAt heap second

/-- How deep the calls of a function on the expression nest. -/
def Expression.height : Expression → ℕ
  | .columnValue _ _ _ | .constantValue _ => 1
  | .comparison _ left right | .arithmetic _ left right | .logic _ left right =>
    max left.height right.height + 1

def Expression.columns : Expression → List (ℕ × ℕ)
  | .columnValue tupleIdx colIdx _ => [(tupleIdx, colIdx)]
  | .constantValue _ => []
  | .comparison _ left right | .arithmetic _ left right | .logic _ left right =>
    left.columns ++ right.columns

theorem Expression.HeldAt.extends {first second : ExpressionHeap} {expression : Expression}
    {address : ℕ} (h : expression.HeldAt first address) (hextends : first.Extends second) :
    expression.HeldAt second address := by
  induction expression generalizing address with
  | columnValue tupleIdx colIdx returnType => exact hextends _ _ h
  | constantValue value => exact hextends _ _ h
  | comparison type left right ihleft ihright | arithmetic type left right ihleft ihright
  | logic type left right ihleft ihright =>
    obtain ⟨leftAt, rightAt, hobject, hleft, hright⟩ := h
    exact ⟨leftAt, rightAt, hextends _ _ hobject, ihleft hleft, ihright hright⟩

namespace Optimizer

/-! ## The code -/

/-- `make_shared`. -/
def makeShared (heap : ExpressionHeap) (object : ExpressionObject) :
    Except SqlFault ℕ × ExpressionHeap :=
  (.ok (heap.alloc object).1, (heap.alloc object).2)

def rewriteChildren (rewrite : ℕ → ExpressionHeap → Except SqlFault ℕ × ExpressionHeap) :
    List ℕ → ExpressionHeap → Except SqlFault (List ℕ) × ExpressionHeap
  | [], heap => (.ok [], heap)
  | child :: rest, heap =>
    match rewrite child heap with
    | (.error fault, heap) => (.error fault, heap)
    | (.ok rewritten, heap) =>
      match rewriteChildren rewrite rest heap with
      | (.error fault, heap) => (.error fault, heap)
      | (.ok children, heap) => (.ok (rewritten :: children), heap)

/-- What is made for an expression whose children are rewritten: a column with its new place,
or a copy of the object with the new children (`CloneWithChildren`). -/
def rewriteNode (leftColumnCnt rightColumnCnt : ℕ) (node : ExpressionNode) (children : List ℕ)
    (heap : ExpressionHeap) : Except SqlFault ℕ × ExpressionHeap :=
  match node with
  | .columnValue tupleIdx colIdx returnType =>
    if tupleIdx ≠ 0 then
      (.error (.exception "tuple_idx cannot be value other than 0 before this stage."), heap)
    else if colIdx < leftColumnCnt then
      makeShared heap ⟨.columnValue 0 colIdx returnType, []⟩
    else if colIdx < leftColumnCnt + rightColumnCnt then
      makeShared heap ⟨.columnValue 1 (colIdx - leftColumnCnt) returnType, []⟩
    else (.error (.exception "col_idx not in range"), heap)
  | node => makeShared heap ⟨node, children⟩

/-- `RewriteExpressionForJoin` on objects; `fuel` bounds how deep its calls nest. -/
def rewriteExpressionRef (leftColumnCnt rightColumnCnt : ℕ) :
    ℕ → ℕ → ExpressionHeap → Except SqlFault ℕ × ExpressionHeap
  | 0, _, heap => (.error .undefinedBehaviour, heap)
  | fuel + 1, expr, heap =>
    match heap.get? expr with
    | none => (.error .undefinedBehaviour, heap)
    | some object =>
      match rewriteChildren (rewriteExpressionRef leftColumnCnt rightColumnCnt fuel)
          object.children heap with
      | (.error fault, heap) => (.error fault, heap)
      | (.ok children, heap) =>
        rewriteNode leftColumnCnt rightColumnCnt object.node children heap

/-! ## Objects and trees -/

/-- A run on a heap does to objects what is done to trees: it only adds objects, and ends with
the address of the resulting tree or with the same fault. -/
inductive Runs (heap : ExpressionHeap) :
    Except SqlFault Expression → Except SqlFault ℕ × ExpressionHeap → Prop
  | ok {after : ExpressionHeap} {rewritten : Expression} {address : ℕ}
      (hextends : heap.Extends after) (hheld : rewritten.HeldAt after address) :
      Runs heap (.ok rewritten) (.ok address, after)
  | error {after : ExpressionHeap} {fault : SqlFault} (hextends : heap.Extends after) :
      Runs heap (.error fault) (.error fault, after)

theorem Runs.extends {heap : ExpressionHeap} {onTree : Except SqlFault Expression}
    {onHeap : Except SqlFault ℕ × ExpressionHeap} (h : Runs heap onTree onHeap) :
    heap.Extends onHeap.2 := by
  cases h with
  | ok hextends hheld => exact hextends
  | error hextends => exact hextends

variable {expression : Expression}

theorem runs_makeShared {heap before : ExpressionHeap}
    {object : ExpressionObject} (hextends : heap.Extends before)
    (hheld : ∀ after : ExpressionHeap, before.Extends after → ∀ address,
      after.get? address = some object → expression.HeldAt after address) :
    Runs heap (.ok expression) (makeShared before object) := by
  have halloc := Heap.extends_alloc before object
  exact .ok (hextends.trans halloc) (hheld _ halloc _ (Heap.get?_alloc_self before object))

section Binary

variable {leftCount rightCount fuel address first second : ℕ} {heap : ExpressionHeap}
  {node : ExpressionNode} {left right : Except SqlFault Expression}

/-- An expression with two children: what the runs on the children do is put together.  The
second child is rewritten on the heap that the first one left. -/
theorem runs_binary (make : Expression → Expression → Expression)
    (hobject : heap.get? address = some ⟨node, [first, second]⟩)
    (hnode : ∀ children heap,
      rewriteNode leftCount rightCount node children heap = makeShared heap ⟨node, children⟩)
    (hmake : ∀ (after : ExpressionHeap) address firstAt secondAt leftTree rightTree,
      after.get? address = some ⟨node, [firstAt, secondAt]⟩ → leftTree.HeldAt after firstAt →
        rightTree.HeldAt after secondAt → (make leftTree rightTree).HeldAt after address)
    (hfirst : Runs heap left (rewriteExpressionRef leftCount rightCount fuel first heap))
    (hsecond : ∀ before : ExpressionHeap, heap.Extends before →
      Runs before right (rewriteExpressionRef leftCount rightCount fuel second before)) :
    Runs heap (do let left ← left; let right ← right; return make left right)
      (rewriteExpressionRef leftCount rightCount (fuel + 1) address heap) := by
  rw [rewriteExpressionRef, hobject]
  dsimp only [rewriteChildren]
  -- an exception on the first child is passed on before the second one is looked at
  generalize hrun : rewriteExpressionRef leftCount rightCount fuel first heap = firstRun at hfirst
  cases hfirst with
  | error hextends => exact .error hextends
  | @ok before leftTree firstAt hextends hleft =>
    have hrunSecond := hsecond before hextends
    dsimp only
    generalize rewriteExpressionRef leftCount rightCount fuel second before = secondRun
      at hrunSecond
    cases hrunSecond with
    | error hextends' => exact .error (hextends.trans hextends')
    | @ok between rightTree secondAt hextends' hright =>
      dsimp only
      rw [hnode]
      refine runs_makeShared (hextends.trans hextends') fun after hafter address hnew => ?_
      exact hmake after address firstAt secondAt leftTree rightTree hnew
        (hleft.extends (hextends'.trans hafter)) (hright.extends hafter)

end Binary

/-- **Rewriting objects** is rewriting the trees that they stand for. -/
theorem rewriteExpressionRef_spec (leftCount rightCount : ℕ) {fuel address : ℕ}
    {heap : ExpressionHeap} (hheld : expression.HeldAt heap address)
    (hfuel : expression.height ≤ fuel) :
    Runs heap (rewriteExpressionForJoin leftCount rightCount expression)
      (rewriteExpressionRef leftCount rightCount fuel address heap) := by
  induction expression generalizing fuel address heap with
  | columnValue tupleIdx colIdx returnType =>
    obtain ⟨fuel, rfl⟩ : ∃ rest, fuel = rest + 1 := Nat.exists_eq_add_of_le' hfuel
    have hobject : heap.get? address = _ := hheld
    rw [rewriteExpressionRef, hobject]
    dsimp only [rewriteChildren, rewriteNode]
    rw [rewriteExpressionForJoin]
    split_ifs with hzero hleft hright
    · exact .error (.refl heap)
    · exact runs_makeShared (.refl heap) fun after hafter address hnew => hnew
    · exact runs_makeShared (.refl heap) fun after hafter address hnew => hnew
    · exact .error (.refl heap)
  | constantValue value =>
    obtain ⟨fuel, rfl⟩ : ∃ rest, fuel = rest + 1 := Nat.exists_eq_add_of_le' hfuel
    have hobject : heap.get? address = _ := hheld
    rw [rewriteExpressionRef, hobject]
    exact runs_makeShared (.refl heap) fun after hafter address hnew => hnew
  | comparison type left right ihleft ihright | arithmetic type left right ihleft ihright
  | logic type left right ihleft ihright =>
    rw [Expression.height] at hfuel
    obtain ⟨fuel, rfl⟩ := Nat.exists_eq_add_of_le' (Nat.le_of_add_left_le hfuel)
    obtain ⟨first, second, hobject, hleft, hright⟩ := hheld
    refine runs_binary _ hobject (fun children heap => rfl) ?_ (ihleft hleft (by omega))
      fun before hbefore => ihright (hright.extends hbefore) (by omega)
    intro after address firstAt secondAt leftTree rightTree hnew hleftTree hrightTree
    exact ⟨firstAt, secondAt, hnew, hleftTree, hrightTree⟩

/-! ## When rewriting fails -/

theorem columnsBelow_iff {count : ℕ} :
    ColumnsBelow count expression ↔
      ∀ column ∈ expression.columns, column.1 = 0 ∧ column.2 < count := by
  induction expression with
  | columnValue tupleIdx colIdx returnType => simp [ColumnsBelow, Expression.columns]
  | constantValue value => simp [ColumnsBelow, Expression.columns]
  | comparison type left right ihleft ihright | arithmetic type left right ihleft ihright
  | logic type left right ihleft ihright =>
    rw [ColumnsBelow, ihleft, ihright, Expression.columns, List.forall_mem_append]

/-- The tuple index of columns is zero, as everywhere before the join is made. -/
def OneTuple (expression : Expression) : Prop := ∀ column ∈ expression.columns, column.1 = 0

theorem rewriteExpressionForJoin_error {leftCount rightCount : ℕ}
    {fault : SqlFault} (hone : OneTuple expression)
    (h : rewriteExpressionForJoin leftCount rightCount expression = .error fault) :
    fault = .exception "col_idx not in range" ∧
      ∃ column ∈ expression.columns, leftCount + rightCount ≤ column.2 := by
  induction expression with
  | columnValue tupleIdx colIdx returnType =>
    obtain rfl : tupleIdx = 0 := hone (tupleIdx, colIdx) List.mem_cons_self
    rw [rewriteExpressionForJoin, if_neg (by simp)] at h
    split_ifs at h with hleft hright
    cases h
    exact ⟨rfl, (0, colIdx), List.mem_cons_self, Nat.le_of_not_lt hright⟩
  | constantValue value => cases h
  | comparison type left right ihleft ihright | arithmetic type left right ihleft ihright
  | logic type left right ihleft ihright =>
    obtain ⟨hleft, hright⟩ := List.forall_mem_append.mp hone
    rw [rewriteExpressionForJoin] at h
    simp only [Expression.columns, List.mem_append]
    cases hfirst : rewriteExpressionForJoin leftCount rightCount left with
    | error fault' =>
      rw [hfirst] at h
      cases h
      -- the fault is that of the first child that has one
      obtain ⟨hfault, column, hcolumn, hrange⟩ := ihleft hleft hfirst
      exact ⟨hfault, column, .inl hcolumn, hrange⟩
    | ok rewritten =>
      cases hsecond : rewriteExpressionForJoin leftCount rightCount right with
      | error fault' =>
        rw [hfirst, hsecond] at h
        cases h
        obtain ⟨hfault, column, hcolumn, hrange⟩ := ihright hright hsecond
        exact ⟨hfault, column, .inr hcolumn, hrange⟩
      | ok rewritten' =>
        rw [hfirst, hsecond] at h
        cases h

theorem columnsBelow_of_ok {leftCount rightCount : ℕ} {rewritten : Expression}
    (h : rewriteExpressionForJoin leftCount rightCount expression = .ok rewritten) :
    ColumnsBelow (leftCount + rightCount) expression := by
  induction expression generalizing rewritten with
  | columnValue tupleIdx colIdx returnType =>
    rw [rewriteExpressionForJoin] at h
    split_ifs at h with hzero hleft hright
    · exact ⟨not_not.mp hzero, Nat.lt_add_right _ hleft⟩
    · exact ⟨not_not.mp hzero, hright⟩
  | constantValue value => trivial
  | comparison type left right ihleft ihright | arithmetic type left right ihleft ihright
  | logic type left right ihleft ihright =>
    simp only [rewriteExpressionForJoin, Except.bind_eq_ok_iff] at h
    obtain ⟨left', hleft, right', hright, -⟩ := h
    exact ⟨ihleft hleft, ihright hright⟩

/-! ## What rewriting does -/

/-- `EvaluateJoin` of the one expression on two tuples is `Evaluate` of the other one on a tuple
of the join schema, with the values of both. -/
def SameOnJoin (leftSchema rightSchema : OutputSchema) (expression rewritten : Expression) :
    Prop :=
  ∀ (left right : Row) (leftTuple rightTuple joinedTuple : Tuple),
    HoldsRow leftSchema leftTuple left → HoldsRow rightSchema rightTuple right →
    HoldsRow (leftSchema ++ rightSchema) joinedTuple (left ++ right) →
    rewritten.evaluateJoin Value.compare leftTuple (layout leftSchema) rightTuple
        (layout rightSchema) =
      expression.evaluate Value.compare joinedTuple (layout (leftSchema ++ rightSchema))

theorem RewrittenAs.sameOnJoin {leftSchema rightSchema : OutputSchema}
    {rewritten : Expression}
    (h : RewrittenAs leftSchema.length expression rewritten) :
    SameOnJoin leftSchema rightSchema expression rewritten := by
  intro left right leftTuple rightTuple joinedTuple hleft hright hjoined
  have hlength : left.length = leftSchema.length := by
    simpa [columnTypes] using congrArg List.length hleft.types_eq
  calc rewritten.evaluateJoin Value.compare leftTuple (layout leftSchema) rightTuple
        (layout rightSchema)
      = evaluateJoinRows left right rewritten := evaluateJoin_eq hleft hright rewritten
    _ = evaluateRow (left ++ right) expression := h left right hlength
    _ = expression.evaluate Value.compare joinedTuple (layout (leftSchema ++ rightSchema)) :=
        (hjoined.evaluate expression).symm

/-- **Rewriting for a join** leaves all objects as they are, the original expression among them.
It throws if and only if a column is not one of the two tuples, and otherwise returns an
expression with the same values. -/
theorem rewriteExpressionRef_keeps_meaning (leftSchema rightSchema : OutputSchema)
    {fuel address : ℕ} {heap : ExpressionHeap} {expression : Expression}
    (hheld : expression.HeldAt heap address) (hfuel : expression.height ≤ fuel)
    (hone : OneTuple expression) :
    ∃ outcome after,
      rewriteExpressionRef leftSchema.length rightSchema.length fuel address heap =
        (outcome, after) ∧
      (heap.Extends after ∧ expression.HeldAt after address) ∧
      ((∃ column ∈ expression.columns, leftSchema.length + rightSchema.length ≤ column.2) ↔
        outcome = .error (.exception "col_idx not in range")) ∧
      (¬ (∃ column ∈ expression.columns, leftSchema.length + rightSchema.length ≤ column.2) ↔
        ∃ result rewritten, outcome = .ok result ∧ rewritten.HeldAt after result ∧
          SameOnJoin leftSchema rightSchema expression rewritten) := by
  have hruns := rewriteExpressionRef_spec leftSchema.length rightSchema.length hheld hfuel
  refine ⟨_, _, rfl, ⟨hruns.extends, hheld.extends hruns.extends⟩, ?_⟩
  generalize rewriteExpressionRef leftSchema.length rightSchema.length fuel address heap =
    onHeap at hruns
  generalize htree : rewriteExpressionForJoin leftSchema.length rightSchema.length expression =
    onTree at hruns
  cases hruns with
  | error hextends =>
    obtain ⟨rfl, hcolumn⟩ := rewriteExpressionForJoin_error hone htree
    exact ⟨by simp [hcolumn], by simp [hcolumn]⟩
  | @ok after rewritten result hextends hresult =>
    -- a rewritten tree has all columns in range, so the equation of the values applies
    have hbelow := columnsBelow_of_ok htree
    have hnone : ¬ ∃ column ∈ expression.columns,
        leftSchema.length + rightSchema.length ≤ column.2 := by
      rintro ⟨column, hcolumn, hrange⟩
      exact absurd (columnsBelow_iff.mp hbelow column hcolumn).2 (Nat.not_lt.mpr hrange)
    obtain ⟨rewritten', hok, hsame⟩ := rewriteExpressionForJoin_spec hbelow
    obtain rfl := Except.ok.inj (htree.symm.trans hok)
    exact ⟨by simp [hnone], fun _ => ⟨result, rewritten, rfl, hresult, hsame.sameOnJoin⟩,
      fun _ => hnone⟩

def columnsEqual : Expression :=
  .comparison .equal (.columnValue 0 0 (.number .integer)) (.columnValue 0 1 (.number .integer))

/-- The objects of `columnsEqual`. -/
def columnsEqualHeap : ExpressionHeap :=
  (((Heap.empty.alloc ⟨.columnValue 0 0 (.number .integer), []⟩).2.alloc
    ⟨.columnValue 0 1 (.number .integer), []⟩).2.alloc ⟨.comparison .equal, [0, 1]⟩).2

theorem rewriteExpressionRef_keeps_columnsEqual :
    ∃ outcome after, rewriteExpressionRef 1 1 2 2 columnsEqualHeap = (outcome, after) ∧
      columnsEqualHeap.Extends after ∧
      ∃ result rewritten, outcome = .ok result ∧ rewritten.HeldAt after result ∧
        SameOnJoin [("a", .number .integer)] [("b", .number .integer)] columnsEqual
          rewritten := by
  have hheld : columnsEqual.HeldAt columnsEqualHeap 2 := ⟨0, 1, rfl, rfl, rfl⟩
  obtain ⟨outcome, after, hrun, ⟨hextends, -⟩, -, hok⟩ :=
    rewriteExpressionRef_keeps_meaning [("a", .number .integer)] [("b", .number .integer)] hheld
      (show _ ≤ 2 by decide) (by simp [OneTuple, columnsEqual, Expression.columns])
  exact ⟨outcome, after, hrun, hextends, hok.mp (by simp [columnsEqual, Expression.columns])⟩

end Optimizer

end BusTub
