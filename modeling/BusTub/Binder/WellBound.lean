import BusTub.Binder.BindSelect

/-!
# What the binder returns

Bound statements are in order: a reference to a CTE has the name of one that is in scope where the
reference is written, every column has a qualifier in front of its name, and the columns of
subqueries have names.
-/

namespace BusTub

open UniqueMatch

/-! ## Columns with a qualifier -/

namespace BoundExpression

/-- The columns have a qualifier; the arguments of aggregate calls are not asked. -/
def Qualified : BoundExpression → Prop
  | columnRef colName => 2 ≤ colName.length
  | binaryOp _ larg rarg => larg.Qualified ∧ rarg.Qualified
  | unaryOp _ arg => arg.Qualified
  | aliased _ child => child.Qualified
  | star | constant _ | aggCall _ _ _ => True

end BoundExpression

structure SelectClauses.Qualified (clauses : SelectClauses) : Prop where
  selectList : ∀ item ∈ clauses.selectList, item.Qualified
  whereClause : ∀ predicate ∈ clauses.whereClause, predicate.Qualified
  groupBy : ∀ item ∈ clauses.groupBy, item.Qualified
  having : ∀ predicate ∈ clauses.having, predicate.Qualified
  sort : ∀ item ∈ clauses.sort, item.2.Qualified

def BoundTableRef.QualifiedJoins : BoundTableRef → Prop
  | .join _ left right condition =>
    condition.Qualified ∧ left.QualifiedJoins ∧ right.QualifiedJoins
  | .crossProduct left right => left.QualifiedJoins ∧ right.QualifiedJoins
  | _ => True

def SelectStatement.Qualified (statement : SelectStatement) : Prop :=
  statement.table.QualifiedJoins ∧ statement.clauses.Qualified

/-! ## Bound statements are in order -/

mutual

/-- References to CTEs are to those in scope, and columns have a qualifier. -/
def BoundTableRef.WellBound : List String → BoundTableRef → Prop
  | names, .join _ left right condition =>
    condition.Qualified ∧ left.WellBound names ∧ right.WellBound names
  | names, .crossProduct left right => left.WellBound names ∧ right.WellBound names
  | names, .subquery query => query.WellBound names
  | names, .cte cteName _ => cteName ∈ names
  | _, .empty | _, .baseTable _ _ _ _ | _, .expressionList _ _ => True

def BoundSubquery.WellBound : List String → BoundSubquery → Prop
  | names, .mk subquery selectListName _ =>
    subquery.WellBound names ∧ ∀ name ∈ selectListName, name ≠ []

/-- The same for a statement.  The CTEs are bound in the scope of the statement, and are the
scope of its FROM clause. -/
def SelectStatement.WellBound : List String → SelectStatement → Prop
  | names, .mk table clauses ctes =>
    clauses.Qualified ∧ WellBoundAll names ctes ∧
      table.WellBound (if ctes.isEmpty then names else ctes.map BoundSubquery.aliasName)

def WellBoundAll : List String → List BoundSubquery → Prop
  | _, [] => True
  | names, cte :: rest => cte.WellBound names ∧ WellBoundAll names rest

end

mutual

/-- The columns of a FROM clause in order have a qualifier, here and in the statements in it. -/
theorem BoundTableRef.WellBound.qualified : ∀ {names : List String} (tableRef : BoundTableRef),
    tableRef.WellBound names →
      tableRef.QualifiedJoins ∧ ∀ inner ∈ tableRef.statements, inner.Qualified
  | names, .join _ left right condition, h => by
    obtain ⟨hleft, hinLeft⟩ := BoundTableRef.WellBound.qualified left h.2.1
    obtain ⟨hright, hinRight⟩ := BoundTableRef.WellBound.qualified right h.2.2
    exact ⟨⟨h.1, hleft, hright⟩, List.forall_mem_append.mpr ⟨hinLeft, hinRight⟩⟩
  | names, .crossProduct left right, h => by
    obtain ⟨hleft, hinLeft⟩ := BoundTableRef.WellBound.qualified left h.1
    obtain ⟨hright, hinRight⟩ := BoundTableRef.WellBound.qualified right h.2
    exact ⟨⟨hleft, hright⟩, List.forall_mem_append.mpr ⟨hinLeft, hinRight⟩⟩
  | names, .subquery (.mk subquery _ _), h =>
    ⟨trivial, SelectStatement.WellBound.qualified subquery h.1⟩
  | names, .cte _ _, h | names, .empty, h | names, .baseTable _ _ _ _, h
  | names, .expressionList _ _, h => ⟨trivial, List.forall_mem_nil _⟩

theorem SelectStatement.WellBound.qualified : ∀ {names : List String} (statement : SelectStatement),
    statement.WellBound names → ∀ inner ∈ statement.statements, inner.Qualified
  | names, .mk table clauses ctes, h => by
    obtain ⟨hjoins, hinTable⟩ := BoundTableRef.WellBound.qualified table h.2.2
    rw [SelectStatement.statements]
    exact List.forall_mem_cons.mpr ⟨⟨hjoins, h.1⟩,
      List.forall_mem_append.mpr ⟨hinTable, wellBoundAll_qualified ctes h.2.1⟩⟩

theorem wellBoundAll_qualified : ∀ {names : List String} (ctes : List BoundSubquery),
    WellBoundAll names ctes → ∀ inner ∈ statementsOf ctes, inner.Qualified
  | _, [], _ => List.forall_mem_nil _
  | _, .mk subquery _ _ :: rest, h =>
    List.forall_mem_append.mpr
      ⟨SelectStatement.WellBound.qualified subquery h.1.1, wellBoundAll_qualified rest h.2⟩

end

theorem wellBoundAll_iff {names : List String} {ctes : List BoundSubquery} :
    WellBoundAll names ctes ↔ ∀ cte ∈ ctes, cte.WellBound names := by
  induction ctes with
  | nil => simp [WellBoundAll]
  | cons cte rest ih => simp [WellBoundAll, ih]

namespace Binder

def Named (ctes : List BoundSubquery) : Prop :=
  ∀ cte ∈ ctes, ∀ name ∈ cte.selectListName, name ≠ []

variable {catalog : TableCatalog} {ctes : List BoundSubquery} {scope : BoundTableRef}
  {names : List String}

theorem WellBoundAll.named (h : WellBoundAll names ctes) : Named ctes := by
  intro cte hcte name hname
  have hbound := wellBoundAll_iff.mp h cte hcte
  cases cte
  exact hbound.2 name hname

/-! ### Columns -/

theorem resolveStripped_qualified {resolve : List String → Except SqlFault (Option (List String))}
    {qualifier front : String} {ambiguous : SqlFault} {written name : List String}
    (h : resolveStripped resolve qualifier front ambiguous written = .ok (some name))
    (hresolve : ∀ words name, resolve words = .ok (some name) → name ≠ []) :
    2 ≤ name.length := by
  simp only [resolveStripped, Except.bind_eq_ok_iff] at h
  obtain ⟨direct, hdirect, strip, hstrip, h⟩ := h
  -- what is found is returned with a word in front
  have hcons : ∀ found, found ≠ [] → 2 ≤ (front :: found).length := fun found hfound =>
    Nat.succ_le_succ (List.length_pos_iff.mpr hfound)
  cases strip with
  | none =>
    obtain ⟨found, rfl, rfl⟩ := Option.map_eq_some_iff.mp (Except.ok.inj h)
    exact hcons found (hresolve _ _ hdirect)
  | some found =>
    cases direct with
    | some other => cases h
    | none =>
      obtain rfl := Option.some.inj (Except.ok.inj h)
      unfold resolveQualified at hstrip
      split at hstrip
      · split_ifs at hstrip
        · exact hcons found (hresolve _ _ hstrip)
        · cases hstrip
      · cases hstrip

theorem resolveColumnRefFromSchema_ne_nil {schema : OutputSchema} {words name : List String}
    (h : resolveColumnRefFromSchema schema words = .ok (some name)) : name ≠ [] := by
  unfold resolveColumnRefFromSchema at h
  split at h
  · rw [Except.bind_eq_ok_iff] at h
    obtain ⟨column, -, h⟩ := h
    obtain ⟨found, -, rfl⟩ := Option.map_eq_some_iff.mp (Except.ok.inj h)
    exact List.cons_ne_nil _ _
  · cases h

theorem resolveColumnRefFromSelectList_mem {list : List (List String)} {words name : List String}
    (h : resolveColumnRefFromSelectList list words = .ok (some name)) : name ∈ list := by
  obtain ⟨front, back, rfl, -⟩ := uniqueMatch_spec h
  exact List.mem_append_right front List.mem_cons_self

theorem resolveSides_mem {written name : List String} {left right : Option (List String)}
    (h : resolveSides written left right = .ok (some name)) :
    left = some name ∨ right = some name := by
  unfold resolveSides at h
  split at h
  · cases h
  · exact .inl (Except.ok.inj h)
  · exact .inr (Except.ok.inj h)

theorem resolveColumnInternal_qualified (hctes : Named ctes) (hscope : scope.WellBound names)
    {written name : List String} (h : resolveColumnInternal ctes written scope = .ok (some name)) :
    2 ≤ name.length := by
  fun_induction columnsOf ctes scope generalizing name with
  | case1 table oid aliasName schema =>
    exact resolveStripped_qualified h fun _ _ => resolveColumnRefFromSchema_ne_nil
  | case2 left right ihleft ihright =>
    simp only [resolveColumnInternal, Except.bind_eq_ok_iff] at h
    obtain ⟨leftName, hleft, rightName, hright, h⟩ := h
    rcases resolveSides_mem h with rfl | rfl
    · exact ihleft hscope.1 hleft
    · exact ihright hscope.2 hright
  | case3 joinType left right condition ihleft ihright =>
    simp only [resolveColumnInternal, Except.bind_eq_ok_iff] at h
    obtain ⟨leftName, hleft, rightName, hright, h⟩ := h
    rcases resolveSides_mem h with rfl | rfl
    · exact ihleft hscope.2.1 hleft
    · exact ihright hscope.2.2 hright
  | case4 query =>
    obtain ⟨subquery, selectListName, aliasName⟩ := query
    exact resolveStripped_qualified h fun _ _ hfound =>
      hscope.2 _ (resolveColumnRefFromSelectList_mem hfound)
  | case5 cteName aliasName hfind => simp only [resolveColumnInternal, hfind, reduceCtorEq] at h
  | case6 cteName aliasName cte hfind =>
    simp only [resolveColumnInternal, hfind] at h
    have hnames := hctes cte (List.mem_of_find?_eq_some hfind)
    exact resolveStripped_qualified h fun _ _ hfound =>
      hnames _ (resolveColumnRefFromSelectList_mem hfound)
  | case7 => cases h
  | case8 values identifier => cases h

variable {expr : BoundExpression}

theorem resolveColumn_qualified (hctes : Named ctes) (hscope : scope.WellBound names)
    {written : List String}
    (h : resolveColumn ctes scope written = .ok expr) : expr.Qualified := by
  rw [resolveColumn, Except.bind_eq_ok_iff] at h
  obtain ⟨found, hfound, h⟩ := h
  cases found with
  | none => cases h
  | some name =>
    cases h
    exact resolveColumnInternal_qualified hctes hscope hfound

theorem ownName_ne_nil (hctes : Named ctes) (hscope : scope.WellBound names) :
    ∀ column ∈ columnsOf ctes scope, column.ownName ≠ [] := by
  fun_induction columnsOf ctes scope with
  | case1 table oid aliasName schema =>
    exact List.forall_mem_map.mpr fun column _ => List.cons_ne_nil _ _
  | case2 left right ihleft ihright =>
    exact List.forall_mem_append.mpr ⟨ihleft hscope.1, ihright hscope.2⟩
  | case3 joinType left right condition ihleft ihright =>
    exact List.forall_mem_append.mpr ⟨ihleft hscope.2.1, ihright hscope.2.2⟩
  | case4 query =>
    obtain ⟨subquery, selectListName, aliasName⟩ := query
    exact List.forall_mem_map.mpr hscope.2
  | case5 cteName aliasName hfind => exact List.forall_mem_nil _
  | case6 cteName aliasName cte hfind =>
    exact List.forall_mem_map.mpr (hctes cte (List.mem_of_find?_eq_some hfind))
  | case7 => exact List.forall_mem_nil _
  | case8 values identifier => exact List.forall_mem_nil _

theorem getAllColumns_qualified (hctes : Named ctes) (hscope : scope.WellBound names)
    {columns : List (List String)} (h : getAllColumns ctes scope = .ok columns) :
    ∀ name ∈ columns, 2 ≤ name.length := by
  rw [getAllColumns_spec h, List.forall_mem_map]
  intro column hcolumn
  exact Nat.succ_le_succ (List.length_pos_iff.mpr (ownName_ne_nil hctes hscope column hcolumn))

/-! ### Expressions -/

theorem bindConstant_qualified {value : ParseConstant}
    (h : bindConstant value = .ok expr) : expr.Qualified := by
  unfold bindConstant at h
  split at h
  · split_ifs at h
    exact Except.ok.inj h ▸ trivial
  · exact Except.ok.inj h ▸ trivial
  · exact Except.ok.inj h ▸ trivial
  · cases h

theorem bindFuncCall_qualified {name : String} {aggDistinct : Bool}
    {children : List BoundExpression}
    (h : bindFuncCall name aggDistinct children = .ok expr) : expr.Qualified := by
  unfold bindFuncCall at h
  dsimp only at h
  split_ifs at h <;> exact Except.ok.inj h ▸ trivial

theorem foldl_qualified {rest : List BoundExpression} (hrest : ∀ arg ∈ rest, arg.Qualified)
    (hexpr : expr.Qualified) :
    (rest.foldl (fun expr arg => BoundExpression.binaryOp "and" expr arg) expr).Qualified := by
  induction rest generalizing expr with
  | nil => exact hexpr
  | cons arg rest ih =>
    rw [List.forall_mem_cons] at hrest
    exact ih hrest.2 ⟨hexpr, hrest.1⟩

theorem bindBoolExpr_qualified {boolop : BoolExprType} {exprs : List BoundExpression}
    (hexprs : ∀ arg ∈ exprs, arg.Qualified)
    (h : bindBoolExpr boolop exprs = .ok expr) : expr.Qualified := by
  cases boolop with
  | andExpr | orExpr =>
    match exprs, hexprs, h with
    | first :: second :: rest, hexprs, h =>
      cases h
      rw [List.forall_mem_cons, List.forall_mem_cons] at hexprs
      obtain ⟨hfirst, hsecond, hrest⟩ := hexprs
      exact foldl_qualified hrest ⟨hfirst, hsecond⟩
  | notExpr =>
    match exprs, hexprs, h with
    | [arg], hexprs, h => exact Except.ok.inj h ▸ hexprs arg List.mem_cons_self

variable {resolve : List String → Except SqlFault BoundExpression}

mutual

theorem bindExpression_qualified
    (hresolve : ∀ written expr, resolve written = .ok expr → expr.Qualified) :
    ∀ (node : ParseNode) {expr : BoundExpression},
      bindExpression resolve node = .ok expr → expr.Qualified
  | .columnRef fields, expr, h => hresolve fields expr h
  | .columnStar, _, h => Except.ok.inj h ▸ trivial
  | .aConst value, _, h => bindConstant_qualified h
  | .resTarget name val, expr, h => by
    rw [bindExpression, Except.bind_eq_ok_iff] at h
    obtain ⟨bound, hbound, h⟩ := h
    have hqualified := bindExpression_qualified hresolve val hbound
    cases name with
    | none => exact Except.ok.inj h ▸ hqualified
    | some name => exact Except.ok.inj h ▸ hqualified
  | .aStar, _, h => Except.ok.inj h ▸ trivial
  | .funcCall name aggDistinct args, expr, h => by
    rw [bindExpression, Except.bind_eq_ok_iff] at h
    obtain ⟨children, -, h⟩ := h
    exact bindFuncCall_qualified h
  | .aExpr isOp name lexpr rexpr, expr, h => by
    simp only [bindExpression] at h
    split_ifs at h
    · cases h
    · simp only [Except.bind_eq_ok_iff] at h
      obtain ⟨left, hleft, right, hright, h⟩ := h
      replace hleft := bindOptional_qualified hresolve lexpr hleft
      replace hright := bindOptional_qualified hresolve rexpr hright
      match left, right, hleft, hright, h with
      | some left, some right, hleft, hright, h =>
        exact Except.ok.inj h ▸ ⟨hleft left rfl, hright right rfl⟩
      | none, some right, _, hright, h => exact Except.ok.inj h ▸ hright right rfl
  | .boolExpr boolop args, expr, h => by
    rw [bindExpression, Except.bind_eq_ok_iff] at h
    obtain ⟨exprs, hexprs, h⟩ := h
    exact bindBoolExpr_qualified (bindExpressionList_qualified hresolve args hexprs) h
  | .other tag, _, h => nomatch h

theorem bindOptional_qualified
    (hresolve : ∀ written expr, resolve written = .ok expr → expr.Qualified) :
    ∀ (node : Option ParseNode) {expr : Option BoundExpression},
      bindOptional resolve node = .ok expr → ∀ bound ∈ expr, bound.Qualified
  | none, expr, h => by
    cases h
    exact fun bound hbound => nomatch hbound
  | some node, expr, h => by
    rw [bindOptional, Except.bind_eq_ok_iff] at h
    obtain ⟨bound, hbound, h⟩ := h
    cases h
    intro other hother
    obtain rfl := Option.mem_some.mp hother
    exact bindExpression_qualified hresolve node hbound

theorem bindExpressionList_qualified
    (hresolve : ∀ written expr, resolve written = .ok expr → expr.Qualified) :
    ∀ (nodes : List ParseNode) {exprs : List BoundExpression},
      bindExpressionList resolve nodes = .ok exprs → ∀ expr ∈ exprs, expr.Qualified
  | [], exprs, h => by
    cases h
    exact fun expr hexpr => nomatch hexpr
  | node :: rest, exprs, h => by
    simp only [bindExpressionList, Except.bind_eq_ok_iff] at h
    obtain ⟨expr, hexpr, h⟩ := h
    split_ifs at h
    · cases h
    · simp only [Except.bind_eq_ok_iff] at h
      obtain ⟨others, hothers, h⟩ := h
      cases h
      exact List.forall_mem_cons.mpr ⟨bindExpression_qualified hresolve node hexpr,
        bindExpressionList_qualified hresolve rest hothers⟩

end

/-! ### Clauses -/

theorem bindSelectList_qualified (hctes : Named ctes) (hscope : scope.WellBound names)
    {targetList : List ParseNode} {selectList bound : List BoundExpression} {isSelectStar : Bool}
    (hlist : ∀ item ∈ selectList, item.Qualified)
    (h : bindSelectList ctes scope targetList selectList isSelectStar = .ok bound) :
    ∀ item ∈ bound, item.Qualified := by
  induction targetList generalizing selectList isSelectStar with
  | nil => exact Except.ok.inj h ▸ hlist
  | cons target rest ih =>
    rw [bindSelectList, Except.bind_eq_ok_iff] at h
    obtain ⟨expr, hexpr, h⟩ := h
    split_ifs at h
    · cases h
    · rw [Except.bind_eq_ok_iff] at h
      obtain ⟨columns, hcolumns, h⟩ := h
      exact ih (List.forall_mem_map.mpr (getAllColumns_qualified hctes hscope hcolumns)) h
    · cases h
    · refine ih (List.forall_mem_append.mpr ⟨hlist, List.forall_mem_singleton.mpr ?_⟩) h
      exact bindExpression_qualified (fun _ _ => resolveColumn_qualified hctes hscope) _ hexpr

theorem bindSort_qualified (hctes : Named ctes) (hscope : scope.WellBound names)
    {sortClause : List ParseSort} {sort : List (OrderByType × BoundExpression)}
    (h : bindSort ctes scope sortClause = .ok sort) : ∀ item ∈ sort, item.2.Qualified := by
  induction sortClause generalizing sort with
  | nil =>
    cases h
    exact fun item hitem => nomatch hitem
  | cons node rest ih =>
    cases node with
    | other => cases h
    | sortBy direction target =>
      simp only [bindSort, Except.bind_eq_ok_iff] at h
      obtain ⟨type, -, expr, hexpr, others, hothers, h⟩ := h
      cases h
      refine List.forall_mem_cons.mpr ⟨?_, ih hothers⟩
      exact bindExpression_qualified (fun _ _ => resolveColumn_qualified hctes hscope) _ hexpr

theorem bindClauses_qualified (hctes : Named ctes) (hscope : scope.WellBound names)
    {clauses : ParseClauses} {bound : SelectClauses}
    (h : bindClauses ctes scope clauses = .ok bound) : bound.Qualified := by
  rw [bindClauses, Except.bind_eq_ok_iff] at h
  obtain ⟨isDistinct, -, h⟩ := h
  have hresolve : ∀ written expr, resolveColumn ctes scope written = .ok expr → expr.Qualified :=
    fun _ _ => resolveColumn_qualified hctes hscope
  cases htargets : clauses.targetList with
  | none =>
    rw [htargets] at h
    cases h
  | some targetList =>
    simp only [htargets, bindClause, Except.bind_eq_ok_iff] at h
    obtain ⟨selectList, hselect, whereClause, hwhere, groupBy, hgroup, having, hhaving, _, -, _,
      -, sort, hsort, h⟩ := h
    cases h
    exact {
      selectList := bindSelectList_qualified hctes hscope (List.forall_mem_nil _) hselect
      whereClause := bindOptional_qualified hresolve _ hwhere
      groupBy := bindExpressionList_qualified hresolve _ hgroup
      having := bindOptional_qualified hresolve _ hhaving
      sort := bindSort_qualified hctes hscope hsort }

/-! ### Tables and statements -/

theorem bindRangeVar_wellBound {relname : String} {aliasName : Option String}
    {table : BoundTableRef} (h : bindRangeVar catalog ctes relname aliasName = .ok table) :
    table.WellBound (ctes.map BoundSubquery.aliasName) := by
  unfold bindRangeVar at h
  split at h
  · rename_i cte hfind
    cases h
    exact List.mem_map_of_mem (List.mem_of_find?_eq_some hfind)
  · unfold bindBaseTableRef at h
    split at h
    · cases h
    · exact Except.ok.inj h ▸ trivial

theorem bindCondition_qualified (hctes : Named ctes) {left right : BoundTableRef}
    (hleft : left.WellBound names) (hright : right.WellBound names) {quals : Option ParseNode}
    {condition : BoundExpression} (h : bindCondition ctes left right quals = .ok condition) :
    condition.Qualified := by
  cases quals with
  | none => cases h
  | some quals =>
    have hscope : (BoundTableRef.crossProduct left right).WellBound names := ⟨hleft, hright⟩
    exact bindExpression_qualified (fun _ _ => resolveColumn_qualified hctes hscope) _ h

theorem selectListNames_ne_nil {list : List BoundExpression} (hlist : ∀ item ∈ list, item.Qualified)
    (id : ℕ) : ∀ name ∈ (selectListNames list id).1, name ≠ [] := by
  induction list generalizing id with
  | nil => exact fun name hname => nomatch hname
  | cons col rest ih =>
    rw [List.forall_mem_cons] at hlist
    refine List.forall_mem_cons.mpr ⟨?_, ih hlist.2 _⟩
    cases col with
    | columnRef colName => exact List.ne_nil_of_length_pos (zero_lt_two.trans_le hlist.1)
    | _ => exact List.cons_ne_nil _ _

theorem subqueryOf_wellBound {statement : SelectStatement} (h : statement.WellBound names)
    (aliasName : String) (id : ℕ) : (subqueryOf statement aliasName id).1.WellBound names := by
  obtain ⟨table, clauses, own⟩ := statement
  exact ⟨h, selectListNames_ne_nil h.1.selectList id⟩

theorem bindValues_wellBound {valuesLists : List (List ParseNode)} {identifier : String}
    {statement : SelectStatement} (h : bindValues valuesLists identifier = .ok statement) :
    statement.WellBound names := by
  rw [bindValues, Except.bind_eq_ok_iff] at h
  obtain ⟨rows, -, h⟩ := h
  cases rows with
  | nil => cases h
  | cons first rest =>
    cases h
    refine ⟨⟨List.forall_mem_map.mpr fun i _ => le_refl 2, ?_, ?_, ?_, ?_⟩, trivial, trivial⟩ <;>
      exact fun item hitem => nomatch hitem

theorem isEmpty_bindCTE {own : List BoundSubquery} {recursive : Bool} {nodes : List ParseCTE}
    {id id' : ℕ} (h : bindCTE catalog ctes recursive nodes id = .ok (own, id')) :
    own.isEmpty = nodes.isEmpty := by
  match nodes, h with
  | [], h =>
    cases h
    rfl
  | .select ctename cterecursive ctequery :: rest, h =>
    simp only [bindCTE] at h
    split_ifs at h
    · cases h
    · simp only [Except.bind_eq_ok_iff] at h
      obtain ⟨_, -, _, -, h⟩ := h
      cases h
      rfl

mutual

theorem bindTableRef_wellBound : ∀ (node : ParseTable) {ctes : List BoundSubquery} {id id' : ℕ}
    {table : BoundTableRef}, Named ctes → bindTableRef catalog ctes node id = .ok (table, id') →
      table.WellBound (ctes.map BoundSubquery.aliasName)
  | .rangeVar relname aliasName, ctes, id, id', table, hctes, h => by
    rw [bindTableRef, Except.bind_eq_ok_iff] at h
    obtain ⟨table, htable, h⟩ := h
    cases h
    exact bindRangeVar_wellBound htable
  | .joinExpr joinType larg rarg quals, ctes, id, id', table, hctes, h => by
    simp only [bindTableRef, Except.bind_eq_ok_iff] at h
    obtain ⟨_, -, ⟨left, next⟩, hleft, ⟨right, last⟩, hright, condition, hcondition, h⟩ := h
    cases h
    have hleft' := bindTableRef_wellBound larg hctes hleft
    have hright' := bindTableRef_wellBound rarg hctes hright
    exact ⟨bindCondition_qualified hctes hleft' hright' hcondition, hleft', hright'⟩
  | .rangeSubselect lateral subquery aliasName, ctes, id, id', table, hctes, h => by
    simp only [bindTableRef] at h
    split_ifs at h
    · cases h
    · simp only [Except.bind_eq_ok_iff] at h
      obtain ⟨⟨statement, next⟩, hstatement, h⟩ := h
      cases h
      exact subqueryOf_wellBound (bindSelect_wellBound subquery hctes hstatement) _ _
  | .other tag, ctes, id, id', table, hctes, h => nomatch h

theorem bindCrossProduct_wellBound : ∀ (nodes : List ParseTable) {ctes : List BoundSubquery}
    {id id' : ℕ} {result table : BoundTableRef}, Named ctes →
      result.WellBound (ctes.map BoundSubquery.aliasName) →
      bindCrossProduct catalog ctes nodes result id = .ok (table, id') →
      table.WellBound (ctes.map BoundSubquery.aliasName)
  | [], ctes, id, id', result, table, hctes, hresult, h => by
    cases h
    exact hresult
  | node :: rest, ctes, id, id', result, table, hctes, hresult, h => by
    simp only [bindCrossProduct, Except.bind_eq_ok_iff] at h
    obtain ⟨⟨right, next⟩, hright, h⟩ := h
    have hboth : (BoundTableRef.crossProduct result right).WellBound
      (ctes.map BoundSubquery.aliasName) := ⟨hresult, bindTableRef_wellBound node hctes hright⟩
    exact bindCrossProduct_wellBound rest hctes hboth h

theorem bindFrom_wellBound : ∀ (nodes : List ParseTable) {ctes : List BoundSubquery} {id id' : ℕ}
    {table : BoundTableRef}, Named ctes → bindFrom catalog ctes nodes id = .ok (table, id') →
      table.WellBound (ctes.map BoundSubquery.aliasName)
  | [], ctes, id, id', table, hctes, h => by
    cases h
    trivial
  | node :: rest, ctes, id, id', table, hctes, h => by
    simp only [bindFrom, Except.bind_eq_ok_iff] at h
    obtain ⟨⟨first, next⟩, hfirst, h⟩ := h
    exact bindCrossProduct_wellBound rest hctes (bindTableRef_wellBound node hctes hfirst) h

theorem bindCTE_wellBound : ∀ (nodes : List ParseCTE) {ctes own : List BoundSubquery}
    {recursive : Bool} {id id' : ℕ}, Named ctes →
      bindCTE catalog ctes recursive nodes id = .ok (own, id') →
      WellBoundAll (ctes.map BoundSubquery.aliasName) own
  | [], ctes, own, recursive, id, id', hctes, h => by
    cases h
    trivial
  | .other :: rest, ctes, own, recursive, id, id', hctes, h => nomatch h
  | .select ctename cterecursive ctequery :: rest, ctes, own, recursive, id, id', hctes, h => by
    simp only [bindCTE] at h
    split_ifs at h
    · cases h
    · simp only [Except.bind_eq_ok_iff] at h
      obtain ⟨⟨statement, next⟩, hstatement, ⟨others, last⟩, hothers, h⟩ := h
      cases h
      exact ⟨subqueryOf_wellBound (bindSelect_wellBound ctequery hctes hstatement) _ _,
        bindCTE_wellBound rest hctes hothers⟩

/-- **What the binder returns is in order.** -/
theorem bindSelect_wellBound : ∀ (node : ParseSelect) {ctes : List BoundSubquery} {id id' : ℕ}
    {statement : SelectStatement}, Named ctes →
      bindSelect catalog ctes node id = .ok (statement, id') →
      statement.WellBound (ctes.map BoundSubquery.aliasName)
  | .values valuesLists, ctes, id, id', statement, hctes, h => by
    rw [bindSelect, Except.bind_eq_ok_iff] at h
    obtain ⟨values, hvalues, h⟩ := h
    cases h
    exact bindValues_wellBound hvalues
  | .select recursive withClause fromClause clauses, ctes, id, id', statement, hctes, h => by
    simp only [bindSelect, Except.bind_eq_ok_iff] at h
    obtain ⟨⟨own, next⟩, hown, ⟨table, last⟩, htable, bound, hbound, h⟩ := h
    cases h
    have hctes' := bindCTE_wellBound withClause hctes hown
    rw [← isEmpty_bindCTE hown] at htable hbound
    -- the scope is the WITH clause of the statement, if it has one
    have hscope : Named (if own.isEmpty then ctes else own) := by
      split_ifs
      · exact hctes
      · exact WellBoundAll.named hctes'
    have htable' := bindFrom_wellBound fromClause hscope htable
    refine ⟨bindClauses_qualified hscope htable' hbound, hctes', ?_⟩
    rwa [apply_ite (List.map BoundSubquery.aliasName)] at htable'

end

end Binder

end BusTub
