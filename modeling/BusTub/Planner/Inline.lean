import BusTub.Binder.WellBound
import BusTub.Planner.PlanSelect

/-!
# Statements without common table expressions

What a bound statement means, if names are resolved where they are written: a statement without
CTEs, with the definitions in the place of the references.  All references in a bound statement
are replaced.

Planning a statement without CTEs ends, and a larger bound on the depth of calls gives the same
outcome.
-/

namespace BusTub

open FuelledRun Binder

/-! ## References from outside -/

mutual

/-- The CTEs that a FROM clause refers to and does not define. -/
def BoundTableRef.freeCTEs : BoundTableRef → List String
  | .join _ left right _ | .crossProduct left right => left.freeCTEs ++ right.freeCTEs
  | .subquery query => query.freeCTEs
  | .cte cteName _ => [cteName]
  | .empty | .baseTable _ _ _ _ | .expressionList _ _ => []

def BoundSubquery.freeCTEs : BoundSubquery → List String
  | .mk subquery _ _ => subquery.freeCTEs

/-- The same for a statement.  A WITH clause is the whole scope of the FROM clause. -/
def SelectStatement.freeCTEs : SelectStatement → List String
  | .mk table _ ctes => freeCTEsOf ctes ++ if ctes.isEmpty then table.freeCTEs else []

def freeCTEsOf : List BoundSubquery → List String
  | [] => []
  | cte :: rest => cte.freeCTEs ++ freeCTEsOf rest

end

/-! ## Definitions in the place of references -/

def inlineCTE (scope : List BoundSubquery) (cteName aliasName : String) : BoundTableRef :=
  match findCTE scope cteName with
  | none => .cte cteName aliasName
  | some cte => .subquery (.mk cte.subquery cte.selectListName aliasName)

mutual

/-- The FROM clause, with the definitions of a scope in the place of the references. -/
def BoundTableRef.inline : List BoundSubquery → BoundTableRef → BoundTableRef
  | scope, .join joinType left right condition =>
    .join joinType (left.inline scope) (right.inline scope) condition
  | scope, .crossProduct left right => .crossProduct (left.inline scope) (right.inline scope)
  | scope, .subquery query => .subquery (query.inline scope)
  | scope, .cte cteName aliasName => inlineCTE scope cteName aliasName
  | _, .empty => .empty
  | _, .baseTable table oid aliasName schema => .baseTable table oid aliasName schema
  | _, .expressionList values identifier => .expressionList values identifier
termination_by structural _ tableRef => tableRef

def BoundSubquery.inline : List BoundSubquery → BoundSubquery → BoundSubquery
  | scope, .mk subquery selectListName aliasName =>
    .mk (subquery.inline scope) selectListName aliasName
termination_by structural _ query => query

/-- The same for a statement.  Its definitions are meant in the scope of the statement, and are
the scope of its FROM clause. -/
def SelectStatement.inline : List BoundSubquery → SelectStatement → SelectStatement
  | scope, .mk table clauses ctes =>
    .mk (table.inline (if ctes.isEmpty then scope else inlineAll scope ctes)) clauses []
termination_by structural _ statement => statement

def inlineAll : List BoundSubquery → List BoundSubquery → List BoundSubquery
  | _, [] => []
  | scope, cte :: rest => cte.inline scope :: inlineAll scope rest
termination_by structural _ ctes => ctes

end

theorem aliasName_inline (scope : List BoundSubquery) (cte : BoundSubquery) :
    (cte.inline scope).aliasName = cte.aliasName := by
  cases cte
  rfl

theorem findCTE_cons (cte : BoundSubquery) (rest : List BoundSubquery) (name : String) :
    findCTE (cte :: rest) name = if cte.aliasName = name then some cte else findCTE rest name := by
  by_cases hname : cte.aliasName = name <;> simp [hname, findCTE]

theorem findCTE_inlineAll (scope ctes : List BoundSubquery) (name : String) :
    findCTE (inlineAll scope ctes) name = (findCTE ctes name).map (BoundSubquery.inline scope) := by
  induction ctes with
  | nil => rfl
  | cons cte rest ih =>
    rw [inlineAll, findCTE_cons, findCTE_cons, aliasName_inline, ih]
    split_ifs <;> rfl

mutual

theorem BoundTableRef.inline_congr : ∀ (tableRef : BoundTableRef)
    {scope scope' : List BoundSubquery},
    (∀ name ∈ tableRef.freeCTEs, findCTE scope name = findCTE scope' name) →
      tableRef.inline scope = tableRef.inline scope'
  | .join joinType left right condition, scope, scope', h => by
    obtain ⟨hleft, hright⟩ := List.forall_mem_append.mp h
    rw [BoundTableRef.inline, BoundTableRef.inline, left.inline_congr hleft,
      right.inline_congr hright]
  | .crossProduct left right, scope, scope', h => by
    obtain ⟨hleft, hright⟩ := List.forall_mem_append.mp h
    rw [BoundTableRef.inline, BoundTableRef.inline, left.inline_congr hleft,
      right.inline_congr hright]
  | .subquery (.mk subquery _ _), scope, scope', h => by
    rw [BoundTableRef.inline, BoundTableRef.inline, BoundSubquery.inline, BoundSubquery.inline,
      subquery.inline_congr h]
  | .cte cteName aliasName, scope, scope', h => by
    rw [BoundTableRef.inline, BoundTableRef.inline, inlineCTE, inlineCTE,
      h cteName List.mem_cons_self]
  | .empty, _, _, _ => rfl
  | .baseTable _ _ _ _, _, _, _ => rfl
  | .expressionList _ _, _, _, _ => rfl

theorem SelectStatement.inline_congr : ∀ (statement : SelectStatement)
    {scope scope' : List BoundSubquery},
    (∀ name ∈ statement.freeCTEs, findCTE scope name = findCTE scope' name) →
      statement.inline scope = statement.inline scope'
  | .mk table clauses [], scope, scope', h => by
    rw [SelectStatement.inline, SelectStatement.inline]
    exact congrArg (SelectStatement.mk · clauses []) (table.inline_congr h)
  | .mk table clauses (cte :: rest), scope, scope', h => by
    rw [SelectStatement.freeCTEs] at h
    obtain ⟨hctes, -⟩ := List.forall_mem_append.mp h
    rw [SelectStatement.inline, SelectStatement.inline, inlineAll_congr (cte :: rest) hctes]
    rfl

theorem inlineAll_congr : ∀ (ctes : List BoundSubquery) {scope scope' : List BoundSubquery},
    (∀ name ∈ freeCTEsOf ctes, findCTE scope name = findCTE scope' name) →
      inlineAll scope ctes = inlineAll scope' ctes
  | [], _, _, _ => rfl
  | .mk subquery _ _ :: rest, scope, scope', h => by
    obtain ⟨hfirst, hrest⟩ := List.forall_mem_append.mp h
    rw [inlineAll, inlineAll, BoundSubquery.inline, BoundSubquery.inline,
      subquery.inline_congr hfirst, inlineAll_congr rest hrest]

end

/-! ## Statements without common table expressions -/

mutual

/-- There is no reference to a CTE in the FROM clause, and no WITH clause. -/
def BoundTableRef.CTEFree : BoundTableRef → Prop
  | .join _ left right _ | .crossProduct left right => left.CTEFree ∧ right.CTEFree
  | .subquery query => query.CTEFree
  | .cte _ _ => False
  | .empty | .baseTable _ _ _ _ | .expressionList _ _ => True

def BoundSubquery.CTEFree : BoundSubquery → Prop
  | .mk subquery _ _ => subquery.CTEFree

def SelectStatement.CTEFree : SelectStatement → Prop
  | .mk table _ ctes => table.CTEFree ∧ ctes = []

end

theorem aliasNames_inlineAll (scope ctes : List BoundSubquery) :
    (inlineAll scope ctes).map BoundSubquery.aliasName = ctes.map BoundSubquery.aliasName := by
  induction ctes with
  | nil => rfl
  | cons cte rest ih => rw [inlineAll, List.map_cons, List.map_cons, aliasName_inline, ih]

theorem inlineCTE_cteFree {scope : List BoundSubquery} {cteName : String}
    (hscope : ∀ cte ∈ scope, cte.CTEFree) (hname : cteName ∈ scope.map BoundSubquery.aliasName)
    (aliasName : String) : (inlineCTE scope cteName aliasName).CTEFree := by
  obtain ⟨definition, hmem, hfind⟩ := exists_findCTE hname
  rw [inlineCTE, hfind]
  have hfree := hscope definition hmem
  cases definition
  exact hfree

mutual

theorem BoundTableRef.inline_cteFree : ∀ (tableRef : BoundTableRef) {scope : List BoundSubquery},
    (∀ cte ∈ scope, cte.CTEFree) → tableRef.WellBound (scope.map BoundSubquery.aliasName) →
      (tableRef.inline scope).CTEFree
  | .join _ left right _, _, hscope, h =>
    ⟨left.inline_cteFree hscope h.2.1, right.inline_cteFree hscope h.2.2⟩
  | .crossProduct left right, _, hscope, h =>
    ⟨left.inline_cteFree hscope h.1, right.inline_cteFree hscope h.2⟩
  | .subquery (.mk subquery _ _), _, hscope, h => subquery.inline_cteFree hscope h.1
  | .cte _ aliasName, _, hscope, h => inlineCTE_cteFree hscope h aliasName
  | .empty, _, _, _ | .baseTable _ _ _ _, _, _, _ | .expressionList _ _, _, _, _ => trivial

theorem SelectStatement.inline_cteFree : ∀ (statement : SelectStatement)
    {scope : List BoundSubquery}, (∀ cte ∈ scope, cte.CTEFree) →
      statement.WellBound (scope.map BoundSubquery.aliasName) → (statement.inline scope).CTEFree
  | .mk table clauses ctes, scope, hscope, ⟨_, hctes, htable⟩ => by
    refine ⟨table.inline_cteFree ?_ ?_, rfl⟩
    · split_ifs
      · exact hscope
      · exact inlineAll_cteFree ctes hscope hctes
    · split_ifs at htable ⊢
      · exact htable
      · rwa [aliasNames_inlineAll]

theorem inlineAll_cteFree : ∀ (ctes : List BoundSubquery) {scope : List BoundSubquery},
    (∀ cte ∈ scope, cte.CTEFree) → WellBoundAll (scope.map BoundSubquery.aliasName) ctes →
      ∀ cte ∈ inlineAll scope ctes, cte.CTEFree
  | [], _, _, _ => List.forall_mem_nil _
  | .mk subquery _ _ :: rest, _, hscope, h =>
    List.forall_mem_cons.mpr
      ⟨subquery.inline_cteFree hscope h.1.1, inlineAll_cteFree rest hscope h.2⟩

end

/-! ## Visible names -/

def SelectStatement.Visible (statement : SelectStatement) : Prop :=
  statement.ctes ≠ [] →
    ∀ name ∈ statement.table.freeCTEs, name ∈ statement.ctes.map BoundSubquery.aliasName

mutual

theorem BoundTableRef.WellBound.visible : ∀ {names : List String} (tableRef : BoundTableRef),
    tableRef.WellBound names → (∀ name ∈ tableRef.freeCTEs, name ∈ names) ∧
      ∀ inner ∈ tableRef.statements, inner.Visible
  | names, .join _ left right _, h => by
    obtain ⟨hleft, hinLeft⟩ := BoundTableRef.WellBound.visible left h.2.1
    obtain ⟨hright, hinRight⟩ := BoundTableRef.WellBound.visible right h.2.2
    exact ⟨List.forall_mem_append.mpr ⟨hleft, hright⟩,
      List.forall_mem_append.mpr ⟨hinLeft, hinRight⟩⟩
  | names, .crossProduct left right, h => by
    obtain ⟨hleft, hinLeft⟩ := BoundTableRef.WellBound.visible left h.1
    obtain ⟨hright, hinRight⟩ := BoundTableRef.WellBound.visible right h.2
    exact ⟨List.forall_mem_append.mpr ⟨hleft, hright⟩,
      List.forall_mem_append.mpr ⟨hinLeft, hinRight⟩⟩
  | names, .subquery (.mk subquery _ _), h => SelectStatement.WellBound.visible subquery h.1
  | names, .cte _ _, h => ⟨List.forall_mem_singleton.mpr h, List.forall_mem_nil _⟩
  | names, .empty, h | names, .baseTable _ _ _ _, h | names, .expressionList _ _, h =>
    ⟨List.forall_mem_nil _, List.forall_mem_nil _⟩

theorem SelectStatement.WellBound.visible : ∀ {names : List String} (statement : SelectStatement),
    statement.WellBound names → (∀ name ∈ statement.freeCTEs, name ∈ names) ∧
      ∀ inner ∈ statement.statements, inner.Visible
  | names, .mk table clauses ctes, ⟨_, hctes, htable⟩ => by
    obtain ⟨hnames, hinTable⟩ := BoundTableRef.WellBound.visible table htable
    obtain ⟨hnamesCtes, hinCtes⟩ := wellBoundAll_visible ctes hctes
    rw [SelectStatement.freeCTEs, SelectStatement.statements]
    refine ⟨List.forall_mem_append.mpr ⟨hnamesCtes, ?_⟩, List.forall_mem_cons.mpr ⟨?_,
      List.forall_mem_append.mpr ⟨hinTable, hinCtes⟩⟩⟩
    · split_ifs at hnames ⊢
      · exact hnames
      · exact List.forall_mem_nil _
    · intro hne
      have hnonempty : ¬ ctes.isEmpty = true := fun hempty => hne (List.isEmpty_iff.mp hempty)
      rwa [if_neg hnonempty] at hnames

theorem wellBoundAll_visible : ∀ {names : List String} (ctes : List BoundSubquery),
    WellBoundAll names ctes → (∀ name ∈ freeCTEsOf ctes, name ∈ names) ∧
      ∀ inner ∈ statementsOf ctes, inner.Visible
  | _, [], _ => ⟨List.forall_mem_nil _, List.forall_mem_nil _⟩
  | _, .mk subquery _ _ :: rest, h => by
    obtain ⟨hnames, hin⟩ := SelectStatement.WellBound.visible subquery h.1.1
    obtain ⟨hnamesRest, hinRest⟩ := wellBoundAll_visible rest h.2
    exact ⟨List.forall_mem_append.mpr ⟨hnames, hnamesRest⟩,
      List.forall_mem_append.mpr ⟨hin, hinRest⟩⟩

end

/-! ## Planning ends -/

mutual

/-- How deep table references are nested. -/
def BoundTableRef.depth : BoundTableRef → ℕ
  | .join _ left right _ | .crossProduct left right => max left.depth right.depth + 1
  | .subquery query => query.depth + 1
  | .empty | .baseTable _ _ _ _ | .expressionList _ _ | .cte _ _ => 1

def BoundSubquery.depth : BoundSubquery → ℕ
  | .mk subquery _ _ => subquery.depth

def SelectStatement.depth : SelectStatement → ℕ
  | .mk table _ _ => table.depth

end

namespace Planner

variable {catalog : TableCatalog}

theorem planSelectWith_ends
    {planFrom : PlannerState → BoundTableRef → FuelledRun SqlFault (Planned BoundTableRef)}
    {table : BoundTableRef} (hfrom : ∀ state, planFrom state table ≠ .error .outOfFuel)
    (state : PlannerState) (clauses : SelectClauses) :
    planSelectWith planFrom state (.mk table clauses []) ≠ .error .outOfFuel := by
  refine bind_ne_outOfFuel ?_ fun _ _ =>
    bind_ne_outOfFuel (lift_ne_outOfFuel _) fun _ _ => nofun
  cases table with
  | empty => exact nofun
  | _ => exact hfrom _

/-- **Planning ends**, if there are no CTEs. -/
theorem planTableRef_ends {fuel : ℕ} {tableRef : BoundTableRef} (hfree : tableRef.CTEFree)
    (hdepth : tableRef.depth ≤ fuel) (state : PlannerState) :
    planTableRef catalog fuel state tableRef ≠ .error .outOfFuel := by
  -- on the fuel, which stays at least the depth of what is left
  induction fuel generalizing tableRef state with
  | zero =>
    cases tableRef <;> simp [BoundTableRef.depth] at hdepth
  | succ fuel ih =>
    cases tableRef with
    | empty => exact nofun
    | baseTable table oid aliasName schema =>
      exact bind_ne_outOfFuel (lift_ne_outOfFuel _) fun _ _ => nofun
    | crossProduct left right =>
      rw [BoundTableRef.depth, Nat.succ_le_succ_iff, max_le_iff] at hdepth
      refine bind_ne_outOfFuel (ih hfree.1 hdepth.1 _) fun _ _ => ?_
      exact bind_ne_outOfFuel (ih hfree.2 hdepth.2 _) fun _ _ => nofun
    | join joinType left right condition =>
      rw [BoundTableRef.depth, Nat.succ_le_succ_iff, max_le_iff] at hdepth
      refine bind_ne_outOfFuel (ih hfree.1 hdepth.1 _) fun _ _ => ?_
      refine bind_ne_outOfFuel (ih hfree.2 hdepth.2 _) fun _ _ => ?_
      exact bind_ne_outOfFuel (lift_ne_outOfFuel _) fun _ _ => nofun
    | expressionList values identifier =>
      exact bind_ne_outOfFuel (lift_ne_outOfFuel _) fun _ _ => nofun
    | subquery query =>
      obtain ⟨⟨table, clauses, ctes⟩, selectListName, aliasName⟩ := query
      obtain ⟨hfree, rfl⟩ := hfree
      refine bind_ne_outOfFuel (bind_ne_outOfFuel ?_ fun _ _ => ?_) fun _ _ => nofun
      · exact planSelectWith_ends (ih hfree (Nat.succ_le_succ_iff.mp hdepth)) _ _
      · exact bind_ne_outOfFuel (lift_ne_outOfFuel _) fun _ _ =>
          bind_ne_outOfFuel (lift_ne_outOfFuel _) fun _ _ => nofun
    | cte cteName aliasName => exact hfree.elim

theorem planSelect_ends {fuel : ℕ} {statement : SelectStatement} (hfree : statement.CTEFree)
    (hdepth : statement.depth ≤ fuel) (state : PlannerState) :
    planSelect catalog fuel state statement ≠ .error .outOfFuel := by
  obtain ⟨table, clauses, ctes⟩ := statement
  obtain ⟨hfree, rfl⟩ := hfree
  exact planSelectWith_ends (planTableRef_ends hfree hdepth) state clauses

/-! ## A larger bound -/

section Refines

variable
  {planFrom planFrom' : PlannerState → BoundTableRef → FuelledRun SqlFault (Planned BoundTableRef)}
  (hfrom : ∀ state tableRef, Refines (planFrom state tableRef) (planFrom' state tableRef))

include hfrom

theorem planSelectWith_refines (state : PlannerState) (statement : SelectStatement) :
    Refines (planSelectWith planFrom state statement)
      (planSelectWith planFrom' state statement) := by
  obtain ⟨table, clauses, ctes⟩ := statement
  refine .bind ?_ fun _ => .refl _
  cases table with
  | empty => exact .refl _
  | _ => exact hfrom _ _

theorem planSubqueryWith_refines (state : PlannerState) (query : BoundSubquery)
    (aliasName : String) :
    Refines (planSubqueryWith planFrom state query aliasName)
      (planSubqueryWith planFrom' state query aliasName) :=
  .bind (planSelectWith_refines hfrom _ _) fun _ => .refl _

end Refines

theorem planTableRef_refines_succ (fuel : ℕ) (state : PlannerState) (tableRef : BoundTableRef) :
    Refines (planTableRef catalog fuel state tableRef)
      (planTableRef catalog (fuel + 1) state tableRef) := by
  induction fuel generalizing state tableRef with
  | zero => exact .outOfFuel _
  | succ fuel ih =>
    cases tableRef with
    | empty | baseTable _ _ _ _ | expressionList _ _ => exact .refl _
    | crossProduct left right | join joinType left right condition =>
      exact .bind (ih _ _) fun _ => .bind (ih _ _) fun _ => .refl _
    | subquery query => exact .bind (planSubqueryWith_refines ih _ _ _) fun _ => .refl _
    | cte cteName aliasName =>
      rw [planTableRef, planTableRef, planCTERefWith, planCTERefWith]
      split_ifs
      · exact .refl _
      · split
        · exact .refl _
        · exact .bind (planSubqueryWith_refines ih _ _ _) fun _ => .refl _

/-- **A larger bound gives the same outcome.** -/
theorem planSelect_refines {fuel larger : ℕ} (hle : fuel ≤ larger) (state : PlannerState)
    (statement : SelectStatement) :
    Refines (planSelect catalog fuel state statement)
      (planSelect catalog larger state statement) := by
  induction hle with
  | refl => exact .refl _
  | step _ ih => exact ih.trans (planSelectWith_refines (planTableRef_refines_succ _) _ _)

end Planner

end BusTub
