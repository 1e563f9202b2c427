import BusTub.Planner.Consumed
import BusTub.Planner.Inline

/-!
# References to common table expressions

The binder resolves the name of a CTE in the scope in which it is written.  The planner looks it
up in the list that is current when the reference is planned, which for the body of a CTE is the
list that the CTE itself belongs to, and not the scope in which the body was bound.

If no definition refers to a CTE from outside, the planner gives the plan of the statement with
the definitions in the place of the references.  A definition that refers to a CTE of the same
name, which is another one for the binder, refers to itself for the planner, and planning does not
end.

A definition may have been planned before, and have been consumed then; so the definitions in the
list are compared with those of the scope up to that.
-/

namespace BusTub

open FuelledRun Binder

/-! ## What planning leaves behind -/

/-- The clauses are as they were, or consumed, if that can happen. -/
def SelectClauses.LeftBy (spoiled : Prop) (clauses left : SelectClauses) : Prop :=
  left = clauses ∨ spoiled ∧ left.Consumed

mutual

/-- A FROM clause that is as it was but for consumed clauses. -/
def BoundTableRef.LeftBy (spoiled : Prop) : BoundTableRef → BoundTableRef → Prop
  | .join joinType left right condition, .join joinType' left' right' condition' =>
    joinType' = joinType ∧ condition' = condition ∧ left.LeftBy spoiled left' ∧
      right.LeftBy spoiled right'
  | .crossProduct left right, .crossProduct left' right' =>
    left.LeftBy spoiled left' ∧ right.LeftBy spoiled right'
  | .subquery query, .subquery query' => query.LeftBy spoiled query'
  | .cte cteName aliasName, .cte cteName' aliasName' => cteName' = cteName ∧ aliasName' = aliasName
  | .empty, .empty => True
  | .baseTable table oid aliasName schema, .baseTable table' oid' aliasName' schema' =>
    table' = table ∧ oid' = oid ∧ aliasName' = aliasName ∧ schema' = schema
  | .expressionList values identifier, .expressionList values' identifier' =>
    values' = values ∧ identifier' = identifier
  | _, _ => False
termination_by structural tableRef => tableRef

def BoundSubquery.LeftBy (spoiled : Prop) : BoundSubquery → BoundSubquery → Prop
  | .mk subquery selectListName aliasName, .mk subquery' selectListName' aliasName' =>
    subquery.LeftBy spoiled subquery' ∧ selectListName' = selectListName ∧ aliasName' = aliasName
termination_by structural query => query

def SelectStatement.LeftBy (spoiled : Prop) : SelectStatement → SelectStatement → Prop
  | .mk table clauses ctes, .mk table' clauses' ctes' =>
    table.LeftBy spoiled table' ∧ clauses.LeftBy spoiled clauses' ∧
      AllLeftBy spoiled ctes ctes'
termination_by structural statement => statement

def AllLeftBy (spoiled : Prop) : List BoundSubquery → List BoundSubquery → Prop
  | [], [] => True
  | cte :: rest, cte' :: rest' => cte.LeftBy spoiled cte' ∧ AllLeftBy spoiled rest rest'
  | _, _ => False
termination_by structural ctes => ctes

end

mutual

theorem BoundTableRef.LeftBy.refl {spoiled : Prop} : ∀ tableRef : BoundTableRef,
    tableRef.LeftBy spoiled tableRef
  | .join _ left right _ => ⟨rfl, rfl, .refl left, .refl right⟩
  | .crossProduct left right => ⟨.refl left, .refl right⟩
  | .subquery (.mk subquery _ _) => ⟨SelectStatement.LeftBy.refl subquery, rfl, rfl⟩
  | .cte _ _ => ⟨rfl, rfl⟩
  | .empty => trivial
  | .baseTable _ _ _ _ => ⟨rfl, rfl, rfl, rfl⟩
  | .expressionList _ _ => ⟨rfl, rfl⟩

theorem SelectStatement.LeftBy.refl {spoiled : Prop} : ∀ statement : SelectStatement,
    statement.LeftBy spoiled statement
  | .mk table _ ctes => ⟨BoundTableRef.LeftBy.refl table, .inl rfl, allLeftBy_refl ctes⟩

theorem allLeftBy_refl {spoiled : Prop} : ∀ ctes : List BoundSubquery, AllLeftBy spoiled ctes ctes
  | [] => trivial
  | .mk subquery _ _ :: rest =>
    ⟨⟨SelectStatement.LeftBy.refl subquery, rfl, rfl⟩, allLeftBy_refl rest⟩

end

namespace Planner

variable {catalog : TableCatalog} {spoiled : Prop} {ctes left : List BoundSubquery}

theorem aliasName_leftBy {cte cte' : BoundSubquery} (h : cte.LeftBy spoiled cte') :
    cte'.aliasName = cte.aliasName := by
  cases cte
  cases cte'
  exact h.2.2

theorem findCTE_allLeftBy (h : AllLeftBy spoiled ctes left) {name : String}
    {definition : BoundSubquery} (hfind : findCTE ctes name = some definition) :
    ∃ definition', findCTE left name = some definition' ∧
      definition.LeftBy spoiled definition' := by
  induction ctes generalizing left with
  | nil => cases hfind
  | cons cte rest ih =>
    cases left with
    | nil => exact h.elim
    | cons cte' rest' =>
      rw [findCTE_cons] at hfind
      rw [findCTE_cons, aliasName_leftBy h.1]
      split_ifs at hfind ⊢
      · exact ⟨cte', rfl, Option.some.inj hfind ▸ h.1⟩
      · exact ih h.2 hfind

theorem replaceCTE_allLeftBy (h : AllLeftBy spoiled ctes left) {name : String}
    {definition definition' : BoundSubquery} (hfind : findCTE ctes name = some definition)
    (hleft : definition.LeftBy spoiled definition') :
    AllLeftBy spoiled ctes (replaceCTE name definition' left) := by
  induction ctes generalizing left with
  | nil => cases hfind
  | cons cte rest ih =>
    cases left with
    | nil => exact h.elim
    | cons cte' rest' =>
      rw [findCTE_cons] at hfind
      rw [replaceCTE, aliasName_leftBy h.1]
      split_ifs at hfind ⊢
      · exact ⟨Option.some.inj hfind ▸ hleft, h.2⟩
      · exact ⟨h.1, ih h.2 hfind⟩

end Planner

/-! ## The planner follows the scopes -/

/-- A definition that refers to nothing outside of it, and is consumed by planning only if that
can happen. -/
structure BoundSubquery.SelfContained (spoiled : Prop) (definition : BoundSubquery) : Prop where
  closed : definition.freeCTEs = []
  kept : definition.NoAggregates ∨ spoiled

/-- The FROM clause refers to the WITH clause, if there is one, and the definitions there are
self-contained. -/
structure SelectStatement.Scoped (spoiled : Prop) (statement : SelectStatement) : Prop where
  visible : statement.ctes ≠ [] → ∀ name ∈ statement.table.freeCTEs,
    name ∈ statement.ctes.map BoundSubquery.aliasName
  definitions : ∀ definition ∈ statement.ctes, definition.SelfContained spoiled

namespace Planner

/-- The list of the planner has the definitions of a scope, for some names. -/
def Agrees (spoiled : Prop) (ctes scope : List BoundSubquery) (names : List String) : Prop :=
  ∀ name ∈ names, ∃ definition, findCTE ctes name = some definition ∧
    definition.SelfContained spoiled ∧ (∀ inner ∈ definition.statements, inner.Scoped spoiled) ∧
    findCTE scope name = some (definition.inline [])

def seen {Source : Type} (result : Planned Source) : PlanNode × ℕ :=
  (result.1, result.2.2.universalId)

/-- A FROM clause that was planned before is planned in a list that was used before as the FROM
clause with the definitions in it, and both are left as they may be. -/
def Tracks (catalog : TableCatalog) (spoiled : Prop) (fuel : ℕ) : Prop :=
  ∀ (tableRef left : BoundTableRef) (ctes leftCtes scope : List BoundSubquery) (id : ℕ),
    tableRef.LeftBy spoiled left → AllLeftBy spoiled ctes leftCtes →
    (∀ inner ∈ tableRef.statements, inner.Scoped spoiled) →
    Agrees spoiled ctes scope tableRef.freeCTEs →
    Follows spoiled seen seen (planTableRef catalog fuel ⟨leftCtes, id⟩ left)
        (planTableRef catalog fuel ⟨[], id⟩ (tableRef.inline scope)) ∧
      ∀ result, planTableRef catalog fuel ⟨leftCtes, id⟩ left = .ok result →
        AllLeftBy spoiled ctes result.2.2.ctes ∧
        (tableRef.NoAggregates ∨ spoiled → tableRef.LeftBy spoiled result.2.1)

variable {fuel : ℕ} {scope leftCtes : List BoundSubquery}

variable {tableRef : BoundTableRef}

theorem ctes_planTableRef_nil {id : ℕ}
    {result : Planned BoundTableRef}
    (h : planTableRef catalog fuel ⟨[], id⟩ tableRef = .ok result) : result.2.2.ctes = [] :=
  (planTableRef_unchanged h (List.forall_mem_nil _)).1

theorem planFromClause_of_ne_empty
    {planFrom : PlannerState → BoundTableRef → FuelledRun SqlFault (Planned BoundTableRef)}
    (h : tableRef ≠ .empty) (state : PlannerState) :
    planFromClause planFrom state tableRef = planFrom state tableRef := by
  cases tableRef with
  | empty => exact absurd rfl h
  | _ => rfl

theorem inline_ne_empty (h : tableRef ≠ .empty) :
    tableRef.inline scope ≠ .empty := by
  cases tableRef with
  | empty => exact absurd rfl h
  | cte cteName aliasName =>
    rw [BoundTableRef.inline, inlineCTE]
    split <;> exact nofun
  | _ => exact nofun

theorem planFromClause_tracks (ih : Tracks catalog spoiled fuel) {tableRef left : BoundTableRef}
    (hleft : tableRef.LeftBy spoiled left) (hctes : AllLeftBy spoiled ctes leftCtes)
    (hscoped : ∀ inner ∈ tableRef.statements, inner.Scoped spoiled)
    (hagrees : Agrees spoiled ctes scope tableRef.freeCTEs) (id : ℕ) :
    Follows spoiled seen seen (planFromClause (planTableRef catalog fuel) ⟨leftCtes, id⟩ left)
        (planFromClause (planTableRef catalog fuel) ⟨[], id⟩ (tableRef.inline scope)) ∧
      ∀ result, planFromClause (planTableRef catalog fuel) ⟨leftCtes, id⟩ left = .ok result →
        AllLeftBy spoiled ctes result.2.2.ctes ∧
        (tableRef.NoAggregates ∨ spoiled → tableRef.LeftBy spoiled result.2.1) := by
  by_cases hempty : tableRef = .empty
  · subst hempty
    cases left with
    | empty =>
      refine ⟨.inr rfl, fun result h => ?_⟩
      cases h
      exact ⟨hctes, fun _ => trivial⟩
    | _ => exact hleft.elim
  · have hne : left ≠ .empty := by
      rintro rfl
      cases tableRef with
      | empty => exact hempty rfl
      | _ => exact hleft.elim
    rw [planFromClause_of_ne_empty hne, planFromClause_of_ne_empty (inline_ne_empty hempty)]
    exact ih tableRef left ctes leftCtes scope id hleft hctes hscoped hagrees

variable {clauses : SelectClauses}

theorem planClauses_follows {left : SelectClauses} (h : clauses.LeftBy spoiled left)
    (source : PlanNode) (id : ℕ) :
    Follows spoiled (fun result => result) (fun result => result)
      (lift (planClauses left source id)) (lift (planClauses clauses source id)) := by
  rcases h with rfl | ⟨hspoiled, hconsumed⟩
  · exact .inr rfl
  · cases hplan : planClauses left source id with
    | error fault => exact .inl ⟨hspoiled, fault, rfl⟩
    | ok result => exact absurd hplan (hconsumed _ _ _)

theorem planClauses_leftBy {left left' : SelectClauses} {source plan : PlanNode}
    {id id' : ℕ} (h : clauses.LeftBy spoiled left) (hkept : clauses.NoAggregates ∨ spoiled)
    (hplan : planClauses left source id = .ok (plan, left', id')) :
    clauses.LeftBy spoiled left' := by
  rcases h with rfl | ⟨-, hconsumed⟩
  · rcases hkept with hno | hspoiled
    · exact .inl (planClauses_unchanged hno hplan)
    · exact (planClauses_consumed hplan).imp_right fun hconsumed => ⟨hspoiled, hconsumed⟩
  · exact absurd hplan (hconsumed _ _ _)

variable {own : List BoundSubquery}

theorem planSelectWith_follows {left table' : BoundTableRef} {clauses' : SelectClauses}
    {state state' : PlannerState}
    (hfrom : Follows spoiled seen seen
      (planFromClause (planTableRef catalog fuel) (state.enter own) left)
      (planFromClause (planTableRef catalog fuel) state' table'))
    (hclauses : clauses.LeftBy spoiled clauses') :
    Follows spoiled seen seen
      (planSelectWith (planTableRef catalog fuel) state (.mk left clauses' own))
      (planSelectWith (planTableRef catalog fuel) state' (.mk table' clauses [])) := by
  refine hfrom.bind fun result result' _ _ hseen => ?_
  obtain ⟨source, left', inner⟩ := result
  obtain ⟨source', table'', inner'⟩ := result'
  obtain ⟨rfl, hid⟩ : source = source' ∧ inner.universalId = inner'.universalId :=
    Prod.mk.inj hseen
  dsimp only
  rw [hid]
  refine (planClauses_follows hclauses source _).bind fun result result' _ _ hsame => ?_
  obtain rfl : result = result' := hsame
  exact .ok rfl

theorem agrees_own {table : BoundTableRef}
    (hne : own ≠ [])
    (hscoped : ∀ inner ∈ (SelectStatement.mk table clauses own).statements, inner.Scoped spoiled) :
    Agrees spoiled own (inlineAll scope own) table.freeCTEs := by
  have hhere := hscoped _ (SelectStatement.mem_statements_self _)
  intro name hname
  obtain ⟨definition, hmem, hfind⟩ : ∃ definition ∈ own, findCTE own name = some definition :=
    exists_findCTE (hhere.visible hne name hname)
  have hself := hhere.definitions definition hmem
  refine ⟨definition, hfind, hself, fun inner hinner => hscoped inner ?_, ?_⟩
  · rw [SelectStatement.statements]
    exact List.mem_cons_of_mem _ (List.mem_append_right _ (mem_statementsOf.mpr
      ⟨definition, hmem, hinner⟩))
  · rw [findCTE_inlineAll, hfind, Option.map_some]
    obtain ⟨subquery, selectListName, aliasName⟩ := definition
    have hclosed : subquery.freeCTEs = [] := hself.closed
    have hsame : subquery.inline scope = subquery.inline [] := subquery.inline_congr (by
      rw [hclosed]
      exact List.forall_mem_nil _)
    rw [BoundSubquery.inline, BoundSubquery.inline, hsame]

theorem kept_mk {table : BoundTableRef}
    (h : (SelectStatement.mk table clauses own).NoAggregates ∨ spoiled) :
    (clauses.NoAggregates ∨ spoiled) ∧ (table.NoAggregates ∨ spoiled) :=
  ⟨h.imp_left fun hno => (noAggregates_mk hno).1, h.imp_left fun hno => (noAggregates_mk hno).2.1⟩

theorem planSelectWith_tracks (ih : Tracks catalog spoiled fuel)
    {statement left : SelectStatement} (hleft : statement.LeftBy spoiled left)
    (hctes : AllLeftBy spoiled ctes leftCtes)
    (hscoped : ∀ inner ∈ statement.statements, inner.Scoped spoiled)
    (hagrees : Agrees spoiled ctes scope statement.freeCTEs) (id : ℕ) :
    Follows spoiled seen seen (planSelectWith (planTableRef catalog fuel) ⟨leftCtes, id⟩ left)
        (planSelectWith (planTableRef catalog fuel) ⟨[], id⟩ (statement.inline scope)) ∧
      ∀ result, planSelectWith (planTableRef catalog fuel) ⟨leftCtes, id⟩ left = .ok result →
        AllLeftBy spoiled ctes result.2.2.ctes ∧
        (statement.NoAggregates ∨ spoiled → statement.LeftBy spoiled result.2.1) := by
  obtain ⟨table, clauses, own⟩ := statement
  obtain ⟨table', clauses', own'⟩ := left
  obtain ⟨htable, hclauses, hown⟩ := hleft
  have hscopedTable : ∀ inner ∈ table.statements, inner.Scoped spoiled := fun inner hinner =>
    hscoped inner (by
      exact List.mem_cons_of_mem _ (List.mem_append_left _ hinner))
  cases own with
  -- without a WITH clause the statement uses the list around it
  | nil =>
    cases own' with
    | cons _ _ => exact hown.elim
    | nil =>
      obtain ⟨hfollows, hkept⟩ :=
        planFromClause_tracks ih htable hctes hscopedTable hagrees id
      refine ⟨planSelectWith_follows hfollows hclauses, fun ⟨plan, statement, state⟩ h => ?_⟩
      obtain ⟨source, table'', inner, clauses'', hfrom, hplan, rfl, hstate⟩ :=
        planSelectWith_ok h
      obtain ⟨hinner, htable''⟩ := hkept _ hfrom
      refine ⟨hstate ▸ hinner, fun hno => ?_⟩
      obtain ⟨hnoClauses, hnoTable⟩ := kept_mk hno
      exact ⟨htable'' hnoTable, planClauses_leftBy hclauses hnoClauses hplan, trivial⟩
  -- with one it uses its own, and the list around it comes back as it was
  | cons cte rest =>
    cases own' with
    | nil => exact hown.elim
    | cons cte' rest' =>
      obtain ⟨hfollows, hkept⟩ := planFromClause_tracks ih htable hown hscopedTable
        (agrees_own (List.cons_ne_nil _ _) hscoped) id
      refine ⟨planSelectWith_follows hfollows hclauses, fun ⟨plan, statement, state⟩ h => ?_⟩
      obtain ⟨source, table'', inner, clauses'', hfrom, hplan, rfl, hstate⟩ :=
        planSelectWith_ok h
      obtain ⟨hinner, htable''⟩ := hkept _ hfrom
      refine ⟨hstate ▸ hctes, fun hno => ?_⟩
      obtain ⟨hnoClauses, hnoTable⟩ := kept_mk hno
      exact ⟨htable'' hnoTable, planClauses_leftBy hclauses hnoClauses hplan, hinner⟩

theorem planSubqueryWith_tracks (ih : Tracks catalog spoiled fuel)
    {query left : BoundSubquery} (query' : BoundSubquery) (hleft : query.LeftBy spoiled left)
    (hctes : AllLeftBy spoiled ctes leftCtes)
    (hscoped : ∀ inner ∈ query.statements, inner.Scoped spoiled)
    (hagrees : Agrees spoiled ctes scope query.freeCTEs)
    (hsubquery : query'.subquery = query.subquery.inline scope)
    (hnames : query'.selectListName = query.selectListName) (aliasName : String) (id : ℕ) :
    Follows spoiled seen seen
        (planSubqueryWith (planTableRef catalog fuel) ⟨leftCtes, id⟩ left aliasName)
        (planSubqueryWith (planTableRef catalog fuel) ⟨[], id⟩ query' aliasName) ∧
      ∀ result, planSubqueryWith (planTableRef catalog fuel) ⟨leftCtes, id⟩ left aliasName =
          .ok result →
        AllLeftBy spoiled ctes result.2.2.ctes ∧
        (query.NoAggregates ∨ spoiled → query.LeftBy spoiled result.2.1) := by
  obtain ⟨statement, selectListName, name⟩ := query
  obtain ⟨left, selectListName', name'⟩ := left
  obtain ⟨hstatement, rfl, rfl⟩ := hleft
  obtain ⟨hfollows, hkept⟩ := planSelectWith_tracks ih hstatement hctes hscoped hagrees id
  refine ⟨?_, fun ⟨plan, query'', state⟩ h => ?_⟩
  · rw [planSubqueryWith, planSubqueryWith, hsubquery, hnames]
    refine hfollows.bind fun result result' _ _ hseen => ?_
    obtain ⟨selectNode, left', inner⟩ := result
    obtain ⟨selectNode', statement', inner'⟩ := result'
    obtain ⟨rfl, hid⟩ : selectNode = selectNode' ∧ inner.universalId = inner'.universalId :=
      Prod.mk.inj hseen
    refine .bind_same _ fun items => .bind_same _ fun plan => .ok ?_
    exact Prod.ext rfl hid
  · obtain ⟨selectNode, subquery, items, hselect, -, -, rfl⟩ := planSubqueryWith_ok h
    obtain ⟨hstate, hsubquery'⟩ := hkept _ hselect
    exact ⟨hstate, fun hno => ⟨hsubquery' hno, rfl, rfl⟩⟩

section Sides

variable {first second first' second' : BoundTableRef}

theorem planSides_follows (ih : Tracks catalog spoiled fuel)
    (hfirst : first.LeftBy spoiled first') (hsecond : second.LeftBy spoiled second')
    (hctes : AllLeftBy spoiled ctes leftCtes)
    (hscoped : ∀ inner ∈ first.statements ++ second.statements, inner.Scoped spoiled)
    (hagrees : Agrees spoiled ctes scope (first.freeCTEs ++ second.freeCTEs)) (id : ℕ)
    {next next' : Planned BoundTableRef → Planned BoundTableRef →
      FuelledRun SqlFault (Planned BoundTableRef)}
    (hnext : ∀ firstResult firstResult' secondResult secondResult',
      firstResult.1 = firstResult'.1 → seen secondResult = seen secondResult' →
      Follows spoiled seen seen (next firstResult secondResult)
        (next' firstResult' secondResult')) :
    Follows spoiled seen seen
      (do
        let firstResult ← planTableRef catalog fuel ⟨leftCtes, id⟩ first'
        let secondResult ← planTableRef catalog fuel firstResult.2.2 second'
        next firstResult secondResult)
      (do
        let firstResult ← planTableRef catalog fuel ⟨[], id⟩ (first.inline scope)
        let secondResult ← planTableRef catalog fuel firstResult.2.2 (second.inline scope)
        next' firstResult secondResult) := by
  obtain ⟨hscopedFirst, hscopedSecond⟩ := List.forall_mem_append.mp hscoped
  obtain ⟨hagreesFirst, hagreesSecond⟩ := List.forall_mem_append.mp hagrees
  obtain ⟨hfollows, hleft⟩ :=
    ih first first' ctes leftCtes scope id hfirst hctes hscopedFirst hagreesFirst
  refine hfollows.bind fun firstResult firstResult' hok hok' hseen => ?_
  obtain ⟨hplan, hid⟩ := Prod.mk.inj hseen
  have hstate : firstResult'.2.2 = ⟨[], firstResult.2.2.universalId⟩ := by
    rw [hid, ← ctes_planTableRef_nil hok']
  rw [hstate]
  obtain ⟨hfollows', -⟩ := ih second second' ctes firstResult.2.2.ctes scope
    firstResult.2.2.universalId hsecond (hleft _ hok).1 hscopedSecond hagreesSecond
  exact hfollows'.bind fun _ _ _ _ hseen' => hnext _ _ _ _ hplan hseen'

theorem planSides_left (ih : Tracks catalog spoiled fuel)
    (hfirst : first.LeftBy spoiled first') (hsecond : second.LeftBy spoiled second')
    (hctes : AllLeftBy spoiled ctes leftCtes)
    (hscoped : ∀ inner ∈ first.statements ++ second.statements, inner.Scoped spoiled)
    (hagrees : Agrees spoiled ctes scope (first.freeCTEs ++ second.freeCTEs)) {id : ℕ}
    {firstResult secondResult : Planned BoundTableRef}
    (hok : planTableRef catalog fuel ⟨leftCtes, id⟩ first' = .ok firstResult)
    (hok' : planTableRef catalog fuel firstResult.2.2 second' = .ok secondResult) :
    AllLeftBy spoiled ctes secondResult.2.2.ctes ∧
      ((∀ inner ∈ first.statements ++ second.statements, inner.clauses.NoAggregates) ∨ spoiled →
        first.LeftBy spoiled firstResult.2.1 ∧ second.LeftBy spoiled secondResult.2.1) := by
  obtain ⟨hscopedFirst, hscopedSecond⟩ := List.forall_mem_append.mp hscoped
  obtain ⟨hagreesFirst, hagreesSecond⟩ := List.forall_mem_append.mp hagrees
  obtain ⟨-, hleft⟩ :=
    ih first first' ctes leftCtes scope id hfirst hctes hscopedFirst hagreesFirst
  obtain ⟨hmiddle, hkept⟩ := hleft _ hok
  obtain ⟨-, hleft'⟩ := ih second second' ctes firstResult.2.2.ctes scope
    firstResult.2.2.universalId hsecond hmiddle hscopedSecond hagreesSecond
  obtain ⟨hlast, hkept'⟩ := hleft' _ hok'
  refine ⟨hlast, fun hno => ⟨hkept (hno.imp_left fun h => ?_), hkept' (hno.imp_left fun h => ?_)⟩⟩
  · exact (noAggregates_join h).1
  · exact (noAggregates_join h).2

end Sides

theorem planCTERefWith_tracks (ih : Tracks catalog spoiled fuel) {cteName : String}
    (hctes : AllLeftBy spoiled ctes leftCtes) (hagrees : Agrees spoiled ctes scope [cteName])
    (aliasName : String) (id : ℕ) :
    Follows spoiled seen seen
        (planTableRef catalog (fuel + 1) ⟨leftCtes, id⟩ (.cte cteName aliasName))
        (planTableRef catalog (fuel + 1) ⟨[], id⟩ (inlineCTE scope cteName aliasName)) ∧
      ∀ result, planTableRef catalog (fuel + 1) ⟨leftCtes, id⟩ (.cte cteName aliasName) =
          .ok result → AllLeftBy spoiled ctes result.2.2.ctes ∧
        (BoundTableRef.cte cteName aliasName).LeftBy spoiled result.2.1 := by
  obtain ⟨definition, hfind, hself, hscoped, hscope⟩ := hagrees cteName List.mem_cons_self
  obtain ⟨definition', hfind', hleft⟩ := findCTE_allLeftBy hctes hfind
  -- the definition refers to no CTE, so it is planned in any list
  have hclosed : Agrees spoiled ctes [] definition.freeCTEs := by
    rw [hself.closed]
    exact List.forall_mem_nil _
  obtain ⟨hfollows, hkept⟩ := planSubqueryWith_tracks ih
    (.mk (definition.inline []).subquery (definition.inline []).selectListName aliasName) hleft
    hctes hscoped hclosed (by cases definition; rfl) (by cases definition; rfl) aliasName id
  have hempty : leftCtes.isEmpty = false :=
    List.isEmpty_eq_false_iff.mpr (List.ne_nil_of_mem (List.mem_of_find?_eq_some hfind'))
  refine ⟨?_, fun result h => ?_⟩
  · simp only [inlineCTE, hscope, planTableRef, planCTERefWith, hempty, hfind']
    exact hfollows.bind fun _ _ _ _ hseen => .ok hseen
  · cases tablePlanned_of_ok h with
    | cte hfound hquery =>
      obtain rfl := Option.some.inj (hfind'.symm.trans hfound)
      obtain ⟨hstate, hdefinition⟩ := hkept _ hquery
      exact ⟨replaceCTE_allLeftBy hstate hfind (hdefinition hself.kept), rfl, rfl⟩

/-- **The planner follows the scopes.** -/
theorem planTableRef_tracks (fuel : ℕ) : Tracks catalog spoiled fuel := by
  induction fuel with
  | zero => exact fun _ _ _ _ _ _ _ _ _ _ => ⟨.inr rfl, nofun⟩
  | succ fuel ih =>
    intro tableRef left ctes leftCtes scope id hleft hctes hscoped hagrees
    cases tableRef with
    | empty =>
      cases left with
      | empty => exact ⟨.inr rfl, nofun⟩
      | _ => exact hleft.elim
    | baseTable table oid aliasName schema =>
      cases left with
      | baseTable table' oid' aliasName' schema' =>
        obtain ⟨rfl, rfl, rfl, rfl⟩ := hleft
        refine ⟨.bind_same _ fun plan => .ok rfl, fun result h => ?_⟩
        cases tablePlanned_of_ok h with
        | baseTable hplan => exact ⟨hctes, fun _ => .refl _⟩
      | _ => exact hleft.elim
    | expressionList values identifier =>
      cases left with
      | expressionList values' identifier' =>
        obtain ⟨rfl, rfl⟩ := hleft
        refine ⟨.bind_same _ fun plan => .ok rfl, fun result h => ?_⟩
        cases tablePlanned_of_ok h with
        | expressionList hplan => exact ⟨hctes, fun _ => .refl _⟩
      | _ => exact hleft.elim
    | crossProduct first second =>
      cases left with
      | crossProduct first' second' =>
        obtain ⟨hfirst, hsecond⟩ := hleft
        refine ⟨planSides_follows ih hfirst hsecond hctes hscoped hagrees id
          fun _ _ _ _ hplan hseen => .ok ?_, fun result h => ?_⟩
        · obtain ⟨hplan', hid⟩ := Prod.mk.inj hseen
          simp [seen, hplan, hplan', hid]
        · cases tablePlanned_of_ok h with
          | crossProduct hok hok' =>
            exact planSides_left ih hfirst hsecond hctes hscoped hagrees hok hok'
      | _ => exact hleft.elim
    | join joinType first second condition =>
      cases left with
      | join joinType' first' second' condition' =>
        obtain ⟨rfl, rfl, hfirst, hsecond⟩ := hleft
        refine ⟨planSides_follows ih hfirst hsecond hctes hscoped hagrees id
          fun (plan, _, _) _ (plan', _, _) (_, _, _) hplan hseen => ?_, fun result h => ?_⟩
        · obtain ⟨hplan', hid⟩ := Prod.mk.inj hseen
          obtain rfl : plan = _ := hplan
          obtain rfl : plan' = _ := hplan'
          exact .bind_same _ fun predicate => .ok (Prod.ext rfl hid)
        · cases tablePlanned_of_ok h with
          | join hok hok' hcondition =>
            obtain ⟨hstate, hsides⟩ :=
              planSides_left ih hfirst hsecond hctes hscoped hagrees hok hok'
            exact ⟨hstate, fun hno => ⟨rfl, rfl, hsides hno⟩⟩
      | _ => exact hleft.elim
    | subquery query =>
      cases left with
      | subquery query' =>
        have hname : query'.aliasName = (query.inline scope).aliasName :=
          (aliasName_leftBy hleft).trans (aliasName_inline scope query).symm
        have hstatements : ∀ inner ∈ query.statements, inner.Scoped spoiled := hscoped
        obtain ⟨hfollows, hkept⟩ := planSubqueryWith_tracks ih (query.inline scope) hleft
          hctes hstatements hagrees (by cases query; rfl) (by cases query; rfl)
          query'.aliasName id
        refine ⟨?_, fun result h => ?_⟩
        · rw [planTableRef, BoundTableRef.inline, planTableRef, ← hname]
          exact hfollows.bind fun _ _ _ _ hseen => .ok hseen
        · cases tablePlanned_of_ok h with
          | subquery hquery =>
            obtain ⟨hstate, hquery'⟩ := hkept _ hquery
            refine ⟨hstate, fun hno => hquery' (hno.imp_left fun h inner hinner => ?_)⟩
            exact h inner (by rwa [BoundTableRef.statements, BoundSubquery.statements_eq])
      | _ => exact hleft.elim
    -- the only case in which the list is read
    | cte cteName aliasName =>
      cases left with
      | cte cteName' aliasName' =>
        obtain ⟨rfl, rfl⟩ := hleft
        obtain ⟨hfollows, hkept⟩ := planCTERefWith_tracks ih hctes hagrees aliasName' id
        exact ⟨hfollows, fun result h => (hkept result h).imp_right fun hleft _ => hleft⟩
      | _ => exact hleft.elim

end Planner

/-! ## Bound statements -/

def SelectStatement.ClosedDefinitions (statement : SelectStatement) : Prop :=
  ∀ inner ∈ statement.statements, ∀ definition ∈ inner.ctes, definition.freeCTEs = []

def SelectStatement.PlainDefinitions (statement : SelectStatement) : Prop :=
  ∀ inner ∈ statement.statements, ∀ definition ∈ inner.ctes, definition.NoAggregates

namespace Planner

theorem planSelect_follows {parsed : ParseSelect} {id id' : ℕ} {bound : SelectStatement}
    (hbound : bindSelect catalog [] parsed id = .ok (bound, id'))
    (hclosed : bound.ClosedDefinitions) (fuel number : ℕ) :
    Follows (¬ bound.PlainDefinitions) Prod.fst Prod.fst
      (planSelect catalog fuel ⟨[], number⟩ bound)
      (planSelect catalog fuel ⟨[], number⟩ (bound.inline [])) := by
  have hvisible := (bindSelect_wellBound parsed (List.forall_mem_nil _) hbound).visible
  have hscoped : ∀ inner ∈ bound.statements, inner.Scoped (¬ bound.PlainDefinitions) := by
    intro inner hinner
    refine ⟨hvisible.2 inner hinner, fun definition hdefinition =>
      ⟨hclosed inner hinner definition hdefinition, ?_⟩⟩
    by_cases hplain : bound.PlainDefinitions
    · exact .inl (hplain inner hinner definition hdefinition)
    · exact .inr hplain
  obtain ⟨hfollows, -⟩ := planSelectWith_tracks (planTableRef_tracks fuel)
    (SelectStatement.LeftBy.refl bound) (allLeftBy_refl []) hscoped
    (fun name hname => nomatch hvisible.1 name hname) number
  exact hfollows.coarsen Prod.fst

/-- `SELECT * FROM tables`, with a WITH clause. -/
def parseStar (withClause : List ParseCTE) (fromClause : List ParseTable) : ParseSelect :=
  .select false withClause fromClause (parseTargets [.columnStar])

/-- `WITH x AS (SELECT 1 AS x) SELECT * FROM x, (WITH x AS (body) SELECT * FROM x) AS s`. -/
def parseShadowing (body : ParseSelect) : ParseSelect :=
  parseStar [.select "x" false parseOne] [.rangeVar "x" none, .rangeSubselect false
    (parseStar [.select "x" false body] [.rangeVar "x" none]) (some "s")]

def boundShadowing (body : SelectStatement) (column : List String) : SelectStatement :=
  .mk (.crossProduct (.cte "x" "x") (.subquery (.mk (.mk (.cte "x" "x")
      (selectOnly [.columnRef ("x" :: column)]) [.mk body [column] "x"]) [("x" :: column)] "s")))
    (selectOnly [.columnRef ["x", "x"], .columnRef ("s" :: "x" :: column)])
    [.mk oneAsX [["x"]] "x"]

/-- `SELECT * FROM x`. -/
def selectFromX : SelectStatement :=
  .mk (.cte "x" "x") (selectOnly [.columnRef ["x", "x"]]) []

/-- A definition that the planner takes to refer to itself. -/
theorem planTableRef_self (fuel id : ℕ) :
    planTableRef catalog fuel ⟨[.mk selectFromX [["x", "x"]] "x"], id⟩ (.cte "x" "x") =
      .error .outOfFuel := by
  induction fuel with
  | zero => rfl
  | succ fuel ih =>
    have hselect : planSelectWith (planTableRef catalog fuel)
        ⟨[.mk selectFromX [["x", "x"]] "x"], id⟩ selectFromX = .error .outOfFuel := by
      exact bind_outOfFuel ih _
    exact bind_outOfFuel (bind_outOfFuel hselect _) _

end Planner

end BusTub
