import BusTub.Execution.Plan

/-!
# Bound select statements

The model of `SelectStatement` and of the table references in its FROM clause.

A table reference is a base table, a join, a list of rows, a subquery, or the name of a common
table expression (CTE).  A statement has its own list of CTEs, which may be empty; a reference to
one has a name only, and so does not say which list it is to be looked up in.
-/

namespace BusTub

/-- `SelectStatement`, all but its tables.  A clause that is missing is an expression of the
type INVALID in the source. -/
structure SelectClauses where
  selectList : List BoundExpression
  whereClause : Option BoundExpression
  groupBy : List BoundExpression
  having : Option BoundExpression
  limitCount : Option BoundExpression
  limitOffset : Option BoundExpression
  sort : List (OrderByType × BoundExpression)
  isDistinct : Bool

mutual

/-- `BoundTableRef`, with its subclasses. -/
inductive BoundTableRef
  | empty
  | baseTable (table : String) (oid : ℕ) (aliasName : Option String) (schema : OutputSchema)
  | join (joinType : JoinType) (left right : BoundTableRef) (condition : BoundExpression)
  | crossProduct (left right : BoundTableRef)
  | expressionList (values : List (List BoundExpression)) (identifier : String)
  | subquery (query : BoundSubquery)
  | cte (cteName aliasName : String)

/-- `BoundSubqueryRef`. -/
inductive BoundSubquery
  | mk (subquery : SelectStatement) (selectListName : List (List String)) (aliasName : String)

/-- `SelectStatement`. -/
inductive SelectStatement
  | mk (table : BoundTableRef) (clauses : SelectClauses) (ctes : List BoundSubquery)

end

namespace BoundSubquery

/-- `subquery_`. -/
def subquery : BoundSubquery → SelectStatement
  | mk subquery _ _ => subquery

/-- `select_list_name_`. -/
def selectListName : BoundSubquery → List (List String)
  | mk _ selectListName _ => selectListName

/-- `alias_`. -/
def aliasName : BoundSubquery → String
  | mk _ _ aliasName => aliasName

end BoundSubquery

namespace SelectStatement

/-- `table_`. -/
def table : SelectStatement → BoundTableRef
  | mk table _ _ => table

def clauses : SelectStatement → SelectClauses
  | mk _ clauses _ => clauses

/-- `ctes_`. -/
def ctes : SelectStatement → List BoundSubquery
  | mk _ _ ctes => ctes

end SelectStatement

abbrev TableCatalog := String → Option (ℕ × OutputSchema)

def findCTE (ctes : List BoundSubquery) (name : String) : Option BoundSubquery :=
  ctes.find? fun cte => cte.aliasName = name

theorem exists_findCTE {ctes : List BoundSubquery} {name : String}
    (h : name ∈ ctes.map BoundSubquery.aliasName) :
    ∃ definition ∈ ctes, findCTE ctes name = some definition := by
  obtain ⟨cte, hmem, rfl⟩ := List.mem_map.mp h
  obtain ⟨definition, hfind⟩ : ∃ definition, findCTE ctes cte.aliasName = some definition :=
    Option.isSome_iff_exists.mp (List.find?_isSome.mpr ⟨cte, hmem, by simp⟩)
  exact ⟨definition, List.mem_of_find?_eq_some hfind, hfind⟩

/-- `GetBoundTableName`. -/
def getBoundTableName (table : String) (aliasName : Option String) : String :=
  aliasName.getD table

/-! ## All statements of a statement -/

mutual

def BoundTableRef.statements : BoundTableRef → List SelectStatement
  | .join _ left right _ | .crossProduct left right => left.statements ++ right.statements
  | .subquery query => query.statements
  | .empty | .baseTable _ _ _ _ | .expressionList _ _ | .cte _ _ => []

def BoundSubquery.statements : BoundSubquery → List SelectStatement
  | .mk subquery _ _ => subquery.statements

/-- The statement itself, and those in its FROM clause and in its CTEs. -/
def SelectStatement.statements : SelectStatement → List SelectStatement
  | .mk table clauses ctes => .mk table clauses ctes :: (table.statements ++ statementsOf ctes)

def statementsOf : List BoundSubquery → List SelectStatement
  | [] => []
  | cte :: rest => cte.statements ++ statementsOf rest

end

theorem mem_statementsOf {ctes : List BoundSubquery} {statement : SelectStatement} :
    statement ∈ statementsOf ctes ↔ ∃ cte ∈ ctes, statement ∈ cte.statements := by
  induction ctes with
  | nil => simp [statementsOf]
  | cons cte rest ih => simp [statementsOf, ih]

theorem SelectStatement.mem_statements_self (statement : SelectStatement) :
    statement ∈ statement.statements := by
  cases statement with
  | mk table clauses ctes =>
    exact List.mem_cons_self

theorem BoundSubquery.statements_eq (query : BoundSubquery) :
    query.statements = query.subquery.statements := by
  cases query
  rfl

mutual

theorem BoundTableRef.statements_trans : ∀ (tableRef : BoundTableRef)
    {inner innermost : SelectStatement}, inner ∈ tableRef.statements →
      innermost ∈ inner.statements → innermost ∈ tableRef.statements
  | .join _ left right _, inner, innermost, h, hin | .crossProduct left right, inner, innermost, h,
    hin => by
      rw [BoundTableRef.statements, List.mem_append] at h ⊢
      exact h.imp (left.statements_trans · hin) (right.statements_trans · hin)
  | .subquery (.mk subquery _ _), inner, innermost, h, hin => subquery.statements_trans h hin

theorem SelectStatement.statements_trans : ∀ (statement : SelectStatement)
    {inner innermost : SelectStatement}, inner ∈ statement.statements →
      innermost ∈ inner.statements → innermost ∈ statement.statements
  | .mk table clauses ctes, inner, innermost, h, hin => by
    rw [SelectStatement.statements, List.mem_cons, List.mem_append] at h
    rcases h with rfl | h | h
    · exact hin
    · rw [SelectStatement.statements]
      exact List.mem_cons_of_mem _ (List.mem_append_left _ (table.statements_trans h hin))
    · rw [SelectStatement.statements]
      exact List.mem_cons_of_mem _ (List.mem_append_right _ (statementsOf_trans ctes h hin))

theorem statementsOf_trans : ∀ (ctes : List BoundSubquery) {inner innermost : SelectStatement},
    inner ∈ statementsOf ctes → innermost ∈ inner.statements → innermost ∈ statementsOf ctes
  | .mk subquery _ _ :: rest, inner, innermost, h, hin => by
    rw [statementsOf, List.mem_append] at h ⊢
    exact h.imp (subquery.statements_trans · hin) (statementsOf_trans rest · hin)

end

namespace BoundExpression

def hasAggCall : BoundExpression → Bool
  | aggCall _ _ _ => true
  | binaryOp _ larg rarg => larg.hasAggCall || rarg.hasAggCall
  | unaryOp _ arg => arg.hasAggCall
  | aliased _ child => child.hasAggCall
  | star | columnRef _ | constant _ => false

/-- `HasAggregation`. -/
def hasAggregation : BoundExpression → Except SqlFault Bool
  | star =>
    .error (.exception "`HasAggregation` should not have been called on `BoundStar`.")
  | columnRef _ | constant _ => .ok false
  | binaryOp _ larg rarg => do
      if ← larg.hasAggregation then return true
      else rarg.hasAggregation
  | unaryOp _ arg => arg.hasAggregation
  | aliased _ child => child.hasAggregation
  | aggCall _ _ _ => .ok true

end BoundExpression

end BusTub
