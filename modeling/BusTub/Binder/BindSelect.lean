import BusTub.Binder.ResolveColumn

/-!
# Binding select statements

The model of `BindSelect` and the functions it calls, from the nodes of the parser to bound
statements.

The binder keeps two scopes: the tables in which columns are looked up, and the CTEs in which the
names of tables are looked up.  A statement with a WITH clause has the CTEs of that clause in
scope, and no others; the CTEs themselves are bound before, in the scope of the surrounding
statement.
-/

namespace BusTub

/-! ## The nodes of the parser -/

/-- `PGJoinType`. -/
inductive ParseJoinType
  | inner
  | left
  | full
  | right
  | semi
  | anti
  | uniqueOuter
  | uniqueInner
deriving DecidableEq, Repr

def ParseJoinType.code : ParseJoinType → ℕ
  | inner => 0
  | left => 1
  | full => 2
  | right => 3
  | semi => 4
  | anti => 5
  | uniqueOuter => 6
  | uniqueInner => 7

/-- `distinctClause`: there is none, it is DISTINCT, or DISTINCT ON. -/
inductive ParseDistinct
  | none
  | all
  | on
deriving DecidableEq, Repr

/-- `PGSortByDir`. -/
inductive ParseSortDirection
  | default
  | asc
  | desc
  | using
deriving DecidableEq, Repr

/-- A node of the ORDER BY clause, a `PGSortBy` or something else. -/
inductive ParseSort
  | sortBy (direction : ParseSortDirection) (node : ParseNode)
  | other

/-- `PGSelectStmt`, the clauses behind the FROM clause.  A list that is missing is empty, but
for the list of targets, which set operations do not have. -/
structure ParseClauses where
  distinctClause : ParseDistinct
  targetList : Option (List ParseNode)
  whereClause : Option ParseNode
  groupClause : List ParseNode
  havingClause : Option ParseNode
  limitCount : Option ParseNode
  limitOffset : Option ParseNode
  sortClause : List ParseSort

mutual

/-- `PGNode`, for tables. -/
inductive ParseTable
  | rangeVar (relname : String) (aliasName : Option String)
  | joinExpr (joinType : ParseJoinType) (larg rarg : ParseTable) (quals : Option ParseNode)
  | rangeSubselect (lateral : Bool) (subquery : ParseSelect) (aliasName : Option String)
  | other (tag : String)

/-- `PGCommonTableExpr`; the query may be no select statement. -/
inductive ParseCTE
  | select (ctename : String) (cterecursive : Bool) (ctequery : ParseSelect)
  | other

/-- `PGSelectStmt`.  A statement with VALUES is not asked for anything else; one without a WITH
clause has no CTEs there. -/
inductive ParseSelect
  | values (valuesLists : List (List ParseNode))
  | select (recursive : Bool) (withClause : List ParseCTE) (fromClause : List ParseTable)
      (clauses : ParseClauses)

end

namespace Binder

/-! ## Clauses -/

/-- The scope outside of a FROM clause: no table, and a column is looked up through a null
pointer. -/
def nullScope (_ : List String) : Except SqlFault BoundExpression := .error .undefinedBehaviour

/-- The loop of `BindValuesList`, after a first row of some length. -/
def bindRows (length : Option ℕ) :
    List (List ParseNode) → Except SqlFault (List (List BoundExpression))
  | [] => .ok []
  | target :: rest => do
      let values ← bindExpressionList nullScope target
      if length.any (· ≠ values.length) then
        throw (.exception "values must have the same length")
      let others ← bindRows (some (length.getD values.length)) rest
      return values :: others

def selectOnly (selectList : List BoundExpression) : SelectClauses :=
  { selectList, whereClause := none, groupBy := [], having := none, limitCount := none,
    limitOffset := none, sort := [], isDistinct := false }

/-- `BindValuesList`, and the statement that selects the columns of the rows. -/
def bindValues (valuesLists : List (List ParseNode)) (identifier : String) :
    Except SqlFault SelectStatement := do
  match ← bindRows none valuesLists with
  | [] => throw (.exception "at least one row of values should be provided")
  | first :: rest =>
    let exprs := (List.range first.length).map fun i =>
      BoundExpression.columnRef [identifier, toString i]
    return .mk (.expressionList (first :: rest) identifier) (selectOnly exprs) []

section Scope

variable (ctes : List BoundSubquery) (scope : BoundTableRef)

/-- `BindExpression`, in the scope of tables. -/
def bindInScope : ParseNode → Except SqlFault BoundExpression :=
  bindExpression (resolveColumn ctes scope)

/-- `BindSelectList`: the loop, with the list so far and whether it is that of a star. -/
def bindSelectList : List ParseNode → List BoundExpression → Bool →
    Except SqlFault (List BoundExpression)
  | [], selectList, _ => .ok selectList
  | target :: rest, selectList, isSelectStar => do
      let expr ← bindInScope ctes scope target
      if expr.isStar then
        if !selectList.isEmpty then
          throw (.exception "select * cannot have other expressions in list")
        let columns ← getAllColumns ctes scope
        bindSelectList rest (columns.map .columnRef) true
      else
        if isSelectStar then
          throw (.exception "select * cannot have other expressions in list")
        bindSelectList rest (selectList ++ [expr]) isSelectStar

def bindDistinct : ParseDistinct → Except SqlFault Bool
  | .none => .ok false
  | .all => .ok true
  | .on => .error (.exception "DISTINCT ON is not supported")

def bindClause (clause : Option ParseNode) : Except SqlFault (Option BoundExpression) :=
  bindOptional (resolveColumn ctes scope) clause

def bindDirection : ParseSortDirection → Except SqlFault OrderByType
  | .default => .ok .default
  | .asc => .ok .asc
  | .desc => .ok .desc
  | .using => .error (.exception "unimplemented order by type")

/-- `BindSort`. -/
def bindSort : List ParseSort → Except SqlFault (List (OrderByType × BoundExpression))
  | [] => .ok []
  | .other :: _ => .error (.exception "unsupported order by node")
  | .sortBy direction target :: rest => do
      let type ← bindDirection direction
      let orderExpression ← bindInScope ctes scope target
      let orderBy ← bindSort rest
      return (type, orderExpression) :: orderBy

/-- `BindSelect` behind the FROM clause. -/
def bindClauses (clauses : ParseClauses) : Except SqlFault SelectClauses := do
  let isDistinct ← bindDistinct clauses.distinctClause
  match clauses.targetList with
  | none => throw (.exception "no select list")
  | some targetList =>
    let selectList ← bindSelectList ctes scope targetList [] false
    let whereClause ← bindClause ctes scope clauses.whereClause
    let groupBy ← bindExpressionList (resolveColumn ctes scope) clauses.groupClause
    let having ← bindClause ctes scope clauses.havingClause
    let limitCount ← bindClause ctes scope clauses.limitCount
    let limitOffset ← bindClause ctes scope clauses.limitOffset
    let sort ← bindSort ctes scope clauses.sortClause
    return { selectList, whereClause, groupBy, having, limitCount, limitOffset, sort, isDistinct }

end Scope

/-! ## Tables -/

def bindJoinType : ParseJoinType → Except SqlFault JoinType
  | .inner => .ok .inner
  | .left => .ok .left
  | .full => .ok .outer
  | .right => .ok .right
  | joinType => .error (.exception ("Join type " ++ toString joinType.code ++ " not supported"))

/-- The condition of a join, in the scope of the join, which has no condition yet.  The condition
of a join that is written without one is a null pointer. -/
def bindCondition (ctes : List BoundSubquery) (left right : BoundTableRef)
    (quals : Option ParseNode) : Except SqlFault BoundExpression :=
  match quals with
  | none => .error .undefinedBehaviour
  | some quals => bindInScope ctes (.crossProduct left right) quals

/-- `BindBaseTableRef`. -/
def bindBaseTableRef (catalog : TableCatalog) (tableName : String) (aliasName : Option String) :
    Except SqlFault BoundTableRef :=
  match catalog tableName with
  | none => .error (.exception ("invalid table " ++ tableName))
  | some (oid, schema) => .ok (.baseTable tableName oid aliasName schema)

/-- `BindRangeVar`: a CTE in scope comes before a table. -/
def bindRangeVar (catalog : TableCatalog) (ctes : List BoundSubquery) (relname : String)
    (aliasName : Option String) : Except SqlFault BoundTableRef :=
  match findCTE ctes relname with
  | some cte => .ok (.cte cte.aliasName (aliasName.getD relname))
  | none => bindBaseTableRef catalog relname aliasName

/-- The name of a column of a subquery, and the next number. -/
def selectListName : BoundExpression → ℕ → List String × ℕ
  | .columnRef colName, id => (colName, id)
  | .aliased name _, id => ([name], id)
  | _, id => (["__item#" ++ toString id], id + 1)

def selectListNames : List BoundExpression → ℕ → List (List String) × ℕ
  | [], id => ([], id)
  | col :: rest, id =>
    let (name, id) := selectListName col id
    let (names, id) := selectListNames rest id
    (name :: names, id)

/-- `BindSubquery`, when the statement is bound. -/
def subqueryOf (subquery : SelectStatement) (aliasName : String) (id : ℕ) : BoundSubquery × ℕ :=
  let (names, id) := selectListNames subquery.clauses.selectList id
  (.mk subquery names aliasName, id)

def subqueryAlias (aliasName : Option String) (id : ℕ) : String × ℕ :=
  match aliasName with
  | some aliasName => (aliasName, id)
  | none => ("__subquery#" ++ toString id, id + 1)

section Catalog

variable (catalog : TableCatalog)

mutual

/-- `BindTableRef`, with `BindJoin` and `BindRangeSubselect`. -/
def bindTableRef (ctes : List BoundSubquery) : ParseTable → ℕ →
    Except SqlFault (BoundTableRef × ℕ)
  | .rangeVar relname aliasName, id => do
      let table ← bindRangeVar catalog ctes relname aliasName
      return (table, id)
  | .joinExpr joinType larg rarg quals, id => do
      let joinType ← bindJoinType joinType
      let (left, id) ← bindTableRef ctes larg id
      let (right, id) ← bindTableRef ctes rarg id
      let condition ← bindCondition ctes left right quals
      return (.join joinType left right condition, id)
  | .rangeSubselect lateral subquery aliasName, id => do
      if lateral then throw (.exception "LATERAL in subquery is not supported")
      let (aliasName, id) := subqueryAlias aliasName id
      let (statement, id) ← bindSelect ctes subquery id
      let (query, id) := subqueryOf statement aliasName id
      return (.subquery query, id)
  | .other tag, _ => .error (.exception ("unsupported node type: " ++ tag))

/-- The remaining tables of `BindFrom`. -/
def bindCrossProduct (ctes : List BoundSubquery) : List ParseTable → BoundTableRef → ℕ →
    Except SqlFault (BoundTableRef × ℕ)
  | [], result, id => .ok (result, id)
  | node :: rest, result, id => do
      let (table, id) ← bindTableRef ctes node id
      bindCrossProduct ctes rest (.crossProduct result table) id

/-- `BindFrom`. -/
def bindFrom (ctes : List BoundSubquery) : List ParseTable → ℕ →
    Except SqlFault (BoundTableRef × ℕ)
  | [], id => .ok (.empty, id)
  | node :: rest, id => do
      let (table, id) ← bindTableRef ctes node id
      bindCrossProduct ctes rest table id

/-- `BindCTE`. -/
def bindCTE (ctes : List BoundSubquery) (recursive : Bool) : List ParseCTE → ℕ →
    Except SqlFault (List BoundSubquery × ℕ)
  | [], id => .ok ([], id)
  | .other :: _, _ => .error (.exception "SELECT not found")
  | .select ctename cterecursive ctequery :: rest, id => do
      if cterecursive || recursive then throw (.exception "recursive CTE not supported")
      let (statement, id) ← bindSelect ctes ctequery id
      let (cte, id) := subqueryOf statement ctename id
      let (others, id) ← bindCTE ctes recursive rest id
      return (cte :: others, id)

/-- `BindSelect`. -/
def bindSelect (ctes : List BoundSubquery) : ParseSelect → ℕ →
    Except SqlFault (SelectStatement × ℕ)
  | .values valuesLists, id => do
      let statement ← bindValues valuesLists ("__values#" ++ toString id)
      return (statement, id + 1)
  | .select recursive withClause fromClause clauses, id => do
      let (own, id) ← bindCTE ctes recursive withClause id
      let scope := if withClause.isEmpty then ctes else own
      let (table, id) ← bindFrom scope fromClause id
      let clauses ← bindClauses scope table clauses
      return (.mk table clauses own, id)

end

end Catalog

end Binder

end BusTub
