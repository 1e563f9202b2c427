import BusTub.Catalog.IndexedTables
import BusTub.Concurrency.TransactionManager
import BusTub.Library.ThrowingRun

/-!
# Running a SQL text

The model of `common/bustub_instance.cpp`: `ExecuteSql`, which begins a transaction, runs the
statements of a text in it, and commits, and `ExecuteSqlTxn`, with the internal commands and a
case for each kind of statement.

The stages of a statement are taken as they come: the parser, the binder, the catalog, the
planner, the optimizer and the executors may do anything to the session, and may throw.  They do
not reach the transaction manager.  The catalog lock is left out; its guards release it on every
way out.

`ExecuteSql` has no handler.  If a stage throws, `Commit` is not reached: the transaction stays as
the stage has left it, and the global latch stays held.  So the latch counts the calls that have
thrown, and `BlockAllTransactions` does not get it again.
-/

namespace BusTub

open Machines TransactionManager

/-- What a stage throws: `bustub::Exception`, or the `std::logic_error` of `UNREACHABLE` and
`BUSTUB_ENSURE`. -/
inductive Thrown
  | exception (message : String)
  | logicError (message : String)
deriving DecidableEq

/-- The calls of a `ResultWriter`. -/
inductive WriterCall
  | beginTable (simplifiedOutput : Bool)
  | endTable
  | beginHeader
  | endHeader
  | writeHeaderCell (cell : String)
  | beginRow
  | endRow
  | writeCell (cell : String)
deriving DecidableEq

/-! ## Statements -/

/-- `ExplainOptions`. -/
structure ExplainOptions where
  binder : Bool
  planner : Bool
  optimizer : Bool
  schema : Bool

/-- `BoundStatement`; the queries are the SELECT, INSERT, DELETE and UPDATE statements. -/
inductive Statement (Query : Type)
  | create (table : String) (columns : OutputSchema)
  | index (indexName table : String) (schema : OutputSchema) (cols : List (List String))
  | variableShow (name : String)
  | variableSet (name value : String)
  | explain (statement : Statement Query) (options : ExplainOptions)
  | query (query : Query)

structure IndexListing where
  indexOid : ℕ
  name : String
  keySchema : OutputSchema

structure TableListing where
  tableName : String
  oid : ℕ
  name : String
  schema : OutputSchema
  indexes : List IndexListing

/-! ## Sessions and stages -/

/-- What the statements of a text read and change. -/
structure Session (Catalog : Type) where
  catalog : Catalog
  pool : PagePool
  sessionVariables : String → Option String
  txn : Transaction
  writer : List WriterCall

/-- A part of a call that works on the session and may throw. -/
abbrev Stage (Catalog Result : Type) := Throwing (Session Catalog) Thrown Result

/-- The stages of a statement.  The calls of `Next` come as a whole: the tuples, and what the
last call throws, if it does not answer false. -/
structure Stages (Catalog Binder Node Query Executor : Type) where
  listTables : Catalog → List TableListing
  parse : String → Except String (List Node)
  binder : Catalog → Binder
  bindStatement : Catalog → Binder → Node → Except Thrown (Statement Query × Binder)
  statementToString : Statement Query → String
  createTable : String → OutputSchema → Stage Catalog (Option ℕ)
  createIndex : String → String → OutputSchema → OutputSchema → List ℕ → Stage Catalog (Option ℕ)
  plan : Catalog → Query → Except Thrown PlanNode
  planToString : PlanNode → Bool → String
  optimize : Catalog → Bool → PlanNode → Except Thrown PlanNode
  createExecutor : PlanNode → Stage Catalog Executor
  init : Executor → Stage Catalog Executor
  nextCalls : Executor → StateM (Session Catalog) (List Tuple × Option Thrown)
  valueToString : Tuple → OutputSchema → ℕ → Except Thrown String

namespace Session

variable {Catalog : Type}

/-- `GetSessionVariable`. -/
def getSessionVariable (session : Session Catalog) (key : String) : String :=
  (session.sessionVariables key).getD ""

/-- `IsForceStarterRule`. -/
def isForceStarterRule (session : Session Catalog) : Bool :=
  let value := (session.getSessionVariable "force_optimizer_starter_rule").toLower
  value = "1" || value = "true" || value = "yes"

end Session

/-! ## Output -/

/-- `Schema::ToString`. -/
def schemaToString (schema : OutputSchema) : String :=
  "(" ++ ", ".intercalate (schema.map fun column => column.1 ++ ":" ++ column.2.typeIdToString)
    ++ ")"

def writeHeader (names : List String) : List WriterCall :=
  .beginHeader :: names.map .writeHeaderCell ++ [.endHeader]

def writeRow (cells : List String) : List WriterCall :=
  .beginRow :: cells.map .writeCell ++ [.endRow]

/-- The calls of `WriteOneCell`. -/
def oneCell (cell : String) : List WriterCall :=
  .beginTable true :: writeRow [cell] ++ [.endTable]

/-- The calls of `CmdDisplayTables`. -/
def displayTables (tables : List TableListing) : List WriterCall :=
  .beginTable false :: writeHeader ["oid", "name", "cols"] ++
    (tables.flatMap fun info =>
      writeRow [toString info.oid, info.name, schemaToString info.schema]) ++ [.endTable]

/-- The calls of `CmdDisplayIndices`. -/
def displayIndices (tables : List TableListing) : List WriterCall :=
  .beginTable false :: writeHeader ["table_name", "index_oid", "index_name", "index_cols"] ++
    (tables.flatMap fun table => table.indexes.flatMap fun info =>
      writeRow [table.tableName, toString info.indexOid, info.name,
        schemaToString info.keySchema]) ++ [.endTable]

/-- The text of `CmdDisplayHelp`. -/
def helpText : String :=
  "Welcome to the BusTub shell!\n\n" ++
  "\\dt: show all tables\n" ++
  "\\di: show all indices\n" ++
  "\\help: show this message again\n\n" ++
  "BusTub shell currently only supports a small set of Postgres queries. We'll set\n" ++
  "up a doc describing the current status later. It will silently ignore some parts\n" ++
  "of the query, so it's normal that you'll get a wrong result when executing\n" ++
  "unsupported SQL queries. This shell will be able to run `create table` only\n" ++
  "after you have completed the buffer pool manager. It will be able to execute SQL\n" ++
  "queries after you have implemented necessary query executors. Use `explain` to\n" ++
  "see the execution plan of your query.\n"

namespace Stages

variable {Catalog Binder Node Query Executor : Type}
variable (stages : Stages Catalog Binder Node Query Executor)

def write (calls : List WriterCall) : Stage Catalog Unit :=
  modify fun session => { session with writer := session.writer ++ calls }

def reading {Result : Type} (read : Session Catalog → Except Thrown Result) :
    Stage Catalog Result := do
  match read (← get) with
  | .error fault => throw fault
  | .ok result => return result

/-! ## The kinds of statements -/

def executeCreate (table : String) (columns : OutputSchema) : Stage Catalog Unit := do
  match ← stages.createTable table columns with
  | none => throw (.exception "Failed to create table")
  | some oid => write (oneCell ("Table created with id = " ++ toString oid))

def indexColumn (schema : OutputSchema) (colName : List String) : Except Thrown ℕ :=
  match Planner.tryGetColIdx schema (colName.getLastD "") with
  | none => throw (.logicError "Column does not exist")
  | some idx =>
    if (schema[idx]?).map Prod.snd = some (.number .integer) then return idx
    else throw (.exception "only support creating index on integer column")

def indexColumns (schema : OutputSchema) (cols : List (List String)) :
    Except Thrown (List ℕ) := do
  let colIds ← cols.mapM (indexColumn schema)
  if colIds.length ≠ 1 then
    throw (.exception "only support creating index with exactly one column")
  return colIds

def executeIndex (indexName table : String) (schema : OutputSchema)
    (cols : List (List String)) : Stage Catalog Unit := do
  let colIds ← reading fun _ => indexColumns schema cols
  match ← stages.createIndex indexName table schema (copySchema schema colIds) colIds with
  | none => throw (.exception "Failed to create index")
  | some oid => write (oneCell ("Index created with id = " ++ toString oid))

def unplanned (type : String) : Except Thrown PlanNode :=
  .error (.exception ("the statement " ++ type ++ " is not supported in planner yet"))

/-- `PlanQuery`. -/
def planQuery (catalog : Catalog) : Statement Query → Except Thrown PlanNode
  | .query query => stages.plan catalog query
  | .create _ _ => unplanned "Create"
  | .index _ _ _ _ => unplanned "Index"
  | .variableShow _ => unplanned "VariableShow"
  | .variableSet _ _ => unplanned "VariableSet"
  | .explain _ _ => unplanned "Explain"

def explainPart (shown : Bool) (title text : String) : String :=
  if shown then "=== " ++ title ++ " ===\n" ++ text ++ "\n" else ""

def executeExplain (statement : Statement Query) (options : ExplainOptions) :
    Stage Catalog Unit := do
  let plan ← reading fun session => stages.planQuery session.catalog statement
  let optimized ← reading fun session =>
    stages.optimize session.catalog session.isForceStarterRule plan
  write (oneCell
    (explainPart options.binder "BINDER" (stages.statementToString statement) ++
      explainPart options.planner "PLANNER" (stages.planToString plan options.schema) ++
      explainPart options.optimizer "OPTIMIZER" (stages.planToString optimized options.schema)))

/-- `ExecutionEngine::Execute`.  The handler around the calls of `Next` is for
`bustub::Exception`, and keeps the tuples. -/
def execute (plan : PlanNode) : Stage Catalog (List Tuple) := do
  let executor ← stages.createExecutor plan
  let executor ← stages.init executor
  match ← stages.nextCalls executor with
  | (_, some (.logicError message)) => throw (.logicError message)
  | (tuples, _) => return tuples

/-- The cells of the result, from column to column of one tuple; a cell that cannot be written
leaves the ones before it. -/
def writeCells (schema : OutputSchema) (tuple : Tuple) : List ℕ → Stage Catalog Unit
  | [] => pure ()
  | column :: columns => do
      let cell ← reading fun _ => stages.valueToString tuple schema column
      write [.writeCell cell]
      writeCells schema tuple columns

def writeRows (schema : OutputSchema) : List Tuple → Stage Catalog Unit
  | [] => pure ()
  | tuple :: tuples => do
      write [.beginRow]
      stages.writeCells schema tuple (List.range schema.length)
      write [.endRow]
      writeRows schema tuples

def executeQuery (query : Query) : Stage Catalog Unit := do
  let plan ← reading fun session => stages.plan session.catalog query
  let optimized ← reading fun session =>
    stages.optimize session.catalog session.isForceStarterRule plan
  let tuples ← stages.execute optimized
  write (.beginTable false :: writeHeader (plan.outputSchema.map Prod.fst))
  stages.writeRows plan.outputSchema tuples
  write [.endTable]

def executeStatement : Statement Query → Stage Catalog Unit
  | .create table columns => stages.executeCreate table columns
  | .index indexName table schema cols => stages.executeIndex indexName table schema cols
  | .variableShow name => do
      let value ← reading fun session => .ok (session.getSessionVariable name)
      write (oneCell (name ++ "=" ++ value))
  | .variableSet name value => modify fun session =>
    { session with
      sessionVariables := Function.update session.sessionVariables name (some value) }
  | .explain statement options => stages.executeExplain statement options
  | .query query => stages.executeQuery query

/-! ## The text -/

/-- One round of the loop over the statements. -/
def executeNode (binder : Binder) (node : Node) : Stage Catalog Binder := do
  let (statement, binder) ← reading fun session =>
    stages.bindStatement session.catalog binder node
  stages.executeStatement statement
  return binder

/-- `ParseAndSave`. -/
def parseAndSave (sql : String) : Except Thrown (List Node) :=
  match stages.parse sql with
  | .error message => .error (.exception ("Query failed to parse: " ++ message))
  | .ok nodes => .ok nodes

def executeInternal (sql : String) : Stage Catalog Unit := do
  let tables ← reading fun session => .ok (stages.listTables session.catalog)
  if sql = "\\dt" then write (displayTables tables)
  else if sql = "\\di" then write (displayIndices tables)
  else if sql = "\\help" then write (oneCell helpText)
  else throw (.exception ("unsupported internal command: " ++ sql))

def executeStatements (sql : String) : Stage Catalog Unit := do
  let nodes ← reading fun _ => stages.parseAndSave sql
  let binder ← reading fun session => .ok (stages.binder session.catalog)
  let _ ← nodes.foldlM stages.executeNode binder
  return ()

def IsInternal (sql : String) : Prop := sql.toList.head? = some '\\'

instance (sql : String) : Decidable (IsInternal sql) :=
  inferInstanceAs (Decidable (sql.toList.head? = some '\\'))

/-- `ExecuteSqlTxn`. -/
def executeSqlTxn (sql : String) : Stage Catalog Unit :=
  if IsInternal sql then stages.executeInternal sql else stages.executeStatements sql

end Stages

/-! ## The instance -/

/-- A transaction that `Begin` has made.  The map keeps the pointer when the object is
deleted. -/
structure TxnObject where
  txn : Transaction
  deleted : Bool
deriving DecidableEq

/-- `BustubInstance`, with the transaction manager.  The holders are those of the global latch in
shared mode. -/
structure BustubInstance (Catalog : Type) where
  globalTxnHolders : ℕ
  nextTxnId : ℕ
  txnMap : ℕ → Option TxnObject
  catalog : Catalog
  pool : PagePool
  sessionVariables : String → Option String

namespace BustubInstance

variable {Catalog Binder Node Query Executor : Type}
variable (stages : Stages Catalog Binder Node Query Executor)

def start (catalog : Catalog) : BustubInstance Catalog :=
  ⟨0, 0, fun _ => none, catalog, TableHeap.freshPool, fun _ => none⟩

/-- `Begin`. -/
def begin (state : BustubInstance Catalog) : BustubInstance Catalog :=
  { state with
    globalTxnHolders := state.globalTxnHolders + 1
    nextTxnId := state.nextTxnId + 1
    txnMap := Function.update state.txnMap state.nextTxnId (some ⟨.fresh, false⟩) }

def session (state : BustubInstance Catalog) : Session Catalog :=
  ⟨state.catalog, state.pool, state.sessionVariables, .fresh, []⟩

def leave (state : BustubInstance Catalog) (txnId : ℕ) (left : Session Catalog) :
    BustubInstance Catalog :=
  { state with
    txnMap := Function.update state.txnMap txnId (some ⟨left.txn, false⟩)
    catalog := left.catalog
    pool := left.pool
    sessionVariables := left.sessionVariables }

/-- `Commit`, and `delete` of the transaction. -/
def commitAndDelete (frames : ℕ → Bool) (state : BustubInstance Catalog) (txnId : ℕ)
    (txn : Transaction) : Except TableFault (BustubInstance Catalog) :=
  (commit frames state.pool txn).map fun result =>
    { state with
      globalTxnHolders := state.globalTxnHolders - 1
      txnMap := Function.update state.txnMap txnId (some ⟨result.2, true⟩)
      pool := result.1 }

abbrev SqlExit := Except Thrown Unit × List WriterCall

/-- `ExecuteSql`.  The call does not end if an assertion of `Commit` fails. -/
def executeSql (frames : ℕ → Bool) (sql : String) (state : BustubInstance Catalog) :
    Except TableFault (SqlExit × BustubInstance Catalog) :=
  let begun := state.begin
  match (stages.executeSqlTxn sql).ends begun.session with
  | (.error fault, left) =>
    .ok ((.error fault, left.writer), begun.leave state.nextTxnId left)
  | (.ok (), left) =>
    (commitAndDelete frames (begun.leave state.nextTxnId left) state.nextTxnId left.txn).map
      fun after => ((.ok (), left.writer), after)

/-- The write set that a session has left is applied to its pool, or rolled back in it. -/
def WriteSetDone (act : Bool → PagePool → WriteRecord → Except TableFault PagePool)
    (left : Session Catalog) (pool : PagePool) : Prop :=
  ∃ frames, writeSetLoop act frames left.txn.writeSet.reverse left.pool =
    .ok pool

/-- How a call should leave the instance, if its statements leave the session: the transaction is
committed and its write set is applied, or it is aborted and the write set is rolled back, and
the latch has the holders from before. -/
structure Settled (left : Session Catalog) (before after : BustubInstance Catalog) : Prop where
  holders_eq : after.globalTxnHolders = before.globalTxnHolders
  finished : ∃ object, after.txnMap before.nextTxnId = some object ∧ object.txn.writeSet = [] ∧
    (object.txn.state = .committed ∧
        WriteSetDone commitRecord left after.pool ∨
      object.txn.state = .aborted ∧
        WriteSetDone abortRecord left after.pool)

variable {stages} {frames : ℕ → Bool} {sql : String} {state after : BustubInstance Catalog}
  {left : Session Catalog} {fault : Thrown} {exit : SqlExit}

theorem executeSql_of_throws (h : (stages.executeSqlTxn sql).Throws state.session fault left) :
    executeSql stages frames sql state =
      .ok ((.error fault, left.writer), state.begin.leave state.nextTxnId left) := by
  have hends : (stages.executeSqlTxn sql).ends state.begin.session = (.error fault, left) := h
  rw [executeSql, hends]

theorem executeSql_of_returns (h : (stages.executeSqlTxn sql).Returns state.session () left) :
    executeSql stages frames sql state =
      (commitAndDelete frames (state.begin.leave state.nextTxnId left) state.nextTxnId
        left.txn).map fun after => ((.ok (), left.writer), after) := by
  have hends : (stages.executeSqlTxn sql).ends state.begin.session = (.ok (), left) := h
  rw [executeSql, hends]

theorem executeSql_cases (h : executeSql stages frames sql state = .ok (exit, after)) :
    (∃ left, (stages.executeSqlTxn sql).Returns state.session () left ∧
        exit = (.ok (), left.writer) ∧
        commitAndDelete frames (state.begin.leave state.nextTxnId left) state.nextTxnId left.txn =
          .ok after) ∨
      ∃ fault left, (stages.executeSqlTxn sql).Throws state.session fault left ∧
        exit = (.error fault, left.writer) ∧
        after = state.begin.leave state.nextTxnId left := by
  obtain ⟨_, left, hreturns⟩ | ⟨fault, left, hthrows⟩ :=
    (stages.executeSqlTxn sql).returns_or_throws state.session
  -- only here the transaction is committed and deleted
  · rw [executeSql_of_returns hreturns] at h
    cases hcommit : commitAndDelete frames (state.begin.leave state.nextTxnId left)
        state.nextTxnId left.txn with
    | error fault =>
      rw [hcommit] at h
      cases h
    | ok final =>
      rw [hcommit] at h
      cases h
      exact .inl ⟨left, hreturns, rfl, hcommit⟩
  -- the exception leaves the function before `Commit`
  · rw [executeSql_of_throws hthrows] at h
    cases h
    exact .inr ⟨fault, left, hthrows, rfl, rfl⟩

theorem settled_of_commitAndDelete
    (h : commitAndDelete frames (state.begin.leave state.nextTxnId left) state.nextTxnId left.txn =
      .ok after) : Settled left state after := by
  have hpool : (state.begin.leave state.nextTxnId left).pool = left.pool := rfl
  rw [commitAndDelete, commit, hpool] at h
  cases hloop : writeSetLoop commitRecord frames
      left.txn.writeSet.reverse left.pool with
  | error fault =>
    rw [hloop] at h
    cases h
  | ok pool =>
    rw [hloop] at h
    cases h
    exact ⟨rfl, _, Function.update_self .., rfl, .inl ⟨rfl, frames, hloop⟩⟩

/-- Stages for texts of one query, which records an insertion and yields no tuple. -/
def insertingStages : Stages Unit Unit Unit Unit Unit where
  listTables _ := []
  parse _ := .ok [()]
  binder _ := ()
  bindStatement _ _ _ := .ok (.query (), ())
  statementToString _ := ""
  createTable _ _ := pure none
  createIndex _ _ _ _ _ := pure none
  plan _ _ := .ok (.node (.values []) [] [])
  planToString _ _ := ""
  optimize _ _ plan := .ok plan
  createExecutor _ := pure ()
  init _ := pure ()
  nextCalls _ := do
    modify fun session => { session with txn := session.txn.record ⟨0, 0⟩ .insert .empty }
    return ([], none)
  valueToString _ _ _ := .ok ""

def SqlExit.threw (exit : SqlExit) : Bool :=
  match exit.1 with
  | .error _ => true
  | .ok _ => false

theorem executeSql_holders (h : executeSql stages frames sql state = .ok (exit, after)) :
    after.globalTxnHolders =
      state.globalTxnHolders + if SqlExit.threw exit then 1 else 0 := by
  obtain ⟨left, -, rfl, hcommit⟩ | ⟨fault, left, -, rfl, rfl⟩ := executeSql_cases h
  · exact (settled_of_commitAndDelete hcommit).holders_eq
  · rfl

/-- An instance that is called with a text after the other. -/
def sqlMachine (stages : Stages Catalog Binder Node Query Executor) :
    Machine (BustubInstance Catalog) ((ℕ → Bool) × String) SqlExit TableFault where
  step state call := executeSql stages call.1 call.2 state

/-- **The latch counts the calls that have thrown.** -/
theorem run_globalTxnHolders {calls : List ((ℕ → Bool) × String)} {exits : List SqlExit}
    (h : (sqlMachine stages).run state calls = .ok (exits, after)) :
    after.globalTxnHolders = state.globalTxnHolders + exits.countP SqlExit.threw := by
  induction calls generalizing state exits with
  | nil =>
    cases h
    rfl
  | cons call rest ih =>
    obtain ⟨exit, next, tail, hstep, hrest, rfl⟩ := Machine.run_cons_eq_ok h
    rw [ih hrest, executeSql_holders hstep, List.countP_cons]
    omega

theorem run_globalTxnHolders_one : ∃ exits after,
    (sqlMachine insertingStages).run (start ()) [(fun _ => true, "\\foo")] = .ok (exits, after) ∧
      after.globalTxnHolders = (start ()).globalTxnHolders + exits.countP SqlExit.threw := by
  have hrun : (sqlMachine insertingStages).run (start ()) [(fun _ => true, "\\foo")] = .ok _ := rfl
  exact ⟨_, _, hrun, run_globalTxnHolders hrun⟩

end BustubInstance

end BusTub
