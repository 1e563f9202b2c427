import BusTub.Catalog.IndexedTables
import BusTub.Optimizer.MergeFilterNLJ

/-!
# Using indexes

The model of `OptimizeOrderByAsIndexScan` and `OptimizeNLJAsIndexJoin`.  The first replaces a sort
of a table by the scan of an index on the sort column, the second a join with a table on a column
by lookups in an index on that column.

The executors are not implemented in the source.  A scan of an index is taken to yield the rows
whose rids the index holds, in the order of the keys, and an index join to look up the key of each
row of the left child.

If the index holds every row, which it does for distinct keys, then the scan is the sort, and a
lookup finds the row that the join would find.  Rows whose key was there already are not in the
index, and both rules lose them.
-/

namespace BusTub

open FaultStream PlanNode

namespace Optimizer

/-! ## The rules -/

/-- `MatchIndex`. -/
def matchIndex (db : Database) (tableName : String) (indexKeyIdx : ℕ) : Option (ℕ × String) :=
  ((db.getTableIndexes tableName).find? fun index => index.keyAttrs = [indexKeyIdx]).map
    fun index => (index.indexOid, index.name)

/-- The key of the left row, and the column of the right one that it is compared with. -/
def joinKey : Expression → Option (Expression × ℕ)
  | .comparison .equal (.columnValue 0 left type) (.columnValue 1 right _) =>
    some (.columnValue 0 left type, right)
  | .comparison .equal (.columnValue 1 left _) (.columnValue 0 right type) =>
    some (.columnValue 0 right type, left)
  | _ => none

/-- `OptimizeNLJAsIndexJoin`, behind the optimization of the children. -/
def nljAsIndexJoin (db : Database) : PlanNode → Except SqlFault PlanNode
  | .node (.nestedLoopJoin predicate joinType) schema
      [left, .node (.seqScan tableOid tableName filterPredicate) rightSchema grandchildren] =>
      let plan := .node (.nestedLoopJoin predicate joinType) schema
        [left, .node (.seqScan tableOid tableName filterPredicate) rightSchema grandchildren]
      match joinKey predicate with
      | none => .ok plan
      | some (keyPredicate, column) =>
        match matchIndex db tableName column with
        | none => .ok plan
        | some (indexOid, indexName) =>
          .ok (.node (.nestedIndexJoin keyPredicate tableOid indexOid indexName tableName
            rightSchema joinType) schema [left])
  | .node (.nestedLoopJoin predicate joinType) schema [left, right] =>
    .ok (.node (.nestedLoopJoin predicate joinType) schema [left, right])
  | .node (.nestedLoopJoin _ _) _ _ => .error (.exception "NLJ should have exactly 2 children.")
  | plan => .ok plan

/-- `OptimizeNLJAsIndexJoin`. -/
def optimizeNLJAsIndexJoin (db : Database) : PlanNode → Except SqlFault PlanNode :=
  bottomUp (nljAsIndexJoin db)

/-- The loop over the indexes: the first one whose only column has the name of the sort
column. -/
def orderIndex (schema : OutputSchema) (orderByColumnId : ℕ) :
    List IndexData → Except SqlFault (Option IndexData)
  | [] => .ok none
  | index :: rest =>
    match index.keySchema with
    | [column] =>
      match schema[orderByColumnId]? with
      | none => .error .undefinedBehaviour
      | some sortColumn =>
        if column.1 = sortColumn.1 then .ok (some index)
        else orderIndex schema orderByColumnId rest
    | _ => orderIndex schema orderByColumnId rest

def matchOrderIndex (db : Database) (tableOid orderByColumnId : ℕ) :
    Except SqlFault (Option IndexData) :=
  match db.getTable tableOid with
  | none => .error .undefinedBehaviour
  | some table => orderIndex table.schema orderByColumnId (db.getTableIndexes table.name)

/-- `OptimizeOrderByAsIndexScan`, behind the checks of the order. -/
def sortAsIndexScan (db : Database) (orderByColumnId : ℕ) (plan : PlanNode) :
    Except SqlFault PlanNode :=
  match plan.children with
  | [.node (.seqScan tableOid _ _) _ _] =>
    match matchOrderIndex db tableOid orderByColumnId with
    | .error fault => .error fault
    | .ok none => .ok plan
    | .ok (some index) => .ok (.node (.indexScan index.indexOid) plan.outputSchema [])
  | [_] => .ok plan
  | _ => .error (.exception "Sort with multiple children?? Impossible!")

/-- `OptimizeOrderByAsIndexScan`, behind the optimization of the children. -/
def orderByAsIndexScan (db : Database) (plan : PlanNode) : Except SqlFault PlanNode :=
  match plan with
  | .node (.sort [(.asc, .columnValue _ colIdx _)]) _ _
  | .node (.sort [(.default, .columnValue _ colIdx _)]) _ _ => sortAsIndexScan db colIdx plan
  | _ => .ok plan

/-- `OptimizeOrderByAsIndexScan`. -/
def optimizeOrderByAsIndexScan (db : Database) : PlanNode → Except SqlFault PlanNode :=
  bottomUp (orderByAsIndexScan db)

/-! ## What scans, sorts and index joins are to yield -/

def scanRows (db : Database) (tableOid : ℕ) (filterPredicate : Option Expression) : Rows :=
  match db.getTable tableOid with
  | none => .failed .undefinedBehaviour
  | some table =>
    match filterPredicate with
    | none => ofList (table.rows.map Prod.snd)
    | some predicate => (ofList (table.rows.map Prod.snd)).filterMap (filterRow predicate)

/-- In the order of the keys; items with equal keys keep their order, and NULLs come first. -/
def inKeyOrder {Item : Type} (key : Item → List Value) (items : List Item) : List Item :=
  items.insertionSort fun first second => places (key first) ≤ places (key second)

def sortRows (expression : Expression) (child : Rows) : Rows :=
  match child.collect with
  | .error fault => .failed fault
  | .ok rows =>
    match rows.mapM fun row => (evaluateRow row expression).map fun value => ([value], row) with
    | .error fault => .failed fault
    | .ok keyed => ofList ((inKeyOrder Prod.fst keyed).map Prod.snd)

def indexScanRows (db : Database) (indexOid : ℕ) : Rows :=
  match db.getIndex indexOid with
  | none => .failed .undefinedBehaviour
  | some index =>
    match db.getTableByName index.tableName with
    | none => .failed .undefinedBehaviour
    | some table =>
      (ofList (inKeyOrder Prod.fst index.entries)).mapM fun entry => table.getTuple entry.2

def lookupRow (db : Database) (innerTableOid indexOid : ℕ) (key : Value) :
    Except SqlFault (Option Row) :=
  match db.getIndex indexOid, db.getTable innerTableOid with
  | some index, some table =>
    match index.scanKey [key] with
    | none => .ok none
    | some rid => (table.getTuple rid).map some
  | _, _ => .error .undefinedBehaviour

def indexJoinRow (db : Database) (keyPredicate : Expression) (innerTableOid indexOid : ℕ)
    (left : Row) : Except SqlFault (Option Row) := do
  let key ← evaluateRow left keyPredicate
  let found ← lookupRow db innerTableOid indexOid key
  return found.map (left ++ ·)

def rowsOf : Except SqlFault (Option Row) → Rows
  | .error fault => .failed fault
  | .ok none => .done
  | .ok (some row) => .next row .done

def joinedRows (joinType : JoinType) (nulls : Row) (matched : Row → Rows) (left : Rows) : Rows :=
  match joinType with
  | .inner => left.flatMap matched
  | .left => left.flatMap fun row => padded nulls row (matched row)
  | _ => .failed (.exception "join type not supported")

/-- The nodes that use tables and indexes, and the others as before. -/
def indexSemantics (db : Database) (others : NodeSemantics) : NodeSemantics
  | .seqScan tableOid _ filterPredicate, _, [] => scanRows db tableOid filterPredicate
  | .indexScan indexOid, _, [] => indexScanRows db indexOid
  | .sort [(.asc, expression)], _, [(_, child)]
  | .sort [(.default, expression)], _, [(_, child)] => sortRows expression child
  | .nestedIndexJoin keyPredicate innerTableOid indexOid _ _ innerTableSchema joinType, _,
      [(_, left)] =>
      joinedRows joinType (nullRow innerTableSchema)
        (fun row => rowsOf (indexJoinRow db keyPredicate innerTableOid indexOid row)) left
  | kind, schema, children => joinSemantics others kind schema children

/-! ## Complete indexes -/

/-- The values of the column are distinct, and none is NULL. -/
structure UniqueColumn (table : TableData) (column : ℕ) : Prop where
  distinctKeys : DistinctKeys [column] table.rows
  exists_place : ∀ item ∈ table.rows, ∀ value, item.2[column]? = some value →
    ∃ place, value.sortKey = some place

/-- What the rules need of the tables: the names of columns are distinct, and so are the values
of columns that are indexed. -/
structure Indexable (db : Database) : Prop where
  names_nodup : ∀ table ∈ db.tables, (table.schema.map Prod.fst).Nodup
  uniqueColumn : ∀ table ∈ db.tables, ∀ index ∈ db.getTableIndexes table.name, ∀ column,
    index.keyAttrs = [column] → UniqueColumn table column

variable {db : Database} {table : TableData} {index : IndexData} {column : ℕ}

theorem map_inKeyOrder {Item Item' : Type} {key : Item → List Value} {key' : Item' → List Value}
    (f : Item → Item') (h : ∀ item, key' (f item) = key item) (items : List Item) :
    (inKeyOrder key items).map f = inKeyOrder key' (items.map f) := by
  refine List.map_insertionSort _ _ f items fun first _ second _ => ?_
  rw [h, h]

theorem keyOf_singleton {row : Row} {value : Value} (h : row[column]? = some value) :
    keyOf [column] row = [value] := by
  simp [keyOf, h]

theorem exists_column (htable : table ∈ db.tables) (hcolumn : column < table.schema.length)
    {item : Rid × Row} (hitem : item ∈ table.rows) : ∃ value, item.2[column]? = some value := by
  rw [← db.rows_length table htable item hitem] at hcolumn
  exact ⟨_, List.getElem?_eq_getElem hcolumn⟩

theorem entries_eq_map (hcreated : index.CreatedOver table) (hattrs : index.keyAttrs = [column])
    (hunique : UniqueColumn table column) :
    index.entries = table.rows.map fun item => (keyOf [column] item.2, item.1) := by
  rw [hcreated.entries_eq, hattrs, populateIndex_eq_map hunique.distinctKeys]

/-- **The scan of a complete index is the sort of the table.** -/
theorem sortRows_eq_indexScanRows (htable : table ∈ db.tables)
    (hindex : index ∈ db.getTableIndexes table.name) (hattrs : index.keyAttrs = [column])
    (hunique : UniqueColumn table column) (tupleIdx : ℕ) (type : TypeId) :
    sortRows (.columnValue tupleIdx column type) (ofList (table.rows.map Prod.snd)) =
      indexScanRows db index.indexOid := by
  obtain ⟨hmem, hcreated⟩ := Database.createdOver_of_mem htable hindex
  have hcolumn : column < table.schema.length := hcreated.keyAttrs_lt column (by simp [hattrs])
  have hkeyed : ∀ row ∈ table.rows.map Prod.snd,
      ((evaluateRow row (.columnValue tupleIdx column type)).map fun value => ([value], row)) =
        .ok (keyOf [column] row, row) := by
    intro row hrow
    obtain ⟨item, hitem, rfl⟩ := List.mem_map.mp hrow
    obtain ⟨value, hvalue⟩ := exists_column htable hcolumn hitem
    simp only [evaluateRow, Expression.evaluateWith, columnOfRow, hvalue, keyOf_singleton hvalue]
    rfl
  let byKey := inKeyOrder (fun item : Rid × Row => keyOf [column] item.2) table.rows
  calc sortRows (.columnValue tupleIdx column type) (ofList (table.rows.map Prod.snd))
    _ = ofList ((inKeyOrder Prod.fst ((table.rows.map Prod.snd).map
          fun row => (keyOf [column] row, row))).map Prod.snd) := by
        simp [sortRows, Except.mapM_eq_map hkeyed]
    _ = ofList (byKey.map Prod.snd) := by
        rw [List.map_map, ← map_inKeyOrder _ fun item => rfl, List.map_map]
        rfl
    _ = mapM (fun entry => table.getTuple entry.2)
          (ofList (byKey.map fun item => (keyOf [column] item.2, item.1))) := by
        symm
        rw [ofList_map, mapM_map, mapM_ofList fun item hitem => ?_]
        exact Database.getTuple_of_mem htable ((List.mem_insertionSort _).mp hitem)
    _ = indexScanRows db index.indexOid := by
        have hname : db.getTableByName index.tableName = some table :=
          hcreated.tableName_eq ▸ Database.getTableByName_of_mem htable
        simp only [indexScanRows, Database.getIndex_of_mem hmem, hname]
        rw [entries_eq_map hcreated hattrs hunique, ← map_inKeyOrder _ fun item => rfl]

/-! ## Lookups -/

theorem checkComparable_of_sameKind {first second : Value} (h : first.SameKind second) :
    first.checkComparable second = true := by
  cases h with
  | inl htype => exact Value.checkComparable_of_eq htype
  | inr hinteger =>
    rcases first with ⟨_ | _ | _ | _ | _, _, _, _⟩ | data <;>
      rcases second with ⟨_ | _ | _ | _ | _, _, _, _⟩ | data' <;>
      simp_all [Value.checkInteger, Value.checkComparable, Value.getTypeId]

/-- A key that is NULL or has a place, and a value that has a place, are compared by their
places, in either order. -/
theorem compare_equal_of_readable {key value : Value} {place : ℤ ⊕ₗ List ℕ}
    (hkind : key.SameKind value) (hreadable : key.Readable) (hplace : value.sortKey = some place) :
    ∃ truth, Value.compare .equal key value = .ok truth ∧
      Value.compare .equal value key = .ok truth ∧
      (truth = .cmpTrue ↔ value.sortKey = key.sortKey) := by
  cases hnull : key.isNull with
  | true =>
    refine ⟨.cmpNull, ?_, ?_, ?_⟩
    · simp [Value.compare, checkComparable_of_sameKind hkind, hnull]
    · simp [Value.compare, checkComparable_of_sameKind hkind.symm, hnull]
    · simp [Value.sortKey_eq_none hnull, hplace]
  | false =>
    obtain ⟨left, hleft⟩ := hreadable hnull
    have hswap : ComparisonType.equal.holds place left = ComparisonType.equal.holds left place :=
      Bool.eq_iff_iff.mpr (by rw [holds_equal_iff, holds_equal_iff, eq_comm])
    refine ⟨_, Value.compare_of_sortKey hkind hleft hplace .equal, ?_, ?_⟩
    · rw [Value.compare_of_sortKey hkind.symm hplace hleft, hswap]
    · rw [getCmpBool_eq_cmpTrue, holds_equal_iff, hleft, hplace, Option.some.injEq, eq_comm]

structure KeyFits (keyPredicate : Expression) (column : ℕ) (right : List Row) (left : Row)
    (key : Value) : Prop where
  evaluateRow_eq : evaluateRow left keyPredicate = .ok key
  readable : key.Readable
  sameKind : ∀ row ∈ right, ∀ value, row[column]? = some value → key.SameKind value

variable {keyPredicate predicate : Expression} {left : Row} {right : List Row} {key : Value}

theorem passes_getBooleanValue (truth : CmpBool) :
    passes (Value.getBooleanValue truth) = decide (truth = .cmpTrue) := by
  cases truth <;> decide

theorem joinRow_of_joinKey (hjoin : joinKey predicate = some (keyPredicate, column))
    (hfits : KeyFits keyPredicate column right left key) {row : Row} (hrow : row ∈ right)
    {value : Value} (hvalue : row[column]? = some value) {place : ℤ ⊕ₗ List ℕ}
    (hplace : value.sortKey = some place) :
    joinRow predicate left row =
      .ok (if decide (keyPlaces (keyOf [column] row) = keyPlaces [key]) then some (left ++ row)
        else none) := by
  obtain ⟨truth, hkey, hkey', htruth⟩ := compare_equal_of_readable
    (hfits.sameKind row hrow value hvalue) hfits.readable hplace
  have hsame : keyPlaces (keyOf [column] row) = keyPlaces [key] ↔ truth = .cmpTrue := by
    rw [keyOf_singleton hvalue, htruth]
    simp [keyPlaces]
  have hvalue' : columnOfRow row column = .ok value := by rw [columnOfRow, hvalue]
  have hevaluate : evaluateJoinRows left row predicate = .ok (Value.getBooleanValue truth) := by
    have hleft := hfits.evaluateRow_eq
    unfold joinKey at hjoin
    -- the column of the right row stands on either side of the `=`
    split at hjoin
    · cases hjoin
      simp only [evaluateRow, Expression.evaluateWith] at hleft
      simp [evaluateJoinRows, Expression.evaluateWith, hleft, hvalue', hkey, bind, Except.bind]
      rfl
    · cases hjoin
      simp only [evaluateRow, Expression.evaluateWith] at hleft
      simp [evaluateJoinRows, Expression.evaluateWith, hleft, hvalue', hkey', bind, Except.bind]
      rfl
    · cases hjoin
  simp only [joinRow, hevaluate, bind, Except.bind, passes_getBooleanValue, hsame]
  rfl

theorem lookupRow_eq (htable : table ∈ db.tables) (hindex : index ∈ db.getTableIndexes table.name)
    (hattrs : index.keyAttrs = [column]) (hunique : UniqueColumn table column) (key : Value) :
    lookupRow db table.oid index.indexOid key = .ok ((table.rows.find? fun item =>
      keyPlaces (keyOf [column] item.2) = keyPlaces [key]).map Prod.snd) := by
  obtain ⟨hmem, hcreated⟩ := Database.createdOver_of_mem htable hindex
  have hscan : index.scanKey [key] = (table.rows.find? fun item =>
      keyPlaces (keyOf [column] item.2) = keyPlaces [key]).map Prod.fst := by
    rw [IndexData.scanKey, entries_eq_map hcreated hattrs hunique, List.find?_map, Option.map_map]
    rfl
  simp only [lookupRow, Database.getIndex_of_mem hmem, Database.getTable_of_mem htable, hscan]
  cases hfound : table.rows.find? fun item =>
      keyPlaces (keyOf [column] item.2) = keyPlaces [key] with
  | none => rfl
  | some item =>
    have hitem : item ∈ table.rows := List.mem_of_find?_eq_some hfound
    simp only [Option.map_some, Database.getTuple_of_mem htable hitem]
    rfl

/-- **A lookup finds the row that the join finds.** -/
theorem filterMap_joinRow_eq (htable : table ∈ db.tables)
    (hindex : index ∈ db.getTableIndexes table.name) (hattrs : index.keyAttrs = [column])
    (hunique : UniqueColumn table column) (hjoin : joinKey predicate = some (keyPredicate, column))
    (hfits : KeyFits keyPredicate column (table.rows.map Prod.snd) left key) :
    (ofList (table.rows.map Prod.snd)).filterMap (joinRow predicate left) =
      rowsOf (indexJoinRow db keyPredicate table.oid index.indexOid left) := by
  obtain ⟨hmem, hcreated⟩ := Database.createdOver_of_mem htable hindex
  have hcolumn : column < table.schema.length := hcreated.keyAttrs_lt column (by simp [hattrs])
  have hjoined : ∀ item ∈ table.rows, joinRow predicate left item.2 =
      .ok (if decide (keyPlaces (keyOf [column] item.2) = keyPlaces [key])
        then some (left ++ item.2) else none) := by
    intro item hitem
    obtain ⟨value, hvalue⟩ := exists_column htable hcolumn hitem
    obtain ⟨place, hplace⟩ := hunique.exists_place item hitem value hvalue
    exact joinRow_of_joinKey hjoin hfits (List.mem_map_of_mem hitem) hvalue hplace
  have hlookup := lookupRow_eq htable hindex hattrs hunique key
  rw [ofList_map, filterMap_map, filterMap_ofList hjoined,
    filter_eq_find? hunique.distinctKeys (keyPlaces [key])]
  simp only [indexJoinRow, hfits.evaluateRow_eq, hlookup, bind, Except.bind]
  cases table.rows.find? fun item => keyPlaces (keyOf [column] item.2) = keyPlaces [key] <;> rfl

/-! ## The rules keep the rows -/

/-- What the rules need of a node: a scan reads a table that exists, without a predicate of its
own, a sort by a column has one child with that column, and the left keys of a join can be
compared with the right column. -/
def IndexableNode (db : Database) (kind : PlanKind) (schema : OutputSchema)
    (children : List (OutputSchema × Rows)) : Prop :=
  match kind, children with
  | .seqScan tableOid tableName filterPredicate, [] => filterPredicate = none ∧
      ∃ table ∈ db.tables, table.oid = tableOid ∧ table.name = tableName ∧
        schema.length = table.schema.length
  | .seqScan _ _ _, _ => False
  | .sort [(.asc, .columnValue _ colIdx _)], [(childSchema, _)]
  | .sort [(.default, .columnValue _ colIdx _)], [(childSchema, _)] =>
    colIdx < childSchema.length
  | .sort [(.asc, .columnValue _ _ _)], _ | .sort [(.default, .columnValue _ _ _)], _ => False
  | .nestedLoopJoin predicate _, [(_, left), (_, right)] =>
    ∀ keyPredicate column, joinKey predicate = some (keyPredicate, column) →
      left.All fun row => ∃ key, KeyFits keyPredicate column right.items row key
  | .nestedLoopJoin _ _, _ => False
  | _, _ => True

end Optimizer

def PlanNode.result (db : Database) (others : NodeSemantics) (plan : PlanNode) :
    OutputSchema × Rows :=
  (plan.outputSchema, plan.meaning (Optimizer.indexSemantics db others))

def PlanNode.Indexable (db : Database) (others : NodeSemantics) (plan : PlanNode) : Prop :=
  plan.Everywhere (result db others) (Optimizer.IndexableNode db)

namespace Optimizer

variable {db : Database} {table : TableData} {index : IndexData} {column : ℕ}
  {others : NodeSemantics}

variable {tableName : String} {schema : OutputSchema}

theorem indexable_seqScan {tableOid : ℕ}
    {filterPredicate : Option Expression} {children : List PlanNode}
    (h : (node (.seqScan tableOid tableName filterPredicate) schema children).Indexable
      db others) :
    ∃ table ∈ db.tables, table.oid = tableOid ∧ table.name = tableName ∧
      schema.length = table.schema.length ∧
      (node (.seqScan tableOid tableName filterPredicate) schema children).meaning
        (indexSemantics db others) = ofList (table.rows.map Prod.snd) := by
  cases children with
  | nil =>
    obtain ⟨⟨rfl, table, htable, rfl, hname, hlength⟩, -⟩ := h
    refine ⟨table, htable, rfl, hname, hlength, ?_⟩
    simp only [meaning, meanings, indexSemantics, scanRows,
      Database.getTable_of_mem htable]
  | cons child rest => exact h.1.elim

variable {joinType : JoinType}

theorem nestedLoopJoinRows_eq {predicate : Expression}
    {rightSchema : OutputSchema} {left right : Rows} :
    nestedLoopJoinRows predicate joinType rightSchema left right =
      joinedRows joinType (nullRow rightSchema)
        (fun row => right.filterMap (joinRow predicate row)) left := by
  cases joinType <;> rfl

theorem joinedRows_congr {nulls : Row} {matched matched' : Row → Rows}
    {left : Rows} (h : left.All fun row => matched row = matched' row) :
    joinedRows joinType nulls matched left = joinedRows joinType nulls matched' left := by
  cases joinType with
  | inner => exact flatMap_congr h
  | left => exact flatMap_congr (h.imp fun row hrow => by rw [hrow])
  | invalid | right | outer => rfl

theorem matchIndex_spec {indexOid : ℕ} {indexName : String}
    (h : matchIndex db tableName column = some (indexOid, indexName)) :
    ∃ index ∈ db.getTableIndexes tableName, index.keyAttrs = [column] ∧
      index.indexOid = indexOid := by
  obtain ⟨index, hfound, hpair⟩ := Option.map_eq_some_iff.mp h
  have hattrs : index.keyAttrs = [column] := by simpa using List.find?_some hfound
  exact ⟨index, List.mem_of_find?_eq_some hfound, hattrs, (Prod.mk.inj hpair).1⟩

theorem nljAsIndexJoin_seqScan (hdb : Indexable db) {predicate : Expression}
    {rightSchema : OutputSchema} {left : PlanNode} {tableOid : ℕ}
    {filterPredicate : Option Expression} {grandchildren : List PlanNode}
    (h : (node (.nestedLoopJoin predicate joinType) schema
      [left, .node (.seqScan tableOid tableName filterPredicate) rightSchema
        grandchildren]).Indexable db others) :
    ∃ plan', nljAsIndexJoin db (.node (.nestedLoopJoin predicate joinType) schema
        [left, .node (.seqScan tableOid tableName filterPredicate) rightSchema
          grandchildren]) = .ok plan' ∧
      plan'.Indexable db others ∧ plan'.Replaces (indexSemantics db others)
        (.node (.nestedLoopJoin predicate joinType) schema
          [left, .node (.seqScan tableOid tableName filterPredicate) rightSchema
            grandchildren]) := by
  cases hjoin : joinKey predicate with
  | none => exact ⟨_, by simp only [nljAsIndexJoin, hjoin], h, rfl, rfl⟩
  | some pair =>
    obtain ⟨keyPredicate, column⟩ := pair
    cases hmatch : matchIndex db tableName column with
    | none => exact ⟨_, by simp only [nljAsIndexJoin, hjoin, hmatch], h, rfl, rfl⟩
    | some found =>
      obtain ⟨indexOid, indexName⟩ := found
      obtain ⟨hnode, hleft, hright, -⟩ := h
      refine ⟨.node (.nestedIndexJoin keyPredicate tableOid indexOid indexName tableName
          rightSchema joinType) schema [left], by simp only [nljAsIndexJoin, hjoin, hmatch],
        ⟨trivial, hleft, trivial⟩, rfl, ?_⟩
      obtain ⟨table, htable, rfl, rfl, -, hmeaning⟩ := indexable_seqScan hright
      obtain ⟨index, hindex, hattrs, rfl⟩ := matchIndex_spec hmatch
      have hunique := hdb.uniqueColumn table htable index hindex column hattrs
      have hkeys := hnode keyPredicate column hjoin
      rw [hmeaning, items_ofList] at hkeys
      -- The two joins differ in what they match with a row of the left child.
      have hmatched := hkeys.imp fun row ⟨_, hfits⟩ =>
        filterMap_joinRow_eq htable hindex hattrs hunique hjoin hfits
      let semantics := indexSemantics db others
      calc (node (.nestedIndexJoin keyPredicate table.oid index.indexOid indexName
            table.name rightSchema joinType) schema [left]).meaning semantics
        _ = joinedRows joinType (nullRow rightSchema) (fun row => rowsOf
              (indexJoinRow db keyPredicate table.oid index.indexOid row))
              (left.meaning semantics) := rfl
        _ = nestedLoopJoinRows predicate joinType rightSchema (left.meaning semantics)
              (ofList (table.rows.map Prod.snd)) := by
            rw [nestedLoopJoinRows_eq, joinedRows_congr hmatched]
        _ = (node (.nestedLoopJoin predicate joinType) schema
              [left, .node (.seqScan table.oid table.name filterPredicate) rightSchema
                grandchildren]).meaning semantics := by
            rw [← hmeaning]
            rfl

/-- **The join rule** keeps the rows of a node. -/
theorem nljAsIndexJoin_spec (hdb : Indexable db) (plan : PlanNode) (h : plan.Indexable db others) :
    ∃ plan', nljAsIndexJoin db plan = .ok plan' ∧ plan'.Indexable db others ∧
      plan'.Replaces (indexSemantics db others) plan := by
  cases plan with
  | node kind schema children =>
    cases kind with
    | nestedLoopJoin predicate joinType =>
      rcases children with _ | ⟨left, _ | ⟨right, _ | ⟨third, rest⟩⟩⟩
      · exact h.1.elim
      · exact h.1.elim
      · cases right with
        | node rightKind rightSchema grandchildren =>
          cases rightKind with
          | seqScan tableOid tableName filterPredicate => exact nljAsIndexJoin_seqScan hdb h
          | _ => exact ⟨_, rfl, h, rfl, rfl⟩
      · exact h.1.elim
    | _ => exact ⟨_, rfl, h, rfl, rfl⟩

def NamesColumn (schema : OutputSchema) (column : ℕ) (index : IndexData) : Prop :=
  ∃ keyColumn sortColumn, index.keySchema = [keyColumn] ∧ schema[column]? = some sortColumn ∧
    keyColumn.1 = sortColumn.1

theorem NamesColumn.keyAttrs_eq (h : NamesColumn table.schema column index)
    (hcreated : index.CreatedOver table) (hnames : (table.schema.map Prod.fst).Nodup) :
    index.keyAttrs = [column] := by
  obtain ⟨keyColumn, sortColumn, hkey, hsort, hname⟩ := h
  rw [hcreated.keySchema_eq, copySchema] at hkey
  have hlt := hcreated.keyAttrs_lt
  rcases hattrs : index.keyAttrs with _ | ⟨attr, _ | ⟨second, rest⟩⟩
  · simp [hattrs] at hkey
  · have hattr : table.schema[attr]? = some keyColumn := by
      simpa [hattrs, List.filterMap_cons, hlt attr (by simp [hattrs])] using hkey
    -- the key column and the sort column have one name, and names are distinct
    have hnames' : (table.schema.map Prod.fst)[attr]? = (table.schema.map Prod.fst)[column]? := by
      rw [List.getElem?_map, List.getElem?_map, hattr, hsort, Option.map_some, Option.map_some,
        hname]
    have hattrLt : attr < (table.schema.map Prod.fst).length := by
      rw [List.length_map]
      exact hlt attr (by simp [hattrs])
    rw [(List.getElem?_inj hattrLt hnames).mp hnames']
  · have hfirst := hlt attr (by simp [hattrs])
    have hsecond := hlt second (by simp [hattrs])
    simp [hattrs, hfirst, hsecond] at hkey

theorem orderIndex_spec (indexes : List IndexData)
    (hcolumn : column < schema.length) :
    ∃ found, orderIndex schema column indexes = .ok found ∧
      ∀ index, found = some index → index ∈ indexes ∧ NamesColumn schema column index := by
  have hsort : schema[column]? = some schema[column] := List.getElem?_eq_getElem hcolumn
  induction indexes with
  | nil => exact ⟨none, rfl, nofun⟩
  | cons index rest ih =>
    obtain ⟨found, hfound, hspec⟩ := ih
    have hrest : ∀ other, found = some other →
        other ∈ index :: rest ∧ NamesColumn schema column other := fun other hother =>
      ⟨List.mem_cons_of_mem _ (hspec other hother).1, (hspec other hother).2⟩
    rw [orderIndex]
    split
    · rename_i keyColumn hkey
      rw [hsort]
      by_cases hname : keyColumn.1 = schema[column].1
      · refine ⟨some index, by simp [hname], fun other hother => ?_⟩
        cases hother
        exact ⟨List.mem_cons_self, keyColumn, schema[column], hkey, hsort, hname⟩
      · exact ⟨found, by simpa [hname] using hfound, hrest⟩
    · exact ⟨found, hfound, hrest⟩

theorem sortAsIndexScan_spec (hdb : Indexable db) {kind : PlanKind}
    {child : PlanNode} {tupleIdx colIdx : ℕ} {type : TypeId}
    (h : (node kind schema [child]).Indexable db others)
    (hcolumn : colIdx < child.outputSchema.length)
    (hkind : (node kind schema [child]).meaning (indexSemantics db others) =
      sortRows (.columnValue tupleIdx colIdx type) (child.meaning (indexSemantics db others))) :
    ∃ plan', sortAsIndexScan db colIdx (.node kind schema [child]) = .ok plan' ∧
      plan'.Indexable db others ∧
      plan'.Replaces (indexSemantics db others) (.node kind schema [child]) := by
  cases child with
  | node childKind childSchema grandchildren =>
    cases childKind with
    | seqScan tableOid tableName filterPredicate =>
      obtain ⟨table, htable, rfl, rfl, hlength, hmeaning⟩ := indexable_seqScan h.2.1
      have hcolumn' : colIdx < table.schema.length := hlength ▸ hcolumn
      obtain ⟨found, hfound, hspec⟩ :=
        orderIndex_spec (db.getTableIndexes table.name) hcolumn'
      have hmatch : matchOrderIndex db table.oid colIdx = .ok found := by
        rw [matchOrderIndex, Database.getTable_of_mem htable]
        exact hfound
      cases found with
      | none =>
        exact ⟨_, by simp only [sortAsIndexScan, children, hmatch], h, rfl, rfl⟩
      | some index =>
        obtain ⟨hindex, hnames⟩ := hspec index rfl
        have hattrs := hnames.keyAttrs_eq (Database.createdOver_of_mem htable hindex).2
          (hdb.names_nodup table htable)
        have hunique := hdb.uniqueColumn table htable index hindex colIdx hattrs
        refine ⟨.node (.indexScan index.indexOid) schema [], ?_, ⟨trivial, trivial⟩, rfl, ?_⟩
        · simp [sortAsIndexScan, children, hmatch]
        rw [hkind, hmeaning, sortRows_eq_indexScanRows htable hindex hattrs hunique]
        rfl
    -- only a scan of the whole table is replaced
    | _ => exact ⟨_, rfl, h, rfl, rfl⟩

theorem exists_child_of_sort {type : OrderByType} {tupleIdx colIdx : ℕ} {returnType : TypeId}
    {children : List PlanNode} (htype : type = .asc ∨ type = .default)
    (h : (node (.sort [(type, .columnValue tupleIdx colIdx returnType)]) schema
      children).Indexable db others) : ∃ child, children = [child] := by
  rcases children with _ | ⟨child, _ | ⟨second, rest⟩⟩
  · rcases htype with rfl | rfl <;> exact h.1.elim
  · exact ⟨child, rfl⟩
  · rcases htype with rfl | rfl <;> exact h.1.elim

/-- **The sort rule** keeps the rows of a node. -/
theorem orderByAsIndexScan_spec (hdb : Indexable db) (plan : PlanNode)
    (h : plan.Indexable db others) :
    ∃ plan', orderByAsIndexScan db plan = .ok plan' ∧ plan'.Indexable db others ∧
      plan'.Replaces (indexSemantics db others) plan := by
  unfold orderByAsIndexScan
  split
  · obtain ⟨child, rfl⟩ := exists_child_of_sort (.inl rfl) h
    exact sortAsIndexScan_spec hdb h h.1 rfl
  · obtain ⟨child, rfl⟩ := exists_child_of_sort (.inr rfl) h
    exact sortAsIndexScan_spec hdb h h.1 rfl
  · exact ⟨plan, rfl, h, rfl, rfl⟩

theorem readable_wrap (type : NumberType) (number : ℤ) : (Value.wrap type number).Readable :=
  fun hnull => Value.exists_sortKey hnull fun _ hstring => nomatch hstring

/-- A table `t` with an INTEGER column `a` and two rows. -/
def numberTable (first second : ℤ) : TableData :=
  ⟨"t", 0, [("a", .number .integer)],
    [(⟨0, 0⟩, [Value.wrap .integer first]), (⟨0, 1⟩, [Value.wrap .integer second])]⟩

def twoNumbers (first second : ℤ) : Database where
  tables := [numberTable first second]
  indexes := []
  nextIndexOid := 0
  tableNames_nodup := List.nodup_singleton _
  tableOids_nodup := List.nodup_singleton _
  rids_nodup := by simp [numberTable]
  rows_length := by
    simp only [numberTable, List.forall_mem_singleton, List.forall_mem_cons,
      List.length_singleton, true_and]
  indexOids_nodup := List.nodup_nil
  indexOids_lt := nofun
  created := nofun

def scanOfTable : PlanNode := .node (.seqScan 0 "t" none) [("t.a", .number .integer)] []

theorem scanOfTable_indexable {first second : ℤ} (h : numberTable first second ∈ db.tables) :
    scanOfTable.Indexable db others :=
  ⟨⟨rfl, _, h, rfl, rfl, rfl⟩, trivial⟩

/-- `ORDER BY t.a`. -/
def sortOfTable : PlanNode :=
  .node (.sort [(.default, .columnValue 0 0 (.number .integer))]) [("t.a", .number .integer)]
    [scanOfTable]

/-- The sorted table, joined with itself by `t.a = t.a`. -/
def joinOfTable : PlanNode :=
  .node (.nestedLoopJoin (.comparison .equal (.columnValue 0 0 (.number .integer))
      (.columnValue 1 0 (.number .integer))) .inner)
    [("t.a", .number .integer), ("t.a", .number .integer)] [sortOfTable, scanOfTable]

end Optimizer

end BusTub
