import BusTub.Execution.Plan
import BusTub.Storage.GenericComparator
import BusTub.Table.TablePage
import Mathlib.Data.List.Sort

/-!
# Tables with indexes

What the catalog holds, as far as queries see it: the rows of the tables in the order of their
heaps, and the indexes with their entries.

`CreateIndex` goes through the heap and inserts an entry for each row.  The index is taken as a
map in which every key has one entry, and an insertion of a key that is present is refused; the
loop does not look at the answer.  If the keys of the table are distinct, no insertion is refused,
and the index holds every row.
-/

namespace BusTub

/-- A table: its columns, and its rows in the order of the heap. -/
structure TableData where
  name : String
  oid : ℕ
  schema : OutputSchema
  rows : List (Rid × Row)

/-- An index: its key columns, and its entries in the order of their insertions. -/
structure IndexData where
  name : String
  indexOid : ℕ
  tableName : String
  keySchema : OutputSchema
  keyAttrs : List ℕ
  entries : List (List Value × Rid)

/-- The values of `KeyFromTuple`. -/
def keyOf (keyAttrs : List ℕ) (row : Row) : List Value := keyAttrs.filterMap (row[·]?)

/-- `Schema::CopySchema`. -/
def copySchema (schema : OutputSchema) (attrs : List ℕ) : OutputSchema :=
  attrs.filterMap (schema[·]?)

def keyPlaces (key : List Value) : List (Option (ℤ ⊕ₗ List ℕ)) := key.map Value.sortKey

def insertEntry (entries : List (List Value × Rid)) (key : List Value) (rid : Rid) :
    List (List Value × Rid) :=
  if entries.any fun entry => keyPlaces entry.1 = keyPlaces key then entries
  else entries ++ [(key, rid)]

/-- The loop of `CreateIndex` over the heap. -/
def populateIndex (keyAttrs : List ℕ) (rows : List (Rid × Row)) : List (List Value × Rid) :=
  rows.foldl (fun entries item => insertEntry entries (keyOf keyAttrs item.2) item.1) []

namespace IndexData

structure CreatedOver (index : IndexData) (table : TableData) : Prop where
  tableName_eq : index.tableName = table.name
  keyAttrs_lt : ∀ attr ∈ index.keyAttrs, attr < table.schema.length
  keySchema_eq : index.keySchema = copySchema table.schema index.keyAttrs
  entries_eq : index.entries = populateIndex index.keyAttrs table.rows

/-- `ScanKey`. -/
def scanKey (index : IndexData) (key : List Value) : Option Rid :=
  (index.entries.find? fun entry => keyPlaces entry.1 = keyPlaces key).map Prod.snd

end IndexData

/-- `GetTuple`. -/
def TableData.getTuple (table : TableData) (rid : Rid) : Except SqlFault Row :=
  match table.rows.find? fun item => item.1 = rid with
  | none => .error .undefinedBehaviour
  | some item => .ok item.2

structure Database where
  tables : List TableData
  indexes : List IndexData
  nextIndexOid : ℕ
  tableNames_nodup : (tables.map TableData.name).Nodup
  tableOids_nodup : (tables.map TableData.oid).Nodup
  rids_nodup : ∀ table ∈ tables, (table.rows.map Prod.fst).Nodup
  rows_length : ∀ table ∈ tables, ∀ item ∈ table.rows, item.2.length = table.schema.length
  indexOids_nodup : (indexes.map IndexData.indexOid).Nodup
  indexOids_lt : ∀ index ∈ indexes, index.indexOid < nextIndexOid
  created : ∀ index ∈ indexes, ∃ table ∈ tables, index.CreatedOver table

namespace Database

/-- `GetTable`, by oid. -/
def getTable (db : Database) (oid : ℕ) : Option TableData :=
  db.tables.find? fun table => table.oid = oid

/-- `GetTable`, by name. -/
def getTableByName (db : Database) (name : String) : Option TableData :=
  db.tables.find? fun table => table.name = name

/-- `GetIndex`, by oid. -/
def getIndex (db : Database) (oid : ℕ) : Option IndexData :=
  db.indexes.find? fun index => index.indexOid = oid

/-- `GetTableIndexes`.  The source goes through an unordered map; nothing is said about the order
of the list. -/
def getTableIndexes (db : Database) (tableName : String) : List IndexData :=
  db.indexes.filter fun index => index.tableName = tableName

theorem nodup_append_oid {indexes : List IndexData} {oid : ℕ} {index : IndexData}
    (hnodup : (indexes.map IndexData.indexOid).Nodup) (hoid : index.indexOid = oid)
    (hlt : ∀ index ∈ indexes, index.indexOid < oid) :
    ((indexes ++ [index]).map IndexData.indexOid).Nodup := by
  rw [List.map_append, List.nodup_append]
  refine ⟨hnodup, List.nodup_singleton _, fun first hfirst second hsecond => ?_⟩
  obtain ⟨other, hother, rfl⟩ := List.mem_map.mp hfirst
  obtain rfl := List.mem_singleton.mp hsecond
  exact hoid ▸ (hlt other hother).ne

/-- `CreateIndex`, with the schema of the table and the key schema that is copied from it.  There
is no index if the table does not exist, or has an index of that name. -/
def createIndex (db : Database) (indexName tableName : String) (keyAttrs : List ℕ) :
    Except SqlFault (Option Database) :=
  match htable : db.getTableByName tableName with
  | none => .ok none
  | some table =>
    if (db.getTableIndexes tableName).any fun index => index.name = indexName then .ok none
    else if hattrs : ∀ attr ∈ keyAttrs, attr < table.schema.length then
      let index : IndexData :=
        ⟨indexName, db.nextIndexOid, tableName, copySchema table.schema keyAttrs, keyAttrs,
          populateIndex keyAttrs table.rows⟩
      .ok (some
        { db with
          indexes := db.indexes ++ [index]
          nextIndexOid := db.nextIndexOid + 1
          indexOids_nodup := nodup_append_oid db.indexOids_nodup rfl db.indexOids_lt
          indexOids_lt := by
            intro other hother
            cases List.mem_append.mp hother with
            | inl hother => exact Nat.lt_succ_of_lt (db.indexOids_lt other hother)
            | inr hother => exact List.mem_singleton.mp hother ▸ Nat.lt_succ_self _
          created := by
            intro other hother
            cases List.mem_append.mp hother with
            | inl hother => exact db.created other hother
            | inr hother =>
              obtain rfl := List.mem_singleton.mp hother
              have hname : table.name = tableName := by
                simpa using List.find?_some htable
              exact ⟨table, List.mem_of_find?_eq_some htable, hname.symm, hattrs, rfl, rfl⟩ })
    else .error .undefinedBehaviour

end Database

/-! ## What an index holds -/

def DistinctKeys (keyAttrs : List ℕ) (rows : List (Rid × Row)) : Prop :=
  (rows.map fun item => keyPlaces (keyOf keyAttrs item.2)).Nodup

theorem foldl_insertEntry {keyAttrs : List ℕ} {rows : List (Rid × Row)}
    {entries : List (List Value × Rid)}
    (h : (entries.map (keyPlaces ·.1) ++
      rows.map fun item => keyPlaces (keyOf keyAttrs item.2)).Nodup) :
    rows.foldl (fun entries item => insertEntry entries (keyOf keyAttrs item.2) item.1) entries =
      entries ++ rows.map fun item => (keyOf keyAttrs item.2, item.1) := by
  induction rows generalizing entries with
  | nil => simp
  | cons item rest ih =>
    have hnew : insertEntry entries (keyOf keyAttrs item.2) item.1 =
        entries ++ [(keyOf keyAttrs item.2, item.1)] := by
      -- no entry that is there has the key of the row, so it is not refused
      refine if_neg fun hany => ?_
      obtain ⟨entry, hmem, hequal⟩ := List.any_eq_true.mp hany
      have hdisjoint := (List.nodup_append.mp h).2.2 (keyPlaces entry.1)
        (List.mem_map_of_mem hmem) (keyPlaces (keyOf keyAttrs item.2)) (by simp)
      exact hdisjoint (of_decide_eq_true hequal)
    rw [List.foldl_cons, hnew, ih (by simpa using h), List.map_cons, List.append_assoc,
      List.singleton_append]

/-- **With distinct keys the index holds every row.** -/
theorem populateIndex_eq_map {keyAttrs : List ℕ} {rows : List (Rid × Row)}
    (h : DistinctKeys keyAttrs rows) :
    populateIndex keyAttrs rows = rows.map fun item => (keyOf keyAttrs item.2, item.1) :=
  foldl_insertEntry h

theorem find?_of_mem {Item Key : Type*} [DecidableEq Key] {key : Item → Key} {items : List Item}
    (hnodup : (items.map key).Nodup) {item : Item} (h : item ∈ items) :
    (items.find? fun other => key other = key item) = some item := by
  induction items with
  | nil => cases h
  | cons first rest ih =>
    rw [List.map_cons, List.nodup_cons] at hnodup
    cases List.mem_cons.mp h with
    | inl hfirst =>
      subst hfirst
      exact List.find?_cons_of_pos (by simp)
    | inr hrest =>
      have hne : key first ≠ key item := fun hequal =>
        hnodup.1 (hequal ▸ List.mem_map_of_mem hrest)
      rw [List.find?_cons_of_neg (by simpa using hne), ih hnodup.2 hrest]

theorem filter_eq_find? {Item Key : Type*} [DecidableEq Key] {key : Item → Key} {items : List Item}
    (hnodup : (items.map key).Nodup) (wanted : Key) :
    (items.filter fun item => key item = wanted) =
      (items.find? fun item => key item = wanted).toList := by
  induction items with
  | nil => rfl
  | cons first rest ih =>
    rw [List.map_cons, List.nodup_cons] at hnodup
    by_cases hfirst : key first = wanted
    · have hrest : (rest.filter fun item => key item = wanted) = [] := by
        refine List.filter_eq_nil_iff.mpr fun item hmem hwanted => hnodup.1 ?_
        rw [hfirst, ← of_decide_eq_true hwanted]
        exact List.mem_map_of_mem hmem
      rw [List.filter_cons_of_pos (by simpa using hfirst), hrest,
        List.find?_cons_of_pos (by simpa using hfirst), Option.toList_some]
    · rw [List.filter_cons_of_neg (by simpa using hfirst), ih hnodup.2,
        List.find?_cons_of_neg (by simpa using hfirst)]

namespace Database

variable {db : Database} {table : TableData} {index : IndexData}

theorem getTable_of_mem (h : table ∈ db.tables) : db.getTable table.oid = some table :=
  find?_of_mem db.tableOids_nodup h

theorem getTableByName_of_mem (h : table ∈ db.tables) :
    db.getTableByName table.name = some table :=
  find?_of_mem db.tableNames_nodup h

theorem getIndex_of_mem (h : index ∈ db.indexes) : db.getIndex index.indexOid = some index :=
  find?_of_mem db.indexOids_nodup h

theorem getTuple_of_mem (h : table ∈ db.tables) {item : Rid × Row} (hitem : item ∈ table.rows) :
    table.getTuple item.1 = .ok item.2 := by
  rw [TableData.getTuple, find?_of_mem (db.rids_nodup table h) hitem]

theorem createdOver_of_mem (htable : table ∈ db.tables)
    (hindex : index ∈ db.getTableIndexes table.name) :
    index ∈ db.indexes ∧ index.CreatedOver table := by
  obtain ⟨hmem, hname⟩ := List.mem_filter.mp hindex
  obtain ⟨other, hother, hcreated⟩ := db.created index hmem
  have hnames : other.name = table.name :=
    hcreated.tableName_eq.symm.trans (of_decide_eq_true hname)
  obtain rfl := List.inj_on_of_nodup_map db.tableNames_nodup hother htable hnames
  exact ⟨hmem, hcreated⟩

end Database

end BusTub
