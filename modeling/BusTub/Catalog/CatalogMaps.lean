import BusTub.Catalog.Catalog
import BusTub.Catalog.IndexedTables

/-!
# The maps of the catalog

`CreateTable` and `CreateIndex` write five maps.  They are views of two lists, the tables and the
indexes in the order of their creation, as long as every oid is new: an oid is a `uint32_t`, and
the counter starts again after `2 ^ 32` creations.
-/

namespace BusTub

namespace Catalog

/-! ## Lookups -/

section Lookups

variable (catalog : Catalog)

/-- `GetTable`, by oid. -/
def getTableByOid (oid : ℕ) : Option TableInfo := catalog.tables.lookup oid

/-- `GetIndex`, by oid. -/
def getIndexByOid (oid : ℕ) : Option IndexInfo := catalog.indexes.lookup oid

/-- `indexes_.find`, with the assertion that the index is there. -/
def indexAt (oid : ℕ) : Except CatalogFault IndexInfo :=
  match catalog.indexes.lookup oid with
  | none => .error .brokenInvariant
  | some info => .ok info

/-- `GetIndex`, by the names of the index and its table. -/
def getIndex (indexName : IndexName) (tableName : TableName) :
    Except CatalogFault (Option IndexInfo) :=
  match catalog.indexNames.lookup tableName with
  | none =>
    if (catalog.tableNames.lookup tableName).isSome then .error .brokenInvariant else .ok none
  | some tableIndexes =>
    match tableIndexes.lookup indexName with
    | none => .ok none
    | some oid => some <$> catalog.indexAt oid

/-- `GetIndex`, by the name of the index and the oid of its table. -/
def getIndexOfTable (indexName : IndexName) (oid : ℕ) : Except CatalogFault (Option IndexInfo) :=
  match catalog.tables.lookup oid with
  | none => .ok none
  | some info => catalog.getIndex indexName info.name

/-- `GetTableIndexes`. -/
def getTableIndexes (tableName : TableName) : Except CatalogFault (List IndexInfo) :=
  if (catalog.tableNames.lookup tableName).isNone then .ok []
  else
    match catalog.indexNames.lookup tableName with
    | none => .error .brokenInvariant
    | some tableIndexes => tableIndexes.mapM fun entry => catalog.indexAt entry.2

end Lookups

/-- The calls: a table with the first page of its heap, an index with the root that its tree
has after the loop of `CreateIndex`. -/
inductive Call
  | createTable (tableName : TableName) (firstPageId : PageId)
  | createIndex (indexName : IndexName) (tableName : TableName) (rootPageId : PageId)

/-- The catalog, and what the calls have returned. -/
abbrev History := Catalog × List TableInfo × List IndexInfo

/-- `CreateTable` after the check of the name.  The counter has 32 bits. -/
def withTable (catalog : Catalog) (info : TableInfo) : Catalog :=
  { catalog.addTable info.name info.table with nextTableOid := (info.oid + 1) % 2 ^ 32 }

/-- `CreateIndex` after the loop.  The counter has 32 bits. -/
def withIndex (catalog : Catalog) (info : IndexInfo) : Catalog :=
  { catalog.addIndex info with nextIndexOid := (info.indexOid + 1) % 2 ^ 32 }

/-- `CreateTable` and `CreateIndex`. -/
def step : History → Call → Except CatalogFault History
  | (catalog, tables, indexes), .createTable tableName firstPageId =>
    let info := ⟨tableName, some firstPageId, catalog.nextTableOid⟩
    if (catalog.tableNames.lookup tableName).isSome then .ok (catalog, tables, indexes)
    else .ok (catalog.withTable info, tables ++ [info], indexes)
  | (catalog, tables, indexes), .createIndex indexName tableName rootPageId =>
    let info := ⟨indexName, catalog.nextIndexOid, tableName, rootPageId⟩
    match catalog.indexedHeap indexName tableName with
    | .error fault => .error fault
    | .ok none => .ok (catalog, tables, indexes)
    | .ok (some _) => .ok (catalog.withIndex info, tables, indexes ++ [info])

/-- Every lookup is one in the lists of what was created, in which no oid and no name comes
twice. -/
structure Consistent (catalog : Catalog) (tables : List TableInfo) (indexes : List IndexInfo) :
    Prop where
  tableNames : (tables.map TableInfo.name).Nodup
  tableOids : (tables.map TableInfo.oid).Nodup
  indexNames : (indexes.map fun info => (info.tableName, info.name)).Nodup
  indexOids : (indexes.map IndexInfo.indexOid).Nodup
  getTable : ∀ name, catalog.getTable name = .ok (tables.find? fun info => info.name = name)
  getTableByOid : ∀ oid, catalog.getTableByOid oid = tables.find? fun info => info.oid = oid
  getIndex : ∀ name tableName, catalog.getIndex name tableName =
    .ok (indexes.find? fun info => info.tableName = tableName ∧ info.name = name)
  getIndexOfTable : ∀ name, ∀ table ∈ tables,
    catalog.getIndexOfTable name table.oid = catalog.getIndex name table.name
  getIndexByOid : ∀ oid,
    catalog.getIndexByOid oid = indexes.find? fun info => info.indexOid = oid
  getTableIndexes : ∀ tableName, catalog.getTableIndexes tableName =
    .ok (indexes.filter fun info => info.tableName = tableName)

/-! ## The maps as views of the lists -/

section Views

variable {Item Key Value : Type*} [DecidableEq Key] {items : List Item} {key : Item → Key}

theorem lookup_map [BEq Key] [LawfulBEq Key] (items : List Item) (key : Item → Key)
    (value : Item → Value) (wanted : Key) :
    (items.map fun item => (key item, value item)).lookup wanted =
      (items.find? fun item => key item = wanted).map value := by
  induction items with
  | nil => rfl
  | cons item rest ih =>
    by_cases hkey : key item = wanted
    · simp [hkey]
    · simp [List.lookup_cons, hkey, beq_false_of_ne (Ne.symm hkey), ih]

theorem emplace_map {wanted : Key} (hnew : ∀ item ∈ items, key item ≠ wanted)
    (value : Item → Value) (new : Value) :
    emplace (items.map fun item => (key item, value item)) wanted new =
      (items.map fun item => (key item, value item)) ++ [(wanted, new)] :=
  emplace_of_new _ (List.forall_mem_map.mpr hnew)

theorem assign_map (hnodup : (items.map key).Nodup) (value : Item → Value) (wanted : Key)
    (new : Value) :
    assign (items.map fun item => (key item, value item)) wanted new =
      items.map fun item => (key item, if key item = wanted then new else value item) := by
  induction items with
  | nil => rfl
  | cons item rest ih =>
    rw [List.map_cons, List.nodup_cons] at hnodup
    rw [List.map_cons, List.map_cons, assign]
    split_ifs with hkey
    · obtain rfl : key item = wanted := hkey
      refine congrArg _ (List.map_congr_left fun other hother => ?_)
      rw [if_neg fun hsame : key other = key item =>
        hnodup.1 (hsame ▸ List.mem_map_of_mem hother)]
    · rw [ih hnodup.2]

end Views

/-- The indexes of a table, as the catalog keeps them. -/
def namesOf (indexes : List IndexInfo) (tableName : TableName) : List (IndexName × ℕ) :=
  (indexes.filter fun info => info.tableName = tableName).map fun info =>
    (info.name, info.indexOid)

/-- The maps of the lists, in which an oid is a position. -/
structure Listed (catalog : Catalog) (tables : List TableInfo) (indexes : List IndexInfo) :
    Prop where
  catalog : catalog = ⟨tables.map fun info => (info.oid, info),
    tables.map fun info => (info.name, info.oid), tables.length % 2 ^ 32,
    indexes.map fun info => (info.indexOid, info),
    tables.map fun info => (info.name, namesOf indexes info.name), indexes.length % 2 ^ 32⟩
  tableOids : tables.map TableInfo.oid = List.range tables.length
  tableNames : (tables.map TableInfo.name).Nodup
  heaps : ∀ info ∈ tables, info.table.isSome
  indexOids : indexes.map IndexInfo.indexOid = List.range indexes.length
  indexNames : (indexes.map fun info => (info.tableName, info.name)).Nodup
  owners : ∀ info ∈ indexes, ∃ table ∈ tables, table.name = info.tableName

namespace Listed

variable {catalog : Catalog} {tables : List TableInfo} {indexes : List IndexInfo}
  {tableName : TableName} {table : TableInfo}

theorem name_of_find? (h : (tables.find? fun info => info.name = tableName) = some table) :
    table.name = tableName := by
  simpa using List.find?_some h

variable (h : Listed catalog tables indexes)
include h

theorem lookup_tableNames (name : TableName) : catalog.tableNames.lookup name =
    (tables.find? fun info => info.name = name).map TableInfo.oid := by
  rw [h.catalog, lookup_map]

theorem lookup_indexNames (name : TableName) : catalog.indexNames.lookup name =
    (tables.find? fun info => info.name = name).map fun info => namesOf indexes info.name := by
  rw [h.catalog, lookup_map]

theorem lookup_tables (oid : ℕ) :
    catalog.tables.lookup oid = tables.find? fun info => info.oid = oid := by
  rw [h.catalog, lookup_map, Option.map_id']

theorem lookup_indexes (oid : ℕ) :
    catalog.indexes.lookup oid = indexes.find? fun info => info.indexOid = oid := by
  rw [h.catalog, lookup_map, Option.map_id']

theorem lookup_table (hmem : table ∈ tables) : catalog.tables.lookup table.oid = some table :=
  (h.lookup_tables _).trans (find?_of_mem (h.tableOids ▸ List.nodup_range) hmem)

theorem indexAt {info : IndexInfo} (hmem : info ∈ indexes) :
    catalog.indexAt info.indexOid = .ok info := by
  rw [Catalog.indexAt, h.lookup_indexes,
    find?_of_mem (h.indexOids ▸ List.nodup_range : (indexes.map IndexInfo.indexOid).Nodup) hmem]

theorem getTable (name : TableName) :
    catalog.getTable name = .ok (tables.find? fun info => info.name = name) := by
  rw [Catalog.getTable, h.lookup_tableNames]
  cases hfind : tables.find? fun info => info.name = name with
  | none => rfl
  | some table => simp only [Option.map_some, h.lookup_table (List.mem_of_find?_eq_some hfind)]

/-- An index belongs to a table that is there. -/
theorem tableName_ne (hnone : (tables.find? fun info => info.name = tableName) = none) :
    ∀ info ∈ indexes, info.tableName ≠ tableName := by
  rintro info hmem rfl
  obtain ⟨table, htable, hname⟩ := h.owners info hmem
  simpa [hname] using List.find?_eq_none.mp hnone table htable

theorem getIndex (name : IndexName) (tableName : TableName) :
    catalog.getIndex name tableName =
      .ok (indexes.find? fun info => info.tableName = tableName ∧ info.name = name) := by
  rw [Catalog.getIndex, h.lookup_tableNames, h.lookup_indexNames]
  cases htable : tables.find? fun info => info.name = tableName with
  | none =>
    rw [List.find?_eq_none.mpr fun info hmem => by simp [h.tableName_ne htable info hmem]]
    rfl
  | some table =>
    simp only [Option.map_some, namesOf, lookup_map, List.find?_filter, name_of_find? htable,
      decide_eq_true_eq]
    cases hfind : indexes.find? fun info => info.tableName = tableName ∧ info.name = name with
    | none => rfl
    | some info =>
      simp only [Option.map_some, h.indexAt (List.mem_of_find?_eq_some hfind)]
      rfl

theorem getTableIndexes (tableName : TableName) : catalog.getTableIndexes tableName =
    .ok (indexes.filter fun info => info.tableName = tableName) := by
  rw [Catalog.getTableIndexes, h.lookup_tableNames, h.lookup_indexNames]
  cases htable : tables.find? fun info => info.name = tableName with
  | none =>
    rw [List.filter_eq_nil_iff.mpr fun info hmem => by simp [h.tableName_ne htable info hmem]]
    rfl
  | some table =>
    simp only [Option.map_some, namesOf, name_of_find? htable, List.mapM_map]
    exact (Except.mapM_eq_map fun info hmem => h.indexAt (List.mem_filter.mp hmem).1).trans
      (by rw [List.map_id'])

theorem consistent : Consistent catalog tables indexes where
  tableNames := h.tableNames
  tableOids := h.tableOids ▸ List.nodup_range
  indexNames := h.indexNames
  indexOids := h.indexOids ▸ List.nodup_range
  getTable := h.getTable
  getTableByOid := h.lookup_tables
  getIndex := h.getIndex
  getIndexOfTable name table hmem := by simp only [getIndexOfTable, h.lookup_table hmem]
  getIndexByOid := h.lookup_indexes
  getTableIndexes := h.getTableIndexes

/-! ## Steps and runs -/

theorem createTable (hroom : tables.length < 2 ^ 32)
    (hnew : (tables.find? fun info => info.name = tableName) = none) (firstPageId : PageId) :
    let info : TableInfo := ⟨tableName, some firstPageId, catalog.nextTableOid⟩
    Listed (catalog.withTable info) (tables ++ [info]) indexes := by
  have hoid : catalog.nextTableOid = tables.length := by
    rw [h.catalog]
    exact Nat.mod_eq_of_lt hroom
  have hname : ∀ info ∈ tables, info.name ≠ tableName := by
    simpa using List.find?_eq_none.mp hnew
  have hfresh : ∀ info ∈ tables, info.oid ≠ tables.length := fun info hmem =>
    (List.mem_range.mp (h.tableOids ▸ List.mem_map_of_mem hmem)).ne
  have hnone : namesOf indexes tableName = [] := by
    rw [namesOf, List.filter_eq_nil_iff.mpr fun info hmem => by
      simp [h.tableName_ne hnew info hmem], List.map_nil]
  refine ⟨?_, ?_, ?_, ?_, h.indexOids, h.indexNames, fun info hmem => ?_⟩
  · simp only [withTable, addTable, hoid]
    rw [h.catalog]
    simp [emplace_map hfresh, emplace_map hname, hnone]
  · simp [hoid, h.tableOids, List.range_succ]
  · rw [List.map_append, List.nodup_append_comm]
    exact List.nodup_cons.mpr ⟨by simpa using hname, h.tableNames⟩
  · simpa [or_imp, forall_and] using h.heaps
  · obtain ⟨table, htable, howner⟩ := h.owners info hmem
    exact ⟨table, List.mem_append_left _ htable, howner⟩

section CreateIndex

variable {indexName : IndexName}
  (htable : (tables.find? fun info => info.name = tableName) = some table)
include htable

theorem step_createIndex (rootPageId : PageId) :
    let info : IndexInfo := ⟨indexName, catalog.nextIndexOid, tableName, rootPageId⟩
    Catalog.step (catalog, tables, indexes) (.createIndex indexName tableName rootPageId) =
      if ∃ info ∈ indexes, info.tableName = tableName ∧ info.name = indexName then
        .ok (catalog, tables, indexes)
      else .ok (catalog.withIndex info, tables, indexes ++ [info]) := by
  obtain ⟨page, hpage⟩ :=
    Option.isSome_iff_exists.mp (h.heaps table (List.mem_of_find?_eq_some htable))
  simp only [Catalog.step, indexedHeap, h.lookup_tableNames, h.lookup_indexNames, h.getTable,
    htable, hpage, Option.map_some, name_of_find? htable, namesOf, lookup_map, List.find?_filter,
    Option.isSome_map, List.find?_isSome, decide_eq_true_eq]
  split_ifs <;> rfl

theorem createIndex (hroom : indexes.length < 2 ^ 32)
    (hnew : ¬ ∃ info ∈ indexes, info.tableName = tableName ∧ info.name = indexName)
    (rootPageId : PageId) :
    let info : IndexInfo := ⟨indexName, catalog.nextIndexOid, tableName, rootPageId⟩
    Listed (catalog.withIndex info) tables (indexes ++ [info]) := by
  have hoid : catalog.nextIndexOid = indexes.length := by
    rw [h.catalog]
    exact Nat.mod_eq_of_lt hroom
  have hunnamed : ∀ info ∈ indexes.filter (·.tableName = tableName), info.name ≠ indexName := by
    simpa using hnew
  have hfresh : ∀ info ∈ indexes, info.indexOid ≠ indexes.length := fun info hmem =>
    (List.mem_range.mp (h.indexOids ▸ List.mem_map_of_mem hmem)).ne
  refine ⟨?_, h.tableOids, h.tableNames, h.heaps, ?_, ?_, ?_⟩
  · simp only [withIndex, addIndex, hoid, h.lookup_indexNames, htable, Option.map_some,
      Option.getD_some, name_of_find? htable]
    rw [h.catalog]
    simp only [emplace_map hfresh, assign_map h.tableNames, List.map_append, List.map_singleton,
      List.length_append, List.length_singleton]
    congr 1
    refine List.map_congr_left fun other _ => ?_
    split_ifs with hother
    · rw [hother, namesOf, emplace_map hunnamed]
      simp [namesOf]
    · simp [namesOf, Ne.symm hother]
  · simp [hoid, h.indexOids, List.range_succ]
  · rw [List.map_append, List.nodup_append_comm]
    exact List.nodup_cons.mpr ⟨by simpa using hnew, h.indexNames⟩
  · intro info hmem
    rcases List.mem_append.mp hmem with hmem | hmem
    · exact h.owners info hmem
    · cases List.mem_singleton.mp hmem
      exact ⟨table, List.mem_of_find?_eq_some htable, name_of_find? htable⟩

end CreateIndex

theorem step (hroom : tables.length + indexes.length < 2 ^ 32) (call : Call) :
    ∃ next tables' indexes', Catalog.step (catalog, tables, indexes) call =
        .ok (next, tables', indexes') ∧ Listed next tables' indexes' ∧
      tables'.length + indexes'.length ≤ tables.length + indexes.length + 1 := by
  cases call with
  | createTable tableName firstPageId =>
    cases hfind : tables.find? fun info => info.name = tableName with
    | none =>
      refine ⟨_, _, _, if_neg ?_, h.createTable (by omega) hfind firstPageId, ?_⟩
      · rw [h.lookup_tableNames, hfind]
        exact Bool.false_ne_true
      · rw [List.length_append, List.length_singleton]
        omega
    | some table =>
      exact ⟨_, _, _, if_pos (by rw [h.lookup_tableNames, hfind]; rfl), h, Nat.le_succ _⟩
  | createIndex indexName tableName rootPageId =>
    cases hfind : tables.find? fun info => info.name = tableName with
    | none =>
      refine ⟨_, _, _, ?_, h, Nat.le_succ _⟩
      simp only [Catalog.step, indexedHeap, h.lookup_tableNames, hfind, Option.map_none]
    | some table =>
      rw [h.step_createIndex hfind]
      split_ifs with hnew
      · exact ⟨_, _, _, rfl, h, Nat.le_succ _⟩
      · refine ⟨_, _, _, rfl, h.createIndex hfind (by omega) hnew rootPageId, ?_⟩
        rw [List.length_append, List.length_singleton]
        omega

theorem run (calls : List Call) (hroom : tables.length + indexes.length + calls.length ≤ 2 ^ 32) :
    ∃ final tables' indexes', calls.foldlM Catalog.step (catalog, tables, indexes) =
      .ok (final, tables', indexes') ∧ Listed final tables' indexes' := by
  induction calls generalizing catalog tables indexes with
  | nil => exact ⟨_, _, _, rfl, h⟩
  | cons call rest ih =>
    rw [List.length_cons] at hroom
    obtain ⟨next, tables', indexes', hstep, hnext, hle⟩ := h.step (by omega) call
    rw [List.foldlM_cons, hstep]
    exact ih hnext (by omega)

end Listed

theorem listed_empty : Listed empty [] [] :=
  ⟨rfl, rfl, List.nodup_nil, List.forall_mem_nil _, rfl, List.nodup_nil, List.forall_mem_nil _⟩

theorem step_of_refused {catalog : Catalog} {tables : List TableInfo} {indexes : List IndexInfo}
    {call : Call} {next : History} (h : step (catalog, tables, indexes) call = .ok next)
    (hsame : next.2 = (tables, indexes)) : next = (catalog, tables, indexes) := by
  cases call <;> rw [step] at h <;> split at h <;> cases h <;> simp at hsame ⊢

/-- Indexes of one table, each with another name. -/
def manyIndexes (count : ℕ) : List Call :=
  .createTable [] 0 :: (List.range count).map fun k =>
    .createIndex (List.replicate k 0) [] invalidPageId

def oneTable : List TableInfo := [⟨[], some 0, 0⟩]

theorem find?_oneTable :
    (oneTable.find? fun info => info.name = []) = some ⟨[], some 0, 0⟩ := rfl

section ManyIndexes

variable {catalog : Catalog} {indexes : List IndexInfo} {count : ℕ}

theorem not_named (h : ∀ info ∈ indexes, info.name.length < count) :
    ¬ ∃ info ∈ indexes, info.tableName = [] ∧ info.name = List.replicate count 0 := by
  rintro ⟨info, hmem, -, hname⟩
  simpa [hname] using h info hmem

theorem run_manyIndexes_succ (hlisted : Listed catalog oneTable indexes)
    (hnames : ∀ info ∈ indexes, info.name.length < count)
    (hrun : (manyIndexes count).foldlM step (empty, [], []) = .ok (catalog, oneTable, indexes)) :
    let info : IndexInfo := ⟨List.replicate count 0, catalog.nextIndexOid, [], invalidPageId⟩
    (manyIndexes (count + 1)).foldlM step (empty, [], []) =
      .ok (catalog.withIndex info, oneTable, indexes ++ [info]) := by
  rw [manyIndexes, List.range_succ, List.map_append, ← List.cons_append, List.foldlM_append,
    ← manyIndexes, hrun]
  exact (bind_pure _).trans
    ((hlisted.step_createIndex find?_oneTable _).trans (if_neg (not_named hnames)))

theorem run_manyIndexes (hcount : count ≤ 2 ^ 32) :
    ∃ catalog indexes, (manyIndexes count).foldlM step (empty, [], []) =
        .ok (catalog, oneTable, indexes) ∧ Listed catalog oneTable indexes ∧
      indexes.length = count ∧ ∀ info ∈ indexes, info.name.length < count := by
  induction count with
  | zero =>
    exact ⟨_, _, rfl, listed_empty.createTable (by norm_num) rfl 0, rfl, List.forall_mem_nil _⟩
  | succ count ih =>
    obtain ⟨catalog, indexes, hrun, hlisted, hlength, hnames⟩ := ih (by omega)
    refine ⟨_, _, run_manyIndexes_succ hlisted hnames hrun,
      hlisted.createIndex find?_oneTable (by omega) (not_named hnames) _,
      by simp [hlength], fun info hmem => ?_⟩
    rcases List.mem_append.mp hmem with hmem | hmem
    · exact (hnames info hmem).trans (Nat.lt_succ_self _)
    · cases List.mem_singleton.mp hmem
      simp

end ManyIndexes

end Catalog

end BusTub
