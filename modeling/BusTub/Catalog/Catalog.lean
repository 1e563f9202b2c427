import BusTub.Storage.HeaderRecords
import BusTub.Table.TablePage

/-!
# The catalog

The model of `catalog/catalog.h`: the tables and the indexes with their maps from names and
oids, `CreateTable` and `CreateIndex`.

A map is the list of its entries.  A table is known by the first page of its heap, if it
has one.  An index is known by its name and the root page id of its tree.  A tree changes
its root by `UpdateRootPageId`, which writes the header page; the first root is written as
a new record, and what `InsertRecord` and `UpdateRecord` answer is not looked at.
-/

namespace BusTub

open ByteMemory

/-! ## Maps -/

section Maps

variable {Key Value : Type*} [DecidableEq Key]

/-- `emplace`: a key that is there keeps its value. -/
def emplace (map : List (Key × Value)) (key : Key) (value : Value) : List (Key × Value) :=
  if (map.lookup key).isSome then map else map ++ [(key, value)]

def assign : List (Key × Value) → Key → Value → List (Key × Value)
  | [], _, _ => []
  | entry :: rest, key, value =>
    if entry.1 = key then (key, value) :: rest else entry :: assign rest key value

variable {map : List (Key × Value)}

theorem exists_split_of_lookup {key : Key} {value : Value}
    (h : map.lookup key = some value) :
    ∃ front back, map = front ++ (key, value) :: back ∧ (∀ entry ∈ front, entry.1 ≠ key) ∧
      ∀ value', assign map key value' = front ++ (key, value') :: back := by
  induction map with
  | nil => cases h
  | cons entry rest ih =>
    obtain ⟨first, stored⟩ := entry
    by_cases hkey : key = first
    · subst hkey
      rw [List.lookup_cons_self] at h
      cases h
      refine ⟨[], rest, rfl, fun entry hmem => (nomatch hmem), fun value' => ?_⟩
      rw [assign, if_pos rfl, List.nil_append]
    · have hrest : rest.lookup key = some value := by
        rw [← h, List.lookup_cons, beq_false_of_ne hkey]
      obtain ⟨front, back, rfl, hfront, hassign⟩ := ih hrest
      refine ⟨(first, stored) :: front, back, rfl, ?_, fun value' => ?_⟩
      · intro other hmem
        cases List.mem_cons.mp hmem with
        | inl hfirst => exact hfirst ▸ Ne.symm hkey
        | inr hmem => exact hfront other hmem
      · rw [assign, if_neg (Ne.symm hkey), hassign, List.cons_append]

theorem assign_keys (map : List (Key × Value)) (key : Key) (value : Value) :
    (assign map key value).map Prod.fst = map.map Prod.fst := by
  induction map with
  | nil => rfl
  | cons entry rest ih =>
    rw [assign]
    split_ifs with hkey
    · rw [List.map_cons, List.map_cons, hkey]
    · rw [List.map_cons, List.map_cons, ih]

theorem mem_of_lookup {key : Key} {value : Value}
    (h : map.lookup key = some value) : (key, value) ∈ map := by
  obtain ⟨front, back, rfl, -⟩ := exists_split_of_lookup h
  exact List.mem_append_right _ List.mem_cons_self

theorem emplace_of_new {key : Key} (value : Value)
    (h : ∀ entry ∈ map, entry.1 ≠ key) : emplace map key value = map ++ [(key, value)] := by
  have hnone : map.lookup key = none := by
    rw [List.lookup_eq_none_iff]
    intro entry hmem
    simpa using (h entry hmem).symm
  rw [emplace, hnone]
  rfl

end Maps

/-! ## Tables and indexes -/

abbrev TableName := List UInt8

/-- `TableInfo`: its heap, by the first page, if it has one. -/
structure TableInfo where
  name : TableName
  table : Option PageId
  oid : ℕ
deriving DecidableEq

/-- `IndexInfo`, with the root page id of the tree. -/
structure IndexInfo where
  name : IndexName
  indexOid : ℕ
  tableName : TableName
  rootPageId : PageId
deriving DecidableEq

namespace IndexInfo

/-- The constructor: an empty tree. -/
def create (name : IndexName) (indexOid : ℕ) (tableName : TableName) : IndexInfo :=
  ⟨name, indexOid, tableName, invalidPageId⟩

/-- `IsEmpty`. -/
def isEmpty (info : IndexInfo) : Bool := info.rootPageId = invalidPageId

/-- A new root, by `StartNewTree` for an empty tree and by `InsertIntoNewRoot` for one that
is not: `UpdateRootPageId`. -/
def updateRootPageId (info : IndexInfo) (header : HeaderData) (rootId : PageId) :
    Option (HeaderData × IndexInfo) :=
  let updated :=
    if info.isEmpty then header.insertRecord info.name rootId
    else header.updateRecord info.name rootId
  updated.map fun result => (result.2, { info with rootPageId := rootId })

end IndexInfo

/-- A page id that `NewPage` hands out. -/
abbrev NewPageId := Fin (2 ^ 31)

def IndexInfo.updateRoots (info : IndexInfo) (header : HeaderData) :
    List NewPageId → Option (HeaderData × IndexInfo)
  | [] => some (header, info)
  | root :: roots =>
    match info.updateRootPageId header (root.val : ℤ) with
    | none => none
    | some (header, info) => info.updateRoots header roots

inductive CatalogFault
  | brokenInvariant
  | nullHeap
  | noIndex
  | noTreePage
  | headerPage
  | table (fault : TableFault)
deriving DecidableEq

/-- `Catalog`. -/
structure Catalog where
  tables : List (ℕ × TableInfo)
  tableNames : List (TableName × ℕ)
  nextTableOid : ℕ
  indexes : List (ℕ × IndexInfo)
  indexNames : List (TableName × List (IndexName × ℕ))
  nextIndexOid : ℕ

namespace Catalog

/-- The constructor. -/
def empty : Catalog := ⟨[], [], 0, [], [], 0⟩

/-- `GetTable`, by name. -/
def getTable (catalog : Catalog) (tableName : TableName) :
    Except CatalogFault (Option TableInfo) :=
  match catalog.tableNames.lookup tableName with
  | none => .ok none
  | some oid =>
    match catalog.tables.lookup oid with
    | none => .error .brokenInvariant
    | some info => .ok (some info)

/-- `CreateTable` behind the check of the name, when the heap is there. -/
def addTable (catalog : Catalog) (tableName : TableName) (table : Option PageId) : Catalog :=
  let oid := catalog.nextTableOid
  { catalog with
    tables := emplace catalog.tables oid ⟨tableName, table, oid⟩
    tableNames := emplace catalog.tableNames tableName oid
    nextTableOid := oid + 1
    indexNames := emplace catalog.indexNames tableName [] }

/-- `CreateIndex` up to the loop: the heap whose tuples go into the index, or `none` if the
index is refused. -/
def indexedHeap (catalog : Catalog) (indexName : IndexName) (tableName : TableName) :
    Except CatalogFault (Option PageId) :=
  match catalog.tableNames.lookup tableName with
  | none => .ok none
  | some _ =>
    match catalog.indexNames.lookup tableName with
    | none => .error .brokenInvariant
    | some tableIndexes =>
      if (tableIndexes.lookup indexName).isSome then .ok none
      else
        match catalog.getTable tableName with
        | .error fault => .error fault
        | .ok none => .error .nullHeap
        | .ok (some info) =>
          match info.table with
          | none => .error .nullHeap
          | some firstPageId => .ok (some firstPageId)

/-- `CreateIndex` behind the loop. -/
def addIndex (catalog : Catalog) (info : IndexInfo) : Catalog :=
  let tableIndexes := (catalog.indexNames.lookup info.tableName).getD []
  { catalog with
    indexes := emplace catalog.indexes info.indexOid info
    indexNames := assign catalog.indexNames info.tableName
      (emplace tableIndexes info.name info.indexOid)
    nextIndexOid := info.indexOid + 1 }

theorem mem_of_getTable {catalog : Catalog} {tableName : TableName} {info : TableInfo}
    (h : catalog.getTable tableName = .ok (some info)) : ∃ oid, (oid, info) ∈ catalog.tables := by
  rw [getTable] at h
  cases hname : catalog.tableNames.lookup tableName with
  | none =>
    simp only [hname] at h
    cases h
  | some oid =>
    simp only [hname] at h
    cases htable : catalog.tables.lookup oid with
    | none => simp only [htable, reduceCtorEq] at h
    | some found =>
      simp only [htable, Except.ok.injEq, Option.some.injEq] at h
      exact ⟨oid, h ▸ mem_of_lookup htable⟩

theorem mem_of_indexedHeap {catalog : Catalog} {indexName : IndexName} {tableName : TableName}
    {firstPageId : PageId} (h : catalog.indexedHeap indexName tableName = .ok (some firstPageId)) :
    ∃ entry ∈ catalog.tables, entry.2.table = some firstPageId := by
  unfold indexedHeap at h
  split at h
  · cases h
  · split at h
    · cases h
    · split_ifs at h
      · cases h
      · split at h
        · cases h
        · cases h
        · rename_i info hinfo
          obtain ⟨oid, hmem⟩ := mem_of_getTable hinfo
          refine ⟨(oid, info), hmem, ?_⟩
          cases htable : info.table with
          | none => simp only [htable, reduceCtorEq] at h
          | some found =>
            simp only [htable, Except.ok.injEq] at h
            exact h

theorem indexedHeap_ne_headerPage (catalog : Catalog) (indexName : IndexName)
    (tableName : TableName) : catalog.indexedHeap indexName tableName ≠ .error .headerPage := by
  unfold indexedHeap getTable
  grind

end Catalog

end BusTub
