import BusTub.Catalog.Catalog
import BusTub.Table.TableIterator

/-!
# The database instance

The catalog over the buffer pool of a freshly constructed `BustubInstance`: `CreateTable` with its
heap, `InsertTuple` into the heap of a table, and `CreateIndex` with the loop that puts the tuples
of the table into the index.

The trees are not looked into.  What the insertion of an entry does to the pool is a list of
effects on the pages that the tree has got from the pool, and of new roots, which are written to
the header page.  `CreateIndex` is modelled for all such lists.

The constructor of the instance reserves no page.  The first heap gets the page id zero, which is
the id that the trees take for the header page.
-/

namespace BusTub

open Machines ByteMemory

/-! ## Trees in the pool -/

/-- The tree of an index: its pages, in the order in which it got them. -/
structure IndexTree where
  info : IndexInfo
  pages : List PageId

/-- What a tree does to the pool.  Its pages are numbered from zero. -/
inductive TreeEffect
  | newPage (frame : Bool)
  | fetchPage (page : ℕ) (frame : Bool)
  | unpinPage (page : ℕ) (isDirty : Bool)
  | write (page : ℕ) (bytes : TablePage)
  | newRoot (page : ℕ) (frame : Bool)

namespace IndexTree

def onPage (tree : IndexTree) (page : ℕ) (effect : PageId → PagePool) :
    Except CatalogFault (IndexTree × PagePool) :=
  match tree.pages[page]? with
  | none => .error .noTreePage
  | some pageId => .ok (tree, effect pageId)

/-- `UpdateRootPageId`, for a new root. -/
def newRoot (tree : IndexTree) (pool : PagePool) (rootId : PageId) (frame : Bool) :
    Except CatalogFault (IndexTree × PagePool) :=
  if frame then
    let pool := pool.fetchPage headerPageId
    match tree.info.updateRootPageId (pool.bytes headerPageId) rootId with
    | none => .error .headerPage
    | some (header, info) =>
      .ok ({ tree with info := info },
        (pool.write headerPageId header).unpinPage headerPageId true)
  else .error (.table .nullPage)

def apply (tree : IndexTree) (pool : PagePool) :
    TreeEffect → Except CatalogFault (IndexTree × PagePool)
  | .newPage frame =>
    match pool.newPage frame with
    | none => .error (.table .nullPage)
    | some (pageId, pool) => .ok ({ tree with pages := tree.pages ++ [pageId] }, pool)
  | .fetchPage page frame =>
    if frame then tree.onPage page pool.fetchPage else .error (.table .nullPage)
  | .unpinPage page isDirty => tree.onPage page fun pageId => pool.unpinPage pageId isDirty
  | .write page bytes => tree.onPage page fun pageId => pool.write pageId bytes
  | .newRoot page frame =>
    match tree.pages[page]? with
    | none => .error .noTreePage
    | some rootId => tree.newRoot pool rootId frame

/-- `InsertEntry`: the effects of one entry. -/
def insertEntry (tree : IndexTree) (pool : PagePool) :
    List TreeEffect → Except CatalogFault (IndexTree × PagePool)
  | [] => .ok (tree, pool)
  | effect :: effects =>
    match tree.apply pool effect with
    | .error fault => .error fault
    | .ok (tree, pool) => tree.insertEntry pool effects

/-- The loop of `CreateIndex` over the table, for at most `rounds` tuples.  The tuples are
numbered from the last one of these. -/
def populate (effects : ℕ → List TreeEffect) (frames : ℕ → ℕ → Bool) :
    ℕ → TableIterator → IndexTree → PagePool → Transaction →
      Except CatalogFault (IndexTree × PagePool × Transaction)
  | 0, _, _, _, _ => .error (.table .endlessChain)
  | rounds + 1, iterator, tree, pool, txn =>
    if iterator.isEnd then .ok (tree, pool, txn)
    else
      match tree.insertEntry pool (effects rounds) with
      | .error fault => .error fault
      | .ok (tree, pool) =>
        match iterator.next (frames rounds) pool txn with
        | .error fault => .error (.table fault)
        | .ok (iterator, pool, txn) =>
          populate effects frames rounds iterator tree pool txn

end IndexTree

/-! ## The instance -/

/-- The catalog, the pool and the transaction of the calls. -/
structure Instance where
  catalog : Catalog
  pool : PagePool
  txn : Transaction

inductive InstanceCall
  | createTable (tableName : TableName) (createTableHeap frame : Bool)
  | insertTuple (tableName : TableName) (tuple : Tuple) (frames : ℕ → Bool)
  | createIndex (indexName : IndexName) (tableName : TableName) (rounds : ℕ)
      (effects : ℕ → List TreeEffect) (frames : ℕ → ℕ → Bool)

namespace Instance

def start : Instance := ⟨.empty, TableHeap.freshPool, .fresh⟩

/-- `CreateTable`. -/
def createTable (state : Instance) (tableName : TableName) (createTableHeap frame : Bool) :
    Except CatalogFault Instance :=
  if (state.catalog.tableNames.lookup tableName).isSome then .ok state
  else if createTableHeap then
    match TableHeap.create state.pool frame with
    | .error fault => .error (.table fault)
    | .ok (firstPageId, pool) =>
      .ok { state with
        catalog := state.catalog.addTable tableName (some firstPageId), pool := pool }
  else .ok { state with catalog := state.catalog.addTable tableName none }

/-- `GetTable(...)->table_->InsertTuple`. -/
def insertTuple (state : Instance) (tableName : TableName) (tuple : Tuple) (frames : ℕ → Bool) :
    Except CatalogFault Instance :=
  match state.catalog.getTable tableName with
  | .error fault => .error fault
  | .ok info =>
    match info.bind TableInfo.table with
    | none => .error .nullHeap
    | some firstPageId =>
      match TableHeap.insertTuple firstPageId frames state.pool state.txn tuple with
      | .error fault => .error (.table fault)
      | .ok (_, pool, txn) => .ok { state with pool := pool, txn := txn }

/-- `CreateIndex`. -/
def createIndex (state : Instance) (indexName : IndexName) (tableName : TableName) (rounds : ℕ)
    (effects : ℕ → List TreeEffect) (frames : ℕ → ℕ → Bool) : Except CatalogFault Instance :=
  match state.catalog.indexedHeap indexName tableName with
  | .error fault => .error fault
  | .ok none => .ok state
  | .ok (some firstPageId) =>
    match TableHeap.begin firstPageId (frames rounds) state.pool state.txn with
    | .error fault => .error (.table fault)
    | .ok (iterator, pool, txn) =>
      let info := IndexInfo.create indexName state.catalog.nextIndexOid tableName
      match IndexTree.populate effects frames rounds iterator ⟨info, []⟩ pool txn with
      | .error fault => .error fault
      | .ok (tree, pool, txn) => .ok ⟨state.catalog.addIndex tree.info, pool, txn⟩

def step (state : Instance) : InstanceCall → Except CatalogFault (Unit × Instance)
  | .createTable tableName createTableHeap frame =>
    (state.createTable tableName createTableHeap frame).map ((), ·)
  | .insertTuple tableName tuple frames => (state.insertTuple tableName tuple frames).map ((), ·)
  | .createIndex indexName tableName rounds effects frames =>
    (state.createIndex indexName tableName rounds effects frames).map ((), ·)

end Instance

def instanceMachine : Machine Instance InstanceCall Unit CatalogFault := ⟨Instance.step⟩

/-! ## The header page and the tables -/

def HeaderApart (state : Instance) : Prop :=
  ∀ entry ∈ state.catalog.tables, ∀ firstPageId, entry.2.table = some firstPageId →
    headerPageId ∉ TableHeap.pageIds firstPageId state.pool

/-- `CreateIndex`. -/
def InstanceCall.isCreateIndex : InstanceCall → Bool
  | .createIndex _ _ _ _ _ => true
  | _ => false

/-- After the call the header page is a page of no table; if the call creates an index, the
pages of the tables are what they were. -/
def TablesApart (state : Instance) (call : InstanceCall) : Prop :=
  ∀ answer next, state.step call = .ok (answer, next) →
    HeaderApart next ∧
      (call.isCreateIndex = true → ∀ entry ∈ state.catalog.tables, ∀ firstPageId,
        entry.2.table = some firstPageId → ∀ pageId ∈ TableHeap.pageIds firstPageId state.pool,
          next.pool.bytes pageId = state.pool.bytes pageId)

/-- The call creates no table heap: it is not a `CreateTable` with a heap and a new name, for
which the pool has a frame. -/
def CreatesNoHeap (state : Instance) : InstanceCall → Prop
  | .createTable tableName createTableHeap frame =>
    createTableHeap = true → frame = true →
      (state.catalog.tableNames.lookup tableName).isSome = true
  | _ => True

structure Instance.Heapless (state : Instance) : Prop where
  pool : state.pool = TableHeap.freshPool
  heapless : ∀ entry ∈ state.catalog.tables, entry.2.table = none
  oids : ∀ entry ∈ state.catalog.tables, entry.1 < state.catalog.nextTableOid

namespace Instance

theorem start_heapless : Instance.start.Heapless where
  pool := rfl
  heapless _ hmem := (nomatch hmem)
  oids _ hmem := (nomatch hmem)

variable {state next : Instance}

theorem Heapless.apart (h : state.Heapless) : HeaderApart state := by
  intro entry hentry firstPageId htable
  rw [h.heapless entry hentry] at htable
  cases htable

theorem Heapless.addTable_tables (h : state.Heapless) (tableName : TableName)
    (table : Option PageId) :
    (state.catalog.addTable tableName table).tables = state.catalog.tables ++
      [(state.catalog.nextTableOid, ⟨tableName, table, state.catalog.nextTableOid⟩)] :=
  emplace_of_new _ fun entry hentry => (h.oids entry hentry).ne

theorem Heapless.insertTuple (h : state.Heapless) (tableName : TableName) (tuple : Tuple)
    (frames : ℕ → Bool) : state.insertTuple tableName tuple frames ≠ .ok next := by
  intro hinsert
  rw [Instance.insertTuple] at hinsert
  cases hget : state.catalog.getTable tableName with
  | error fault => simp only [hget, reduceCtorEq] at hinsert
  | ok info =>
    cases info with
    | none => simp only [hget, Option.bind_none, reduceCtorEq] at hinsert
    | some info =>
      obtain ⟨oid, hmem⟩ := Catalog.mem_of_getTable hget
      have htable : info.table = none := h.heapless _ hmem
      simp only [hget, Option.bind_some, htable, reduceCtorEq] at hinsert

theorem Heapless.createIndex (h : state.Heapless) {indexName : IndexName} {tableName : TableName}
    {rounds : ℕ} {effects : ℕ → List TreeEffect} {frames : ℕ → ℕ → Bool}
    (hcreate : state.createIndex indexName tableName rounds effects frames = .ok next) :
    next = state := by
  rw [Instance.createIndex] at hcreate
  cases hheap : state.catalog.indexedHeap indexName tableName with
  | error fault => simp only [hheap, reduceCtorEq] at hcreate
  | ok heap =>
    cases heap with
    | none =>
      simp only [hheap, Except.ok.injEq] at hcreate
      exact hcreate.symm
    | some firstPageId =>
      obtain ⟨entry, hentry, htable⟩ := Catalog.mem_of_indexedHeap hheap
      rw [h.heapless entry hentry] at htable
      cases htable

theorem Heapless.createTable (h : state.Heapless) {tableName : TableName}
    {createTableHeap frame : Bool}
    (hno : CreatesNoHeap state (.createTable tableName createTableHeap frame))
    (hcreate : state.createTable tableName createTableHeap frame = .ok next) : next.Heapless := by
  rw [Instance.createTable] at hcreate
  split_ifs at hcreate with hname hheap
  · exact Except.ok.inj hcreate ▸ h
  · -- the pool has no frame, so there is no heap either
    have hframe : frame = false := by
      rw [← Bool.not_eq_true]
      exact fun hframe => hname (hno hheap hframe)
    have hfails : TableHeap.create TableHeap.freshPool false = .error .noFirstPage := rfl
    simp only [h.pool, hframe, hfails, reduceCtorEq] at hcreate
  · rw [← Except.ok.inj hcreate]
    have htables := h.addTable_tables tableName none
    refine ⟨h.pool, fun entry hentry => ?_, fun entry hentry => ?_⟩
    · rw [htables] at hentry
      cases List.mem_append.mp hentry with
      | inl hold => exact h.heapless entry hold
      | inr hnew => rw [List.mem_singleton.mp hnew]
    · rw [htables] at hentry
      cases List.mem_append.mp hentry with
      | inl hold => exact (h.oids entry hold).trans (Nat.lt_succ_self _)
      | inr hnew =>
        rw [List.mem_singleton.mp hnew]
        exact Nat.lt_succ_self _

theorem Heapless.createTable_heap (h : state.Heapless) {tableName : TableName}
    (hnew : ¬ (state.catalog.tableNames.lookup tableName).isSome = true) :
    ∃ next, state.createTable tableName true true = .ok next ∧ ¬ HeaderApart next := by
  obtain ⟨pool, hcreate, hnext, -⟩ := TableHeap.create_freshPool
  refine ⟨{ state with
    catalog := state.catalog.addTable tableName (some 0), pool := pool }, ?_, fun hapart => ?_⟩
  · rw [Instance.createTable, if_neg hnew, if_pos rfl, h.pool, hcreate]
  · have hmem : (state.catalog.nextTableOid,
        (⟨tableName, some 0, state.catalog.nextTableOid⟩ : TableInfo)) ∈
        (state.catalog.addTable tableName (some 0)).tables := by
      rw [h.addTable_tables]
      exact List.mem_append_right _ List.mem_cons_self
    apply hapart _ hmem 0 rfl
    rw [TableHeap.pageIds, hnext]
    exact List.mem_cons_self

theorem eq_ok_of_map {outcome : Except CatalogFault Instance} {answer : Unit}
    (h : outcome.map ((), ·) = .ok (answer, next)) : outcome = .ok next := by
  cases outcome with
  | error fault => cases h
  | ok result => exact congrArg Except.ok (Prod.mk.inj (Except.ok.inj h)).2

theorem Heapless.step (h : state.Heapless) {call : InstanceCall} {answer : Unit}
    (hno : CreatesNoHeap state call) (hstep : state.step call = .ok (answer, next)) :
    next.Heapless := by
  cases call with
  | createTable tableName createTableHeap frame => exact h.createTable hno (eq_ok_of_map hstep)
  | insertTuple tableName tuple frames =>
    exact absurd (eq_ok_of_map hstep) (h.insertTuple tableName tuple frames)
  | createIndex indexName tableName rounds effects frames =>
    rw [h.createIndex (eq_ok_of_map hstep)]
    exact h

/-- Without a heap, a call keeps the tables apart from the header page exactly if it creates
no heap. -/
theorem Heapless.tablesApart_iff (h : state.Heapless) (call : InstanceCall) :
    TablesApart state call ↔ CreatesNoHeap state call := by
  constructor
  · intro hapart
    cases call with
    | createTable tableName createTableHeap frame =>
      intro hheap hframe
      by_contra hnew
      obtain ⟨next, hcreate, hshared⟩ := h.createTable_heap hnew
      subst hheap hframe
      exact hshared (hapart () next (by rw [Instance.step, hcreate]; rfl)).1
    | insertTuple tableName tuple frames => trivial
    | createIndex indexName tableName rounds effects frames => trivial
  · intro hno answer next hstep
    refine ⟨(h.step hno hstep).apart, fun _ entry hentry firstPageId htable => ?_⟩
    rw [h.heapless entry hentry] at htable
    cases htable

end Instance

/-- **The header page and the tables.**  In a run from a fresh instance, every call leaves
the header page apart from the tables, exactly if no call creates a table heap. -/
theorem tablesApart_along_iff (calls : List InstanceCall) :
    instanceMachine.Along TablesApart Instance.start calls ↔
      instanceMachine.Along CreatesNoHeap Instance.start calls :=
  Machine.along_iff_along (fun _ call h => Instance.Heapless.tablesApart_iff h call)
    (fun _ _ _ _ h hno hstep => Instance.Heapless.step h hno hstep) Instance.start_heapless

/-- The leaf with the key 5 and the rid (1, 0), in page 2. -/
def firstLeaf : TablePage :=
  Memory.write (fun _ => 0) 0 [1, 0, 0, 0, 255, 255, 255, 255, 1, 0, 0, 0, 254, 0, 0, 0,
    255, 255, 255, 255, 2, 0, 0, 0, 255, 255, 255, 255, 5, 0, 0, 0, 0, 0, 0, 0, 1, 0, 0, 0, 0, 0,
    0, 0]

def indexOnSecondTable : List InstanceCall :=
  [.createTable [116] true true,
    .insertTuple [116] ⟨[7, 0, 0, 0], by decide⟩ fun _ => true,
    .insertTuple [116] ⟨[8, 9, 10, 11], by decide⟩ fun _ => true,
    .createTable [117] true true,
    .insertTuple [117] ⟨[5, 0, 0, 0], by decide⟩ fun _ => true,
    .createIndex [97] [117] 2
      (fun _ => [.newPage true, .write 0 firstLeaf, .newRoot 0 true, .unpinPage 0 true])
      fun _ _ => true]

/-- The record of the index goes into the first page of the first table: the page loses its
id, and its second tuple the last two of its bytes. -/
theorem index_overwrites_table :
    (∃ before, instanceMachine.run Instance.start (indexOnSecondTable.take 5) =
        .ok ([(), (), (), (), ()], before) ∧
      (before.pool.bytes 0).getTablePageId = 0 ∧
      (TableHeap.getTuple true before.pool .fresh ⟨0, 1⟩).1.map Tuple.data =
        some [8, 9, 10, 11]) ∧
    ∃ after, instanceMachine.run Instance.start indexOnSecondTable =
        .ok ([(), (), (), (), (), ()], after) ∧
      ¬ HeaderApart after ∧ (after.pool.bytes 0).getTablePageId = 1 ∧
      (TableHeap.getTuple true after.pool .fresh ⟨0, 1⟩).1.map Tuple.data = some [8, 9] := by
  constructor
  · have hcheck : (instanceMachine.run Instance.start (indexOnSecondTable.take 5)).toOption.any
        (fun result => result.1 = [(), (), (), (), ()] ∧
          (result.2.pool.bytes 0).getTablePageId = 0 ∧
          (TableHeap.getTuple true result.2.pool .fresh ⟨0, 1⟩).1.map Tuple.data =
            some [8, 9, 10, 11]) = true := by
      decide +kernel
    obtain ⟨⟨answers, before⟩, hrun, hbefore⟩ := Machine.exists_ok_of_check hcheck
    obtain ⟨rfl, hbefore⟩ := of_decide_eq_true hbefore
    exact ⟨before, hrun, hbefore⟩
  · have hcheck : (instanceMachine.run Instance.start indexOnSecondTable).toOption.any
        (fun result => result.1 = [(), (), (), (), (), ()] ∧
          ((0, ⟨[116], some 0, 0⟩) ∈ result.2.catalog.tables ∧
            headerPageId ∈ TableHeap.pageIds 0 result.2.pool) ∧
          (result.2.pool.bytes 0).getTablePageId = 1 ∧
          (TableHeap.getTuple true result.2.pool .fresh ⟨0, 1⟩).1.map Tuple.data =
            some [8, 9]) = true := by
      decide +kernel
    obtain ⟨⟨answers, after⟩, hrun, hafter⟩ := Machine.exists_ok_of_check hcheck
    obtain ⟨rfl, ⟨htable, hpage⟩, hafter⟩ := of_decide_eq_true hafter
    exact ⟨after, hrun, fun hapart => hapart _ htable 0 rfl hpage, hafter⟩

end BusTub
