import BusTub.Table.TablePage

/-!
# Table heaps

The model of `storage/table/table_heap.cpp`.  A table heap is a doubly linked chain of
table pages in a buffer pool, and is known by the id of its first page.

The buffer pool is the part of it that its clients rely on: the bytes of every page,
wherever they are kept, and its pins.  Whether the pool finds a frame for a request is
not up to the heap, so every request comes with a Boolean for it; the requests of one
call of `InsertTuple` are numbered from zero.  `page_id_t` has 32 bits: the pool hands
out no id past them.

A transaction is its state and its write set: the parts that the heap reads and writes.
-/

namespace BusTub

open ByteMemory

/-! ## The buffer pool, as its clients see it -/

structure PoolPage where
  bytes : TablePage
  pinCount : ℕ
  isDirty : Bool

structure PagePool where
  pages : PageId → PoolPage
  nextPageId : PageId

namespace PagePool

def bytes (pool : PagePool) (pageId : PageId) : TablePage := (pool.pages pageId).bytes

def pinCount (pool : PagePool) (pageId : PageId) : ℕ := (pool.pages pageId).pinCount

def modify (pool : PagePool) (pageId : PageId) (change : PoolPage → PoolPage) : PagePool :=
  { pool with pages := Function.update pool.pages pageId (change (pool.pages pageId)) }

/-- `FetchPage`, if there is a frame: one pin more. -/
def fetchPage (pool : PagePool) (pageId : PageId) : PagePool :=
  pool.modify pageId fun page => { page with pinCount := page.pinCount + 1 }

/-- `UnpinPage`: one pin less, if there is one. -/
def unpinPage (pool : PagePool) (pageId : PageId) (isDirty : Bool) : PagePool :=
  pool.modify pageId fun page =>
    if page.pinCount = 0 then page
    else { page with pinCount := page.pinCount - 1, isDirty := page.isDirty || isDirty }

def write (pool : PagePool) (pageId : PageId) (bytes : TablePage) : PagePool :=
  pool.modify pageId fun page => { page with bytes := bytes }

/-- `NewPage`: a zeroed page with one pin, if there is a frame and an id. -/
def newPage (pool : PagePool) (frame : Bool) : Option (PageId × PagePool) :=
  if frame = true ∧ pool.nextPageId < 2 ^ 31 - 1 then
    some (pool.nextPageId,
      { pool.modify pool.nextPageId (fun _ => ⟨fun _ => 0, 1, false⟩) with
        nextPageId := pool.nextPageId + 1 })
  else none

end PagePool

/-! ## Transactions -/

/-- `TransactionState`. -/
inductive TransactionState
  | growing
  | shrinking
  | committed
  | aborted
deriving DecidableEq, Repr

/-- `WType`. -/
inductive WType
  | insert
  | delete
  | update
deriving DecidableEq, Repr

/-- `TableWriteRecord`, for one table. -/
structure WriteRecord where
  rid : Rid
  wtype : WType
  tuple : Tuple
deriving DecidableEq

/-- `Transaction`. -/
structure Transaction where
  state : TransactionState
  writeSet : List WriteRecord
deriving DecidableEq

namespace Transaction

/-- `Begin`: a new transaction. -/
def fresh : Transaction := ⟨.growing, []⟩

/-- `SetState(TransactionState::ABORTED)`. -/
def abort (txn : Transaction) : Transaction := { txn with state := .aborted }

/-- `GetWriteSet()->emplace_back`. -/
def record (txn : Transaction) (rid : Rid) (wtype : WType) (tuple : Tuple) : Transaction :=
  { txn with writeSet := txn.writeSet ++ [⟨rid, wtype, tuple⟩] }

end Transaction

/-! ## Operations -/

namespace TableHeap

/-- The constructor: a first page with no neighbours.  The code passes `INVALID_LSN` for the
previous page, which is the same number. -/
def create (pool : PagePool) (frame : Bool) : Except TableFault (PageId × PagePool) :=
  match pool.newPage frame with
  | none => .error .noFirstPage
  | some (firstPageId, pool) =>
    let pool := pool.write firstPageId
      ((pool.bytes firstPageId).init firstPageId bustubPageSize invalidPageId)
    .ok (firstPageId, pool.unpinPage firstPageId true)

/-- The loop of `InsertTuple`, at a page that is pinned: the rid of the new tuple, or none
if there was no frame for a new page. -/
def insertLoop (tuple : Tuple) (frames : ℕ → Bool) :
    ℕ → ℕ → PagePool → PageId → Except TableFault (Option Rid × PagePool)
  | 0, _, _, _ => .error .endlessChain
  | fuel + 1, request, pool, curPageId =>
    match (pool.bytes curPageId).insertTuple tuple with
    | .error fault => .error fault
    | .ok (some rid, page) =>
      .ok (some rid, (pool.write curPageId page).unpinPage page.getTablePageId true)
    | .ok (none, page) =>
      if page.getNextPageId ≠ invalidPageId then
        let pool := pool.unpinPage page.getTablePageId false
        if frames request then
          insertLoop tuple frames fuel (request + 1) (pool.fetchPage page.getNextPageId)
            page.getNextPageId
        else .error .nullPage
      else
        match pool.newPage (frames request) with
        | none => .ok (none, pool.unpinPage page.getTablePageId false)
        | some (newPageId, pool) =>
          let pool := pool.write curPageId (page.setNextPageId newPageId)
          let pool := pool.write newPageId ((pool.bytes newPageId).init newPageId
            bustubPageSize page.getTablePageId)
          let pool := pool.unpinPage page.getTablePageId true
          insertLoop tuple frames fuel (request + 1) pool newPageId

/-- `InsertTuple`. -/
def insertTuple (firstPageId : PageId) (frames : ℕ → Bool) (pool : PagePool) (txn : Transaction)
    (tuple : Tuple) : Except TableFault (Option Rid × PagePool × Transaction) :=
  if bustubPageSize < addU32 tuple.size 32 then
    .ok (none, pool, txn.abort)
  else if frames 0 then
    -- the pages of the chain have different ids, so the walk ends before the fuel
    match insertLoop tuple frames (pool.nextPageId.toNat + 2) 1 (pool.fetchPage firstPageId)
        firstPageId with
    | .error fault => .error fault
    | .ok (none, pool) => .ok (none, pool, txn.abort)
    | .ok (some rid, pool) => .ok (some rid, pool, txn.record rid .insert .empty)
  else
    .ok (none, pool, txn.abort)

/-- `MarkDelete`: what the page answers is not looked at. -/
def markDelete (frame : Bool) (pool : PagePool) (txn : Transaction) (rid : Rid) :
    Bool × PagePool × Transaction :=
  if frame then
    let pool := pool.fetchPage rid.pageId
    let page := ((pool.bytes rid.pageId).markDelete rid.slotNum).2
    let pool := (pool.write rid.pageId page).unpinPage page.getTablePageId true
    (true, pool, txn.record rid .delete .empty)
  else
    (false, pool, txn.abort)

/-- `UpdateTuple`. -/
def updateTuple (frame : Bool) (pool : PagePool) (txn : Transaction) (tuple : Tuple) (rid : Rid) :
    Except TableFault (Bool × PagePool × Transaction) :=
  if frame then
    let pool := pool.fetchPage rid.pageId
    match (pool.bytes rid.pageId).updateTuple tuple rid.slotNum with
    | .error fault => .error fault
    | .ok (none, page) =>
      .ok (false, (pool.write rid.pageId page).unpinPage page.getTablePageId false, txn)
    | .ok (some oldTuple, page) =>
      let pool := (pool.write rid.pageId page).unpinPage page.getTablePageId true
      if txn.state ≠ .aborted then .ok (true, pool, txn.record rid .update oldTuple)
      else .ok (true, pool, txn)
  else
    .ok (false, pool, txn.abort)

/-- `ApplyDelete` and `RollbackDelete`: a page operation that must find its page. -/
def editPage (edit : TablePage → ℕ → Except TableFault TablePage) (frame : Bool) (pool : PagePool)
    (rid : Rid) : Except TableFault PagePool :=
  if frame then
    let pool := pool.fetchPage rid.pageId
    match edit (pool.bytes rid.pageId) rid.slotNum with
    | .error fault => .error fault
    | .ok page => .ok ((pool.write rid.pageId page).unpinPage page.getTablePageId true)
  else
    .error .noPageForRid

/-- `ApplyDelete`. -/
def applyDelete : Bool → PagePool → Rid → Except TableFault PagePool :=
  editPage TablePage.applyDelete

/-- `RollbackDelete`. -/
def rollbackDelete : Bool → PagePool → Rid → Except TableFault PagePool :=
  editPage TablePage.rollbackDelete

/-- `GetTuple`. -/
def getTuple (frame : Bool) (pool : PagePool) (txn : Transaction) (rid : Rid) :
    Option Tuple × PagePool × Transaction :=
  if frame then
    let pool := pool.fetchPage rid.pageId
    ((pool.bytes rid.pageId).getTuple rid.slotNum, pool.unpinPage rid.pageId false, txn)
  else
    (none, pool, txn.abort)

end TableHeap

end BusTub
