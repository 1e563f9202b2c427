import BusTub.Buffer.LRUKReplacer
import BusTub.Container.ExtendibleHashTable

/-!
# The buffer pool manager

Model of `buffer/buffer_pool_manager_instance.cpp`.  The pool is a record with the
members of `BufferPoolManagerInstance`; the frame array `pages_` is a function of
the frame id, and the disk is the last content written to each page.  Every
operation holds the pool latch from its first line to its last, so an operation is
one step; `FlushAllPgsImp` is the loop of its `FlushPgImp` calls.

The pool only inserts, finds and removes in `page_table_`, so it is written over
any `PageTable`: the source's extendible hash table is one, the finite map it
refines is another.

A `Page *` that the pool returns is the frame's address.  What a client writes
through it is the call `store`.
-/

namespace BusTub

open Machines

/-! ## Pages and the disk -/

/-- `char data_[BUSTUB_PAGE_SIZE]`. -/
abbrev PageData := Fin bustubPageSize → UInt8

/-- What `ResetMemory` leaves in a page. -/
def zeroData : PageData := fun _ => 0

/-- `Page`: the content of a frame and the pool's bookkeeping of it. -/
structure Page where
  data : PageData := zeroData
  pageId : PageId := invalidPageId
  pinCount : ℕ := 0
  isDirty : Bool := false

/-- `Page::ResetMemory`. -/
def Page.resetMemory (page : Page) : Page := { page with data := zeroData }

@[simp] theorem Page.resetMemory_pageId (page : Page) : page.resetMemory.pageId = page.pageId :=
  rfl

@[simp] theorem Page.resetMemory_pinCount (page : Page) :
    page.resetMemory.pinCount = page.pinCount := rfl

/-- The disk: `ReadPage` returns what `WritePage` wrote last. -/
abbrev Disk := PageId → PageData

/-- `DiskManager::WritePage`. -/
def Disk.writePage (disk : Disk) (pageId : PageId) (data : PageData) : Disk :=
  Function.update disk pageId data

/-- `DiskManager::ReadPage`. -/
def Disk.readPage (disk : Disk) (pageId : PageId) : PageData := disk pageId

/-! ## Page tables -/

/-- What the pool needs of `page_table_`. -/
class PageTable (Table : Type*) where
  empty : Table
  find : Table → PageId → Option FrameId
  insert : Table → PageId → FrameId → Except HashFault Table
  remove : Table → PageId → Table

/-- `std::hash<page_id_t>`: the identifier converted to `size_t`. -/
def pageHash (pageId : PageId) : ℕ := (pageId % 2 ^ 64).toNat

/-- The page table of the source, with `bucket_size_ = 4`. -/
instance hashPageTable : PageTable (ExtendibleHashTable PageId FrameId) where
  empty := .create 4
  find table pageId := table.find pageHash pageId
  insert table pageId frameId := table.insert pageHash pageId frameId
  remove table pageId := (table.remove pageHash pageId).2

abbrev PageMap := PageId → Option FrameId

instance mapPageTable : PageTable PageMap where
  empty := fun _ => none
  find map pageId := map pageId
  insert map pageId frameId := .ok (Function.update map pageId (some frameId))
  remove map pageId := Function.update map pageId none

/-! ## The pool -/

/-- How an operation of the pool can fail to return. -/
inductive PoolFault
  | replacer (fault : ReplacerFault)
  /-- The replacer threw. -/
  | replacerThrew
  | pageTable (fault : HashFault)
deriving DecidableEq

/-- `BufferPoolManagerInstance`. -/
structure BufferPool (Table : Type*) where
  poolSize : ℕ
  nextPageId : PageId
  pages : FrameId → Page
  pageTable : Table
  replacer : LRUKReplacer
  freeList : List FrameId
  disk : Disk

namespace BufferPool

variable {Table : Type*} [PageTable Table]

/-- `BufferPoolManagerInstance::BufferPoolManagerInstance`, over an empty disk. -/
def create (poolSize replacerK : ℕ) : BufferPool Table where
  poolSize := poolSize
  nextPageId := 0
  pages := fun _ => {}
  pageTable := PageTable.empty
  replacer := .create poolSize replacerK
  freeList := (List.range poolSize).map Int.ofNat
  disk := fun _ => zeroData

def setFrame (pool : BufferPool Table) (frameId : FrameId) (page : Page) : BufferPool Table :=
  { pool with pages := Function.update pool.pages frameId page }

/-- The frame for a page that is not resident: the front of the free list, or else
the replacer's victim. -/
def takeFrame (pool : BufferPool Table) :
    Except PoolFault (Option FrameId × BufferPool Table) :=
  match pool.freeList with
  | frameId :: rest => .ok (some frameId, { pool with freeList := rest })
  | [] =>
    match pool.replacer.evict with
    | .error fault => .error (.replacer fault)
    | .ok (victim, replacer) => .ok (victim, { pool with replacer := replacer })

def writeBack (pool : BufferPool Table) (frameId : FrameId) : BufferPool Table :=
  let page := pool.pages frameId
  if page.isDirty then
    { pool.setFrame frameId { page with isDirty := false } with
      disk := pool.disk.writePage page.pageId page.data }
  else pool

/-- `RecordAccess` and `SetEvictable(.., false)`, which every pin does. -/
def recordPin (pool : BufferPool Table) (frameId : FrameId) :
    Except PoolFault (BufferPool Table) :=
  match pool.replacer.recordAccess frameId with
  | .error fault => .error (.replacer fault)
  | .ok (false, _) => .error .replacerThrew
  | .ok (true, replacer) => .ok { pool with replacer := replacer.setEvictable frameId false }

/-- What `NewPgImp` and `FetchPgImp` do with the frame after the write-back: the page
it held leaves the page table, and it holds `pageId` with content `data` and one
pin. -/
def installPage (pool : BufferPool Table) (frameId : FrameId) (pageId : PageId)
    (data : PageData) : Except PoolFault (BufferPool Table) :=
  let page := pool.pages frameId
  -- for a frame of the free list this is the id of a page deleted from it, if any
  match PageTable.insert (PageTable.remove pool.pageTable page.pageId) pageId frameId with
  | .error fault => .error (.pageTable fault)
  | .ok table =>
    let frame := { page.resetMemory with data := data, pageId := pageId, pinCount := 1 }
    recordPin { pool.setFrame frameId frame with pageTable := table } frameId

/-- `AllocatePage`. -/
def allocatePage (pool : BufferPool Table) : PageId × BufferPool Table :=
  (pool.nextPageId, { pool with nextPageId := pool.nextPageId + 1 })

/-- `NewPgImp`: the new page and its frame. -/
def newPg (pool : BufferPool Table) :
    Except PoolFault (Option (PageId × FrameId) × BufferPool Table) := do
  match ← pool.takeFrame with
  | (none, pool) => return (none, pool)
  | (some frameId, pool) =>
    -- an id is used up only once there is a frame for the page
    let (pageId, pool) := pool.allocatePage
    let pool ← (pool.writeBack frameId).installPage frameId pageId zeroData
    return (some (pageId, frameId), pool)

/-- `FetchPgImp`: the frame that holds the page. -/
def fetchPg (pool : BufferPool Table) (pageId : PageId) :
    Except PoolFault (Option FrameId × BufferPool Table) :=
  match PageTable.find pool.pageTable pageId with
  | none => do
      match ← pool.takeFrame with
      | (none, pool) => return (none, pool)
      | (some frameId, pool) =>
        let pool := pool.writeBack frameId
        let pool ← pool.installPage frameId pageId (pool.disk.readPage pageId)
        return (some frameId, pool)
  | some frameId => do
      let pool ← pool.recordPin frameId
      let page := pool.pages frameId
      return (some frameId, pool.setFrame frameId { page with pinCount := page.pinCount + 1 })

/-- `UnpinPgImp`. -/
def unpinPg (pool : BufferPool Table) (pageId : PageId) (isDirty : Bool) :
    Bool × BufferPool Table :=
  if pageId = invalidPageId then (false, pool)
  else
    match PageTable.find pool.pageTable pageId with
    | none => (false, pool)
    | some frameId =>
      let page := pool.pages frameId
      if page.pinCount = 0 then (false, pool)
      else
        -- the frame may be evicted once its last pin is given back
        let replacer :=
          if page.pinCount - 1 = 0 then pool.replacer.setEvictable frameId true
          else pool.replacer
        let page :=
          { page with pinCount := page.pinCount - 1, isDirty := page.isDirty || isDirty }
        (true, { pool.setFrame frameId page with replacer := replacer })

/-- `FlushPgImp`. -/
def flushPg (pool : BufferPool Table) (pageId : PageId) : Bool × BufferPool Table :=
  if pageId = invalidPageId then (false, pool)
  else
    match PageTable.find pool.pageTable pageId with
    | none => (false, pool)
    | some frameId =>
      -- the page is written whether it is dirty or not
      let page := pool.pages frameId
      (true, { pool.setFrame frameId { page with isDirty := false } with
        disk := pool.disk.writePage pageId page.data })

/-- `FlushAllPgsImp`: flush the page each frame says it holds. -/
def flushAllPgs (pool : BufferPool Table) : BufferPool Table :=
  (List.range pool.poolSize).foldl
    (fun pool (i : ℕ) => (pool.flushPg (pool.pages i).pageId).2) pool

/-- `DeletePgImp`.  The frame goes to the back of the free list with its data reset;
its page id and dirty flag stay. -/
def deletePg (pool : BufferPool Table) (pageId : PageId) :
    Except PoolFault (Bool × BufferPool Table) :=
  if pageId = invalidPageId then .ok (true, pool)
  else
    match PageTable.find pool.pageTable pageId with
    | none => .ok (true, pool)
    | some frameId =>
      let page := pool.pages frameId
      if page.pinCount > 0 then .ok (false, pool)
      else
        match pool.replacer.remove frameId with
        | .error fault => .error (.replacer fault)
        | .ok (false, _) => .error .replacerThrew
        | .ok (true, replacer) =>
          .ok (true, { pool.setFrame frameId page.resetMemory with
            replacer := replacer
            pageTable := PageTable.remove pool.pageTable pageId
            freeList := pool.freeList ++ [frameId] })

/-- A client writes `data` to the page it has a pointer to. -/
def store (pool : BufferPool Table) (frameId : FrameId) (data : PageData) : BufferPool Table :=
  pool.setFrame frameId { pool.pages frameId with data := data }

end BufferPool

/-! ## Calls -/

inductive PoolCall
  | newPage
  | fetchPage (pageId : PageId)
  | unpinPage (pageId : PageId) (isDirty : Bool)
  | flushPage (pageId : PageId)
  | flushAllPages
  | deletePage (pageId : PageId)
  | store (frameId : FrameId) (data : PageData)

inductive PoolAnswer
  | created (page : Option (PageId × FrameId))
  | fetched (frameId : Option FrameId)
  | returned (success : Bool)
  | done
deriving DecidableEq

def poolMachine (Table : Type*) [PageTable Table] :
    Machine (BufferPool Table) PoolCall PoolAnswer PoolFault where
  step pool
    | .newPage => do
        let (page, next) ← pool.newPg
        return (.created page, next)
    | .fetchPage pageId => do
        let (frameId, next) ← pool.fetchPg pageId
        return (.fetched frameId, next)
    | .unpinPage pageId isDirty =>
      let (success, next) := pool.unpinPg pageId isDirty
      .ok (.returned success, next)
    | .flushPage pageId =>
      let (success, next) := pool.flushPg pageId
      .ok (.returned success, next)
    | .flushAllPages => .ok (.done, pool.flushAllPgs)
    | .deletePage pageId => do
        let (success, next) ← pool.deletePg pageId
        return (.returned success, next)
    | .store frameId data => .ok (.done, pool.store frameId data)

end BusTub
