import BusTub.Common.Config
import BusTub.Library.ByteMemory

/-!
# Slotted table pages

The model of `storage/page/table_page.cpp`.  A page is the bytes of its data array:

* `0` table page id, `4` LSN, `8` previous page id, `12` next page id,
* `16` free space pointer, `20` tuple count,
* `24 + 8 * i` offset and `28 + 8 * i` size of slot `i`,
* tuples from the end of the page down to the free space pointer.

Numbers in the page are 32 bits wide, and the arithmetic on them wraps.  A size of
zero is an empty slot, and the highest bit of a size marks a tuple as deleted.

A failed `BUSTUB_ASSERT` is a fault.  `enable_logging` is false: no code of the
repository sets it, so a page operation leaves its transaction alone.
-/

namespace BusTub

open ByteMemory

/-- `RID`: a page and a slot in it. -/
structure Rid where
  pageId : PageId
  slotNum : ℕ
deriving DecidableEq, Repr

/-- `RID()` and the position after the last tuple. -/
def Rid.invalid : Rid := ⟨invalidPageId, 0⟩

/-- `Tuple`: its bytes.  The size of a tuple is a `uint32_t`. -/
structure Tuple where
  data : List UInt8
  length_lt : data.length < 2 ^ 32
deriving DecidableEq

namespace Tuple

/-- `size_`. -/
def size (tuple : Tuple) : ℕ := tuple.data.length

/-- The tuple of a default-constructed `Tuple`. -/
def empty : Tuple := ⟨[], by decide⟩

theorem ext_data {first second : Tuple} (h : first.data = second.data) : first = second := by
  cases first
  cases second
  simp_all only

end Tuple

/-- The faults of tables: assertions that fail and null pages that are used. -/
inductive TableFault
  /-- "Cannot have empty tuples." -/
  | emptyTuple
  /-- "Offset should appear after current free space position." -/
  | offsetBeforeFreeSpace
  /-- "Free space appears before tuples." -/
  | freeSpaceBeforeTuples
  /-- "Cannot have more slots than tuples." and "We can't have more slots than tuples." -/
  | noSuchSlot
  /-- "Wrong table!" -/
  | wrongTable
  /-- "Couldn't find a page containing that RID." -/
  | noPageForRid
  /-- "Couldn't create a page for the table heap." -/
  | noFirstPage
  /-- A null page is used. -/
  | nullPage
  /-- A walk along the page chain does not end. -/
  | endlessChain
deriving DecidableEq, Repr

/-- `uint32_t` addition. -/
def addU32 (first second : ℕ) : ℕ := (first + second) % 2 ^ 32

/-- `uint32_t` subtraction. -/
def subU32 (first second : ℕ) : ℕ := (first + (2 ^ 32 - second % 2 ^ 32)) % 2 ^ 32

/-- `DELETE_MASK`. -/
def deleteMask : ℕ := 2 ^ 31

abbrev TablePage := Memory

namespace TablePage

/-- `SIZE_TABLE_PAGE_HEADER`. -/
def sizeTablePageHeader : ℕ := 24

/-- `SIZE_TUPLE`: the size of a slot. -/
def sizeTuple : ℕ := 8

/-- `OFFSET_PREV_PAGE_ID`. -/
def offsetPrevPageId : ℕ := 8

/-- `OFFSET_NEXT_PAGE_ID`. -/
def offsetNextPageId : ℕ := 12

/-- `OFFSET_FREE_SPACE`. -/
def offsetFreeSpace : ℕ := 16

/-- `OFFSET_TUPLE_COUNT`. -/
def offsetTupleCount : ℕ := 20

/-- `OFFSET_TUPLE_OFFSET`. -/
def offsetTupleOffset : ℕ := 24

/-- `OFFSET_TUPLE_SIZE`. -/
def offsetTupleSize : ℕ := 28

/-! ## Accessors -/

def getTablePageId (page : TablePage) : PageId := page.loadInt 4 0

def setTablePageId (page : TablePage) (pageId : PageId) : TablePage := page.storeInt 4 0 pageId

def getPrevPageId (page : TablePage) : PageId := page.loadInt 4 offsetPrevPageId

def setPrevPageId (page : TablePage) (pageId : PageId) : TablePage :=
  page.storeInt 4 offsetPrevPageId pageId

def getNextPageId (page : TablePage) : PageId := page.loadInt 4 offsetNextPageId

def setNextPageId (page : TablePage) (pageId : PageId) : TablePage :=
  page.storeInt 4 offsetNextPageId pageId

def getFreeSpacePointer (page : TablePage) : ℕ := page.load 4 offsetFreeSpace

def setFreeSpacePointer (page : TablePage) (pointer : ℕ) : TablePage :=
  page.store 4 offsetFreeSpace pointer

def getTupleCount (page : TablePage) : ℕ := page.load 4 offsetTupleCount

def setTupleCount (page : TablePage) (count : ℕ) : TablePage :=
  page.store 4 offsetTupleCount count

/-- `GetFreeSpaceRemaining`: computed in `size_t` and cut to `uint32_t`. -/
def getFreeSpaceRemaining (page : TablePage) : ℕ :=
  subU32 page.getFreeSpacePointer (sizeTablePageHeader + sizeTuple * page.getTupleCount)

def getTupleOffsetAtSlot (page : TablePage) (slot : ℕ) : ℕ :=
  page.load 4 (offsetTupleOffset + sizeTuple * slot)

def setTupleOffsetAtSlot (page : TablePage) (slot offset : ℕ) : TablePage :=
  page.store 4 (offsetTupleOffset + sizeTuple * slot) offset

def getTupleSize (page : TablePage) (slot : ℕ) : ℕ :=
  page.load 4 (offsetTupleSize + sizeTuple * slot)

def setTupleSize (page : TablePage) (slot size : ℕ) : TablePage :=
  page.store 4 (offsetTupleSize + sizeTuple * slot) size

/-- `IsDeleted`: marked, or empty. -/
def isDeleted (size : ℕ) : Bool := size &&& deleteMask != 0 || size == 0

def setDeletedFlag (size : ℕ) : ℕ := size ||| deleteMask

def unsetDeletedFlag (size : ℕ) : ℕ := size &&& (2 ^ 32 - 1 - deleteMask)

/-! ## Operations -/

/-- `Init`. -/
def init (page : TablePage) (pageId : PageId) (pageSize : ℕ) (prevPageId : PageId) : TablePage :=
  let page : TablePage := page.setTablePageId pageId
  let page : TablePage := page.setPrevPageId prevPageId
  let page : TablePage := page.setNextPageId invalidPageId
  let page : TablePage := page.setFreeSpacePointer pageSize
  page.setTupleCount 0

def freeSlot (page : TablePage) : ℕ :=
  ((List.range page.getTupleCount).find? fun slot => page.getTupleSize slot == 0).getD
    page.getTupleCount

/-- The page after a tuple is put before the others and `slot` set to it. -/
def placeTuple (page : TablePage) (slot : ℕ) (tuple : Tuple) : TablePage :=
  let page : TablePage := page.setFreeSpacePointer (subU32 page.getFreeSpacePointer tuple.size)
  let page : TablePage := page.write page.getFreeSpacePointer tuple.data
  let page : TablePage := page.setTupleOffsetAtSlot slot page.getFreeSpacePointer
  let page : TablePage := page.setTupleSize slot tuple.size
  if slot = page.getTupleCount then page.setTupleCount (addU32 page.getTupleCount 1) else page

/-- `InsertTuple`: the rid of the new tuple, or none if the space does not suffice. -/
def insertTuple (page : TablePage) (tuple : Tuple) : Except TableFault (Option Rid × TablePage) :=
  if tuple.size = 0 then
    .error .emptyTuple
  else if page.getFreeSpaceRemaining < tuple.size + sizeTuple then
    .ok (none, page)
  else if page.freeSlot = page.getTupleCount ∧
      page.getFreeSpaceRemaining < tuple.size + sizeTuple then
    .ok (none, page)
  else
    .ok (some ⟨page.getTablePageId, page.freeSlot⟩, page.placeTuple page.freeSlot tuple)

/-- `MarkDelete`. -/
def markDelete (page : TablePage) (slot : ℕ) : Bool × TablePage :=
  if page.getTupleCount ≤ slot then
    (false, page)
  else
    let tupleSize := page.getTupleSize slot
    if isDeleted tupleSize then
      (false, page)
    else if 0 < tupleSize then
      (true, page.setTupleSize slot (setDeletedFlag tupleSize))
    else
      (true, page)

/-- The offset of one slot after `amount` is added to it, if the slot holds a tuple that
starts before `limit`. -/
def shiftSlot (limit amount : ℕ) (page : TablePage) (slot : ℕ) : TablePage :=
  let offset := page.getTupleOffsetAtSlot slot
  if page.getTupleSize slot ≠ 0 ∧ offset < limit then
    page.setTupleOffsetAtSlot slot (addU32 offset amount)
  else page

def shiftOffsets (page : TablePage) (limit amount : ℕ) : TablePage :=
  (List.range page.getTupleCount).foldl (shiftSlot limit amount) page

def tupleBytes (page : TablePage) (slot : ℕ) : Tuple where
  data := page.read (page.getTupleOffsetAtSlot slot) (page.getTupleSize slot)
  length_lt := by
    rw [Memory.length_read]
    exact page.load_lt 4 _

/-- The page after the tuple of `slot` is replaced: the tuples before it are moved to make
the new one end where the old one did.  Pointers into the page are not cut to 32 bits. -/
def replaceTuple (page : TablePage) (slot : ℕ) (newTuple : Tuple) : TablePage :=
  let tupleSize := page.getTupleSize slot
  let tupleOffset := page.getTupleOffsetAtSlot slot
  let pointer := page.getFreeSpacePointer
  let page : TablePage :=
    page.move (pointer + tupleSize - newTuple.size) pointer (tupleOffset - pointer)
  let page : TablePage :=
    page.setFreeSpacePointer (subU32 (addU32 pointer tupleSize) newTuple.size)
  let page : TablePage := page.write (tupleOffset + tupleSize - newTuple.size) newTuple.data
  let page : TablePage := page.setTupleSize slot newTuple.size
  page.shiftOffsets (addU32 tupleOffset tupleSize) (subU32 tupleSize newTuple.size)

/-- `UpdateTuple`: the old tuple, or none if the tuple could not be updated. -/
def updateTuple (page : TablePage) (newTuple : Tuple) (slot : ℕ) :
    Except TableFault (Option Tuple × TablePage) :=
  if newTuple.size = 0 then
    .error .emptyTuple
  else if page.getTupleCount ≤ slot then
    .ok (none, page)
  else if isDeleted (page.getTupleSize slot) then
    .ok (none, page)
  else if addU32 page.getFreeSpaceRemaining (page.getTupleSize slot) < newTuple.size then
    .ok (none, page)
  else if page.getTupleOffsetAtSlot slot < page.getFreeSpacePointer then
    .error .offsetBeforeFreeSpace
  else
    .ok (some (page.tupleBytes slot), page.replaceTuple slot newTuple)

/-- The page after the tuple of `slot`, of the given size, is removed and the tuples before
it are moved into its place. -/
def removeTuple (page : TablePage) (slot tupleSize : ℕ) : TablePage :=
  let tupleOffset := page.getTupleOffsetAtSlot slot
  let pointer := page.getFreeSpacePointer
  let page : TablePage := page.move (pointer + tupleSize) pointer (tupleOffset - pointer)
  let page : TablePage := page.setFreeSpacePointer (addU32 pointer tupleSize)
  let page : TablePage := page.setTupleSize slot 0
  let page : TablePage := page.setTupleOffsetAtSlot slot 0
  page.shiftOffsets tupleOffset tupleSize

/-- `ApplyDelete`. -/
def applyDelete (page : TablePage) (slot : ℕ) : Except TableFault TablePage :=
  if page.getTupleCount ≤ slot then
    .error .noSuchSlot
  else
    let tupleSize := page.getTupleSize slot
    let tupleSize := if isDeleted tupleSize then unsetDeletedFlag tupleSize else tupleSize
    if page.getTupleOffsetAtSlot slot < page.getFreeSpacePointer then
      .error .freeSpaceBeforeTuples
    else
      .ok (page.removeTuple slot tupleSize)

/-- `RollbackDelete`. -/
def rollbackDelete (page : TablePage) (slot : ℕ) : Except TableFault TablePage :=
  if page.getTupleCount ≤ slot then
    .error .noSuchSlot
  else
    let tupleSize := page.getTupleSize slot
    if isDeleted tupleSize then
      .ok (page.setTupleSize slot (unsetDeletedFlag tupleSize))
    else
      .ok page

/-- `GetTuple`. -/
def getTuple (page : TablePage) (slot : ℕ) : Option Tuple :=
  if page.getTupleCount ≤ slot then none
  else if isDeleted (page.getTupleSize slot) then none
  else some (page.tupleBytes slot)

/-- The first slot from `start` on that holds a tuple that is not marked. -/
def liveSlotFrom (page : TablePage) (start : ℕ) : Option ℕ :=
  (List.range' start (page.getTupleCount - start)).find? fun slot =>
    !isDeleted (page.getTupleSize slot)

/-- `GetFirstTupleRid`. -/
def getFirstTupleRid (page : TablePage) : Option Rid :=
  (page.liveSlotFrom 0).map fun slot => ⟨page.getTablePageId, slot⟩

/-- `GetNextTupleRid`. -/
def getNextTupleRid (page : TablePage) (current : Rid) : Except TableFault (Option Rid) :=
  if current.pageId ≠ page.getTablePageId then
    .error .wrongTable
  else
    .ok ((page.liveSlotFrom (current.slotNum + 1)).map fun slot => ⟨page.getTablePageId, slot⟩)

end TablePage

end BusTub
