import BusTub.Common.Config
import Mathlib.Logic.Function.Basic
import Mathlib.Tactic.TypeStar

/-!
# The pages of the B+ tree

Model of `storage/page/b_plus_tree_page.cpp`, `b_plus_tree_leaf_page.cpp`,
`b_plus_tree_internal_page.cpp` and of the functions of `header_page.cpp` that the tree
calls.

`array_` is a flexible array over the rest of the page, of which `size_` entries are in
use.  It is a function of the index here, so that an entry behind the used ones is
there to be read, as it is in the source.  A page comes zeroed from the pool, and an
entry of a zeroed page is `default`.
-/

namespace BusTub

/-! ## Arrays -/

section Arrays

variable {Entry : Type*}

/-- `std::move_backward(a + first, a + last, a + last + 1)`. -/
def moveBackward (array : ℕ → Entry) (first last : ℕ) : ℕ → Entry :=
  fun i => if first < i ∧ i ≤ last then array (i - 1) else array i

/-- `std::copy(s + first, s + last, t + start)`. -/
def copyRange (source : ℕ → Entry) (first last : ℕ) (target : ℕ → Entry) (start : ℕ) : ℕ → Entry :=
  fun i => if start ≤ i ∧ i < start + (last - first) then source (first + (i - start)) else target i

/-- The loop of `std::lower_bound` on `length` entries from `first` on.  The length
shrinks in every round, so `rounds` need not be more than it is at the start. -/
def lowerBound (below : ℕ → Bool) : (rounds first length : ℕ) → ℕ
  | 0, first, _ => first
  | rounds + 1, first, length =>
    if length = 0 then first
    else
      let half := length / 2
      if below (first + half) then
        lowerBound below rounds (first + half + 1) (length - half - 1)
      else lowerBound below rounds first half

end Arrays

/-- `KeyComparator`: negative, zero or positive. -/
abbrev KeyComparator (Key : Type) := Key → Key → ℤ

/-! ## The common part -/

/-- `BPlusTreePage`. -/
structure BPlusTreePage where
  size : ℕ
  maxSize : ℕ
  parentPageId : PageId
  pageId : PageId

/-- `IsRootPage`. -/
def BPlusTreePage.isRootPage (page : BPlusTreePage) : Bool := page.parentPageId = invalidPageId

/-- `GetMinSize`. -/
def BPlusTreePage.getMinSize (page : BPlusTreePage) : ℕ := (page.maxSize + 1) / 2

/-! ## Leaf pages -/

/-- `BPlusTreeLeafPage`. -/
structure LeafPage (Key Value : Type) extends BPlusTreePage where
  nextPageId : PageId
  array : ℕ → Key × Value

namespace LeafPage

variable {Key Value : Type}

/-- `Init`, on a page that comes from the pool. -/
def init [Inhabited Key] [Inhabited Value] (pageId parentId : PageId) (maxSize : ℕ) :
    LeafPage Key Value where
  size := 0
  maxSize := maxSize
  parentPageId := parentId
  pageId := pageId
  nextPageId := invalidPageId
  array := fun _ => default

/-- `KeyAt`. -/
def keyAt (page : LeafPage Key Value) (index : ℕ) : Key := (page.array index).1

/-- `ValueAt`. -/
def valueAt (page : LeafPage Key Value) (index : ℕ) : Value := (page.array index).2

/-- `KeyIndex`. -/
def keyIndex (page : LeafPage Key Value) (key : Key) (comparator : KeyComparator Key) : ℕ :=
  lowerBound (fun index => comparator (page.keyAt index) key < 0) page.size 0 page.size

/-- `InsertKey`. -/
def insertKey (page : LeafPage Key Value) (key : Key) (value : Value)
    (comparator : KeyComparator Key) : Bool × LeafPage Key Value :=
  let distance := page.keyIndex key comparator
  if distance = page.size then
    (true, { page with
      array := Function.update page.array distance (key, value)
      size := page.size + 1 })
  else if comparator (page.keyAt distance) key = 0 then (true, page)
  else
    (true, { page with
      array := Function.update (moveBackward page.array distance page.size) distance (key, value)
      size := page.size + 1 })

end LeafPage

/-! ## Internal pages -/

/-- `BPlusTreeInternalPage`, with the children's page ids as values. -/
structure InternalPage (Key : Type) extends BPlusTreePage where
  array : ℕ → Key × PageId

namespace InternalPage

variable {Key : Type}

/-- `Init`, on a page that comes from the pool.  The size is one from the start. -/
def init [Inhabited Key] (pageId parentId : PageId) (maxSize : ℕ) : InternalPage Key where
  size := 1
  maxSize := maxSize
  parentPageId := parentId
  pageId := pageId
  array := fun _ => (default, 0)

/-- `KeyAt`. -/
def keyAt (page : InternalPage Key) (index : ℕ) : Key := (page.array index).1

/-- `ValueAt`. -/
def valueAt (page : InternalPage Key) (index : ℕ) : PageId := (page.array index).2

/-- `SetValueAt`. -/
def setValueAt (page : InternalPage Key) (index : ℕ) (value : PageId) : InternalPage Key :=
  { page with array := Function.update page.array index (page.keyAt index, value) }

/-- `SetAllAt`. -/
def setAllAt (page : InternalPage Key) (index : ℕ) (key : Key) (value : PageId) :
    InternalPage Key :=
  { page with array := Function.update page.array index (key, value) }

/-- `Insertkv`.  The search starts at index one, and the new entry goes to index zero if
it finds nothing. -/
def insertkv (page : InternalPage Key) (oldValue : PageId) (newKey : Key) (newValue : PageId) :
    InternalPage Key :=
  let newValueIdx :=
    match (List.range' 1 (page.size - 1)).find? fun i => page.valueAt i = oldValue with
    | some i => i + 1
    | none => 0
  { page with
    array := Function.update (moveBackward page.array newValueIdx page.size) newValueIdx
      (newKey, newValue)
    size := page.size + 1 }

end InternalPage

/-! ## The header page -/

abbrev IndexName := List UInt8

/-- What `strcmp` sees of a name. -/
def IndexName.cStr (name : IndexName) : List UInt8 := name.takeWhile (· ≠ 0)

/-- `HeaderPage`: the records of the page, in the order they were inserted. -/
structure HeaderPage where
  records : List (IndexName × PageId)

namespace HeaderPage

/-- `FindRecord`. -/
def findRecord (page : HeaderPage) (name : IndexName) : Option ℕ :=
  page.records.findIdx? fun record => IndexName.cStr record.1 = name.cStr

/-- `InsertRecord`, or `none` if one of its assertions fails. -/
def insertRecord (page : HeaderPage) (name : IndexName) (rootId : PageId) :
    Option (Bool × HeaderPage) :=
  if name.length < 32 ∧ invalidPageId < rootId then
    match page.findRecord name with
    | some _ => some (false, page)
    | none => some (true, ⟨page.records ++ [(name, rootId)]⟩)
  else none

/-- `UpdateRecord`, or `none` if its assertion fails. -/
def updateRecord (page : HeaderPage) (name : IndexName) (rootId : PageId) :
    Option (Bool × HeaderPage) :=
  if name.length < 32 then
    match page.findRecord name with
    | none => some (false, page)
    | some index =>
      some (true, ⟨page.records.modify index fun record => (record.1, rootId)⟩)
  else none

end HeaderPage

end BusTub
