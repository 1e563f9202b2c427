import BusTub.Library.Machine
import BusTub.Storage.BPlusTreePage

/-!
# The B+ tree

Model of `storage/index/b_plus_tree.cpp`.  The tree reaches its pages through a buffer
pool that always has a frame to give: `PageStore` is that pool as its clients see it, the
content of every page with its pin count and dirty flag.  A page stays where it is while
it is pinned, so a pointer to a page is its identifier; only the copy that
`InsertIntoParent` makes of a full parent is a value of its own.

Where the source goes down or up the tree in a loop, the model counts the steps and
stops with `TreeFault.loops` after as many steps as there are pages, when some page must
have come twice.
-/

namespace BusTub

open Machines

/-! ## The pages in the pool -/

/-- How an operation of the tree can fail to return. -/
inductive TreeFault
  /-- A loop along the pages that does not end. -/
  | loops
  /-- A page is not of the kind the code takes it for. -/
  | notATreePage
  /-- An assertion of the header page. -/
  | assertionFailed
deriving DecidableEq

/-- What a page holds. -/
inductive TreePage (Key Value : Type)
  | blank
  | header (page : HeaderPage)
  | leaf (page : LeafPage Key Value)
  | internal (page : InternalPage Key)

/-- A page in the pool. -/
structure StoredPage (Key Value : Type) where
  page : TreePage Key Value
  pinCount : ℕ
  isDirty : Bool

/-- The buffer pool, as the tree sees it. -/
structure PageStore (Key Value : Type) where
  pages : PageId → StoredPage Key Value
  nextPageId : PageId

namespace PageStore

variable {Key Value : Type}

def modify (store : PageStore Key Value) (pageId : PageId)
    (change : StoredPage Key Value → StoredPage Key Value) : PageStore Key Value :=
  { store with pages := Function.update store.pages pageId (change (store.pages pageId)) }

/-- `FetchPage`: one more pin. -/
def fetchPage (store : PageStore Key Value) (pageId : PageId) : PageStore Key Value :=
  store.modify pageId fun stored => { stored with pinCount := stored.pinCount + 1 }

/-- `UnpinPage`: one pin less, if there is one. -/
def unpinPage (store : PageStore Key Value) (pageId : PageId) (isDirty : Bool) :
    PageStore Key Value :=
  store.modify pageId fun stored =>
    if stored.pinCount = 0 then stored
    else { stored with pinCount := stored.pinCount - 1, isDirty := stored.isDirty || isDirty }

/-- `NewPage`: a zeroed page with one pin. -/
def newPage (store : PageStore Key Value) : PageId × PageStore Key Value :=
  let pageId := store.nextPageId
  (pageId, { store.modify pageId (fun _ => ⟨.blank, 1, false⟩) with
    nextPageId := store.nextPageId + 1 })

def write (store : PageStore Key Value) (pageId : PageId) (page : TreePage Key Value) :
    PageStore Key Value :=
  store.modify pageId fun stored => { stored with page := page }

def leafAt (store : PageStore Key Value) (pageId : PageId) :
    Except TreeFault (LeafPage Key Value) :=
  match (store.pages pageId).page with
  | .leaf page => .ok page
  | _ => .error .notATreePage

def internalAt (store : PageStore Key Value) (pageId : PageId) :
    Except TreeFault (InternalPage Key) :=
  match (store.pages pageId).page with
  | .internal page => .ok page
  | _ => .error .notATreePage

def headerAt (store : PageStore Key Value) (pageId : PageId) : Except TreeFault HeaderPage :=
  match (store.pages pageId).page with
  | .header page => .ok page
  | _ => .error .notATreePage

/-- The part that leaf and internal pages share. -/
def treePageAt (store : PageStore Key Value) (pageId : PageId) : Except TreeFault BPlusTreePage :=
  match (store.pages pageId).page with
  | .leaf page => .ok page.toBPlusTreePage
  | .internal page => .ok page.toBPlusTreePage
  | _ => .error .notATreePage

/-- `SetParentPageId`. -/
def setParentPageId (store : PageStore Key Value) (pageId parentId : PageId) :
    Except TreeFault (PageStore Key Value) :=
  match (store.pages pageId).page with
  | .leaf page => .ok (store.write pageId (.leaf { page with parentPageId := parentId }))
  | .internal page => .ok (store.write pageId (.internal { page with parentPageId := parentId }))
  | _ => .error .notATreePage

end PageStore

/-! ## The tree -/

/-- `BPlusTree`. -/
structure BPlusTree (Key Value : Type) where
  indexName : IndexName
  rootPageId : PageId
  store : PageStore Key Value
  comparator : KeyComparator Key
  leafMaxSize : ℕ
  internalMaxSize : ℕ

namespace BPlusTree

variable {Key Value : Type}

/-- `BPlusTree::BPlusTree`, over a pool in which page 0 is the header page. -/
def create (name : IndexName) (comparator : KeyComparator Key)
    (leafMaxSize internalMaxSize : ℕ) : BPlusTree Key Value where
  indexName := name
  rootPageId := invalidPageId
  store :=
    { pages := fun pageId =>
        if pageId = headerPageId then ⟨.header ⟨[]⟩, 0, false⟩ else ⟨.blank, 0, false⟩
      nextPageId := headerPageId + 1 }
  comparator := comparator
  leafMaxSize := leafMaxSize
  internalMaxSize := internalMaxSize

/-- `IsEmpty`. -/
def isEmpty (tree : BPlusTree Key Value) : Bool := tree.rootPageId = invalidPageId

/-! ### Search -/

/-- The `for` loop of `Findleaf`: the first index from one on whose key is larger, or
else the size. -/
def childIndex (comparator : KeyComparator Key) (page : InternalPage Key) (key : Key) : ℕ :=
  ((List.range' 1 (page.size - 1)).find? fun idx => comparator (page.keyAt idx) key = 1).getD
    (max page.size 1)

/-- The `while` loop of `Findleaf`, on a page that has been fetched. -/
def findleafLoop (comparator : KeyComparator Key) (key : Key) :
    ℕ → PageId → PageStore Key Value → Except TreeFault (PageId × PageStore Key Value)
  | 0, _, _ => .error .loops
  | steps + 1, pageId, store =>
    match (store.pages pageId).page with
    | .leaf _ => .ok (pageId, store)
    | .internal internal =>
      let child := internal.valueAt (childIndex comparator internal key - 1)
      findleafLoop comparator key steps child
        ((store.fetchPage child).unpinPage internal.pageId false)
    | _ => .error .notATreePage

/-- `Findleaf`: the leaf for the key, pinned. -/
def findleaf (tree : BPlusTree Key Value) (key : Key) :
    Except TreeFault (PageId × BPlusTree Key Value) := do
  let store := tree.store.fetchPage tree.rootPageId
  let (pageId, store) ←
    findleafLoop tree.comparator key store.nextPageId.toNat tree.rootPageId store
  return (pageId, { tree with store := store })

/-- The `for` loop of `GetValue`.  The comparator's result is used as a truth value. -/
def matchingValues (comparator : KeyComparator Key) (leaf : LeafPage Key Value) (key : Key) :
    List Value :=
  ((List.range leaf.size).filter fun idx => comparator (leaf.keyAt idx) key ≠ 0).map leaf.valueAt

/-- `GetValue`, with the vector that the values are pushed to. -/
def getValue (tree : BPlusTree Key Value) (key : Key) (result : List Value) :
    Except TreeFault (Bool × List Value × BPlusTree Key Value) :=
  if tree.isEmpty then .ok (false, result, tree)
  else do
    let (leafId, tree) ← tree.findleaf key
    let leaf ← tree.store.leafAt leafId
    let result := result ++ matchingValues tree.comparator leaf key
    let tree := { tree with store := tree.store.unpinPage leaf.pageId false }
    return (!result.isEmpty, result, tree)

/-! ### Insertion -/

/-- `UpdateRootPageId`. -/
def updateRootPageId (tree : BPlusTree Key Value) (insertRecord : Bool) :
    Except TreeFault (BPlusTree Key Value) := do
  let store := tree.store.fetchPage headerPageId
  let page ← store.headerAt headerPageId
  let updated :=
    if insertRecord then page.insertRecord tree.indexName tree.rootPageId
    else page.updateRecord tree.indexName tree.rootPageId
  match updated with
  | none => .error .assertionFailed
  | some (_, page) =>
    let store := (store.write headerPageId (.header page)).unpinPage headerPageId true
    return { tree with store := store }

section Insertion

variable [Inhabited Key] [Inhabited Value]

/-- `Split` of a leaf: the left part, and the new page with the right part. -/
def splitLeaf (tree : BPlusTree Key Value) (node : LeafPage Key Value) :
    LeafPage Key Value × LeafPage Key Value × BPlusTree Key Value :=
  let (newPageId, store) := tree.store.newPage
  let newLeaf := LeafPage.init newPageId node.parentPageId tree.leafMaxSize
  let start := node.getMinSize
  let newLeaf : LeafPage Key Value := { newLeaf with
    array := copyRange node.array start node.size newLeaf.array newLeaf.size
    size := newLeaf.size + (node.maxSize - start) }
  ({ node with size := start }, newLeaf,
    { tree with store := store.write newPageId (.leaf newLeaf) })

/-- The loop of `Split` that makes the new page the parent of the children, those at
`start`, …, `2 * start - 1`. -/
def adoptChildren (node : InternalPage Key) (newPageId : PageId) (start : ℕ)
    (store : PageStore Key Value) : Except TreeFault (PageStore Key Value) :=
  (List.range start).foldlM (fun store i => do
    let son := node.valueAt (i + start)
    let store := store.fetchPage son
    let page ← store.treePageAt son
    let store ← store.setParentPageId son newPageId
    return store.unpinPage page.pageId true) store

/-- `Split` of an internal node: the left part, and the new page with the right part.
The new page has size one when the entries are copied behind it. -/
def splitInternal (tree : BPlusTree Key Value) (node : InternalPage Key) :
    Except TreeFault (InternalPage Key × InternalPage Key × BPlusTree Key Value) := do
  let (newPageId, store) := tree.store.newPage
  let newInternal := InternalPage.init newPageId node.parentPageId tree.internalMaxSize
  let start := node.getMinSize
  let store ← adoptChildren node newPageId start store
  let newInternal : InternalPage Key := { newInternal with
    array := copyRange node.array start node.size newInternal.array newInternal.size
    size := newInternal.size + (node.maxSize - start) }
  return ({ node with size := start }, newInternal,
    { tree with store := store.write newPageId (.internal newInternal) })

/-- `InsertIntoParent` under a new root. -/
def insertIntoNewRoot (tree : BPlusTree Key Value) (oldNode : PageId) (key : Key)
    (newNode : PageId) : Except TreeFault (BPlusTree Key Value) := do
  let old ← tree.store.treePageAt oldNode
  let new ← tree.store.treePageAt newNode
  let (rootPageId, store) := tree.store.newPage
  let newRoot := InternalPage.init rootPageId invalidPageId tree.internalMaxSize
  let store ← store.setParentPageId oldNode rootPageId
  let store ← store.setParentPageId newNode rootPageId
  let newRoot := (newRoot.setAllAt 1 key new.pageId).setValueAt 0 old.pageId
  let store := store.write rootPageId (.internal { newRoot with size := 2 })
  let tree ← { tree with rootPageId := rootPageId, store := store }.updateRootPageId false
  let store := tree.store.unpinPage newRoot.pageId true
  return { tree with store := (store.unpinPage old.pageId true).unpinPage new.pageId true }

/-- `InsertIntoParent`.  A full parent is split, and the recursion goes on with it and
its new sibling. -/
def insertIntoParent (steps : ℕ) (tree : BPlusTree Key Value) (oldNode : PageId) (key : Key)
    (newNode : PageId) : Except TreeFault (BPlusTree Key Value) := do
  let old ← tree.store.treePageAt oldNode
  let new ← tree.store.treePageAt newNode
  if old.isRootPage then tree.insertIntoNewRoot oldNode key newNode
  else
    let parentId := old.parentPageId
    let store := tree.store.fetchPage parentId
    let parent ← store.internalAt parentId
    if parent.size < tree.internalMaxSize then
      let store := store.write parentId (.internal (parent.insertkv old.pageId key new.pageId))
      let store := store.unpinPage parent.pageId true
      return { tree with store := (store.unpinPage old.pageId true).unpinPage new.pageId true }
    else
      match steps with
      | 0 => .error .loops
      | steps + 1 =>
        let copy := parent.insertkv old.pageId key new.pageId
        let (copy, sibling, tree) ← { tree with store := store }.splitInternal copy
        -- `memcpy` of the header and the first `GetMinSize()` entries back to the page
        let parent : InternalPage Key := { copy with
          array := fun i => if i < copy.getMinSize then copy.array i else parent.array i }
        let tree := { tree with store := tree.store.write parentId (.internal parent) }
        insertIntoParent steps tree parentId (sibling.keyAt 0) sibling.pageId

/-- `Insert`. -/
def insert (tree : BPlusTree Key Value) (key : Key) (value : Value) :
    Except TreeFault (Bool × BPlusTree Key Value) := do
  let (found, _, tree) ← tree.getValue key []
  if found then return (false, tree)
  else if tree.isEmpty then
    let (rootPageId, store) := tree.store.newPage
    let leaf := LeafPage.init rootPageId invalidPageId tree.leafMaxSize
    let (_, leaf) := leaf.insertKey key value tree.comparator
    let store := store.write rootPageId (.leaf leaf)
    let tree ← { tree with rootPageId := rootPageId, store := store }.updateRootPageId true
    return (true, { tree with store := tree.store.unpinPage tree.rootPageId true })
  else
    let (leafId, tree) ← tree.findleaf key
    let leaf ← tree.store.leafAt leafId
    -- the answer of `InsertKey` is dropped
    let (_, leaf) := leaf.insertKey key value tree.comparator
    let tree := { tree with store := tree.store.write leafId (.leaf leaf) }
    if leaf.size = leaf.maxSize then
      let (leaf, sibling, tree) := tree.splitLeaf leaf
      let sibling := { sibling with nextPageId := leaf.nextPageId }
      let leaf := { leaf with nextPageId := sibling.pageId }
      let store := tree.store.write leafId (.leaf leaf)
      let tree := { tree with store := store.write sibling.pageId (.leaf sibling) }
      let tree ← tree.insertIntoParent tree.store.nextPageId.toNat leafId (sibling.keyAt 0)
        sibling.pageId
      return (true, tree)
    else return (true, { tree with store := tree.store.unpinPage leaf.pageId true })

end Insertion

end BPlusTree

/-! ## Calls -/

inductive TreeCall (Key Value : Type)
  | insert (key : Key) (value : Value)
  | getValue (key : Key)

inductive TreeAnswer (Value : Type)
  | inserted (success : Bool)
  | got (found : Bool) (result : List Value)
deriving DecidableEq

/-- The tree as a machine.  `GetValue` is called with an empty vector. -/
def treeMachine {Key Value : Type} [Inhabited Key] [Inhabited Value] :
    Machine (BPlusTree Key Value) (TreeCall Key Value) (TreeAnswer Value) TreeFault where
  step tree
    | .insert key value => do
        let (success, next) ← tree.insert key value
        return (.inserted success, next)
    | .getValue key => do
        let (found, result, next) ← tree.getValue key []
        return (.got found result, next)

end BusTub
