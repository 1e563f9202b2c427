import BusTub.Library.FaultStream
import BusTub.Storage.StorePages

/-!
# What a call of `InsertIntoParent` did

`InsertIntoParent` has three exits: a new root, a parent with room, and a full parent that is
split before the function calls itself one level higher.  `InsertsIntoParent` has a constructor
for each of them, with what the call found on its way, and a call that returns is one of the
three.  What holds of every such call is then shown by induction over `InsertsIntoParent`, a level
of the tree at a time.
-/

namespace BusTub

/-- The `memcpy` of the header and the first `GetMinSize()` entries of a copy back to the
page it was made of. -/
def InternalPage.writeBack {Key : Type} (copy page : InternalPage Key) : InternalPage Key :=
  { copy with array := fun i => if i < copy.getMinSize then copy.array i else page.array i }

namespace PageStore

variable {Key Value : Type}

/-- One round of the loop of `Split`: a child gets its new parent. -/
def adopt (store : PageStore Key Value) (son parentId sonPageId : PageId) :
    PageStore Key Value :=
  ((store.fetchPage son).write son ((store.pages son).page.withParent parentId)).unpinPage
    sonPageId true

theorem adopt_page (store : PageStore Key Value) (son parentId sonPageId other : PageId) :
    ((store.adopt son parentId sonPageId).pages other).page =
      if other = son then (store.pages son).page.withParent parentId
      else (store.pages other).page := by
  rw [adopt, unpinPage_page]
  split
  · next hsame => rw [hsame, write_page_same]
  · next hne => rw [write_page_ne hne, fetchPage_page]

end PageStore

namespace BPlusTree

variable {Key Value : Type}

theorem adoptChildren_invariant {node : InternalPage Key} {newPageId : PageId} {start : ℕ}
    {store final : PageStore Key Value} (Keeps : PageStore Key Value → Prop)
    (hstep : ∀ i < start, ∀ store page, Keeps store →
      store.treePageAt (node.valueAt (i + start)) = .ok page →
      Keeps (store.adopt (node.valueAt (i + start)) newPageId page.pageId))
    (hstore : Keeps store) (h : adoptChildren node newPageId start store = .ok final) :
    Keeps final := by
  refine Except.foldlM_invariant (fun i hi store next hkeeps hnext => ?_) hstore h
  simp only [Except.bind_eq_ok_iff] at hnext
  obtain ⟨page, hpage, written, hwritten, hnext⟩ := hnext
  cases hnext
  obtain ⟨-, rfl⟩ := PageStore.setParentPageId_eq_ok hwritten
  rw [PageStore.fetchPage_page]
  rw [PageStore.treePageAt_congr (PageStore.fetchPage_page store _ _)] at hpage
  exact hstep i (List.mem_range.mp hi) store page hkeeps hpage

theorem updateRootPageId_eq_ok {tree next : BPlusTree Key Value} {insertRecord : Bool}
    (h : tree.updateRootPageId insertRecord = .ok next) :
    ∃ header, next = { tree with store :=
      (((tree.store.fetchPage headerPageId).write headerPageId (.header header)).unpinPage
        headerPageId true) } ∧ ∃ page, tree.store.headerAt headerPageId = .ok page := by
  simp only [updateRootPageId, Except.bind_eq_ok_iff] at h
  obtain ⟨page, hpage, h⟩ := h
  split at h
  · cases h
  · next header _ =>
    exact ⟨header, (Except.ok.inj h).symm, page, hpage⟩

variable [Inhabited Key]

/-- The page that `Split` fills with the right part of an internal node. -/
def rightPart (tree : BPlusTree Key Value) (node : InternalPage Key) : InternalPage Key :=
  let page : InternalPage Key :=
    .init tree.store.nextPageId node.parentPageId tree.internalMaxSize
  { page with
    array := copyRange node.array node.getMinSize node.size (fun _ => (default, 0)) 1
    size := 1 + (node.maxSize - node.getMinSize) }

theorem splitInternal_eq_ok {tree next : BPlusTree Key Value} {node left right : InternalPage Key}
    (h : tree.splitInternal node = .ok (left, right, next)) :
    left = { node with size := node.getMinSize } ∧ right = tree.rightPart node ∧
      ∃ store, adoptChildren node tree.store.nextPageId node.getMinSize tree.store.newPage.2 =
          .ok store ∧
        next = { tree with store := store.write tree.store.nextPageId (.internal right) } := by
  simp only [splitInternal, Except.bind_eq_ok_iff] at h
  obtain ⟨store, hstore, h⟩ := h
  obtain ⟨rfl, hrest⟩ := Prod.mk.inj (Except.ok.inj h)
  cases hrest
  exact ⟨rfl, rfl, store, hstore, rfl⟩

/-- A call of `InsertIntoParent` that returns, by its exits. -/
inductive InsertsIntoParent :
    BPlusTree Key Value → PageId → Key → PageId → BPlusTree Key Value → Prop
  | newRoot {tree : BPlusTree Key Value} {oldNode newNode : PageId} {key : Key}
      {final : BPlusTree Key Value} {old : BPlusTreePage}
      (hold : tree.store.treePageAt oldNode = .ok old) (hroot : old.isRootPage = true)
      (h : tree.insertIntoNewRoot oldNode key newNode = .ok final) :
      InsertsIntoParent tree oldNode key newNode final
  | room {tree : BPlusTree Key Value} {oldNode newNode : PageId} {key : Key}
      {old new : BPlusTreePage} {parent : InternalPage Key}
      (hold : tree.store.treePageAt oldNode = .ok old)
      (hnew : tree.store.treePageAt newNode = .ok new) (hroot : old.isRootPage = false)
      (hparent : tree.store.internalAt old.parentPageId = .ok parent)
      (hroom : parent.size < tree.internalMaxSize) :
      InsertsIntoParent tree oldNode key newNode
        { tree with store :=
            ((((tree.store.fetchPage old.parentPageId).write old.parentPageId
              (.internal (parent.insertkv old.pageId key new.pageId))).unpinPage
                parent.pageId true).unpinPage old.pageId true).unpinPage new.pageId true }
  | full {tree : BPlusTree Key Value} {oldNode newNode : PageId} {key : Key}
      {old new : BPlusTreePage} {parent left right : InternalPage Key}
      {halved final : BPlusTree Key Value}
      (hold : tree.store.treePageAt oldNode = .ok old)
      (hnew : tree.store.treePageAt newNode = .ok new) (hroot : old.isRootPage = false)
      (hparent : tree.store.internalAt old.parentPageId = .ok parent)
      (hfull : ¬ parent.size < tree.internalMaxSize)
      (hsplit : splitInternal { tree with store := tree.store.fetchPage old.parentPageId }
        (parent.insertkv old.pageId key new.pageId) = .ok (left, right, halved))
      (hrest : InsertsIntoParent
        { halved with
          store := halved.store.write old.parentPageId (.internal (left.writeBack parent)) }
        old.parentPageId (right.keyAt 0) right.pageId final) :
      InsertsIntoParent tree oldNode key newNode final

theorem insertIntoParent_eq_ok {steps : ℕ} {tree final : BPlusTree Key Value}
    {oldNode newNode : PageId} {key : Key}
    (h : tree.insertIntoParent steps oldNode key newNode = .ok final)
    (hrec : ∀ (inner : BPlusTree Key Value) (parentId siblingId : PageId) (key : Key) (fewer : ℕ),
      steps = fewer + 1 → inner.insertIntoParent fewer parentId key siblingId = .ok final →
      InsertsIntoParent inner parentId key siblingId final) :
    InsertsIntoParent tree oldNode key newNode final := by
  unfold insertIntoParent at h
  simp only [Except.bind_eq_ok_iff] at h
  obtain ⟨old, hold, new, hnew, h⟩ := h
  split at h
  · next hroot => exact .newRoot hold hroot h
  next hroot =>
  rw [Bool.not_eq_true] at hroot
  rw [Except.bind_eq_ok_iff] at h
  obtain ⟨parent, hparent, h⟩ := h
  rw [PageStore.internalAt_congr (PageStore.fetchPage_page _ _ _)] at hparent
  split at h
  · next hroom =>
    cases h
    exact .room hold hnew hroot hparent hroom
  next hfull =>
  cases steps with
  | zero => cases h
  | succ steps =>
    rw [Except.bind_eq_ok_iff] at h
    obtain ⟨⟨left, right, halved⟩, hsplit, h⟩ := h
    exact .full hold hnew hroot hparent hfull hsplit (hrec _ _ _ _ steps rfl h)

theorem insertsIntoParent_of_eq_ok {steps : ℕ} :
    ∀ {tree final : BPlusTree Key Value} {oldNode newNode : PageId} {key : Key},
      tree.insertIntoParent steps oldNode key newNode = .ok final →
      InsertsIntoParent tree oldNode key newNode final := by
  induction steps with
  | zero =>
    intro tree final oldNode newNode key h
    exact insertIntoParent_eq_ok h fun _ _ _ _ fewer hfewer => by omega
  | succ steps ih =>
    intro tree final oldNode newNode key h
    refine insertIntoParent_eq_ok h fun inner parentId siblingId key fewer hfewer hinner => ?_
    obtain rfl : steps = fewer := Nat.succ.inj hfewer
    exact ih hinner

/-! ## The new root -/

def storeWithRoot (store : PageStore Key Value) (oldNode newNode : PageId)
    (newRoot : InternalPage Key) : PageStore Key Value :=
  let rootId := store.nextPageId
  let store := store.newPage.2
  let store := store.write oldNode ((store.pages oldNode).page.withParent rootId)
  let store := store.write newNode ((store.pages newNode).page.withParent rootId)
  store.write rootId (.internal newRoot)

/-- The store after the header page has been changed and the pages have been unpinned. -/
def storeOfNewRoot (store : PageStore Key Value) (oldNode newNode oldId newId : PageId)
    (newRoot : InternalPage Key) (header : HeaderPage) : PageStore Key Value :=
  let rootId := store.nextPageId
  let store := (storeWithRoot store oldNode newNode newRoot).fetchPage headerPageId
  let store := (store.write headerPageId (.header header)).unpinPage headerPageId true
  ((store.unpinPage rootId true).unpinPage oldId true).unpinPage newId true

theorem insertIntoNewRoot_eq_ok {tree final : BPlusTree Key Value} {oldNode newNode : PageId}
    {key : Key} (h : tree.insertIntoNewRoot oldNode key newNode = .ok final) :
    ∃ old new newRoot header page, tree.store.treePageAt oldNode = .ok old ∧
      tree.store.treePageAt newNode = .ok new ∧
      (storeWithRoot tree.store oldNode newNode newRoot).headerAt headerPageId = .ok page ∧
      final = { tree with
        rootPageId := tree.store.nextPageId
        store :=
          storeOfNewRoot tree.store oldNode newNode old.pageId new.pageId newRoot header } := by
  simp only [insertIntoNewRoot, Except.bind_eq_ok_iff] at h
  obtain ⟨old, hold, new, hnew, first, hfirst, second, hsecond, updated, hupdated, h⟩ := h
  obtain ⟨-, rfl⟩ := PageStore.setParentPageId_eq_ok hfirst
  obtain ⟨-, rfl⟩ := PageStore.setParentPageId_eq_ok hsecond
  obtain ⟨header, rfl, page, hpage⟩ := updateRootPageId_eq_ok hupdated
  cases h
  exact ⟨old, new, _, header, page, hold, hnew, hpage, rfl⟩

end BPlusTree

end BusTub
