import BusTub.Storage.LeafPages
import BusTub.Storage.TreeSteps

/-!
# Splitting a leaf

`Insert` behind `Findleaf`: the pair goes into the leaf, and a leaf that is full then is split.
The new leaf comes between the old one and its successor before `InsertIntoParent` is called, and
whatever that call does, it leaves the leaves alone up to their parents.
-/

namespace BusTub

open LeafPage PageStore

variable {Key Value : Type}

def TreePage.leafPart : TreePage Key Value → Option (LeafPage Key Value)
  | .leaf page => some { page with parentPageId := invalidPageId }
  | _ => none

theorem TreePage.leafPart_leaf (page : LeafPage Key Value) :
    (TreePage.leaf page).leafPart = some { page with parentPageId := invalidPageId } := rfl

@[simp] theorem TreePage.leafPart_withParent (page : TreePage Key Value) (parentId : PageId) :
    (page.withParent parentId).leafPart = page.leafPart := by
  cases page <;> rfl

/-! ## What `InsertIntoParent` leaves alone -/

/-- The leaves below a page id are the same, up to their parents. -/
def SameLeaves (bound : PageId) (store next : PageStore Key Value) : Prop :=
  ∀ pageId < bound, (next.pages pageId).page.leafPart = (store.pages pageId).page.leafPart

namespace SameLeaves

variable {bound pageId : PageId} {store next : PageStore Key Value}

variable (h : SameLeaves bound store next)
include h

theorem trans {final : PageStore Key Value} (h' : SameLeaves bound next final) :
    SameLeaves bound store final :=
  fun pageId hlt => (h' pageId hlt).trans (h pageId hlt)

theorem fetchPage : SameLeaves bound store (next.fetchPage pageId) := by
  simpa only [SameLeaves, fetchPage_page] using h

theorem unpinPage {isDirty : Bool} : SameLeaves bound store (next.unpinPage pageId isDirty) := by
  simpa only [SameLeaves, unpinPage_page] using h

theorem write {page : TreePage Key Value}
    (hpage : pageId < bound → page.leafPart = (next.pages pageId).page.leafPart) :
    SameLeaves bound store (next.write pageId page) := by
  refine h.trans fun other hlt => ?_
  by_cases hsame : other = pageId
  · subst hsame
    rw [write_page_same, hpage hlt]
  · rw [write_page_ne hsame]

theorem newPage (hbound : bound ≤ next.nextPageId) : SameLeaves bound store next.newPage.2 :=
  h.trans fun _ hlt => by rw [newPage_page_ne (hlt.trans_le hbound).ne]

theorem adopt {parentId sonPageId : PageId} :
    SameLeaves bound store (next.adopt pageId parentId sonPageId) :=
  (h.fetchPage.write fun _ => by
    rw [TreePage.leafPart_withParent, fetchPage_page]).unpinPage

end SameLeaves

namespace BPlusTree

variable [Inhabited Key]

theorem sameLeaves_of_splitInternal {tree next : BPlusTree Key Value}
    {node left right : InternalPage Key} {bound : PageId}
    (h : tree.splitInternal node = .ok (left, right, next))
    (hbound : bound ≤ tree.store.nextPageId) :
    SameLeaves bound tree.store next.store ∧ bound ≤ next.store.nextPageId := by
  obtain ⟨-, -, store, hadopted, rfl⟩ := splitInternal_eq_ok h
  obtain ⟨hkeeps, hnext⟩ := adoptChildren_invariant
    (fun store => SameLeaves bound tree.store store ∧ bound ≤ store.nextPageId)
    (fun i _ store page hstore _ => ⟨hstore.1.adopt, hstore.2⟩)
    ⟨SameLeaves.newPage (fun _ _ => rfl) hbound, hbound.trans (Int.le_add_one le_rfl)⟩ hadopted
  exact ⟨hkeeps.write fun hlt => absurd hbound (not_le.mpr hlt), hnext⟩

/-- Whatever way a call of `InsertIntoParent` takes, the leaves stay what they are. -/
theorem sameLeaves_of_insertsIntoParent {tree final : BPlusTree Key Value}
    {oldNode newNode : PageId} {key : Key} {bound : PageId}
    (h : InsertsIntoParent tree oldNode key newNode final)
    (hbound : bound ≤ tree.store.nextPageId) : SameLeaves bound tree.store final.store := by
  induction h with
  | @newRoot tree oldNode newNode _ _ _ hold hroot hinsert =>
    obtain ⟨old, new, newRoot, header, page, -, -, hheader, rfl⟩ := insertIntoNewRoot_eq_ok hinsert
    have hroot : SameLeaves bound tree.store (storeWithRoot tree.store oldNode newNode newRoot) :=
      (((SameLeaves.newPage (fun _ _ => rfl) hbound).write fun _ =>
        TreePage.leafPart_withParent _ _).write fun _ => TreePage.leafPart_withParent _ _).write
          fun hlt => absurd hbound (not_le.mpr hlt)
    refine (hroot.fetchPage.write fun _ => ?_).unpinPage.unpinPage.unpinPage.unpinPage
    rw [fetchPage_page, headerAt_eq_ok.mp hheader]
    rfl
  | @room tree _ _ _ _ _ _ hold hnew hroot hparent hroom =>
    refine (SameLeaves.write (SameLeaves.fetchPage fun _ _ => rfl)
      fun _ => ?_).unpinPage.unpinPage.unpinPage
    rw [fetchPage_page, internalAt_eq_ok.mp hparent]
    rfl
  | full hold hnew hroot hparent hfull hsplit hrest ih =>
    obtain ⟨hkeeps, hnext⟩ := sameLeaves_of_splitInternal hsplit hbound
    have hfetched := (SameLeaves.fetchPage fun _ _ => rfl).trans hkeeps
    refine (hfetched.write fun hlt => ?_).trans (ih hnext)
    rw [hfetched _ hlt, internalAt_eq_ok.mp hparent]
    rfl

/-! ## Splitting a leaf -/

variable [Inhabited Value] {tree : BPlusTree Key Value}

/-- What `Split` of a leaf is for. -/
structure LeafSplit (comparator : KeyComparator Key) (node left right : LeafPage Key Value) :
    Prop where
  concat : left.entries ++ right.entries = node.entries
  left_ne_nil : left.entries ≠ []
  right_ne_nil : right.entries ≠ []
  left_sorted : StrictlySorted comparator left.entries
  right_sorted : StrictlySorted comparator right.entries
  separated : ∀ entry ∈ left.entries, comparator entry.1 (right.keyAt 0) < 0
  size_add_size : left.size + right.size = node.maxSize
  left_le : left.size ≤ node.maxSize
  right_le : right.size ≤ node.maxSize

theorem splitLeaf_leafSplit {node : LeafPage Key Value} (hmax : 2 ≤ node.maxSize)
    (hfull : node.size = node.maxSize) (hsorted : StrictlySorted tree.comparator node.entries) :
    LeafSplit tree.comparator node (tree.splitLeaf node).1 (tree.splitLeaf node).2.1 := by
  have hstart : 1 ≤ node.getMinSize ∧ node.getMinSize < node.size := by
    rw [BPlusTreePage.getMinSize, hfull]
    omega
  have hleft : (tree.splitLeaf node).1.entries = node.entries.take node.getMinSize :=
    (take_usedEntries hstart.2.le).symm
  have hright : (tree.splitLeaf node).2.1.entries = node.entries.drop node.getMinSize := by
    rw [entries, entries, ← usedEntries_copyRange node.array (fun _ => default)]
    simp [splitLeaf, init, hfull]
  have hsizes : (tree.splitLeaf node).1.size = node.getMinSize ∧
      (tree.splitLeaf node).2.1.size = node.maxSize - node.getMinSize := ⟨rfl, Nat.zero_add _⟩
  rw [hfull] at hstart
  constructor
  · rw [hleft, hright, List.take_append_drop]
  · rw [← List.length_pos_iff, entries, length_usedEntries]
    omega
  · rw [← List.length_pos_iff, entries, length_usedEntries]
    omega
  · exact hleft ▸ hsorted.sublist (List.take_sublist _ _)
  · exact hright ▸ hsorted.sublist (List.drop_sublist _ _)
  · -- the first key on the right is the one behind the left part
    intro entry hentry
    obtain ⟨i, hi, rfl⟩ := mem_usedEntries.mp hentry
    have hkey : (tree.splitLeaf node).2.1.keyAt 0 = node.keyAt node.getMinSize := by
      simp [splitLeaf, init, keyAt, copyRange, hfull,
        Nat.sub_pos_of_lt hstart.2]
    rw [hkey]
    exact keyAt_lt hsorted hi (hfull ▸ hstart.2)
  all_goals omega

/-- `Insert` between the split of a leaf and `InsertIntoParent`: the new leaf, and the tree
with the leaf chain through it. -/
def linkSplit (tree : BPlusTree Key Value) (leafId : PageId) (leaf : LeafPage Key Value) :
    LeafPage Key Value × BPlusTree Key Value :=
  let (leaf, sibling, tree) := tree.splitLeaf leaf
  let sibling := { sibling with nextPageId := leaf.nextPageId }
  let leaf := { leaf with nextPageId := sibling.pageId }
  let store := tree.store.write leafId (.leaf leaf)
  (sibling, { tree with store := store.write sibling.pageId (.leaf sibling) })

/-- `Insert` behind `Findleaf`. -/
def insertIntoLeaf (tree : BPlusTree Key Value) (leafId : PageId) (key : Key) (value : Value) :
    Except TreeFault (BPlusTree Key Value) := do
  let leaf ← tree.store.leafAt leafId
  let (_, leaf) := leaf.insertKey key value tree.comparator
  let tree := { tree with store := tree.store.write leafId (.leaf leaf) }
  if leaf.size = leaf.maxSize then
    let (sibling, tree) := tree.linkSplit leafId leaf
    tree.insertIntoParent tree.store.nextPageId.toNat leafId (sibling.keyAt 0) sibling.pageId
  else return { tree with store := tree.store.unpinPage leaf.pageId true }

theorem insert_eq_insertIntoLeaf {asked : BPlusTree Key Value} {key : Key} {result : List Value}
    (value : Value) (hasked : tree.getValue key [] = .ok (false, result, asked))
    (hempty : asked.isEmpty = false) :
    tree.insert key value = do
      let (leafId, found) ← asked.findleaf key
      let next ← found.insertIntoLeaf leafId key value
      return (true, next) := by
  simp only [insert, hasked, insertIntoLeaf, bind, Except.bind, hempty, Bool.false_eq_true,
    if_false]
  rcases asked.findleaf key with fault | ⟨leafId, found⟩
  · rfl
  dsimp only
  rcases found.store.leafAt leafId with fault | leaf
  · rfl
  dsimp only
  split
  · rfl
  · rfl

/-- The first page ids on the way along the leaves. -/
def leafChain (store : PageStore Key Value) : ℕ → PageId → List PageId
  | 0, _ => []
  | count + 1, pageId =>
    pageId :: match (store.pages pageId).page.leafPart with
      | some leaf => leafChain store count leaf.nextPageId
      | none => []

/-- The two parts of a leaf are in the pool, and the way along the leaves leads through both
of them to the successor of the leaf.  The other leaves are what they were. -/
structure Chained (store next : PageStore Key Value) (leafId siblingId successor : PageId)
    (left right : LeafPage Key Value) : Prop where
  left_at : ((next.pages leafId).page.leafPart.map entries) = some left.entries
  right_at : ((next.pages siblingId).page.leafPart.map entries) = some right.entries
  chain : leafChain next 3 leafId = [leafId, siblingId, successor]
  others : ∀ pageId < store.nextPageId, pageId ≠ leafId →
    (next.pages pageId).page.leafPart = (store.pages pageId).page.leafPart

theorem linkSplit_chained {leafId : PageId} (hthere : leafId < tree.store.nextPageId)
    (leaf : LeafPage Key Value) {final : PageStore Key Value}
    (hsame : SameLeaves (tree.store.nextPageId + 1) (tree.linkSplit leafId leaf).2.store final) :
    Chained tree.store final leafId tree.store.nextPageId leaf.nextPageId
      (tree.splitLeaf leaf).1 (tree.splitLeaf leaf).2.1 := by
  have hleft := hsame leafId (hthere.trans (Int.lt_add_one_iff.mpr le_rfl))
  have hright := hsame tree.store.nextPageId (Int.lt_add_one_iff.mpr le_rfl)
  simp only [linkSplit, splitLeaf, init, newPage_fst, hthere.ne, ne_eq,
    not_false_eq_true, write_page_ne, write_page_same,
    TreePage.leafPart_leaf] at hleft hright
  refine ⟨by rw [hleft]; rfl, by rw [hright]; rfl, ?_, fun other hlt hne => ?_⟩
  · simp only [leafChain, hleft, hright]
    split <;> rfl
  · rw [hsame other (hlt.trans (Int.lt_add_one_iff.mpr le_rfl))]
    simp only [linkSplit, splitLeaf, init, newPage_fst, hlt.ne, hne, ne_eq,
      not_false_eq_true, write_page_ne, newPage_page_ne]

/-- A tree with one leaf, which has room for one more entry before it is split. -/
def treeOfTwo : BPlusTree ℤ ℕ where
  indexName := []
  rootPageId := 1
  store := ⟨fun pageId => ⟨if pageId = 1 then .leaf .leafOfTwo else .header ⟨[]⟩, 1, false⟩, 2⟩
  comparator := intComparator
  leafMaxSize := 3
  internalMaxSize := 3

end BPlusTree

end BusTub
