import BusTub.Storage.TreeSteps

/-!
# The pins of `InsertIntoParent`

A caller of `InsertIntoParent` hands over its pins on the two nodes.  Under a new root and under a
parent with room they are released.  A full parent is split, the function calls itself for the
parent and its sibling, and the pins on the nodes are kept.
-/

namespace BusTub

open PageStore

variable {Key Value : Type}

def TreePage.ownId : TreePage Key Value → Option PageId
  | .leaf page => some page.pageId
  | .internal page => some page.pageId
  | _ => none

@[simp] theorem TreePage.ownId_withParent (page : TreePage Key Value) (parentId : PageId) :
    (page.withParent parentId).ownId = page.ownId := by
  cases page <;> rfl

/-- The pages of the tree carry their own ids. -/
def OwnIds (store : PageStore Key Value) : Prop :=
  ∀ pageId, ∀ ownId ∈ (store.pages pageId).page.ownId, ownId = pageId

namespace OwnIds

variable {store : PageStore Key Value} {pageId : PageId}

variable (h : OwnIds store)
include h

theorem pageId_eq {page : BPlusTreePage} (hpage : store.treePageAt pageId = .ok page) :
    page.pageId = pageId := by
  unfold treePageAt at hpage
  split at hpage
  · next hleaf =>
    cases hpage
    exact h pageId _ (by rw [hleaf]; rfl)
  · next hinternal =>
    cases hpage
    exact h pageId _ (by rw [hinternal]; rfl)
  · cases hpage

theorem internal_pageId_eq {node : InternalPage Key} (hnode : store.internalAt pageId = .ok node) :
    node.pageId = pageId :=
  h pageId _ (by rw [internalAt_eq_ok.mp hnode]; rfl)

theorem write {page : TreePage Key Value} (hpage : ∀ ownId ∈ page.ownId, ownId = pageId) :
    OwnIds (store.write pageId page) := by
  intro other
  by_cases hsame : other = pageId
  · subst hsame
    rwa [write_page_same]
  · rw [write_page_ne hsame]
    exact h other

theorem fetchPage : OwnIds (store.fetchPage pageId) := by
  simpa only [OwnIds, fetchPage_page] using h

theorem newPage : OwnIds store.newPage.2 := by
  intro other
  by_cases hsame : other = store.nextPageId
  · simp [hsame, TreePage.ownId]
  · rw [newPage_page_ne hsame]
    exact h other

theorem adopt {parentId sonPageId : PageId} : OwnIds (store.adopt pageId parentId sonPageId) := by
  intro other
  rw [adopt_page]
  split
  · next hsame =>
    rw [hsame, TreePage.ownId_withParent]
    exact h pageId
  · exact h other

end OwnIds

namespace BPlusTree

/-- The pins on a page that the caller hands over. -/
def handed (oldNode newNode pageId : PageId) : ℕ :=
  (if pageId = oldNode then 1 else 0) + if pageId = newNode then 1 else 0

variable {pageId oldNode newNode : PageId}

theorem storeOfNewRoot_pinCount (store : PageStore Key Value) (newRoot : InternalPage Key)
    (header : HeaderPage) :
    ((storeOfNewRoot store oldNode newNode oldNode newNode newRoot header).pages pageId).pinCount =
      (if pageId = store.nextPageId then 0 else (store.pages pageId).pinCount) -
        handed oldNode newNode pageId := by
  simp only [storeOfNewRoot, storeWithRoot, unpinPage_pinCount, fetchPage_pinCount, write_pinCount,
    newPage_pinCount, handed]
  split_ifs <;> omega

variable {tree : BPlusTree Key Value} {old : BPlusTreePage}

/-- The caller has a pin on each of the two nodes of the tree. -/
structure HandedOver (tree : BPlusTree Key Value) (oldNode newNode : PageId)
    (old : BPlusTreePage) : Prop where
  ids : OwnIds tree.store
  old : tree.store.treePageAt oldNode = .ok old
  new : ∃ new, tree.store.treePageAt newNode = .ok new
  distinct : oldNode ≠ newNode
  oldPinned : 0 < (tree.store.pages oldNode).pinCount ∧ oldNode < tree.store.nextPageId
  newPinned : 0 < (tree.store.pages newNode).pinCount ∧ newNode < tree.store.nextPageId
  fresh : (tree.store.pages tree.store.nextPageId).pinCount = 0
  header : headerPageId < tree.store.nextPageId ∧
    ∃ page, tree.store.headerAt headerPageId = .ok page
  name : tree.indexName.length < 32

section HandedOver

variable (h : HandedOver tree oldNode newNode old)
include h

theorem HandedOver.handed_le (pageId : PageId) :
    handed oldNode newNode pageId ≤ (tree.store.pages pageId).pinCount := by
  have hold := h.oldPinned.1
  have hnew := h.newPinned.1
  rw [handed]
  split_ifs with hisOld hisNew hisNew
  · exact absurd (hisOld.symm.trans hisNew) h.distinct
  · rwa [hisOld]
  · rwa [hisNew, Nat.zero_add]
  · exact Nat.zero_le _

theorem isDirty_of_storeOfNewRoot {newRoot : InternalPage Key} {header : HeaderPage}
    (hchanged :
      ((storeOfNewRoot tree.store oldNode newNode oldNode newNode newRoot header).pages
        pageId).page ≠ (tree.store.pages pageId).page) :
    ((storeOfNewRoot tree.store oldNode newNode oldNode newNode newRoot header).pages
      pageId).isDirty = true := by
  have hold := h.oldPinned
  have hnew := h.newPinned
  have hdistinct := h.distinct
  contrapose! hchanged with hclean
  simp only [storeOfNewRoot, storeWithRoot, unpinPage_isDirty, fetchPage_isDirty, write_isDirty,
    unpinPage_pinCount, fetchPage_pinCount, write_pinCount, newPage_pinCount, Bool.or_eq_true,
    decide_eq_true_eq, ne_eq, not_or, not_and, not_not] at hclean ⊢
  obtain ⟨⟨⟨⟨-, hheader⟩, hroot⟩, hisOld⟩, hisNew⟩ := hclean
  have hne : pageId ≠ headerPageId ∧ pageId ≠ tree.store.nextPageId ∧ pageId ≠ oldNode ∧
    pageId ≠ newNode := by
    grind
  obtain ⟨h1, h2, h3, h4⟩ := hne
  simp [write_page_ne, newPage_page_ne, h1, h2, h3, h4]

end HandedOver

variable [Inhabited Key] {final : BPlusTree Key Value} {key : Key}

/-- `Split` pins the new page, and no other. -/
theorem splitInternal_pinCount {next : BPlusTree Key Value} {node left right : InternalPage Key}
    (hids : OwnIds tree.store) (h : tree.splitInternal node = .ok (left, right, next)) :
    OwnIds next.store ∧ next.store.nextPageId = tree.store.nextPageId + 1 ∧
      ∀ pageId < tree.store.nextPageId,
        (next.store.pages pageId).pinCount = (tree.store.pages pageId).pinCount := by
  obtain ⟨-, rfl, store, hadopted, rfl⟩ := splitInternal_eq_ok h
  have hadopts := adoptChildren_invariant
    (fun store => OwnIds store ∧ store.nextPageId = tree.store.nextPageId + 1 ∧
      ∀ pageId < tree.store.nextPageId,
        (store.pages pageId).pinCount = (tree.store.pages pageId).pinCount)
    (fun i _ store page ⟨hown, hnext, hpins⟩ hpage => ⟨hown.adopt, hnext, fun pageId hlt => by
      rw [adopt, hown.pageId_eq hpage, unpinPage_pinCount, write_pinCount, fetchPage_pinCount,
        Nat.add_sub_cancel, hpins pageId hlt]⟩)
    ⟨hids.newPage, rfl, fun pageId hlt => by rw [newPage_pinCount, if_neg hlt.ne]⟩ hadopted
  obtain ⟨hown, hnext, hpins⟩ := hadopts
  refine ⟨hown.write ?_, hnext, fun pageId hlt => ?_⟩
  · rintro _ ⟨⟩
    rfl
  · rw [write_pinCount, hpins pageId hlt]

/-- A full parent: what is handed over one level higher is the pin on the parent that was
added here and the one on the new page. -/
theorem pinCount_le_of_full {node parent left right : InternalPage Key}
    {halved : BPlusTree Key Value} {parentId : PageId} (hids : OwnIds tree.store)
    (hparent : tree.store.internalAt parentId = .ok parent)
    (hsplit : splitInternal { tree with store := tree.store.fetchPage parentId } node =
      .ok (left, right, halved)) (hnode : node.pageId = parent.pageId)
    (hrest : OwnIds (halved.store.write parentId (.internal (left.writeBack parent))) →
      ∀ pageId < halved.store.nextPageId, (halved.store.pages pageId).pinCount ≤
        (final.store.pages pageId).pinCount + handed parentId right.pageId pageId)
    (hlt : pageId < tree.store.nextPageId) :
    (tree.store.pages pageId).pinCount ≤ (final.store.pages pageId).pinCount := by
  obtain ⟨hown, hnext, hpins⟩ := splitInternal_pinCount hids.fetchPage hsplit
  obtain ⟨rfl, rfl, -⟩ := splitInternal_eq_ok hsplit
  have hle : _ ≤ _ + handed parentId tree.store.nextPageId pageId :=
    hrest (hown.write fun ownId hown => by
      cases hown
      exact hnode.trans (hids.internal_pageId_eq hparent)) pageId
        (hnext ▸ hlt.trans (Int.lt_succ _))
  rw [hpins pageId hlt, fetchPage_pinCount, handed, if_neg hlt.ne] at hle
  exact Nat.le_of_add_le_add_right hle

/-- Whatever way a call takes, it releases no more than what was handed over. -/
theorem pinCount_le_of_insertsIntoParent (h : InsertsIntoParent tree oldNode key newNode final)
    (hids : OwnIds tree.store) :
    ∀ pageId < tree.store.nextPageId, (tree.store.pages pageId).pinCount ≤
      (final.store.pages pageId).pinCount + handed oldNode newNode pageId := by
  induction h with
  | newRoot hold hroot hinsert =>
    intro pageId hlt
    obtain ⟨old, new, newRoot, header, page, hold, hnew, -, rfl⟩ := insertIntoNewRoot_eq_ok hinsert
    rw [hids.pageId_eq hold, hids.pageId_eq hnew, storeOfNewRoot_pinCount, if_neg hlt.ne]
    omega
  | room hold hnew hroot hparent hroom =>
    intro pageId hlt
    rw [hids.pageId_eq hold, hids.pageId_eq hnew, hids.internal_pageId_eq hparent]
    simp only [unpinPage_pinCount, write_pinCount, fetchPage_pinCount, handed]
    omega
  | full hold hnew hroot hparent hfull hsplit hrest ih =>
    intro pageId hlt
    refine Nat.le_add_right_of_le (pinCount_le_of_full hids hparent hsplit rfl ?_ hlt)
    simpa only [write_pinCount, write_nextPageId] using ih

/-! ## Which calls are balanced -/

/-- The call returns, the two pins are released and no others, and the pages that were
changed are dirty. -/
def Balanced (steps : ℕ) (tree : BPlusTree Key Value) (oldNode : PageId) (key : Key)
    (newNode : PageId) : Prop :=
  ∃ final, tree.insertIntoParent steps oldNode key newNode = .ok final ∧
    ∀ pageId,
      (final.store.pages pageId).pinCount + handed oldNode newNode pageId =
        (tree.store.pages pageId).pinCount ∧
      ((final.store.pages pageId).page ≠ (tree.store.pages pageId).page →
        (final.store.pages pageId).isDirty = true)

variable (h : HandedOver tree oldNode newNode old)
include h

theorem insertIntoNewRoot_returns (key : Key) :
    ∃ final, tree.insertIntoNewRoot oldNode key newNode = .ok final := by
  obtain ⟨new, hnew⟩ := h.new
  obtain ⟨hpositive, page, hpage⟩ := h.header
  have hne {node : PageId} {found : BPlusTreePage}
      (hnode : tree.store.treePageAt node = .ok found) : headerPageId ≠ node := by
    rintro rfl
    rw [treePageAt, headerAt_eq_ok.mp hpage] at hnode
    cases hnode
  have hfirst := setParentPageId_of_treePageAt
    ((treePageAt_congr (newPage_page_ne h.oldPinned.2.ne)).trans h.old) tree.store.nextPageId
  have hsecond (page : TreePage Key Value) := setParentPageId_of_treePageAt ((treePageAt_congr
    ((write_page_ne h.distinct.symm page).trans (newPage_page_ne h.newPinned.2.ne))).trans hnew)
    tree.store.nextPageId
  have hheader (newRoot : InternalPage Key) :
      ((storeWithRoot tree.store oldNode newNode newRoot).fetchPage headerPageId).headerAt
        headerPageId = .ok page := by
    rw [headerAt_eq_ok] at hpage ⊢
    rw [fetchPage_page, storeWithRoot, write_page_ne hpositive.ne, write_page_ne (hne hnew),
      write_page_ne (hne h.old), newPage_page_ne hpositive.ne, hpage]
  simp only [insertIntoNewRoot, h.old, hnew, hfirst, hsecond, bind, Except.bind, newPage_fst,
    updateRootPageId, HeaderPage.updateRecord, if_pos h.name]
  rcases hfind : page.findRecord tree.indexName with _ | index
  all_goals
    erw [hheader]
    simp only [hfind]
    exact ⟨_, rfl⟩

/-- The old node is the root, or its parent has room. -/
def Settles (tree : BPlusTree Key Value) (old : BPlusTreePage) : Prop :=
  old.isRootPage = true ∨ ∃ parent, tree.store.internalAt old.parentPageId = .ok parent ∧
    parent.size < tree.internalMaxSize

theorem insertIntoParent_returns (steps : ℕ) (key : Key) (hsettles : tree.Settles old) :
    ∃ final, tree.insertIntoParent steps oldNode key newNode = .ok final := by
  obtain ⟨new, hnew⟩ := h.new
  unfold insertIntoParent
  by_cases hroot : old.isRootPage = true
  · simpa only [h.old, hnew, bind, Except.bind, hroot, if_true] using
      insertIntoNewRoot_returns h key
  · obtain ⟨parent, hparent, hroom⟩ := hsettles.resolve_left hroot
    simp only [h.old, hnew, bind, Except.bind, hroot, if_pos hroom,
      internalAt_congr (fetchPage_page _ _ _), hparent]
    exact ⟨_, rfl⟩

/-- **Pin balance.**  A call releases the two pins it was handed if and only if the old node
is the root or its parent has room. -/
theorem insertIntoParent_balanced_iff (steps : ℕ) (key : Key) :
    tree.Balanced steps oldNode key newNode ↔ tree.Settles old := by
  constructor
  · rintro ⟨final, hreturns, hbalanced⟩
    cases insertsIntoParent_of_eq_ok hreturns with
    | newRoot hold hroot =>
      cases h.old.symm.trans hold
      exact .inl hroot
    | room hold _ _ hparent hroom =>
      cases h.old.symm.trans hold
      exact .inr ⟨_, hparent, hroom⟩
    | full _ _ _ hparent _ hsplit hrest =>
      have hkept := pinCount_le_of_full h.ids hparent hsplit rfl
        (by simpa only [write_pinCount, write_nextPageId] using
          pinCount_le_of_insertsIntoParent hrest) h.oldPinned.2
      have hreleased := (hbalanced oldNode).1
      rw [handed, if_pos rfl] at hreleased
      omega
  · intro hsettles
    obtain ⟨final, hreturns⟩ := insertIntoParent_returns h steps key hsettles
    refine ⟨final, hreturns, fun pageId => ?_⟩
    have hle := h.handed_le pageId
    cases insertsIntoParent_of_eq_ok hreturns with
    | newRoot _ _ hinsert =>
      obtain ⟨_, _, newRoot, header, _, hold, hnew, -, rfl⟩ := insertIntoNewRoot_eq_ok hinsert
      rw [h.ids.pageId_eq hold, h.ids.pageId_eq hnew]
      refine ⟨?_, isDirty_of_storeOfNewRoot h⟩
      rw [storeOfNewRoot_pinCount]
      split_ifs with hfresh
      · rw [hfresh, h.fresh] at hle ⊢
        omega
      · exact Nat.sub_add_cancel hle
    | @room _ _ _ _ old' _ _ hold hnew _ hparent _ =>
      rw [h.ids.pageId_eq hold, h.ids.pageId_eq hnew, h.ids.internal_pageId_eq hparent]
      rw [handed] at hle ⊢
      refine ⟨?_, fun hchanged => ?_⟩
      · simp only [unpinPage_pinCount, write_pinCount, fetchPage_pinCount]
        omega
      · by_cases hsame : pageId = old'.parentPageId
        · simp [unpinPage_isDirty, fetchPage_pinCount, hsame]
        · exact absurd (by simp [write_page_ne hsame]) hchanged
    | full hold _ hroot hparent hfull =>
      cases h.old.symm.trans hold
      obtain hroot' | ⟨_, hparent', hroom⟩ := hsettles
      · exact absurd hroot' (Bool.not_eq_true _ ▸ hroot)
      · cases hparent.symm.trans hparent'
        exact absurd hroom hfull

omit h

/-- A full root, and a split of its first child. -/
def fullTree : BPlusTree ℤ ℕ where
  indexName := []
  rootPageId := 1
  store :=
    { pages := fun pageId =>
        if pageId = 0 then ⟨.header ⟨[]⟩, 0, false⟩
        else if pageId = 1 then
          ⟨.internal ⟨⟨2, 2, invalidPageId, 1⟩, fun i => (10 * i, 2 + i)⟩, 0, false⟩
        else ⟨.leaf (.init pageId 1 3), if pageId = 2 ∨ pageId = 4 then 1 else 0, false⟩
      nextPageId := 5 }
  comparator := fun _ _ => 0
  leafMaxSize := 3
  internalMaxSize := 2

theorem insertIntoParent_balanced_iff_fullTree : ¬ fullTree.Balanced 1 2 5 4 := by
  have h : fullTree.HandedOver 2 4 ⟨0, 3, 1, 2⟩ := by
    refine ⟨fun pageId ownId hown => ?_, rfl, ⟨_, rfl⟩, by decide, by decide, by decide, rfl,
      ⟨by decide, _, rfl⟩, by decide⟩
    simp only [fullTree] at hown
    split at hown
    · cases hown
    split at hown
    · next hone =>
      cases hown
      exact hone.symm
    · cases hown
      rfl
  rw [insertIntoParent_balanced_iff h]
  rintro (hroot | ⟨parent, hparent, hroom⟩)
  · cases hroot
  · cases hparent
    exact absurd hroom (by decide)

/-- The call returns, and both leaves stay pinned. -/
theorem insertIntoParent_fullTree :
    ∃ final, fullTree.insertIntoParent 1 2 5 4 = .ok final ∧
      (final.store.pages 2).pinCount = 1 ∧ (final.store.pages 4).pinCount = 1 :=
  ⟨_, rfl, by decide, by decide⟩

end BPlusTree

end BusTub
