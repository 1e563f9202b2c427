import BusTub.Storage.BPlusTree

/-!
# What the operations do to the pages in the pool

For every operation of `PageStore`: the contents, the pin counts and the dirty flags
behind it, page by page.
-/

namespace BusTub

/-- The page with another parent, for the pages that have one. -/
def TreePage.withParent {Key Value : Type} (parentId : PageId) :
    TreePage Key Value → TreePage Key Value
  | .leaf page => .leaf { page with parentPageId := parentId }
  | .internal page => .internal { page with parentPageId := parentId }
  | page => page

namespace PageStore

section Operations

variable {Key Value : Type} (store : PageStore Key Value) (pageId other : PageId)

/-! ## Contents -/

@[simp] theorem fetchPage_page :
    ((store.fetchPage pageId).pages other).page = (store.pages other).page := by
  by_cases hsame : other = pageId <;> simp [fetchPage, modify, hsame]

variable (isDirty : Bool)

@[simp] theorem unpinPage_page :
    ((store.unpinPage pageId isDirty).pages other).page = (store.pages other).page := by
  by_cases hsame : other = pageId
  · subst hsame
    simp only [unpinPage, modify, Function.update_self]
    split <;> rfl
  · simp [unpinPage, modify, hsame]

variable (page : TreePage Key Value)

@[simp] theorem write_page_same :
    ((store.write pageId page).pages pageId).page = page := by
  simp [write, modify]

@[simp] theorem fetchPage_nextPageId : (store.fetchPage pageId).nextPageId = store.nextPageId := rfl

@[simp] theorem unpinPage_nextPageId :
    (store.unpinPage pageId isDirty).nextPageId = store.nextPageId := rfl

@[simp] theorem write_nextPageId :
    (store.write pageId page).nextPageId = store.nextPageId := rfl

@[simp] theorem newPage_fst : store.newPage.1 = store.nextPageId := rfl

@[simp] theorem newPage_nextPageId : store.newPage.2.nextPageId = store.nextPageId + 1 := rfl

/-! ## Pin counts and dirty flags -/

theorem fetchPage_pinCount :
    ((store.fetchPage pageId).pages other).pinCount =
      (store.pages other).pinCount + if other = pageId then 1 else 0 := by
  by_cases hsame : other = pageId <;> simp [fetchPage, modify, hsame]

theorem unpinPage_pinCount :
    ((store.unpinPage pageId isDirty).pages other).pinCount =
      (store.pages other).pinCount - if other = pageId then 1 else 0 := by
  by_cases hsame : other = pageId
  · subst hsame
    simp only [unpinPage, modify, Function.update_self, if_true]
    split
    · next hzero => rw [hzero]
    · rfl
  · simp [unpinPage, modify, hsame]

@[simp] theorem write_pinCount :
    ((store.write pageId page).pages other).pinCount = (store.pages other).pinCount := by
  by_cases hsame : other = pageId <;> simp [write, modify, hsame]

theorem newPage_pinCount :
    (store.newPage.2.pages other).pinCount =
      if other = store.nextPageId then 1 else (store.pages other).pinCount := by
  by_cases hsame : other = store.nextPageId <;> simp [newPage, modify, hsame]

@[simp] theorem fetchPage_isDirty :
    ((store.fetchPage pageId).pages other).isDirty = (store.pages other).isDirty := by
  by_cases hsame : other = pageId <;> simp [fetchPage, modify, hsame]

@[simp] theorem write_isDirty :
    ((store.write pageId page).pages other).isDirty = (store.pages other).isDirty := by
  by_cases hsame : other = pageId <;> simp [write, modify, hsame]

theorem unpinPage_isDirty :
    ((store.unpinPage pageId true).pages other).isDirty =
      ((store.pages other).isDirty ||
        decide (other = pageId ∧ (store.pages other).pinCount ≠ 0)) := by
  by_cases hsame : other = pageId
  · subst hsame
    simp only [unpinPage, modify, Function.update_self]
    split <;> simp_all
  · simp [unpinPage, modify, hsame]

variable {store pageId other}

theorem write_page_ne (hne : other ≠ pageId) (page : TreePage Key Value) :
    ((store.write pageId page).pages other).page = (store.pages other).page := by
  simp [write, modify, hne]

theorem newPage_page_ne (hne : other ≠ store.nextPageId) :
    ((store.newPage).2.pages other).page = (store.pages other).page := by
  simp [newPage, modify, hne]

@[simp] theorem newPage_page_same :
    (store.newPage.2.pages store.nextPageId).page = .blank := by
  simp [newPage, modify]

end Operations

/-! ## Reading a page as what it is -/

section Kinds

variable {Key Value : Type} {store other : PageStore Key Value} {pageId parentId : PageId}

theorem internalAt_eq_ok {node : InternalPage Key} :
    store.internalAt pageId = .ok node ↔ (store.pages pageId).page = .internal node := by
  unfold internalAt
  split <;> simp_all

theorem headerAt_eq_ok {header : HeaderPage} :
    store.headerAt pageId = .ok header ↔ (store.pages pageId).page = .header header := by
  unfold headerAt
  split <;> simp_all

theorem treePageAt_congr (h : (store.pages pageId).page = (other.pages pageId).page) :
    store.treePageAt pageId = other.treePageAt pageId := by
  simp [treePageAt, h]

theorem internalAt_congr (h : (store.pages pageId).page = (other.pages pageId).page) :
    store.internalAt pageId = other.internalAt pageId := by
  simp [internalAt, h]

theorem setParentPageId_of_treePageAt {page : BPlusTreePage}
    (h : store.treePageAt pageId = .ok page) (parentId : PageId) :
    store.setParentPageId pageId parentId =
      .ok (store.write pageId ((store.pages pageId).page.withParent parentId)) := by
  unfold treePageAt at h
  unfold setParentPageId
  split at h
  · next hpage => simp only [hpage, TreePage.withParent]
  · next hpage => simp only [hpage, TreePage.withParent]
  · cases h

/-- `SetParentPageId` writes only pages of the tree. -/
theorem setParentPageId_eq_ok (h : store.setParentPageId pageId parentId = .ok other) :
    (∃ page, store.treePageAt pageId = .ok page) ∧
      other = store.write pageId ((store.pages pageId).page.withParent parentId) := by
  unfold setParentPageId at h
  unfold treePageAt
  split at h
  · next hpage =>
    simp only [hpage, TreePage.withParent]
    exact ⟨⟨_, rfl⟩, (Except.ok.inj h).symm⟩
  · next hpage =>
    simp only [hpage, TreePage.withParent]
    exact ⟨⟨_, rfl⟩, (Except.ok.inj h).symm⟩
  · cases h

end Kinds

end PageStore

end BusTub
