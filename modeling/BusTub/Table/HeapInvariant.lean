import BusTub.Table.PageOperations
import BusTub.Table.TableHeap
import Mathlib.Data.Int.Interval

/-!
# The page chain of a table heap

`IsHeap firstPageId pool chain` says that the pages of the heap are those of the list `chain`,
linked both ways, each with a layout.  Pages outside the chain belong to other clients of the
pool, and nothing is said about them.

The operations on one tuple edit one page of the chain and give back the pin they take.
-/

namespace BusTub

open Function ByteMemory Machines PagePool

/-! ## Requests to the pool -/

namespace PagePool

variable (pool : PagePool) (pageId : PageId)

@[simp] theorem bytes_fetchPage : (pool.fetchPage pageId).bytes = pool.bytes := by
  funext other
  by_cases h : other = pageId
  · subst h
    simp [bytes, fetchPage, modify]
  · simp [bytes, fetchPage, modify, update_of_ne h]

@[simp] theorem bytes_unpinPage (isDirty : Bool) :
    (pool.unpinPage pageId isDirty).bytes = pool.bytes := by
  funext other
  by_cases h : other = pageId
  · subst h
    simp only [bytes, unpinPage, modify, update_self]
    split_ifs <;> rfl
  · simp [bytes, unpinPage, modify, update_of_ne h]

@[simp] theorem bytes_write (page : TablePage) :
    (pool.write pageId page).bytes = update pool.bytes pageId page := by
  funext other
  by_cases h : other = pageId
  · subst h
    simp [bytes, write, modify]
  · simp [bytes, write, modify, update_of_ne h]

@[simp] theorem pinCount_fetchPage :
    (pool.fetchPage pageId).pinCount =
      update pool.pinCount pageId (pool.pinCount pageId + 1) := by
  funext other
  by_cases h : other = pageId
  · subst h
    simp [pinCount, fetchPage, modify]
  · simp [pinCount, fetchPage, modify, update_of_ne h]

@[simp] theorem pinCount_unpinPage (isDirty : Bool) :
    (pool.unpinPage pageId isDirty).pinCount =
      update pool.pinCount pageId (pool.pinCount pageId - 1) := by
  funext other
  by_cases h : other = pageId
  · subst h
    simp only [pinCount, unpinPage, modify, update_self]
    split_ifs with hzero
    · rw [hzero]
    · rfl
  · simp [pinCount, unpinPage, modify, update_of_ne h]

@[simp] theorem pinCount_write (page : TablePage) :
    (pool.write pageId page).pinCount = pool.pinCount := by
  funext other
  by_cases h : other = pageId
  · subst h
    simp [pinCount, write, modify]
  · simp [pinCount, write, modify, update_of_ne h]

@[simp] theorem nextPageId_unpinPage (isDirty : Bool) :
    (pool.unpinPage pageId isDirty).nextPageId = pool.nextPageId := rfl

@[simp] theorem nextPageId_write (page : TablePage) :
    (pool.write pageId page).nextPageId = pool.nextPageId := rfl

theorem pinCount_unpin_fetch :
    update (update pool.pinCount pageId (pool.pinCount pageId + 1)) pageId
      (update pool.pinCount pageId (pool.pinCount pageId + 1) pageId - 1) =
      pool.pinCount := by
  rw [update_self, update_idem, Nat.add_sub_cancel, update_eq_self]

variable {pool}

theorem newPage_eq_some {frame : Bool} {newPageId : PageId} {pool' : PagePool}
    (h : pool.newPage frame = some (newPageId, pool')) :
    newPageId = pool.nextPageId ∧ pool.nextPageId < 2 ^ 31 - 1 ∧
      pool'.bytes = update pool.bytes pool.nextPageId (fun _ => 0) ∧
      pool'.pinCount = update pool.pinCount pool.nextPageId 1 ∧
      pool'.nextPageId = pool.nextPageId + 1 := by
  unfold newPage at h
  split_ifs at h with hsupply
  cases h
  refine ⟨rfl, hsupply.2, ?_, ?_, rfl⟩
  · funext other
    by_cases hother : other = pool.nextPageId
    · subst hother
      simp [bytes, modify]
    · simp [bytes, modify, update_of_ne hother]
  · funext other
    by_cases hother : other = pool.nextPageId
    · subst hother
      simp [pinCount, modify]
    · simp [pinCount, modify, update_of_ne hother]

theorem newPage_eq_none {frame : Bool} (h : pool.newPage frame = none) :
    frame = false ∨ 2 ^ 31 - 1 ≤ pool.nextPageId := by
  unfold newPage at h
  split_ifs at h with hsupply
  cases frame with
  | false => exact .inl rfl
  | true =>
    right
    by_contra hlt
    exact hsupply ⟨rfl, lt_of_not_ge hlt⟩

end PagePool

/-! ## Chains of pages -/

/-- The pages of the list are linked both ways, `previous` before the first one. -/
def Chained (bytes : PageId → TablePage) : PageId → List PageId → Prop
  | _, [] => True
  | previous, pageId :: rest =>
    (bytes pageId).getTablePageId = pageId ∧ (bytes pageId).getPrevPageId = previous ∧
      (bytes pageId).getNextPageId = rest.headD invalidPageId ∧ Chained bytes pageId rest

theorem Chained.congr {bytes bytes' : PageId → TablePage} {previous : PageId}
    {chain : List PageId} (h : Chained bytes previous chain)
    (hlinks : ∀ pageId ∈ chain, TablePage.SameLinks (bytes pageId) (bytes' pageId)) :
    Chained bytes' previous chain := by
  induction chain generalizing previous with
  | nil => trivial
  | cons pageId rest ih =>
    obtain ⟨hid, hprev, hnext⟩ := hlinks pageId List.mem_cons_self
    exact ⟨hid.trans h.1, hprev.trans h.2.1, hnext.trans h.2.2.1,
      ih h.2.2.2 fun other hother => hlinks other (List.mem_cons_of_mem _ hother)⟩

theorem Chained.id_eq {bytes : PageId → TablePage} {previous pageId : PageId}
    {chain : List PageId} (h : Chained bytes previous chain) (hmem : pageId ∈ chain) :
    (bytes pageId).getTablePageId = pageId := by
  induction chain generalizing previous with
  | nil => cases hmem
  | cons first rest ih =>
    rcases List.mem_cons.mp hmem with rfl | hrest
    · exact h.1
    · exact ih h.2.2.2 hrest

theorem Chained.of_append {bytes : PageId → TablePage} {previous pageId : PageId}
    {front rest : List PageId} (h : Chained bytes previous (front ++ pageId :: rest)) :
    (bytes pageId).getNextPageId = rest.headD invalidPageId := by
  induction front generalizing previous with
  | nil => exact h.2.2.1
  | cons first front ih => exact ih h.2.2.2

theorem Chained.append {bytes bytes' : PageId → TablePage} {previous lastPageId newPageId : PageId}
    {front : List PageId} (h : Chained bytes previous (front ++ [lastPageId]))
    (hfront : ∀ pageId ∈ front, TablePage.SameLinks (bytes pageId) (bytes' pageId))
    (hlast : (bytes' lastPageId).getTablePageId = (bytes lastPageId).getTablePageId ∧
      (bytes' lastPageId).getPrevPageId = (bytes lastPageId).getPrevPageId ∧
      (bytes' lastPageId).getNextPageId = newPageId)
    (hnew : (bytes' newPageId).getTablePageId = newPageId ∧
      (bytes' newPageId).getPrevPageId = lastPageId ∧
      (bytes' newPageId).getNextPageId = invalidPageId) :
    Chained bytes' previous (front ++ [lastPageId, newPageId]) := by
  induction front generalizing previous with
  | nil =>
    exact ⟨hlast.1.trans h.1, hlast.2.1.trans h.2.1, hlast.2.2, hnew.1, hnew.2.1, hnew.2.2,
      trivial⟩
  | cons first front ih =>
    obtain ⟨hid, hprev, hnext⟩ := hfront first List.mem_cons_self
    refine ⟨hid.trans h.1, hprev.trans h.2.1, ?_, ?_⟩
    · rw [hnext, h.2.2.1]
      cases front <;> rfl
    · exact ih h.2.2.2 fun pageId hmem => hfront pageId (List.mem_cons_of_mem _ hmem)

namespace TableHeap

/-- The pages that a walk along the next pointers visits. -/
def walk (pool : PagePool) : ℕ → PageId → List PageId
  | 0, _ => []
  | fuel + 1, pageId =>
    if pageId = invalidPageId then []
    else pageId :: walk pool fuel (pool.bytes pageId).getNextPageId

def pageIds (firstPageId : PageId) (pool : PagePool) : List PageId :=
  walk pool pool.nextPageId.toNat firstPageId

/-- The pages of the heap are those of `chain`. -/
structure IsHeap (firstPageId : PageId) (pool : PagePool) (chain : List PageId) : Prop where
  head : chain.head? = some firstPageId
  linked : Chained pool.bytes invalidPageId chain
  nodup : chain.Nodup
  layout : ∀ pageId ∈ chain, TablePage.Layout (pool.bytes pageId)
  allocated : ∀ pageId ∈ chain, 0 ≤ pageId ∧ pageId < pool.nextPageId
  bounded : pool.nextPageId < 2 ^ 31
  unpinned : ∀ pageId, pool.nextPageId ≤ pageId → pool.pinCount pageId = 0

variable {firstPageId : PageId} {pool pool' : PagePool} {chain : List PageId} {pageId : PageId}

theorem IsHeap.ne_invalid (h : IsHeap firstPageId pool chain) (hmem : pageId ∈ chain) :
    pageId ≠ invalidPageId := by
  rintro rfl
  exact absurd (h.allocated _ hmem).1 (by decide)

theorem IsHeap.nextPageId_notMem (h : IsHeap firstPageId pool chain) :
    pool.nextPageId ∉ chain := fun hmem =>
  absurd (h.allocated _ hmem).2 (lt_irrefl _)

theorem IsHeap.length_le (h : IsHeap firstPageId pool chain) :
    chain.length ≤ pool.nextPageId.toNat := by
  have hsubset : chain.toFinset ⊆ Finset.Ico 0 pool.nextPageId := by
    intro pageId hmem
    rw [List.mem_toFinset] at hmem
    exact Finset.mem_Ico.mpr (h.allocated pageId hmem)
  calc chain.length = chain.toFinset.card := (List.toFinset_card_of_nodup h.nodup).symm
    _ ≤ (Finset.Ico 0 pool.nextPageId).card := Finset.card_le_card hsubset
    _ = pool.nextPageId.toNat := by rw [Int.card_Ico, Int.sub_zero]

theorem walk_eq {bytes : PageId → TablePage} (hbytes : pool.bytes = bytes) {previous : PageId}
    (hchained : Chained bytes previous chain) (hvalid : ∀ pageId ∈ chain, pageId ≠ invalidPageId)
    {fuel : ℕ} (hfuel : chain.length ≤ fuel) :
    walk pool fuel (chain.headD invalidPageId) = chain := by
  induction chain generalizing previous fuel with
  | nil =>
    cases fuel with
    | zero => rfl
    | succ fuel => exact if_pos rfl
  | cons pageId rest ih =>
    cases fuel with
    | zero => cases hfuel
    | succ fuel =>
      have hnext := hchained.2.2.1
      rw [List.headD_cons, walk, if_neg (hvalid pageId List.mem_cons_self), hbytes, hnext,
        ih hchained.2.2.2 (fun other hother => hvalid other (List.mem_cons_of_mem _ hother))
          (Nat.le_of_succ_le_succ hfuel)]

theorem IsHeap.pageIds_eq (h : IsHeap firstPageId pool chain) :
    pageIds firstPageId pool = chain := by
  have hfirst : chain.headD invalidPageId = firstPageId := by
    cases chain with
    | nil => cases h.head
    | cons pageId rest => exact Option.some.inj h.head
  rw [pageIds, ← hfirst]
  exact walk_eq rfl h.linked (fun pageId hmem => h.ne_invalid hmem) h.length_le

/-! ## Edits of one page -/

/-- One page is edited so that it represents `after`; no pin and no other page changes. -/
structure Edited (pool pool' : PagePool) (pageId : PageId) (after : SlotMap) : Prop where
  view : (pool'.bytes pageId).view = after
  others : ∀ other, other ≠ pageId → pool'.bytes other = pool.bytes other
  pins : pool'.pinCount = pool.pinCount
  next : pool'.nextPageId = pool.nextPageId

theorem IsHeap.edit (h : IsHeap firstPageId pool chain) {page : TablePage}
    (hlinks : TablePage.SameLinks (pool.bytes pageId) page) (hlayout : TablePage.Layout page)
    (hbytes : pool'.bytes = update pool.bytes pageId page)
    (hpins : pool'.pinCount = pool.pinCount) (hnext : pool'.nextPageId = pool.nextPageId) :
    IsHeap firstPageId pool' chain where
  head := h.head
  linked := by
    apply h.linked.congr
    intro other _
    by_cases hsame : other = pageId
    · subst hsame
      rwa [hbytes, update_self]
    · rw [hbytes, update_of_ne hsame]
      exact ⟨rfl, rfl, rfl⟩
  nodup := h.nodup
  layout := by
    intro other hmem
    by_cases hsame : other = pageId
    · subst hsame
      rwa [hbytes, update_self]
    · rw [hbytes, update_of_ne hsame]
      exact h.layout other hmem
  allocated := by
    rw [hnext]
    exact h.allocated
  bounded := by
    rw [hnext]
    exact h.bounded
  unpinned := by
    rw [hnext, hpins]
    exact h.unpinned

/-- The pool after a page is fetched, written and unpinned. -/
def rewrite (pool : PagePool) (pageId : PageId) (page : TablePage) (isDirty : Bool) : PagePool :=
  ((pool.fetchPage pageId).write pageId page).unpinPage pageId isDirty

theorem rewrite_bytes (pool : PagePool) (pageId : PageId) (page : TablePage)
    (isDirty : Bool) :
    (rewrite pool pageId page isDirty).bytes = update pool.bytes pageId page := by
  rw [rewrite, bytes_unpinPage, bytes_write, bytes_fetchPage]

theorem rewrite_pinCount (pool : PagePool) (pageId : PageId) (page : TablePage)
    (isDirty : Bool) :
    (rewrite pool pageId page isDirty).pinCount = pool.pinCount := by
  rw [rewrite, pinCount_unpinPage, pinCount_write, pinCount_fetchPage,
    pinCount_unpin_fetch]

theorem IsHeap.rewrite (h : IsHeap firstPageId pool chain) (hmem : pageId ∈ chain)
    {page : TablePage} {after : SlotMap}
    (hbecomes : TablePage.Becomes (pool.bytes pageId) page after) (isDirty : Bool) :
    page.getTablePageId = pageId ∧ IsHeap firstPageId (rewrite pool pageId page isDirty) chain ∧
      Edited pool (rewrite pool pageId page isDirty) pageId after := by
  have hbytes := rewrite_bytes pool pageId page isDirty
  have hpins := rewrite_pinCount pool pageId page isDirty
  refine ⟨hbecomes.links.1.trans (h.linked.id_eq hmem), ?_, ?_⟩
  · exact h.edit hbecomes.links hbecomes.layout hbytes hpins rfl
  · refine ⟨?_, fun other hne => ?_, hpins, rfl⟩
    · rw [hbytes, update_self, hbecomes.view]
    · rw [hbytes, update_of_ne hne]

theorem becomes_self {page : TablePage} (hlayout : TablePage.Layout page) :
    TablePage.Becomes page page page.view :=
  ⟨hlayout, ⟨rfl, rfl, rfl⟩, rfl⟩

variable {rid : Rid} {txn : Transaction}

/-- **`MarkDelete`.**  The tuple is marked if it is there and not marked; the transaction
records the deletion in any case. -/
theorem markDelete_spec (h : IsHeap firstPageId pool chain) (hmem : rid.pageId ∈ chain) :
    ∃ pool', markDelete true pool txn rid = (true, pool', txn.record rid .delete .empty) ∧
      IsHeap firstPageId pool' chain ∧
      Edited pool pool' rid.pageId (((pool.bytes rid.pageId).view.mark rid.slotNum).getD
        (pool.bytes rid.pageId).view) := by
  have hlayout := h.layout _ hmem
  have hpage : ∃ answer page, (pool.bytes rid.pageId).markDelete rid.slotNum = (answer, page) ∧
      TablePage.Becomes (pool.bytes rid.pageId) page
        (((pool.bytes rid.pageId).view.mark rid.slotNum).getD (pool.bytes rid.pageId).view) := by
    cases hmark : (pool.bytes rid.pageId).view.mark rid.slotNum with
    | none => exact ⟨false, _, TablePage.markDelete_none hmark, becomes_self hlayout⟩
    | some after =>
      obtain ⟨page, hpage, hbecomes⟩ := TablePage.markDelete_some hlayout hmark
      exact ⟨true, page, hpage, hbecomes⟩
  obtain ⟨answer, page, hpage, hbecomes⟩ := hpage
  obtain ⟨hid, hheap, hedited⟩ := h.rewrite hmem hbecomes true
  refine ⟨TableHeap.rewrite pool rid.pageId page true, ?_, hheap, hedited⟩
  simp [markDelete, hpage, hid, TableHeap.rewrite]

/-- **`UpdateTuple`** of a tuple that is there, is not marked and leaves room. -/
theorem updateTuple_some (h : IsHeap firstPageId pool chain) (hmem : rid.pageId ∈ chain)
    {tuple : Tuple} (hpos : tuple.size ≠ 0) {old : List UInt8} {after : SlotMap}
    (hupdate : (pool.bytes rid.pageId).view.update rid.slotNum tuple.data = some (old, after)) :
    ∃ oldTuple pool', oldTuple.data = old ∧
      updateTuple true pool txn tuple rid = .ok (true, pool',
        if txn.state ≠ .aborted then txn.record rid .update oldTuple else txn) ∧
      IsHeap firstPageId pool' chain ∧ Edited pool pool' rid.pageId after := by
  obtain ⟨oldTuple, page, hpage, hdata, hbecomes⟩ :=
    TablePage.updateTuple_some (h.layout _ hmem) hpos hupdate
  obtain ⟨hid, hheap, hedited⟩ := h.rewrite hmem hbecomes true
  refine ⟨oldTuple, TableHeap.rewrite pool rid.pageId page true, hdata, ?_, hheap, hedited⟩
  simp only [updateTuple, if_true, bytes_fetchPage, hpage, hid, TableHeap.rewrite]
  split_ifs <;> rfl

theorem updateTuple_none (h : IsHeap firstPageId pool chain) (hmem : rid.pageId ∈ chain)
    {tuple : Tuple} (hpos : tuple.size ≠ 0)
    (hupdate : (pool.bytes rid.pageId).view.update rid.slotNum tuple.data = none) :
    ∃ pool', updateTuple true pool txn tuple rid = .ok (false, pool', txn) ∧
      IsHeap firstPageId pool' chain ∧
      Edited pool pool' rid.pageId (pool.bytes rid.pageId).view := by
  have hpage := TablePage.updateTuple_none (h.layout _ hmem) hpos hupdate
  obtain ⟨hid, hheap, hedited⟩ := h.rewrite hmem (becomes_self (h.layout _ hmem)) false
  refine ⟨TableHeap.rewrite pool rid.pageId (pool.bytes rid.pageId) false, ?_, hheap, hedited⟩
  simp [updateTuple, hpage, hid, TableHeap.rewrite]

/-- **`ApplyDelete`** of a tuple that is there. -/
theorem applyDelete_some (h : IsHeap firstPageId pool chain) (hmem : rid.pageId ∈ chain)
    {after : SlotMap} (hremove : (pool.bytes rid.pageId).view.remove rid.slotNum = some after) :
    ∃ pool', applyDelete true pool rid = .ok pool' ∧ IsHeap firstPageId pool' chain ∧
      Edited pool pool' rid.pageId after := by
  obtain ⟨page, hpage, hbecomes⟩ := TablePage.applyDelete_some (h.layout _ hmem) hremove
  obtain ⟨hid, hheap, hedited⟩ := h.rewrite hmem hbecomes true
  refine ⟨TableHeap.rewrite pool rid.pageId page true, ?_, hheap, hedited⟩
  simp [applyDelete, editPage, hpage, hid, TableHeap.rewrite]

/-- **`RollbackDelete`** of a slot of its page. -/
theorem rollbackDelete_of_lt (h : IsHeap firstPageId pool chain) (hmem : rid.pageId ∈ chain)
    (hslot : rid.slotNum < (pool.bytes rid.pageId).getTupleCount) :
    ∃ pool', rollbackDelete true pool rid = .ok pool' ∧ IsHeap firstPageId pool' chain ∧
      Edited pool pool' rid.pageId ((pool.bytes rid.pageId).view.unmark rid.slotNum) := by
  obtain ⟨page, hpage, hbecomes⟩ := TablePage.rollbackDelete_of_lt (h.layout _ hmem) hslot
  obtain ⟨hid, hheap, hedited⟩ := h.rewrite hmem hbecomes true
  refine ⟨TableHeap.rewrite pool rid.pageId page true, ?_, hheap, hedited⟩
  simp [rollbackDelete, editPage, hpage, hid, TableHeap.rewrite]

/-- `GetTuple` reads the page and gives the pin back. -/
theorem getTuple_eq (pool : PagePool) (txn : Transaction) (rid : Rid) :
    ∃ pool', getTuple true pool txn rid =
        ((pool.bytes rid.pageId).getTuple rid.slotNum, pool', txn) ∧
      pool'.bytes = pool.bytes ∧ pool'.pinCount = pool.pinCount ∧
      pool'.nextPageId = pool.nextPageId := by
  refine ⟨(pool.fetchPage rid.pageId).unpinPage rid.pageId false, ?_, ?_, ?_, rfl⟩
  · simp [getTuple]
  · rw [bytes_unpinPage, bytes_fetchPage]
  · rw [pinCount_unpinPage, pinCount_fetchPage, pinCount_unpin_fetch]

end TableHeap

end BusTub
