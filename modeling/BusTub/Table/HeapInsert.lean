import BusTub.Table.HeapInvariant

/-!
# Insertion into a table heap

`InsertTuple` walks along the chain with one page pinned, puts the tuple into the first
page that has room for it, and appends a page if there is none.  A fresh page has room
for every tuple that the size check lets through, so the walk ends.

`Inserted` says what an insertion does to the pages: one page of the chain is edited, or
one page is appended with the tuple as its only one.  The induction is on the part of
the chain that is still to be walked; `Pinned` is the state of the pool in between.
-/

namespace BusTub

open Function ByteMemory Machines PagePool TablePage

namespace TableHeap

/-- `pool` is `base` with one more pin on a page. -/
structure Pinned (base pool : PagePool) (pageId : PageId) : Prop where
  bytes : pool.bytes = base.bytes
  pins : pool.pinCount = Function.update base.pinCount pageId (base.pinCount pageId + 1)
  next : pool.nextPageId = base.nextPageId

structure Same (base pool : PagePool) : Prop where
  bytes : pool.bytes = base.bytes
  pins : pool.pinCount = base.pinCount
  next : pool.nextPageId = base.nextPageId

variable {base pool pool' : PagePool} {pageId : PageId}

theorem pinned_fetchPage (pool : PagePool) (pageId : PageId) :
    Pinned pool (pool.fetchPage pageId) pageId :=
  ⟨pool.bytes_fetchPage pageId, pool.pinCount_fetchPage pageId, rfl⟩

theorem Pinned.unpin (h : Pinned base pool pageId) (isDirty : Bool) :
    Same base (pool.unpinPage pageId isDirty) where
  bytes := by rw [bytes_unpinPage, h.bytes]
  pins := by rw [pinCount_unpinPage, h.pins, pinCount_unpin_fetch]
  next := h.next

theorem Same.fetch (h : Same base pool) (pageId : PageId) :
    Pinned base (pool.fetchPage pageId) pageId where
  bytes := by rw [bytes_fetchPage, h.bytes]
  pins := by rw [pinCount_fetchPage, h.pins]
  next := h.next

theorem Pinned.write_unpin (h : Pinned base pool pageId) (page : TablePage) (isDirty : Bool) :
    ((pool.write pageId page).unpinPage pageId isDirty).bytes =
        update base.bytes pageId page ∧
      ((pool.write pageId page).unpinPage pageId isDirty).pinCount = base.pinCount ∧
      ((pool.write pageId page).unpinPage pageId isDirty).nextPageId = base.nextPageId := by
  refine ⟨?_, ?_, h.next⟩
  · rw [bytes_unpinPage, bytes_write, h.bytes]
  · rw [pinCount_unpinPage, pinCount_write, h.pins,
      pinCount_unpin_fetch]

/-- What an insertion of `bytes` does: the rid of the tuple and the chain after it. -/
inductive Inserted (pool pool' : PagePool) (chain : List PageId) (bytes : List UInt8) :
    Rid → List PageId → Prop
  /-- A page of the chain has room. -/
  | found {pageId : PageId} {slot : ℕ} {after : SlotMap} (hmem : pageId ∈ chain)
      (hinsert : (pool.bytes pageId).view.insert bytes = some (slot, after))
      (hedited : Edited pool pool' pageId after) :
      Inserted pool pool' chain bytes ⟨pageId, slot⟩ chain
  /-- A new page takes the tuple. -/
  | appended {slot : ℕ} {after : SlotMap}
      (hinsert : emptyPage.insert bytes = some (slot, after))
      (hview : (pool'.bytes pool.nextPageId).view = after)
      (hchain : ∀ pageId ∈ chain, (pool'.bytes pageId).view = (pool.bytes pageId).view)
      (hothers : ∀ pageId, pageId ∉ chain → pageId ≠ pool.nextPageId →
        pool'.bytes pageId = pool.bytes pageId)
      (hpins : pool'.pinCount = pool.pinCount) (hnext : pool'.nextPageId = pool.nextPageId + 1) :
      Inserted pool pool' chain bytes ⟨pool.nextPageId, slot⟩ (chain ++ [pool.nextPageId])

theorem emptyPage_insert {bytes : List UInt8} (hsize : bytes.length ≤ 4064) :
    ∃ after, emptyPage.insert bytes = some (0, after) :=
  ⟨_, SlotMap.insert_eq_some_iff.mpr
    ⟨by change 32 + 8 * 0 + bytes.length ≤ 4096; omega, rfl, rfl⟩⟩

variable {firstPageId : PageId} {chain : List PageId} {tuple : Tuple} {frames : ℕ → Bool}

/-- The bytes after `page` was appended to the chain, behind `pageId`. -/
structure Appended (base pool' : PagePool) (pageId : PageId) (page : TablePage) : Prop where
  new : pool'.bytes base.nextPageId = page
  last : pool'.bytes pageId = (base.bytes pageId).setNextPageId base.nextPageId
  others : ∀ other, other ≠ base.nextPageId → other ≠ pageId →
    pool'.bytes other = base.bytes other

theorem appended_of_bytes {page : TablePage} (hne : pageId ≠ base.nextPageId)
    (hbytes : pool'.bytes = update (update base.bytes pageId
      ((base.bytes pageId).setNextPageId base.nextPageId)) base.nextPageId page) :
    Appended base pool' pageId page where
  new := by rw [hbytes, update_self]
  last := by rw [hbytes, update_of_ne hne, update_self]
  others := by
    intro other hnew hold
    rw [hbytes, update_of_ne hnew, update_of_ne hold]

theorem Appended.chained {page : TablePage} {after : SlotMap}
    (happended : Appended base pool' pageId page)
    (h : IsHeap firstPageId base (chain ++ [pageId]))
    (hnew : TablePage.Becomes
      (init (fun _ => 0) base.nextPageId bustubPageSize pageId) page after) :
    Chained pool'.bytes invalidPageId (chain ++ [pageId] ++ [base.nextPageId]) := by
  have hlastmem : pageId ∈ chain ++ [pageId] := by simp
  have hlast := h.allocated pageId hlastmem
  have hupper : base.nextPageId < 2 ^ 31 := h.bounded
  have hlower : -2 ^ 31 ≤ base.nextPageId := le_trans (by decide) (hlast.1.trans hlast.2.le)
  obtain ⟨_, _, hid, hprev, hlink⟩ :=
    setNextPageId_spec (h.layout _ hlastmem) hlower hupper
  obtain ⟨hnewid, hnewprev, hnewnext⟩ := init_links (fun _ => 0) hlower hupper
    (le_trans (by decide) hlast.1) (hlast.2.trans hupper)
  have hfront : ∀ other ∈ chain, other ≠ base.nextPageId ∧ other ≠ pageId := by
    intro other hmem
    refine ⟨fun heq => h.nextPageId_notMem (heq ▸ List.mem_append_left _ hmem), fun heq => ?_⟩
    have hdisjoint := (List.nodup_append.mp h.nodup).2.2
    exact hdisjoint other hmem pageId (List.mem_singleton_self _) heq
  rw [List.append_assoc]
  refine h.linked.append (fun other hmem => ?_) ⟨?_, ?_, ?_⟩ ⟨?_, ?_, ?_⟩
  · rw [happended.others other (hfront other hmem).1 (hfront other hmem).2]
    exact ⟨rfl, rfl, rfl⟩
  · rw [happended.last, hid]
  · rw [happended.last, hprev]
  · rw [happended.last, hlink]
  · rw [happended.new, hnew.links.1, hnewid]
  · rw [happended.new, hnew.links.2.1, hnewprev]
  · rw [happended.new, hnew.links.2.2, hnewnext]

theorem IsHeap.append (h : IsHeap firstPageId base (chain ++ [pageId]))
    (hroom : base.nextPageId < 2 ^ 31 - 1) {page : TablePage} {after : SlotMap}
    (hnew : TablePage.Becomes
      (init (fun _ => 0) base.nextPageId bustubPageSize pageId) page after)
    (hbytes : pool'.bytes = update (update base.bytes pageId
      ((base.bytes pageId).setNextPageId base.nextPageId)) base.nextPageId page)
    (hpins : pool'.pinCount = base.pinCount) (hnext : pool'.nextPageId = base.nextPageId + 1) :
    IsHeap firstPageId pool' (chain ++ [pageId] ++ [base.nextPageId]) ∧
      (pool'.bytes base.nextPageId).view = after ∧
      (∀ other ∈ chain ++ [pageId], (pool'.bytes other).view = (base.bytes other).view) ∧
      ∀ other, other ∉ chain ++ [pageId] → other ≠ base.nextPageId →
        pool'.bytes other = base.bytes other := by
  have hlastmem : pageId ∈ chain ++ [pageId] := by simp
  have hlast := h.allocated pageId hlastmem
  have hfresh := h.nextPageId_notMem
  have hpos : 0 ≤ base.nextPageId := hlast.1.trans hlast.2.le
  obtain ⟨hlayout, hview, _⟩ := setNextPageId_spec (h.layout _ hlastmem)
    (le_trans (by decide) hpos) h.bounded
  have happended := appended_of_bytes (fun heq => hfresh (heq ▸ hlastmem)) hbytes
  refine ⟨?_, ?_, ?_, ?_⟩
  · constructor
    · rw [List.head?_append, h.head]
      rfl
    · exact happended.chained h hnew
    · refine List.nodup_append.mpr ⟨h.nodup, List.nodup_singleton _, ?_⟩
      intro other hmem new hnewmem heq
      rw [List.mem_singleton] at hnewmem
      exact hfresh (hnewmem ▸ heq ▸ hmem)
    · intro other hmem
      by_cases hnewpage : other = base.nextPageId
      · rw [hnewpage, happended.new]
        exact hnew.layout
      · by_cases holdpage : other = pageId
        · rw [holdpage, happended.last]
          exact hlayout
        · rw [happended.others other hnewpage holdpage]
          refine h.layout other ?_
          simpa only [List.mem_append, List.mem_singleton, hnewpage, or_false] using hmem
    · intro other hmem
      rw [hnext]
      rcases List.mem_append.mp hmem with hold | hnewmem
      · exact ⟨(h.allocated other hold).1, (h.allocated other hold).2.trans (lt_add_one _)⟩
      · rw [List.mem_singleton] at hnewmem
        subst hnewmem
        exact ⟨hpos, lt_add_one _⟩
    · rw [hnext]
      exact lt_of_le_of_lt (Int.add_one_le_iff.mpr hroom) (by decide)
    · intro other hle
      rw [hpins]
      rw [hnext] at hle
      exact h.unpinned other ((lt_add_one _).le.trans hle)
  · rw [happended.new, hnew.view]
  · intro other hmem
    by_cases holdpage : other = pageId
    · rw [holdpage, happended.last, hview]
    · rw [happended.others other (fun heq => hfresh (heq ▸ hmem)) holdpage]
  · intro other hmem hnewpage
    refine happended.others other hnewpage fun heq => hmem ?_
    rw [heq]
    exact hlastmem

/-! ## The walk -/

/-- The pool finds a frame for every request and has an id for a new page. -/
def Supplied (frames : ℕ → Bool) (pool : PagePool) : Prop :=
  (∀ request, frames request = true) ∧ pool.nextPageId < 2 ^ 31 - 1

/-- How a walk from the state `base` ends: with the tuple inserted, or, if the pool lets it
down, with nothing changed or at a null page. -/
def WalkEnds (firstPageId : PageId) (base : PagePool) (chain : List PageId) (tuple : Tuple)
    (frames : ℕ → Bool) : Except TableFault (Option Rid × PagePool) → Prop
  | .ok (some rid, pool') =>
    ∃ chain', IsHeap firstPageId pool' chain' ∧ Inserted base pool' chain tuple.data rid chain'
  | .ok (none, pool') => Same base pool' ∧ ¬ Supplied frames base
  | .error fault => fault = .nullPage ∧ ¬ Supplied frames base

theorem insertLoop_found (h : IsHeap firstPageId base chain) (hmem : pageId ∈ chain)
    (hpinned : Pinned base pool pageId) (hpos : tuple.size ≠ 0) {slot : ℕ} {after : SlotMap}
    (hinsert : (base.bytes pageId).view.insert tuple.data = some (slot, after)) (fuel request : ℕ) :
    WalkEnds firstPageId base chain tuple frames
      (insertLoop tuple frames (fuel + 1) request pool pageId) := by
  obtain ⟨page, hpage, hbecomes⟩ := insertTuple_some (h.layout _ hmem) hpos hinsert
  have hid := h.linked.id_eq hmem
  have hpageid : page.getTablePageId = pageId := hbecomes.links.1.trans hid
  obtain ⟨hbytes, hpins, hnext⟩ := hpinned.write_unpin page true
  rw [insertLoop, hpinned.bytes, hpage, hid]
  simp only [hpageid]
  refine ⟨chain, h.edit hbecomes.links hbecomes.layout hbytes hpins hnext, ?_⟩
  refine .found hmem hinsert ⟨?_, fun other hne => ?_, hpins, hnext⟩
  · rw [hbytes, update_self, hbecomes.view]
  · rw [hbytes, update_of_ne hne]

theorem append_bytes {newPageId : PageId} {grown : PagePool} (hpinned : Pinned base pool pageId)
    (hne : pageId ≠ base.nextPageId) (hunpinned : base.pinCount base.nextPageId = 0)
    {frame : Bool} (hnew : pool.newPage frame = some (newPageId, grown)) (last new : TablePage) :
    newPageId = base.nextPageId ∧ base.nextPageId < 2 ^ 31 - 1 ∧
      grown.bytes newPageId = (fun _ => 0) ∧
      (((grown.write pageId last).write newPageId new).unpinPage pageId true).bytes =
        update (update base.bytes pageId last) base.nextPageId new ∧
      (((grown.write pageId last).write newPageId new).unpinPage pageId true).pinCount =
        update base.pinCount base.nextPageId (base.pinCount base.nextPageId + 1) ∧
      (((grown.write pageId last).write newPageId new).unpinPage pageId true).nextPageId =
        base.nextPageId + 1 := by
  obtain ⟨rfl, hroom, hbytes, hpins, hnext⟩ := newPage_eq_some hnew
  rw [hpinned.next] at hroom hbytes hpins hnext ⊢
  rw [hpinned.bytes] at hbytes
  rw [hpinned.pins] at hpins
  refine ⟨rfl, hroom, ?_, ?_, ?_, ?_⟩
  · rw [hbytes, update_self]
  · rw [bytes_unpinPage, bytes_write, bytes_write, hbytes,
      update_comm hne.symm, update_idem]
  · rw [pinCount_unpinPage, pinCount_write, pinCount_write, hpins,
      update_of_ne hne, update_self, Nat.add_sub_cancel, hunpinned,
      update_comm hne.symm, update_idem, update_eq_self]
  · rw [nextPageId_unpinPage, nextPageId_write, nextPageId_write, hnext]

theorem insertLoop_new (h : IsHeap firstPageId base (chain ++ [pageId]))
    (hroom : base.nextPageId < 2 ^ 31 - 1) (hpos : tuple.size ≠ 0) (hsize : tuple.size ≤ 4064)
    {grown : PagePool}
    (hbytes : grown.bytes = update (update base.bytes pageId
      ((base.bytes pageId).setNextPageId base.nextPageId)) base.nextPageId
      (init (fun _ => 0) base.nextPageId bustubPageSize pageId))
    (hpins : grown.pinCount =
      update base.pinCount base.nextPageId (base.pinCount base.nextPageId + 1))
    (hnext : grown.nextPageId = base.nextPageId + 1) (fuel request : ℕ) :
    WalkEnds firstPageId base (chain ++ [pageId]) tuple frames
      (insertLoop tuple frames (fuel + 1) request grown base.nextPageId) := by
  have halloc := h.allocated pageId (by simp)
  obtain ⟨after, hafter⟩ := emptyPage_insert hsize
  have hinsert := hafter
  rw [← init_view (fun _ => 0) base.nextPageId pageId] at hinsert
  obtain ⟨page, hpage, hbecomes⟩ :=
    insertTuple_some (init_layout _ _ _) hpos hinsert
  have hinit : (init (fun _ => 0) base.nextPageId bustubPageSize
      pageId).getTablePageId = base.nextPageId :=
    (init_links _ (le_trans (by decide) (halloc.1.trans halloc.2.le)) h.bounded
      (le_trans (by decide) halloc.1) (halloc.2.trans h.bounded)).1
  have hpageid : page.getTablePageId = base.nextPageId := hbecomes.links.1.trans hinit
  have hbytes' : ((grown.write base.nextPageId page).unpinPage base.nextPageId true).bytes =
      update (update base.bytes pageId
        ((base.bytes pageId).setNextPageId base.nextPageId)) base.nextPageId page := by
    rw [bytes_unpinPage, bytes_write, hbytes, update_idem]
  have hpins' : ((grown.write base.nextPageId page).unpinPage base.nextPageId true).pinCount =
      base.pinCount := by
    rw [pinCount_unpinPage, pinCount_write, hpins, pinCount_unpin_fetch]
  rw [insertLoop, hbytes, update_self, hpage, hinit]
  simp only [hpageid]
  obtain ⟨hheap, hview, hchain, hothers⟩ := h.append hroom hbecomes hbytes' hpins' hnext
  exact ⟨_, hheap, .appended hafter hview hchain hothers hpins' hnext⟩

theorem insertLoop_last (h : IsHeap firstPageId base (chain ++ [pageId]))
    (hpinned : Pinned base pool pageId) (hpos : tuple.size ≠ 0) (hsize : tuple.size ≤ 4064)
    (hinsert : (base.bytes pageId).view.insert tuple.data = none) (fuel request : ℕ) :
    WalkEnds firstPageId base (chain ++ [pageId]) tuple frames
      (insertLoop tuple frames (fuel + 2) request pool pageId) := by
  have hmem : pageId ∈ chain ++ [pageId] := by simp
  have hpage := insertTuple_none (h.layout _ hmem) hpos hinsert
  have hid := h.linked.id_eq hmem
  have hend : (base.bytes pageId).getNextPageId = invalidPageId := h.linked.of_append
  have halloc := h.allocated _ hmem
  have hne : pageId ≠ base.nextPageId := halloc.2.ne
  rw [insertLoop, hpinned.bytes, hpage]
  simp only [hend, ne_eq, not_true_eq_false, if_false, hid]
  cases hnew : pool.newPage (frames request) with
  | none =>
    refine ⟨hpinned.unpin false, fun hsupplied => ?_⟩
    rcases newPage_eq_none hnew with hframe | hids
    · rw [hsupplied.1] at hframe
      cases hframe
    · rw [hpinned.next] at hids
      exact absurd hsupplied.2 hids.not_gt
  | some result =>
    obtain ⟨newPageId, grown⟩ := result
    obtain ⟨hnewid, hroom, hzero, hbytes, hpins, hnext⟩ := append_bytes hpinned hne
      (h.unpinned _ le_rfl) hnew ((base.bytes pageId).setNextPageId base.nextPageId)
      (init (fun _ => 0) base.nextPageId bustubPageSize pageId)
    subst hnewid
    simp only [bytes_write, update_of_ne hne.symm, hzero]
    exact insertLoop_new h hroom hpos hsize hbytes hpins hnext fuel (request + 1)

/-- **The walk ends.**  The induction is on the pages after the current one. -/
theorem insertLoop_ends (hpos : tuple.size ≠ 0) (hsize : tuple.size ≤ 4064) {rest : List PageId} :
    ∀ {front : List PageId} {pageId : PageId} {pool : PagePool} {fuel : ℕ} (request : ℕ),
      IsHeap firstPageId base (front ++ pageId :: rest) → Pinned base pool pageId →
      rest.length + 2 ≤ fuel →
      WalkEnds firstPageId base (front ++ pageId :: rest) tuple frames
        (insertLoop tuple frames fuel request pool pageId) := by
  induction rest with
  | nil =>
    intro front pageId pool fuel request h hpinned hfuel
    obtain ⟨fuel, rfl⟩ := Nat.exists_eq_add_of_le' hfuel
    cases hinsert : (base.bytes pageId).view.insert tuple.data with
    | none => exact insertLoop_last h hpinned hpos hsize hinsert fuel request
    | some result => exact insertLoop_found h (by simp) hpinned hpos hinsert (fuel + 1) request
  | cons next rest ih =>
    intro front pageId pool fuel request h hpinned hfuel
    obtain ⟨fuel, rfl⟩ := Nat.exists_eq_add_of_le' (Nat.le_trans (Nat.le_add_left 1 _) hfuel)
    have hmem : pageId ∈ front ++ pageId :: next :: rest := by simp
    cases hinsert : (base.bytes pageId).view.insert tuple.data with
    | some result => exact insertLoop_found h hmem hpinned hpos hinsert fuel request
    | none =>
      have hpage := insertTuple_none (h.layout _ hmem) hpos hinsert
      have hid := h.linked.id_eq hmem
      have hnext : (base.bytes pageId).getNextPageId = next := h.linked.of_append
      have hvalid : next ≠ invalidPageId := h.ne_invalid (show next ∈ _ by simp)
      rw [insertLoop, hpinned.bytes, hpage]
      simp only [hnext, hid, ne_eq, hvalid, not_false_eq_true, if_true]
      cases hframe : frames request with
      | false =>
        refine ⟨rfl, fun hsupplied => ?_⟩
        rw [hsupplied.1] at hframe
        cases hframe
      | true =>
        have happend :
            front ++ pageId :: next :: rest = (front ++ [pageId]) ++ next :: rest := by
          simp
        rw [happend] at h ⊢
        refine ih (request + 1) h ((hpinned.unpin false).fetch next) ?_
        simp only [List.length_cons] at hfuel
        omega

/-! ## Tuples that fit no page

The size check of the heap is made in 32 bits and wraps for the largest sizes.  Such a
tuple fits no page: pages are appended for it until the pool refuses one. -/

/-- Pages with no tuples were appended, nothing else changed. -/
structure Grown (pool pool' : PagePool) (chain chain' : List PageId) : Prop where
  extra : ∃ extra, chain' = chain ++ extra ∧
    ∀ pageId ∈ extra, (pool'.bytes pageId).view = emptyPage
  views : ∀ pageId ∈ chain, (pool'.bytes pageId).view = (pool.bytes pageId).view
  others : ∀ pageId, pageId ∉ chain' → pool'.bytes pageId = pool.bytes pageId
  pins : pool'.pinCount = pool.pinCount

theorem Same.grown (h : Same base pool) (chain : List PageId) : Grown base pool chain chain where
  extra := ⟨[], by simp⟩
  views := fun _ _ => by rw [h.bytes]
  others := fun _ _ => by rw [h.bytes]
  pins := h.pins

theorem Same.isHeap (hsame : Same base pool) (h : IsHeap firstPageId base chain) :
    IsHeap firstPageId pool chain where
  head := h.head
  linked := hsame.bytes ▸ h.linked
  nodup := h.nodup
  layout := hsame.bytes ▸ h.layout
  allocated := hsame.next ▸ h.allocated
  bounded := hsame.next ▸ h.bounded
  unpinned := hsame.next ▸ hsame.pins ▸ h.unpinned

theorem Grown.trans {pool'' : PagePool} {chain' chain'' : List PageId}
    (h : Grown pool pool' chain chain') (h' : Grown pool' pool'' chain' chain'') :
    Grown pool pool'' chain chain'' := by
  obtain ⟨extra, rfl, hextra⟩ := h.extra
  obtain ⟨extra', rfl, hextra'⟩ := h'.extra
  refine ⟨⟨extra ++ extra', List.append_assoc _ _ _, ?_⟩, ?_, ?_, h'.pins.trans h.pins⟩
  · intro pageId hmem
    rcases List.mem_append.mp hmem with hold | hnew
    · rw [h'.views pageId (List.mem_append_right _ hold), hextra pageId hold]
    · exact hextra' pageId hnew
  · intro pageId hmem
    rw [h'.views pageId (List.mem_append_left _ hmem), h.views pageId hmem]
  · intro pageId hmem
    rw [h'.others pageId hmem, h.others pageId fun hin => hmem (List.mem_append_left _ hin)]

theorem insert_of_large {page : TablePage} (hlayout : TablePage.Layout page)
    (hsize : 4064 < tuple.size) : page.view.insert tuple.data = none := by
  apply SlotMap.insert_eq_none_iff.mpr
  change page.getFreeSpacePointer < 32 + 8 * page.getTupleCount + tuple.size
  have := hlayout.pointer_le'
  omega

theorem IsHeap.append_empty (h : IsHeap firstPageId base (chain ++ [pageId]))
    (hroom : base.nextPageId < 2 ^ 31 - 1) {grown : PagePool}
    (hbytes : grown.bytes = update (update base.bytes pageId
      ((base.bytes pageId).setNextPageId base.nextPageId)) base.nextPageId
      (init (fun _ => 0) base.nextPageId bustubPageSize pageId))
    (hpins : grown.pinCount =
      update base.pinCount base.nextPageId (base.pinCount base.nextPageId + 1))
    (hnext : grown.nextPageId = base.nextPageId + 1) :
    ∃ larger, IsHeap firstPageId larger (chain ++ [pageId] ++ [base.nextPageId]) ∧
      Pinned larger grown base.nextPageId ∧
      Grown base larger (chain ++ [pageId]) (chain ++ [pageId] ++ [base.nextPageId]) := by
  have hsame : (grown.unpinPage base.nextPageId true).pinCount = base.pinCount := by
    rw [pinCount_unpinPage, hpins, pinCount_unpin_fetch]
  obtain ⟨hheap, hview, hchain, hothers⟩ := h.append hroom
    (becomes_self (init_layout _ _ _))
    ((grown.bytes_unpinPage base.nextPageId true).trans hbytes) hsame hnext
  refine ⟨grown.unpinPage base.nextPageId true, hheap, ⟨?_, ?_, rfl⟩, ⟨?_, hchain, ?_, hsame⟩⟩
  · rw [bytes_unpinPage]
  · rw [hsame, hpins]
  · refine ⟨[base.nextPageId], rfl, fun other hmem => ?_⟩
    rw [List.mem_singleton.mp hmem, hview, init_view]
  · intro other hmem
    simp only [List.mem_append, List.mem_singleton, not_or] at hmem
    refine hothers other ?_ hmem.2
    simpa only [List.mem_append, List.mem_singleton, not_or] using hmem.1

theorem insertLoop_refused (hsize : 4064 < tuple.size) {fuel : ℕ} :
    ∀ {base pool : PagePool} {front rest : List PageId} {pageId : PageId} (request : ℕ)
      {answer : Option Rid} {pool' : PagePool},
      IsHeap firstPageId base (front ++ pageId :: rest) → Pinned base pool pageId →
      insertLoop tuple frames fuel request pool pageId = .ok (answer, pool') →
      answer = none ∧ ∃ chain', IsHeap firstPageId pool' chain' ∧
        Grown base pool' (front ++ pageId :: rest) chain' := by
  induction fuel with
  | zero =>
    intro base pool front rest pageId request answer pool' _ _ hloop
    cases hloop
  | succ fuel ih =>
    intro base pool front rest pageId request answer pool' h hpinned hloop
    have hmem : pageId ∈ front ++ pageId :: rest := by simp
    have hpage := insertTuple_none (h.layout _ hmem) (by omega)
      (insert_of_large (h.layout _ hmem) hsize)
    have hid := h.linked.id_eq hmem
    rw [insertLoop, hpinned.bytes, hpage] at hloop
    cases rest with
    | cons next rest =>
      have hnext : (base.bytes pageId).getNextPageId = next := h.linked.of_append
      have hvalid : next ≠ invalidPageId := h.ne_invalid (show next ∈ _ by simp)
      simp only [hnext, hid, ne_eq, hvalid, not_false_eq_true, if_true] at hloop
      cases hframe : frames request with
      | false => simp only [hframe, Bool.false_eq_true, if_false, reduceCtorEq] at hloop
      | true =>
        rw [hframe, if_pos rfl] at hloop
        have happend : front ++ pageId :: next :: rest =
            (front ++ [pageId]) ++ next :: rest := by simp
        rw [happend] at h ⊢
        exact ih (request + 1) h ((hpinned.unpin false).fetch next) hloop
    | nil =>
      have hend : (base.bytes pageId).getNextPageId = invalidPageId := h.linked.of_append
      have hne : pageId ≠ base.nextPageId := (h.allocated _ hmem).2.ne
      simp only [hend, hid, ne_eq, not_true_eq_false, if_false] at hloop
      cases hnew : pool.newPage (frames request) with
      | none =>
        simp only [hnew, Except.ok.injEq, Prod.mk.injEq] at hloop
        obtain ⟨rfl, rfl⟩ := hloop
        have hsame := hpinned.unpin false
        exact ⟨rfl, _, hsame.isHeap h, hsame.grown _⟩
      | some result =>
        obtain ⟨newPageId, grown⟩ := result
        obtain ⟨hnewid, hroom, hzero, hbytes, hpins, hnext⟩ := append_bytes hpinned hne
          (h.unpinned _ le_rfl) hnew ((base.bytes pageId).setNextPageId base.nextPageId)
          (init (fun _ => 0) base.nextPageId bustubPageSize pageId)
        subst hnewid
        simp only [hnew, bytes_write, update_of_ne hne.symm, hzero] at hloop
        obtain ⟨larger, hlarger, hpinned', hgrown⟩ := h.append_empty hroom hbytes hpins hnext
        obtain ⟨hanswer, chain', hheap, hgrown'⟩ := ih (request + 1) hlarger hpinned' hloop
        exact ⟨hanswer, chain', hheap, hgrown.trans hgrown'⟩

variable {txn : Transaction}

theorem insertTuple_ends (h : IsHeap firstPageId pool chain) (hpos : tuple.size ≠ 0)
    (hsize : tuple.size ≤ 4064) :
    (∃ rid pool' chain', insertTuple firstPageId frames pool txn tuple =
        .ok (some rid, pool', txn.record rid .insert .empty) ∧
      IsHeap firstPageId pool' chain' ∧ Inserted pool pool' chain tuple.data rid chain') ∨
    (∃ pool', insertTuple firstPageId frames pool txn tuple = .ok (none, pool', txn.abort) ∧
      Same pool pool' ∧ ¬ Supplied frames pool) ∨
    insertTuple firstPageId frames pool txn tuple = .error .nullPage ∧ ¬ Supplied frames pool := by
  have hfits : ¬ bustubPageSize < addU32 tuple.size 32 := by
    rw [addU32_of_lt (by omega)]
    change ¬ 4096 < tuple.size + 32
    omega
  unfold insertTuple
  rw [if_neg hfits]
  cases hframe : frames 0 with
  | false =>
    refine .inr (.inl ⟨pool, rfl, ⟨rfl, rfl, rfl⟩, fun hsupplied => ?_⟩)
    rw [hsupplied.1] at hframe
    cases hframe
  | true =>
    cases hchain : chain with
    | nil =>
      have hhead := h.head
      rw [hchain] at hhead
      cases hhead
    | cons first rest =>
      subst hchain
      obtain rfl : first = firstPageId := Option.some.inj h.head
      have hlength := h.length_le
      have hends : WalkEnds first pool (first :: rest) tuple frames (insertLoop tuple frames
          (pool.nextPageId.toNat + 2) 1 (pool.fetchPage first) first) := by
        refine insertLoop_ends hpos hsize 1
          (show IsHeap first pool ([] ++ first :: rest) from h) (pinned_fetchPage pool first) ?_
        simp only [List.length_cons] at hlength
        omega
      cases hloop : insertLoop tuple frames (pool.nextPageId.toNat + 2) 1
          (pool.fetchPage first) first with
      | error fault =>
        rw [hloop] at hends
        obtain ⟨rfl, hsupplied⟩ := hends
        exact .inr (.inr ⟨rfl, hsupplied⟩)
      | ok result =>
        obtain ⟨answer, pool'⟩ := result
        rw [hloop] at hends
        cases answer with
        | none => exact .inr (.inl ⟨pool', rfl, hends⟩)
        | some rid =>
          obtain ⟨chain', hheap, hinserted⟩ := hends
          exact .inl ⟨rid, pool', chain', rfl, hheap, hinserted⟩

end TableHeap

end BusTub
