import BusTub.Table.HeapInsert

/-!
# Heaps over whole runs

`contents firstPageId pool` is the table that a heap represents: a map from rids to tuples.  Each
heap operation is a machine step on the pool; between them other clients of the pool make pages of
their own and write them.  Every pool that such a run reaches from the constructor of the heap has
the heap's pages in a chain, whatever frames the pool found along the way.

The main result is `insertTuple_total`: with frames for its requests, `InsertTuple` puts a tuple
of at most 4064 bytes into the table and changes nothing else.
-/

namespace BusTub

open Function ByteMemory Machines

namespace TableHeap

variable {firstPageId : PageId} {pool pool' : PagePool} {chain chain' : List PageId}

/-! ## The table of a heap -/

def contents (firstPageId : PageId) (pool : PagePool) (rid : Rid) : Option Stored :=
  if rid.pageId ∈ pageIds firstPageId pool then (pool.bytes rid.pageId).contents rid.slotNum
  else none

variable {rid : Rid}

theorem IsHeap.contents_of_mem (h : IsHeap firstPageId pool chain)
    (hmem : rid.pageId ∈ chain) :
    contents firstPageId pool rid = (pool.bytes rid.pageId).view.contents rid.slotNum := by
  rw [contents, h.pageIds_eq, if_pos hmem]
  rfl

theorem IsHeap.contents_of_notMem (h : IsHeap firstPageId pool chain)
    (hmem : rid.pageId ∉ chain) : contents firstPageId pool rid = none := by
  rw [contents, h.pageIds_eq, if_neg hmem]

theorem Edited.contents_eq {after : SlotMap} {stored : Option Stored}
    (hedited : Edited pool pool' rid.pageId after) (h : IsHeap firstPageId pool chain)
    (h' : IsHeap firstPageId pool' chain) (hmem : rid.pageId ∈ chain)
    (hafter : after.contents =
      update (pool.bytes rid.pageId).view.contents rid.slotNum stored) :
    contents firstPageId pool' = update (contents firstPageId pool) rid stored := by
  funext other
  by_cases hchain : other.pageId ∈ chain
  · rw [h'.contents_of_mem hchain]
    by_cases hpage : other.pageId = rid.pageId
    · rw [hpage, hedited.view, hafter]
      by_cases hslot : other.slotNum = rid.slotNum
      · obtain rfl : other = rid := by
          cases other
          cases rid
          simp_all only
        rw [update_self, update_self]
      · have hne : other ≠ rid := fun heq => hslot (heq ▸ rfl)
        rw [update_of_ne hslot, update_of_ne hne, h.contents_of_mem hchain, hpage]
    · have hne : other ≠ rid := fun heq => hpage (heq ▸ rfl)
      rw [update_of_ne hne, h.contents_of_mem hchain, hedited.others _ hpage]
  · have hne : other ≠ rid := fun heq => hchain (heq ▸ hmem)
    rw [update_of_ne hne, h.contents_of_notMem hchain, h'.contents_of_notMem hchain]

theorem Grown.contents_eq (hgrown : Grown pool pool' chain chain')
    (h : IsHeap firstPageId pool chain) (h' : IsHeap firstPageId pool' chain') :
    contents firstPageId pool' = contents firstPageId pool := by
  obtain ⟨extra, hextra, hempty⟩ := hgrown.extra
  subst hextra
  funext rid
  by_cases hmem : rid.pageId ∈ chain
  · rw [h.contents_of_mem hmem, h'.contents_of_mem (List.mem_append_left _ hmem),
      hgrown.views _ hmem]
  · rw [h.contents_of_notMem hmem]
    by_cases hnew : rid.pageId ∈ extra
    · rw [h'.contents_of_mem (List.mem_append_right _ hnew), hempty _ hnew]
      rfl
    · rw [h'.contents_of_notMem fun hin => (List.mem_append.mp hin).elim hmem hnew]

theorem insert_contents {page after : SlotMap} {bytes : List UInt8} {slot : ℕ}
    (hbeyond : page.contents page.count = none)
    (hinsert : page.insert bytes = some (slot, after)) :
    page.contents slot = none ∧
      after.contents = update page.contents slot (some ⟨bytes, false⟩) := by
  obtain ⟨_, rfl, rfl⟩ := SlotMap.insert_eq_some_iff.mp hinsert
  refine ⟨?_, rfl⟩
  unfold SlotMap.freeSlot
  cases hfind : (List.range page.count).find? fun slot => (page.contents slot).isNone with
  | none => exact hbeyond
  | some slot =>
    have hnone := List.find?_some hfind
    exact Option.isNone_iff_eq_none.mp hnone

theorem Inserted.contents_eq {bytes : List UInt8} {rid : Rid}
    (hinserted : Inserted pool pool' chain bytes rid chain') (h : IsHeap firstPageId pool chain)
    (h' : IsHeap firstPageId pool' chain') :
    contents firstPageId pool rid = none ∧
      contents firstPageId pool' =
        update (contents firstPageId pool) rid (some ⟨bytes, false⟩) := by
  cases hinserted with
  | @found pageId slot after hmem hinsert hedited =>
    obtain ⟨hfree, hafter⟩ := insert_contents (TablePage.contents_of_count_le le_rfl) hinsert
    refine ⟨?_, hedited.contents_eq h h' hmem hafter⟩
    rw [h.contents_of_mem hmem]
    exact hfree
  | @appended slot after hinsert hview hchain hothers hpins hnext =>
    obtain ⟨_, hafter⟩ := insert_contents rfl hinsert
    have hfresh := h.nextPageId_notMem
    refine ⟨h.contents_of_notMem hfresh, ?_⟩
    funext other
    by_cases hnew : other.pageId = pool.nextPageId
    · rw [h'.contents_of_mem (by simp [hnew]), hnew, hview, hafter]
      by_cases hslot : other.slotNum = slot
      · obtain rfl : other = ⟨pool.nextPageId, slot⟩ := by
          cases other
          simp_all only
        rw [update_self, update_self]
      · have hne : other ≠ ⟨pool.nextPageId, slot⟩ := fun heq => hslot (heq ▸ rfl)
        rw [update_of_ne hslot, update_of_ne hne,
          h.contents_of_notMem (hnew ▸ hfresh)]
        rfl
    · have hne : other ≠ ⟨pool.nextPageId, slot⟩ := fun heq => hnew (heq ▸ rfl)
      rw [update_of_ne hne]
      by_cases hmem : other.pageId ∈ chain
      · rw [h.contents_of_mem hmem, h'.contents_of_mem (List.mem_append_left _ hmem),
          hchain _ hmem]
      · rw [h.contents_of_notMem hmem, h'.contents_of_notMem]
        simp only [List.mem_append, List.mem_singleton, hmem, hnew, or_self, not_false_eq_true]

theorem IsHeap.getTuple_eq (h : IsHeap firstPageId pool chain) (txn : Transaction) {rid : Rid}
    (hmem : rid.pageId ∈ chain) :
    (getTuple true pool txn rid).1.map Tuple.data =
      (contents firstPageId pool rid).bind fun stored =>
        if stored.marked then none else some stored.bytes := by
  obtain ⟨_, hget, _⟩ := TableHeap.getTuple_eq pool txn rid
  rw [hget, TablePage.getTuple_eq, h.contents_of_mem hmem]
  unfold SlotMap.live
  cases (pool.bytes rid.pageId).view.contents rid.slotNum with
  | none => rfl
  | some stored =>
    obtain ⟨bytes, marked⟩ := stored
    cases marked <;> rfl

/-! ## Insertions that return -/

/-- What `InsertTuple` did, when it returned: it put the tuple into the table, or it
aborted the transaction and at most appended empty pages. -/
inductive InsertOutcome (firstPageId : PageId) (pool : PagePool) (chain : List PageId)
    (txn : Transaction) (tuple : Tuple) : Option Rid × PagePool × Transaction → Prop
  | inserted {rid : Rid} {pool' : PagePool} {chain' : List PageId} (hpos : tuple.size ≠ 0)
      (hheap : IsHeap firstPageId pool' chain')
      (hinserted : Inserted pool pool' chain tuple.data rid chain') :
      InsertOutcome firstPageId pool chain txn tuple
        (some rid, pool', txn.record rid .insert .empty)
  | refused {pool' : PagePool} {chain' : List PageId} (hheap : IsHeap firstPageId pool' chain')
      (hgrown : Grown pool pool' chain chain') :
      InsertOutcome firstPageId pool chain txn tuple (none, pool', txn.abort)

variable {frames : ℕ → Bool} {tuple : Tuple}

theorem insertTuple_of_large (hsize : 4064 < tuple.size)
    (hwrap : tuple.size + 32 < 2 ^ 32) (pool : PagePool) (txn : Transaction) :
    insertTuple firstPageId frames pool txn tuple = .ok (none, pool, txn.abort) := by
  apply if_pos
  rw [addU32_of_lt hwrap]
  change 4096 < tuple.size + 32
  omega

theorem insertTuple_empty_fault (hzero : tuple.size = 0)
    (hframe : frames 0 = true) (pool : PagePool) (txn : Transaction) :
    insertTuple firstPageId frames pool txn tuple = .error .emptyTuple := by
  have hfits : ¬ bustubPageSize < addU32 tuple.size 32 := by
    rw [hzero]
    decide
  have hpage : ∀ page : TablePage, page.insertTuple tuple = .error .emptyTuple :=
    fun page => if_pos hzero
  simp [insertTuple, if_neg hfits, hframe, insertLoop, hpage]

/-- **Every insertion that returns** has one of the two outcomes. -/
theorem insertTuple_outcome (h : IsHeap firstPageId pool chain)
    {txn : Transaction} {result : Option Rid × PagePool × Transaction}
    (hstep : insertTuple firstPageId frames pool txn tuple = .ok result) :
    InsertOutcome firstPageId pool chain txn tuple result := by
  have hsame : Same pool pool := ⟨rfl, rfl, rfl⟩
  cases hframe : frames 0 with
  | false =>
    have hnothing : insertTuple firstPageId frames pool txn tuple =
        .ok (none, pool, txn.abort) := by
      simp [insertTuple, hframe]
    rw [hnothing, Except.ok.injEq] at hstep
    exact hstep ▸ .refused h (hsame.grown chain)
  | true =>
    by_cases hzero : tuple.size = 0
    · rw [insertTuple_empty_fault hzero hframe] at hstep
      cases hstep
    by_cases hsize : tuple.size ≤ 4064
    · rcases insertTuple_ends h hzero hsize with
        ⟨rid, pool', chain', hends, hheap, hinserted⟩ | ⟨pool', hends, hunchanged, _⟩ | ⟨hends, _⟩
      · rw [hends, Except.ok.injEq] at hstep
        exact hstep ▸ .inserted hzero hheap hinserted
      · rw [hends, Except.ok.injEq] at hstep
        exact hstep ▸ .refused (hunchanged.isHeap h) (hunchanged.grown chain)
      · rw [hends] at hstep
        cases hstep
    by_cases hwrap : tuple.size + 32 < 2 ^ 32
    · rw [insertTuple_of_large (by omega) hwrap, Except.ok.injEq] at hstep
      exact hstep ▸ .refused h (hsame.grown chain)
    -- the size check wraps, and the walk finds no page
    · have hfits : ¬ bustubPageSize < addU32 tuple.size 32 := by
        have hbound : tuple.size < 2 ^ 32 := tuple.length_lt
        unfold addU32 bustubPageSize
        omega
      simp only [insertTuple, if_neg hfits, hframe, if_true] at hstep
      obtain ⟨rest, hchain⟩ : ∃ rest, chain = [] ++ firstPageId :: rest := by
        cases hcase : chain with
        | nil =>
          have hhead := h.head
          rw [hcase] at hhead
          cases hhead
        | cons first rest =>
          have hhead := h.head
          rw [hcase] at hhead
          exact ⟨rest, by rw [← Option.some.inj hhead]; rfl⟩
      cases hloop : insertLoop tuple frames (pool.nextPageId.toNat + 2) 1
          (pool.fetchPage firstPageId) firstPageId with
      | error fault => simp only [hloop, reduceCtorEq] at hstep
      | ok pair =>
        obtain ⟨answer, pool'⟩ := pair
        rw [hchain] at h ⊢
        obtain ⟨rfl, chain', hheap, hgrown⟩ := insertLoop_refused (by omega) 1 h
          (pinned_fetchPage pool firstPageId) hloop
        simp only [hloop, Except.ok.injEq] at hstep
        exact hstep ▸ .refused hheap hgrown

/-! ## The heap as a machine -/

/-- A call of a heap operation, with the frames that the pool finds for it, or a step of
another client of the pool. -/
inductive HeapCall
  | insert (frames : ℕ → Bool) (txn : Transaction) (tuple : Tuple)
  | mark (frame : Bool) (txn : Transaction) (rid : Rid)
  | update (frame : Bool) (txn : Transaction) (tuple : Tuple) (rid : Rid)
  | applyDelete (frame : Bool) (rid : Rid)
  | rollbackDelete (frame : Bool) (rid : Rid)
  | clientNew (frame : Bool) (page : PoolPage)
  | clientWrite (pageId : PageId) (page : PoolPage)

def heapMachine (firstPageId : PageId) : Machine PagePool HeapCall Unit TableFault where
  step pool
    | .insert frames txn tuple =>
      (insertTuple firstPageId frames pool txn tuple).map fun result => ((), result.2.1)
    | .mark frame txn rid => .ok ((), (markDelete frame pool txn rid).2.1)
    | .update frame txn tuple rid =>
      (updateTuple frame pool txn tuple rid).map fun result => ((), result.2.1)
    | .applyDelete frame rid => (applyDelete frame pool rid).map fun after => ((), after)
    | .rollbackDelete frame rid => (rollbackDelete frame pool rid).map fun after => ((), after)
    | .clientNew frame page =>
      match pool.newPage frame with
      | none => .ok ((), pool)
      | some (pageId, after) => .ok ((), after.modify pageId fun _ => page)
    | .clientWrite pageId page => .ok ((), pool.modify pageId fun _ => page)

/-- Rids name pages of the heap; other clients leave those pages alone. -/
def HeapCall.Valid (firstPageId : PageId) (pool : PagePool) : HeapCall → Prop
  | .insert _ _ _ => True
  | .mark _ _ rid => rid.pageId ∈ pageIds firstPageId pool
  | .update _ _ _ rid => rid.pageId ∈ pageIds firstPageId pool
  | .applyDelete _ rid => rid.pageId ∈ pageIds firstPageId pool
  | .rollbackDelete _ rid => rid.pageId ∈ pageIds firstPageId pool
  | .clientNew _ _ => True
  | .clientWrite pageId _ => pageId ∉ pageIds firstPageId pool ∧ pageId < pool.nextPageId

structure Ready (pool : PagePool) : Prop where
  nonneg : 0 ≤ pool.nextPageId
  unpinned : ∀ pageId, pool.nextPageId ≤ pageId → pool.pinCount pageId = 0

/-- A heap that was constructed in some pool and then went through a run. -/
def Reachable (firstPageId : PageId) (pool : PagePool) : Prop :=
  ∃ start frame created calls answers, Ready start ∧
    create start frame = .ok (firstPageId, created) ∧
    (heapMachine firstPageId).Along (fun pool call => call.Valid firstPageId pool) created calls ∧
    (heapMachine firstPageId).run created calls = .ok (answers, pool)

theorem IsHeap.frame (h : IsHeap firstPageId pool chain)
    (hbytes : ∀ pageId ∈ chain, pool'.bytes pageId = pool.bytes pageId)
    (hnext : pool.nextPageId ≤ pool'.nextPageId) (hbounded : pool'.nextPageId < 2 ^ 31)
    (hunpinned : ∀ pageId, pool'.nextPageId ≤ pageId → pool'.pinCount pageId = 0) :
    IsHeap firstPageId pool' chain where
  head := h.head
  linked := h.linked.congr fun pageId hmem => by
    rw [hbytes pageId hmem]
    exact ⟨rfl, rfl, rfl⟩
  nodup := h.nodup
  layout := fun pageId hmem => by
    rw [hbytes pageId hmem]
    exact h.layout pageId hmem
  allocated := fun pageId hmem =>
    ⟨(h.allocated pageId hmem).1, (h.allocated pageId hmem).2.trans_le hnext⟩
  bounded := hbounded
  unpinned := hunpinned

theorem bytes_modify_of_ne {pageId other : PageId} (hne : other ≠ pageId) (pool : PagePool)
    (change : PoolPage → PoolPage) :
    (pool.modify pageId change).bytes other = pool.bytes other := by
  simp [PagePool.bytes, PagePool.modify, update_of_ne hne]

theorem pinCount_modify_of_ne {pageId other : PageId} (hne : other ≠ pageId) (pool : PagePool)
    (change : PoolPage → PoolPage) :
    (pool.modify pageId change).pinCount other = pool.pinCount other := by
  simp [PagePool.pinCount, PagePool.modify, update_of_ne hne]

theorem clientWrite_keeps (h : IsHeap firstPageId pool chain) {pageId : PageId}
    (hmem : pageId ∉ chain) (hlt : pageId < pool.nextPageId) (page : PoolPage) :
    IsHeap firstPageId (pool.modify pageId fun _ => page) chain := by
  refine h.frame (fun other hother => ?_) le_rfl h.bounded fun other hother => ?_
  · have hne : other ≠ pageId := fun heq => hmem (heq ▸ hother)
    exact bytes_modify_of_ne hne pool _
  · rw [pinCount_modify_of_ne (hlt.trans_le hother).ne' pool]
    exact h.unpinned other hother

variable {frame : Bool}

theorem clientNew_keeps (h : IsHeap firstPageId pool chain) {pageId : PageId}
    (hnew : pool.newPage frame = some (pageId, pool')) (page : PoolPage) :
    IsHeap firstPageId (pool'.modify pageId fun _ => page) chain := by
  obtain ⟨rfl, hroom, hbytes, hpins, hnext⟩ := PagePool.newPage_eq_some hnew
  have hle : pool.nextPageId ≤ pool'.nextPageId := hnext ▸ (lt_add_one _).le
  refine h.frame (fun other hother => ?_) hle ?_ fun other hother => ?_
  · have hne := (h.allocated other hother).2.ne
    rw [bytes_modify_of_ne hne, hbytes, update_of_ne hne]
  · change pool'.nextPageId < 2 ^ 31
    rw [hnext]
    exact lt_of_le_of_lt (Int.add_one_le_iff.mpr hroom) (by decide)
  · have hlt : pool.nextPageId < other := by
      change pool'.nextPageId ≤ other at hother
      rw [hnext] at hother
      exact Int.add_one_le_iff.mp hother
    rw [pinCount_modify_of_ne hlt.ne', hpins, update_of_ne hlt.ne']
    exact h.unpinned other hlt.le

/-- What `UpdateTuple` did to the pages and the transaction, when it returned. -/
inductive UpdateOutcome (firstPageId : PageId) (pool : PagePool) (chain : List PageId)
    (txn : Transaction) (tuple : Tuple) (rid : Rid) : PagePool × Transaction → Prop
  | noFrame : UpdateOutcome firstPageId pool chain txn tuple rid (pool, txn.abort)
  | refused {pool' : PagePool} (hheap : IsHeap firstPageId pool' chain)
      (hedited : Edited pool pool' rid.pageId (pool.bytes rid.pageId).view) :
      UpdateOutcome firstPageId pool chain txn tuple rid (pool', txn)
  | done {pool' : PagePool} {old : Tuple} {after : SlotMap} (hheap : IsHeap firstPageId pool' chain)
      (hupdate : (pool.bytes rid.pageId).view.update rid.slotNum tuple.data =
        some (old.data, after))
      (hedited : Edited pool pool' rid.pageId after) :
      UpdateOutcome firstPageId pool chain txn tuple rid
        (pool', if txn.state ≠ .aborted then txn.record rid .update old else txn)

/-- `UpdateTuple` of a tuple that is not empty returns, and an empty one fails an assertion. -/
theorem updateTuple_outcome (h : IsHeap firstPageId pool chain)
    (hmem : rid.pageId ∈ chain) (frame : Bool) (txn : Transaction) (tuple : Tuple) :
    (∃ result, updateTuple frame pool txn tuple rid = .ok result ∧
      UpdateOutcome firstPageId pool chain txn tuple rid result.2) ∨
    updateTuple frame pool txn tuple rid = .error .emptyTuple ∧ tuple.size = 0 := by
  cases frame with
  | false => exact .inl ⟨_, rfl, .noFrame⟩
  | true =>
    by_cases hpos : tuple.size = 0
    · right
      have hpage : ∀ page : TablePage, page.updateTuple tuple rid.slotNum = .error .emptyTuple :=
        fun page => if_pos hpos
      exact ⟨by simp only [updateTuple, if_true, hpage], hpos⟩
    · left
      cases hupdate : (pool.bytes rid.pageId).view.update rid.slotNum tuple.data with
      | none =>
        obtain ⟨pool', hends, hheap, hedited⟩ := updateTuple_none h hmem hpos hupdate
        exact ⟨_, hends, .refused hheap hedited⟩
      | some pair =>
        obtain ⟨old, pool', hold, hends, hheap, hedited⟩ :=
          updateTuple_some h hmem hpos hupdate
        obtain ⟨bytes, after⟩ := pair
        subst hold
        exact ⟨_, hends, .done hheap hupdate hedited⟩

theorem updateTuple_keeps (h : IsHeap firstPageId pool chain) {txn : Transaction}
    (hmem : rid.pageId ∈ chain)
    {result : Bool × PagePool × Transaction}
    (hstep : updateTuple frame pool txn tuple rid = .ok result) :
    IsHeap firstPageId result.2.1 chain := by
  rcases updateTuple_outcome h hmem frame txn tuple with ⟨result', hends, houtcome⟩ | ⟨hfault, _⟩
  · rw [hends, Except.ok.injEq] at hstep
    subst hstep
    obtain ⟨answer, pool', txn'⟩ := result'
    cases houtcome with
    | noFrame => exact h
    | refused hheap _ => exact hheap
    | done hheap _ _ => exact hheap
  · rw [hfault] at hstep
    cases hstep

theorem applyDelete_keeps (h : IsHeap firstPageId pool chain)
    (hmem : rid.pageId ∈ chain) (hstep : applyDelete frame pool rid = .ok pool') :
    IsHeap firstPageId pool' chain := by
  cases frame with
  | false => cases hstep
  | true =>
    cases hremove : (pool.bytes rid.pageId).view.contents rid.slotNum with
    | none =>
      rcases TablePage.applyDelete_none (h.layout _ hmem) hremove with hfault | hfault <;>
        simp only [applyDelete, editPage, if_true, PagePool.bytes_fetchPage, hfault,
          reduceCtorEq] at hstep
    | some stored =>
      obtain ⟨after, hends, hheap, _⟩ := applyDelete_some h hmem
        (SlotMap.remove_eq_some_iff.mpr ⟨stored, hremove, rfl⟩)
      rw [hends, Except.ok.injEq] at hstep
      exact hstep ▸ hheap

theorem rollbackDelete_keeps (h : IsHeap firstPageId pool chain)
    (hmem : rid.pageId ∈ chain) (hstep : rollbackDelete frame pool rid = .ok pool') :
    IsHeap firstPageId pool' chain := by
  cases frame with
  | false => cases hstep
  | true =>
    by_cases hslot : rid.slotNum < (pool.bytes rid.pageId).getTupleCount
    · obtain ⟨after, hends, hheap, _⟩ := rollbackDelete_of_lt h hmem hslot
      rw [hends, Except.ok.injEq] at hstep
      exact hstep ▸ hheap
    · simp only [rollbackDelete, editPage, if_true, PagePool.bytes_fetchPage,
        TablePage.rollbackDelete_of_le (Nat.le_of_not_lt hslot), reduceCtorEq] at hstep

/-- **One step** keeps the pages of the heap in a chain. -/
theorem step_keeps (h : IsHeap firstPageId pool chain) {call : HeapCall}
    (hvalid : call.Valid firstPageId pool) {answer : Unit}
    (hstep : (heapMachine firstPageId).step pool call = .ok (answer, pool')) :
    ∃ chain', IsHeap firstPageId pool' chain' := by
  have hids := h.pageIds_eq
  cases call with
  | insert frames txn tuple =>
    simp only [heapMachine] at hstep
    cases hinsert : insertTuple firstPageId frames pool txn tuple with
    | error fault => simp only [hinsert, Except.map, reduceCtorEq] at hstep
    | ok result =>
      simp only [hinsert, Except.map, Except.ok.injEq, Prod.mk.injEq, true_and] at hstep
      subst hstep
      cases insertTuple_outcome h hinsert with
      | inserted _ hheap _ => exact ⟨_, hheap⟩
      | refused hheap _ => exact ⟨_, hheap⟩
  | mark frame txn rid =>
    simp only [heapMachine, Except.ok.injEq, Prod.mk.injEq, true_and] at hstep
    subst hstep
    cases frame with
    | false => exact ⟨chain, h⟩
    | true =>
      have hmem : rid.pageId ∈ chain := hids ▸ hvalid
      obtain ⟨after, hmark, hheap, _⟩ := markDelete_spec h hmem
      exact ⟨chain, by rw [hmark]; exact hheap⟩
  | update frame txn tuple rid =>
    simp only [heapMachine] at hstep
    cases hupdate : updateTuple frame pool txn tuple rid with
    | error fault => simp only [hupdate, Except.map, reduceCtorEq] at hstep
    | ok result =>
      simp only [hupdate, Except.map, Except.ok.injEq, Prod.mk.injEq, true_and] at hstep
      exact ⟨chain, hstep ▸ updateTuple_keeps h (hids ▸ hvalid) hupdate⟩
  | applyDelete frame rid =>
    simp only [heapMachine] at hstep
    cases hdelete : applyDelete frame pool rid with
    | error fault => simp only [hdelete, Except.map, reduceCtorEq] at hstep
    | ok result =>
      simp only [hdelete, Except.map, Except.ok.injEq, Prod.mk.injEq, true_and] at hstep
      exact ⟨chain, hstep ▸ applyDelete_keeps h (hids ▸ hvalid) hdelete⟩
  | rollbackDelete frame rid =>
    simp only [heapMachine] at hstep
    cases hdelete : rollbackDelete frame pool rid with
    | error fault => simp only [hdelete, Except.map, reduceCtorEq] at hstep
    | ok result =>
      simp only [hdelete, Except.map, Except.ok.injEq, Prod.mk.injEq, true_and] at hstep
      exact ⟨chain, hstep ▸ rollbackDelete_keeps h (hids ▸ hvalid) hdelete⟩
  | clientNew frame page =>
    simp only [heapMachine] at hstep
    cases hnew : pool.newPage frame with
    | none =>
      simp only [hnew, Except.ok.injEq, Prod.mk.injEq, true_and] at hstep
      exact ⟨chain, hstep ▸ h⟩
    | some pair =>
      simp only [hnew, Except.ok.injEq, Prod.mk.injEq, true_and] at hstep
      exact ⟨chain, hstep ▸ clientNew_keeps h hnew page⟩
  | clientWrite pageId page =>
    simp only [heapMachine, Except.ok.injEq, Prod.mk.injEq, true_and] at hstep
    exact ⟨chain, hstep ▸ clientWrite_keeps h (hids ▸ hvalid.1) hvalid.2 page⟩

theorem create_isHeap (hready : Ready pool)
    (hcreate : create pool frame = .ok (firstPageId, pool')) :
    IsHeap firstPageId pool' [firstPageId] := by
  unfold create at hcreate
  cases hnew : pool.newPage frame with
  | none => simp only [hnew, reduceCtorEq] at hcreate
  | some result =>
    obtain ⟨pageId, grown⟩ := result
    obtain ⟨rfl, hroom, hbytes, hpins, hnext⟩ := PagePool.newPage_eq_some hnew
    simp only [hnew, Except.ok.injEq, Prod.mk.injEq] at hcreate
    obtain ⟨rfl, rfl⟩ := hcreate
    have hupper : pool.nextPageId < 2 ^ 31 := hroom.trans (by decide)
    obtain ⟨hid, hprev, hlink⟩ := TablePage.init_links (grown.bytes pool.nextPageId)
      (le_trans (by decide) hready.nonneg) hupper
      (show -2 ^ 31 ≤ invalidPageId by decide) (by decide)
    constructor
    · rfl
    · simp only [Chained, PagePool.bytes_unpinPage, PagePool.bytes_write, update_self]
      exact ⟨hid, hprev, hlink, trivial⟩
    · exact List.nodup_singleton _
    · intro other hmem
      rw [List.mem_singleton.mp hmem, PagePool.bytes_unpinPage, PagePool.bytes_write,
        update_self]
      exact TablePage.init_layout _ _ _
    · intro other hmem
      rw [List.mem_singleton.mp hmem, PagePool.nextPageId_unpinPage, PagePool.nextPageId_write,
        hnext]
      exact ⟨hready.nonneg, lt_add_one _⟩
    · rw [PagePool.nextPageId_unpinPage, PagePool.nextPageId_write, hnext]
      exact lt_of_le_of_lt (Int.add_one_le_iff.mpr hroom) (by decide)
    · intro other hle
      rw [PagePool.nextPageId_unpinPage, PagePool.nextPageId_write, hnext] at hle
      have hlt : pool.nextPageId < other := Int.add_one_le_iff.mp hle
      rw [PagePool.pinCount_unpinPage, PagePool.pinCount_write,
        update_of_ne hlt.ne', hpins, update_of_ne hlt.ne']
      exact hready.unpinned other hlt.le

/-- **Every run** keeps the pages of the heap in a chain. -/
theorem Reachable.isHeap (h : Reachable firstPageId pool) :
    ∃ chain, IsHeap firstPageId pool chain := by
  obtain ⟨start, frame, created, calls, answers, hready, hcreate, hvalid, hrun⟩ := h
  have hkeeps := Machine.run_keeps
    (fun pool call answer next hheap hcall hstep => step_keeps hheap.choose_spec hcall hstep)
    (fun _ _ _ _ _ _ => trivial) ⟨_, create_isHeap hready hcreate⟩ hvalid
  exact hkeeps.1 answers pool hrun

/-! ## Insertion into a reachable heap -/

theorem Inserted.chain_eq {bytes : List UInt8}
    (h : Inserted pool pool' chain bytes rid chain') :
    rid.pageId ∈ chain' ∧ pool'.pinCount = pool.pinCount ∧
      (chain' = chain ∨ ∃ newPageId, chain' = chain ++ [newPageId]) := by
  cases h with
  | found hmem hinsert hedited => exact ⟨hmem, hedited.pins, .inl rfl⟩
  | appended hinsert hview hchain hothers hpins hnext =>
    exact ⟨by simp, hpins, .inr ⟨_, rfl⟩⟩

/-- **`InsertTuple`.**  In every heap that a run reaches, and if the pool has a frame for
each request, a tuple of 1 to 4064 bytes gets a rid that held nothing.  Afterwards the
table has the tuple and is otherwise as it was, the pages form a doubly linked list with
at most one page more, and every page has its pins.  A larger tuple aborts the
transaction and changes nothing. -/
theorem insertTuple_total (hreachable : Reachable firstPageId pool) (txn : Transaction)
    (tuple : Tuple) (frames : ℕ → Bool) :
    (0 < tuple.size → tuple.size ≤ 4064 → Supplied frames pool →
      ∃ rid pool', insertTuple firstPageId frames pool txn tuple =
          .ok (some rid, pool', txn.record rid .insert .empty) ∧
        contents firstPageId pool rid = none ∧
        (getTuple true pool' txn rid).1 = some tuple ∧
        contents firstPageId pool' =
          Function.update (contents firstPageId pool) rid (some ⟨tuple.data, false⟩) ∧
        (pageIds firstPageId pool' = pageIds firstPageId pool ∨
          ∃ newPageId, pageIds firstPageId pool' = pageIds firstPageId pool ++ [newPageId]) ∧
        (pageIds firstPageId pool').head? = some firstPageId ∧
        Chained pool'.bytes invalidPageId (pageIds firstPageId pool') ∧
        (pageIds firstPageId pool').Nodup ∧
        pool'.pinCount = pool.pinCount) ∧
      (4064 < tuple.size → tuple.size < 2 ^ 31 →
        insertTuple firstPageId frames pool txn tuple = .ok (none, pool, txn.abort)) := by
  obtain ⟨chain, h⟩ := hreachable.isHeap
  refine ⟨fun hpos hsize hsupplied => ?_, fun hlarge hbound => ?_⟩
  · rcases insertTuple_ends h hpos.ne' hsize with
      ⟨rid, pool', chain', hends, hheap, hinserted⟩ | ⟨_, _, _, hshort⟩ | ⟨_, hshort⟩
    · obtain ⟨hfree, hcontents⟩ := hinserted.contents_eq h hheap
      obtain ⟨hmem, hpins, hchain⟩ := hinserted.chain_eq
      refine ⟨rid, pool', hends, hfree, ?_, hcontents, ?_⟩
      · have hget := hheap.getTuple_eq txn hmem
        rw [hcontents, Function.update_self] at hget
        obtain ⟨found, hfound, hdata⟩ := Option.map_eq_some_iff.mp hget
        rw [hfound, Tuple.ext_data hdata]
      · rw [hheap.pageIds_eq, h.pageIds_eq]
        exact ⟨hchain, hheap.head, hheap.linked, hheap.nodup, hpins⟩
    · exact absurd hsupplied hshort
    · exact absurd hsupplied hshort
  · exact insertTuple_of_large hlarge (by omega) pool txn

def freshPool : PagePool := ⟨fun _ => ⟨fun _ => 0, 0, false⟩, 0⟩

theorem ready_freshPool : Ready freshPool := ⟨le_refl (0 : ℤ), fun _ _ => rfl⟩

theorem create_freshPool :
    ∃ pool, create freshPool true = .ok (0, pool) ∧ pool.nextPageId = 1 ∧ Reachable 0 pool := by
  cases hcreate : create freshPool true with
  | error fault =>
    have hok : (create freshPool true).isOk = true := by decide +kernel
    rw [hcreate] at hok
    cases hok
  | ok result =>
    have hfirst : (create freshPool true).toOption.all
        (fun result => result.1 = 0 ∧ result.2.nextPageId = 1) = true := by decide +kernel
    rw [hcreate] at hfirst
    obtain ⟨pageId, pool⟩ := result
    obtain ⟨rfl, hnext⟩ : pageId = 0 ∧ pool.nextPageId = 1 := of_decide_eq_true hfirst
    exact
      ⟨pool, rfl, hnext, freshPool, true, pool, [], [], ready_freshPool, hcreate, trivial, rfl⟩

/-- One byte is inserted into the first heap of a fresh pool. -/
theorem insertTuple_total_first :
    ∃ pool rid pool', create freshPool true = .ok (0, pool) ∧
      insertTuple 0 (fun _ => true) pool .fresh ⟨[7], by decide⟩ =
        .ok (some rid, pool', Transaction.fresh.record rid .insert .empty) ∧
      (getTuple true pool' .fresh rid).1 = some ⟨[7], by decide⟩ := by
  obtain ⟨pool, hcreate, hnext, hreachable⟩ := create_freshPool
  have htotal := insertTuple_total hreachable .fresh ⟨[7], by decide⟩ fun _ => true
  obtain ⟨rid, pool', hinsert, _, hget, _⟩ := htotal.1 (by decide) (by decide)
    ⟨fun _ => rfl, by rw [hnext]; decide⟩
  exact ⟨pool, rid, pool', hcreate, hinsert, hget⟩

end TableHeap

end BusTub
