import BusTub.Buffer.BufferPool
import BusTub.Buffer.ReplacerInvariant
import Mathlib.Logic.Relation

/-!
# What each operation of the pool does

`PoolInv` is the agreement of the frame array, the free list, the page table and
the replacer.  For a pool in the invariant this file says once, for each operation,
everything it can do: which case it takes, and the pool it leaves, field by field.
Every later argument about the pool starts from these lemmas and opens no operation
again.
-/

namespace BusTub

open Function

namespace BufferPool

def IsFrame {Table : Type*} (pool : BufferPool Table) (frameId : FrameId) : Prop :=
  frameId ∈ Set.Ico 0 (pool.poolSize : ℤ)

def InUse {Table : Type*} (pool : BufferPool Table) (frameId : FrameId) : Prop :=
  pool.IsFrame frameId ∧ frameId ∉ pool.freeList

def AllPinned {Table : Type*} (pool : BufferPool Table) : Prop :=
  ∀ frameId, pool.IsFrame frameId → 0 < (pool.pages frameId).pinCount

def writtenBack {Table : Type*} (pool : BufferPool Table) (frameId : FrameId) : Disk :=
  if (pool.pages frameId).isDirty then
    pool.disk.writePage (pool.pages frameId).pageId (pool.pages frameId).data
  else pool.disk

/-- The pool after a page has been put in a frame, with the replacer `replacer`. -/
def occupy (pool : BufferPool PageMap) (frameId : FrameId) (pageId : PageId) (data : PageData)
    (nextPageId : PageId) (replacer : LRUKReplacer) : BufferPool PageMap :=
  { pool with
    nextPageId := nextPageId
    pages := Function.update pool.pages frameId ⟨data, pageId, 1, false⟩
    pageTable := Function.update
      (Function.update pool.pageTable (pool.pages frameId).pageId none) pageId (some frameId)
    replacer := replacer
    freeList := pool.freeList.erase frameId
    disk := pool.writtenBack frameId }

end BufferPool

def FlushStep (pool next : BufferPool PageMap) : Prop :=
  ∃ pageId frameId, pool.pageTable pageId = some frameId ∧
    next = { pool with
      pages := Function.update pool.pages frameId { pool.pages frameId with isDirty := false }
      disk := pool.disk.writePage pageId (pool.pages frameId).data }

theorem read_update_page {β : Type*} {pages : FrameId → Page} {frameId : FrameId} {page : Page}
    (read : Page → β) (hread : read page = read (pages frameId)) (other : FrameId) :
    read (update pages frameId page other) = read (pages other) := by
  rw [update_apply]
  split_ifs with heq
  · rw [heq, hread]
  · rfl

/-- The structures of the pool agree. -/
structure PoolInv (k : ℕ) (pool : BufferPool PageMap) : Prop where
  booked : Booked pool.poolSize k pool.replacer
  free_nodup : pool.freeList.Nodup
  free_isFrame : ∀ frameId ∈ pool.freeList, pool.IsFrame frameId
  free_unpinned : ∀ frameId ∈ pool.freeList, (pool.pages frameId).pinCount = 0
  pageTable_iff : ∀ pageId frameId, pool.pageTable pageId = some frameId ↔
    pool.InUse frameId ∧ (pool.pages frameId).pageId = pageId
  flag_inUse : ∀ frameId, pool.InUse frameId →
    pool.replacer.evictableFlag frameId = some (decide ((pool.pages frameId).pinCount = 0))
  flag_free : ∀ frameId, ¬ pool.InUse frameId → pool.replacer.evictableFlag frameId = none
  next_nonneg : 0 ≤ pool.nextPageId
  resident_issued : ∀ pageId frameId, pool.pageTable pageId = some frameId →
    pageId ∈ Set.Ico 0 pool.nextPageId

/-- A frame taken for a new content: it is not pinned, and it is the front of the free
list unless that is empty.  `flag` is the frame's flag in the replacer by then. -/
structure Taken (k : ℕ) (pool : BufferPool PageMap) (frameId : FrameId) (flag : Option Bool)
    (replacer : LRUKReplacer) : Prop where
  isFrame : pool.IsFrame frameId
  unpinned : (pool.pages frameId).pinCount = 0
  front : ∀ first, pool.freeList.head? = some first → first = frameId
  booked : Booked pool.poolSize k replacer
  flags : replacer.evictableFlag = Function.update pool.replacer.evictableFlag frameId flag

namespace PoolInv

variable {k : ℕ} {pool : BufferPool PageMap} {pageId : PageId} {frameId : FrameId}

theorem create (poolSize : ℕ) {k : ℕ} (hk : 1 ≤ k) : PoolInv k (.create poolSize k) := by
  have hmem : ∀ frameId, frameId ∈ (BufferPool.create poolSize k : BufferPool PageMap).freeList ↔
      frameId ∈ Set.Ico 0 (poolSize : ℤ) := by
    intro frameId
    simp only [BufferPool.create, List.mem_map, List.mem_range, Set.mem_Ico]
    constructor
    · rintro ⟨i, hi, rfl⟩
      exact ⟨Int.natCast_nonneg i, Int.ofNat_lt.mpr hi⟩
    · rintro ⟨hlow, hhigh⟩
      exact ⟨frameId.toNat, (Int.toNat_lt hlow).mpr hhigh, Int.toNat_of_nonneg hlow⟩
  have hfree : ∀ frameId, ¬ (BufferPool.create poolSize k : BufferPool PageMap).InUse frameId :=
    fun frameId hin => hin.2 ((hmem frameId).mpr hin.1)
  constructor
  · exact Booked.create poolSize hk
  · exact List.nodup_range.map fun _ _ heq => Int.ofNat_inj.mp heq
  · exact fun frameId hfree => (hmem frameId).mp hfree
  · exact fun _ _ => rfl
  · intro pageId frameId
    exact ⟨fun hsome => by simp [BufferPool.create, PageTable.empty] at hsome,
      fun hin => absurd hin.1 (hfree frameId)⟩
  · exact fun frameId hin => absurd hin (hfree frameId)
  · exact fun _ _ => rfl
  · exact le_refl 0
  · intro pageId frameId hsome
    simp [BufferPool.create, PageTable.empty] at hsome

variable (h : PoolInv k pool)
include h

theorem pageId_of_find (hfind : pool.pageTable pageId = some frameId) :
    (pool.pages frameId).pageId = pageId :=
  ((h.pageTable_iff pageId frameId).mp hfind).2

theorem find_inj {other : PageId}
    (hother : pool.pageTable other = some frameId) (hfind : pool.pageTable pageId = some frameId) :
    other = pageId :=
  (h.pageId_of_find hother).symm.trans (h.pageId_of_find hfind)

theorem inUse_of_find (hfind : pool.pageTable pageId = some frameId) :
    pool.InUse frameId :=
  ((h.pageTable_iff pageId frameId).mp hfind).1

theorem find_pageId (hin : pool.InUse frameId) :
    pool.pageTable (pool.pages frameId).pageId = some frameId :=
  (h.pageTable_iff _ _).mpr ⟨hin, rfl⟩

theorem find_invalid : pool.pageTable invalidPageId = none := by
  cases hfind : pool.pageTable invalidPageId with
  | none => rfl
  | some frameId =>
    have hissued := (h.resident_issued _ _ hfind).1
    exact absurd hissued (by decide)

theorem congr {pages : FrameId → Page} (disk : Disk)
    (hsame : ∀ frameId, (pages frameId).pageId = (pool.pages frameId).pageId ∧
      (pages frameId).pinCount = (pool.pages frameId).pinCount) :
    PoolInv k { pool with pages := pages, disk := disk } where
  booked := h.booked
  free_nodup := h.free_nodup
  free_isFrame := h.free_isFrame
  free_unpinned frameId hfree := (hsame frameId).2.trans (h.free_unpinned frameId hfree)
  pageTable_iff pageId frameId := by
    rw [(hsame frameId).1]
    exact h.pageTable_iff pageId frameId
  flag_inUse frameId hin := by
    rw [(hsame frameId).2]
    exact h.flag_inUse frameId hin
  flag_free := h.flag_free
  next_nonneg := h.next_nonneg
  resident_issued := h.resident_issued

/-! ## Taking a frame -/

theorem allPinned (hempty : pool.freeList = [])
    (hnone : ∀ frameId, pool.replacer.evictableFlag frameId ≠ some true) : pool.AllPinned := by
  intro frameId hframe
  have hin : pool.InUse frameId := ⟨hframe, by simp [hempty]⟩
  have hflag := h.flag_inUse frameId hin
  refine Nat.pos_of_ne_zero fun hzero => hnone frameId ?_
  rw [hflag, hzero]
  rfl

theorem isFrame_of_flag
    (hflag : pool.replacer.evictableFlag frameId = some true) :
    pool.InUse frameId ∧ (pool.pages frameId).pinCount = 0 := by
  by_cases hin : pool.InUse frameId
  · rw [h.flag_inUse frameId hin] at hflag
    exact ⟨hin, by simpa using hflag⟩
  · simp [h.flag_free frameId hin] at hflag

omit h

theorem takeFrame_of_nil {pool : BufferPool PageMap} (hfree : pool.freeList = []) :
    pool.takeFrame =
      match pool.replacer.evict with
      | .error fault => .error (.replacer fault)
      | .ok (victim, replacer) => .ok (victim, { pool with replacer := replacer }) := by
  unfold BufferPool.takeFrame
  split
  · simp_all
  · rfl

/-- **The frame search** fails only when every frame is pinned, and then changes
nothing. -/
theorem takeFrame (h : PoolInv k pool) (hk : 1 ≤ k) :
    pool.takeFrame = .ok (none, pool) ∧ pool.AllPinned ∨
      ∃ frameId replacer, Taken k pool frameId none replacer ∧
        pool.takeFrame = .ok (some frameId,
          { pool with freeList := pool.freeList.erase frameId, replacer := replacer }) := by
  cases hfree : pool.freeList with
  | cons frameId rest =>
    have hmem : frameId ∈ pool.freeList := by rw [hfree]; exact List.mem_cons_self
    -- a free frame is not in the replacer, so taking it changes no flag
    refine .inr ⟨frameId, pool.replacer, ⟨h.free_isFrame frameId hmem,
      h.free_unpinned frameId hmem, fun _ hfirst => by simp_all, h.booked, ?_⟩, ?_⟩
    · have hnone := h.flag_free frameId fun hin => hin.2 hmem
      rw [← hnone, update_eq_self]
    · simp [BufferPool.takeFrame, hfree]
  | nil =>
    rcases h.booked.evict hk with ⟨hevict, hnone⟩ |
      ⟨frameId, replacer, hevict, hflag, hbooked, hflags⟩
    · refine .inl ⟨?_, h.allPinned hfree hnone⟩
      rw [takeFrame_of_nil hfree, hevict]
    · obtain ⟨hin, hunpinned⟩ := h.isFrame_of_flag hflag
      refine .inr ⟨frameId, replacer, ⟨hin.1, hunpinned, fun _ hfirst => by simp_all,
        hbooked, hflags⟩, ?_⟩
      rw [takeFrame_of_nil hfree, hevict, List.erase_nil, ← hfree]

theorem writeBack_eq (pool : BufferPool PageMap) (frameId : FrameId) :
    pool.writeBack frameId = { pool with
      pages := update pool.pages frameId { pool.pages frameId with isDirty := false }
      disk := pool.writtenBack frameId } := by
  unfold BufferPool.writeBack BufferPool.writtenBack
  by_cases hdirty : (pool.pages frameId).isDirty = true
  · simp only [if_pos hdirty]
    rfl
  · have hclean : { pool.pages frameId with isDirty := false } = pool.pages frameId := by
      rw [← Bool.not_eq_true _ |>.mp hdirty]
    simp [if_neg hdirty, hclean]

theorem recordPin (pool : BufferPool PageMap) (hbooked : Booked pool.poolSize k pool.replacer)
    (hk : 1 ≤ k) (hframe : pool.IsFrame frameId) :
    ∃ replacer, pool.recordPin frameId = .ok { pool with replacer := replacer } ∧
      Booked pool.poolSize k replacer ∧
      replacer.evictableFlag =
        update pool.replacer.evictableFlag frameId (some false) := by
  obtain ⟨middle, hrecord, hmiddle, hflags⟩ := hbooked.recordAccess hk hframe
  obtain ⟨hnext, hflags'⟩ := hmiddle.setEvictable frameId false
  refine ⟨_, ?_, hnext, ?_⟩
  · simp [BufferPool.recordPin, hrecord]
  · rw [hflags', hflags]
    simp

/-! ## A page in a taken frame -/

theorem taken_install {replacer : LRUKReplacer} (h : Taken k pool frameId none replacer)
    (hk : 1 ≤ k) (pageId : PageId) (data : PageData) (nextPageId : PageId) :
    ∃ next, Taken k pool frameId (some false) next ∧
      (BufferPool.writeBack { pool with
        freeList := pool.freeList.erase frameId
        replacer := replacer
        nextPageId := nextPageId } frameId).installPage frameId pageId data =
        .ok (pool.occupy frameId pageId data nextPageId next) := by
  have hinstall : (BufferPool.writeBack { pool with
      freeList := pool.freeList.erase frameId
      replacer := replacer
      nextPageId := nextPageId } frameId).installPage frameId pageId data =
      (pool.occupy frameId pageId data nextPageId replacer).recordPin frameId := by
    rw [writeBack_eq]
    simp only [BufferPool.installPage, PageTable.insert, PageTable.remove, BufferPool.setFrame,
      update_self, update_idem]
    rfl
  obtain ⟨next, hpin, hbooked, hflags⟩ :=
    recordPin (pool.occupy frameId pageId data nextPageId replacer) h.booked hk h.isFrame
  refine ⟨next, ⟨h.isFrame, h.unpinned, h.front, hbooked, ?_⟩, hinstall.trans hpin⟩
  rw [hflags]
  -- whether the frame was free or evicted, it is tracked now, and not evictable
  show update replacer.evictableFlag frameId (some false) = _
  rw [h.flags, update_idem]

/-! ## The operations -/

variable (h : PoolInv k pool)
include h

/-- **`NewPage`** fails when every frame is pinned, and otherwise puts the next page
in a frame. -/
theorem newPg (hk : 1 ≤ k) :
    pool.newPg = .ok (none, pool) ∧ pool.AllPinned ∨
      ∃ frameId replacer, Taken k pool frameId (some false) replacer ∧
        pool.newPg = .ok (some (pool.nextPageId, frameId),
          pool.occupy frameId pool.nextPageId zeroData (pool.nextPageId + 1) replacer) := by
  unfold BufferPool.newPg
  rcases h.takeFrame hk with ⟨htake, hpinned⟩ | ⟨frameId, replacer, htaken, htake⟩
  · rw [htake]
    exact .inl ⟨rfl, hpinned⟩
  · obtain ⟨next, hnext, hinstall⟩ :=
      taken_install htaken hk pool.nextPageId zeroData (pool.nextPageId + 1)
    refine .inr ⟨frameId, next, hnext, ?_⟩
    rw [htake]
    simp only [bind, Except.bind, BufferPool.allocatePage, hinstall]
    rfl

/-- **`FetchPage`** of a page that is not resident reads it into a frame. -/
theorem fetchPg_miss (hk : 1 ≤ k) (hmiss : pool.pageTable pageId = none) :
    pool.fetchPg pageId = .ok (none, pool) ∧ pool.AllPinned ∨
      ∃ frameId replacer, Taken k pool frameId (some false) replacer ∧
        pool.fetchPg pageId = .ok (some frameId,
          pool.occupy frameId pageId (pool.writtenBack frameId pageId) pool.nextPageId
            replacer) := by
  unfold BufferPool.fetchPg
  simp only [PageTable.find, hmiss]
  rcases h.takeFrame hk with ⟨htake, hpinned⟩ | ⟨frameId, replacer, htaken, htake⟩
  · rw [htake]
    exact .inl ⟨rfl, hpinned⟩
  · obtain ⟨next, hnext, hinstall⟩ :=
      taken_install htaken hk pageId (pool.writtenBack frameId pageId) pool.nextPageId
    refine .inr ⟨frameId, next, hnext, ?_⟩
    rw [htake]
    have hdisk : (BufferPool.writeBack { pool with
        freeList := pool.freeList.erase frameId
        replacer := replacer } frameId).disk = pool.writtenBack frameId := by
      rw [writeBack_eq]
      rfl
    simp only [bind, Except.bind, hdisk, Disk.readPage, hinstall]
    rfl

/-- **`FetchPage`** of a resident page adds a pin. -/
theorem fetchPg_hit (hk : 1 ≤ k)
    (hhit : pool.pageTable pageId = some frameId) :
    ∃ replacer, Booked pool.poolSize k replacer ∧
      replacer.evictableFlag =
        update pool.replacer.evictableFlag frameId (some false) ∧
      pool.fetchPg pageId = .ok (some frameId, { pool with
        pages := update pool.pages frameId
          { pool.pages frameId with pinCount := (pool.pages frameId).pinCount + 1 }
        replacer := replacer }) := by
  obtain ⟨replacer, hpin, hbooked, hflags⟩ :=
    recordPin pool h.booked hk (h.inUse_of_find hhit).1
  refine ⟨replacer, hbooked, hflags, ?_⟩
  unfold BufferPool.fetchPg
  simp only [PageTable.find, hhit, hpin, bind, Except.bind]
  rfl

/-- **`UnpinPage`** ends a pin of a resident page, if it has one. -/
theorem unpinPg (pageId : PageId) (isDirty : Bool) :
    pool.unpinPg pageId isDirty = (false, pool) ∧
        (∀ frameId, pool.pageTable pageId = some frameId → (pool.pages frameId).pinCount = 0) ∨
      ∃ frameId replacer, pool.pageTable pageId = some frameId ∧
        0 < (pool.pages frameId).pinCount ∧ Booked pool.poolSize k replacer ∧
        replacer.evictableFlag = update pool.replacer.evictableFlag frameId
          (some (decide ((pool.pages frameId).pinCount - 1 = 0))) ∧
        pool.unpinPg pageId isDirty = (true, { pool with
          pages := update pool.pages frameId
            { pool.pages frameId with
              pinCount := (pool.pages frameId).pinCount - 1
              isDirty := (pool.pages frameId).isDirty || isDirty }
          replacer := replacer }) := by
  unfold BufferPool.unpinPg
  by_cases hinvalid : pageId = invalidPageId
  · subst hinvalid
    exact .inl ⟨by simp, by simp [h.find_invalid]⟩
  rw [if_neg hinvalid]
  cases hfind : pool.pageTable pageId with
  | none => exact .inl ⟨by simp [PageTable.find, hfind], by simp⟩
  | some frameId =>
    have hflag := h.flag_inUse frameId (h.inUse_of_find hfind)
    by_cases hzero : (pool.pages frameId).pinCount = 0
    · refine .inl ⟨by simp [PageTable.find, hfind, hzero], ?_⟩
      rintro _ ⟨⟩
      exact hzero
    refine .inr ⟨frameId, if (pool.pages frameId).pinCount - 1 = 0 then
      pool.replacer.setEvictable frameId true else pool.replacer, rfl,
      Nat.pos_of_ne_zero hzero, ?_, ?_, ?_⟩
    · split
      · exact (h.booked.setEvictable frameId true).1
      · exact h.booked
    · split
      · rename_i hlast
        rw [(h.booked.setEvictable frameId true).2, hflag, decide_eq_true hlast]
        rfl
      · rename_i hlast
        -- the frame stays pinned, and its flag was already `false`
        rw [decide_eq_false hlast]
        rw [decide_eq_false hzero] at hflag
        rw [← hflag, update_eq_self]
    · simp only [PageTable.find, hfind, if_neg hzero]
      rfl

/-- **`FlushPage`** writes a resident page to the disk. -/
theorem flushPg (pageId : PageId) :
    pool.flushPg pageId = (false, pool) ∧ pool.pageTable pageId = none ∨
      ∃ next, FlushStep pool next ∧ pool.flushPg pageId = (true, next) := by
  unfold BufferPool.flushPg
  by_cases hinvalid : pageId = invalidPageId
  · subst hinvalid
    exact .inl ⟨by simp, h.find_invalid⟩
  rw [if_neg hinvalid]
  cases hfind : pool.pageTable pageId with
  | none => exact .inl ⟨by simp [PageTable.find, hfind], rfl⟩
  | some frameId =>
    refine .inr ⟨_, ⟨pageId, frameId, hfind, rfl⟩, ?_⟩
    simp only [PageTable.find, hfind]
    rfl

theorem flushStep {next : BufferPool PageMap} (hflush : FlushStep pool next) :
    PoolInv k next := by
  obtain ⟨pageId, frameId, _, rfl⟩ := hflush
  exact h.congr _ fun other =>
    ⟨read_update_page Page.pageId (by rfl) other, read_update_page Page.pinCount (by rfl) other⟩

/-- **`FlushAllPages`** is a sequence of flushes of resident pages: a frame whose page
id is stale or invalid is passed over. -/
theorem flushAllPgs :
    Relation.ReflTransGen FlushStep pool pool.flushAllPgs := by
  unfold BufferPool.flushAllPgs
  induction List.range pool.poolSize generalizing pool with
  | nil => exact .refl
  | cons i rest ih =>
    rw [List.foldl_cons]
    rcases h.flushPg (pool.pages i).pageId with ⟨hflush, _⟩ | ⟨next, hstep, hflush⟩
    · rw [hflush]
      exact ih h
    · rw [hflush]
      exact .head hstep (ih (h.flushStep hstep))

/-- **`DeletePage`** frees the frame of a resident page without pins. -/
theorem deletePg (hk : 1 ≤ k) (pageId : PageId) :
    pool.deletePg pageId = .ok (true, pool) ∧ pool.pageTable pageId = none ∨
      (∃ frameId, pool.pageTable pageId = some frameId ∧ 0 < (pool.pages frameId).pinCount ∧
        pool.deletePg pageId = .ok (false, pool)) ∨
      ∃ frameId replacer, pool.pageTable pageId = some frameId ∧
        (pool.pages frameId).pinCount = 0 ∧ Booked pool.poolSize k replacer ∧
        replacer.evictableFlag = update pool.replacer.evictableFlag frameId none ∧
        pool.deletePg pageId = .ok (true, { pool with
          pages := update pool.pages frameId (pool.pages frameId).resetMemory
          replacer := replacer
          pageTable := update pool.pageTable pageId none
          freeList := pool.freeList ++ [frameId] }) := by
  unfold BufferPool.deletePg
  by_cases hinvalid : pageId = invalidPageId
  · subst hinvalid
    exact .inl ⟨by simp, h.find_invalid⟩
  rw [if_neg hinvalid]
  cases hfind : pool.pageTable pageId with
  | none => exact .inl ⟨by simp [PageTable.find, hfind], rfl⟩
  | some frameId =>
    by_cases hpin : 0 < (pool.pages frameId).pinCount
    · exact .inr (.inl ⟨frameId, rfl, hpin, by simp [PageTable.find, hfind, hpin]⟩)
    · have hzero : (pool.pages frameId).pinCount = 0 := Nat.eq_zero_of_not_pos hpin
      have hflag := h.flag_inUse frameId (h.inUse_of_find hfind)
      rw [hzero] at hflag
      obtain ⟨replacer, hremove, hbooked, hflags⟩ := h.booked.remove hk hflag
      refine .inr (.inr ⟨frameId, replacer, rfl, hzero, hbooked, hflags, ?_⟩)
      simp only [PageTable.find, hfind, gt_iff_lt, if_neg hpin, hremove]
      rfl

omit h

end PoolInv

/-! ## The transitions of the pool -/

/-- Every transition of a pool in the invariant, with the answer of the call. -/
inductive PoolStep (k : ℕ) (pool : BufferPool PageMap) :
    PoolCall → PoolAnswer → BufferPool PageMap → Prop
  | newFails (hpinned : pool.AllPinned) : PoolStep k pool .newPage (.created none) pool
  | new {frameId : FrameId} {replacer : LRUKReplacer}
      (htaken : Taken k pool frameId (some false) replacer) :
      PoolStep k pool .newPage (.created (some (pool.nextPageId, frameId)))
        (pool.occupy frameId pool.nextPageId zeroData (pool.nextPageId + 1) replacer)
  | fetchFails {pageId : PageId} (hmiss : pool.pageTable pageId = none)
      (hpinned : pool.AllPinned) : PoolStep k pool (.fetchPage pageId) (.fetched none) pool
  | fetchMiss {pageId : PageId} {frameId : FrameId} {replacer : LRUKReplacer}
      (hmiss : pool.pageTable pageId = none)
      (htaken : Taken k pool frameId (some false) replacer) :
      PoolStep k pool (.fetchPage pageId) (.fetched (some frameId))
        (pool.occupy frameId pageId (pool.writtenBack frameId pageId) pool.nextPageId replacer)
  | fetchHit {pageId : PageId} {frameId : FrameId} {replacer : LRUKReplacer}
      (hhit : pool.pageTable pageId = some frameId) (hbooked : Booked pool.poolSize k replacer)
      (hflags : replacer.evictableFlag =
        Function.update pool.replacer.evictableFlag frameId (some false)) :
      PoolStep k pool (.fetchPage pageId) (.fetched (some frameId)) { pool with
        pages := Function.update pool.pages frameId
          { pool.pages frameId with pinCount := (pool.pages frameId).pinCount + 1 }
        replacer := replacer }
  | unpinFails {pageId : PageId} {isDirty : Bool}
      (hnone : ∀ frameId, pool.pageTable pageId = some frameId →
        (pool.pages frameId).pinCount = 0) :
      PoolStep k pool (.unpinPage pageId isDirty) (.returned false) pool
  | unpin {pageId : PageId} {isDirty : Bool} {frameId : FrameId} {replacer : LRUKReplacer}
      (hfind : pool.pageTable pageId = some frameId) (hpin : 0 < (pool.pages frameId).pinCount)
      (hbooked : Booked pool.poolSize k replacer)
      (hflags : replacer.evictableFlag = Function.update pool.replacer.evictableFlag frameId
        (some (decide ((pool.pages frameId).pinCount - 1 = 0)))) :
      PoolStep k pool (.unpinPage pageId isDirty) (.returned true) { pool with
        pages := Function.update pool.pages frameId
          { pool.pages frameId with
            pinCount := (pool.pages frameId).pinCount - 1
            isDirty := (pool.pages frameId).isDirty || isDirty }
        replacer := replacer }
  | flushFails {pageId : PageId} (hmiss : pool.pageTable pageId = none) :
      PoolStep k pool (.flushPage pageId) (.returned false) pool
  | flush {pageId : PageId} {next : BufferPool PageMap} (hflush : FlushStep pool next) :
      PoolStep k pool (.flushPage pageId) (.returned true) next
  | flushAll {next : BufferPool PageMap} (hflushes : Relation.ReflTransGen FlushStep pool next) :
      PoolStep k pool .flushAllPages .done next
  | deleteMiss {pageId : PageId} (hmiss : pool.pageTable pageId = none) :
      PoolStep k pool (.deletePage pageId) (.returned true) pool
  | deleteFails {pageId : PageId} {frameId : FrameId}
      (hfind : pool.pageTable pageId = some frameId) (hpin : 0 < (pool.pages frameId).pinCount) :
      PoolStep k pool (.deletePage pageId) (.returned false) pool
  | delete {pageId : PageId} {frameId : FrameId} {replacer : LRUKReplacer}
      (hfind : pool.pageTable pageId = some frameId)
      (hunpinned : (pool.pages frameId).pinCount = 0)
      (hbooked : Booked pool.poolSize k replacer)
      (hflags : replacer.evictableFlag =
        Function.update pool.replacer.evictableFlag frameId none) :
      PoolStep k pool (.deletePage pageId) (.returned true) { pool with
        pages := Function.update pool.pages frameId (pool.pages frameId).resetMemory
        replacer := replacer
        pageTable := Function.update pool.pageTable pageId none
        freeList := pool.freeList ++ [frameId] }
  | store {frameId : FrameId} {data : PageData} :
      PoolStep k pool (.store frameId data) .done (pool.store frameId data)

/-- **Every call returns**, by one of the transitions. -/
theorem PoolInv.exists_step {k : ℕ} {pool : BufferPool PageMap} (h : PoolInv k pool)
    (hk : 1 ≤ k) (call : PoolCall) :
    ∃ answer next, (poolMachine PageMap).step pool call = .ok (answer, next) ∧
      PoolStep k pool call answer next := by
  cases call with
  | newPage =>
    simp only [poolMachine]
    rcases h.newPg hk with ⟨hnew, hpinned⟩ | ⟨frameId, replacer, htaken, hnew⟩ <;> rw [hnew]
    · exact ⟨_, _, rfl, .newFails hpinned⟩
    · exact ⟨_, _, rfl, .new htaken⟩
  | fetchPage pageId =>
    simp only [poolMachine]
    cases hfind : pool.pageTable pageId with
    | none =>
      rcases h.fetchPg_miss hk hfind with ⟨hfetch, hpinned⟩ |
        ⟨frameId, replacer, htaken, hfetch⟩ <;> rw [hfetch]
      · exact ⟨_, _, rfl, .fetchFails hfind hpinned⟩
      · exact ⟨_, _, rfl, .fetchMiss hfind htaken⟩
    | some frameId =>
      obtain ⟨replacer, hbooked, hflags, hfetch⟩ := h.fetchPg_hit hk hfind
      rw [hfetch]
      exact ⟨_, _, rfl, .fetchHit hfind hbooked hflags⟩
  | unpinPage pageId isDirty =>
    simp only [poolMachine]
    rcases h.unpinPg pageId isDirty with ⟨hunpin, hnone⟩ |
      ⟨frameId, replacer, hfind, hpin, hbooked, hflags, hunpin⟩ <;> rw [hunpin]
    · exact ⟨_, _, rfl, .unpinFails hnone⟩
    · exact ⟨_, _, rfl, .unpin hfind hpin hbooked hflags⟩
  | flushPage pageId =>
    simp only [poolMachine]
    rcases h.flushPg pageId with ⟨hflush, hmiss⟩ | ⟨next, hstep, hflush⟩ <;> rw [hflush]
    · exact ⟨_, _, rfl, .flushFails hmiss⟩
    · exact ⟨_, _, rfl, .flush hstep⟩
  | flushAllPages => exact ⟨_, _, rfl, .flushAll h.flushAllPgs⟩
  | deletePage pageId =>
    simp only [poolMachine]
    rcases h.deletePg hk pageId with ⟨hdelete, hmiss⟩ | ⟨frameId, hfind, hpin, hdelete⟩ |
      ⟨frameId, replacer, hfind, hunpinned, hbooked, hflags, hdelete⟩ <;> rw [hdelete]
    · exact ⟨_, _, rfl, .deleteMiss hmiss⟩
    · exact ⟨_, _, rfl, .deleteFails hfind hpin⟩
    · exact ⟨_, _, rfl, .delete hfind hunpinned hbooked hflags⟩
  | store frameId data => exact ⟨_, _, rfl, .store⟩

end BusTub
