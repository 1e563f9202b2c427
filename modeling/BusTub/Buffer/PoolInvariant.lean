import BusTub.Buffer.PoolOperations

/-!
# The consistency of the pool

`DeletePage` resets the data of the frame it frees but not its page id.  When the
frame is taken again, the pool removes that stale id from the page table.  This does
no harm unless the deleted page has been fetched again into another frame meanwhile.
So the structures of the pool agree in every state of a run exactly as long as no
call takes a free frame whose stale page is resident.
-/

namespace BusTub

open Function Machines

/-! ## The invariant after an operation -/

namespace PoolInv

variable {k : ℕ} {pool : BufferPool PageMap} {pageId : PageId} {frameId : FrameId}
  {replacer : LRUKReplacer}

theorem find_old_of_taken (h : PoolInv k pool) {flag : Option Bool}
    (htaken : Taken k pool frameId flag replacer)
    (hfresh : ∀ first, pool.freeList.head? = some first →
      pool.pageTable (pool.pages first).pageId = none) {other : FrameId}
    (hfind : pool.pageTable (pool.pages frameId).pageId = some other) : other = frameId := by
  -- a free frame is the front of the list, whose id is not resident; a frame in use is
  -- the one its page is mapped to
  by_cases hfree : frameId ∈ pool.freeList
  · cases hlist : pool.freeList with
    | nil => simp [hlist] at hfree
    | cons first rest =>
      have hfirst : pool.freeList.head? = some first := by rw [hlist]; rfl
      have hnone := hfresh first hfirst
      rw [htaken.front first hfirst, hfind] at hnone
      simp at hnone
  · have hmapped := h.find_pageId ⟨htaken.isFrame, hfree⟩
    rw [hfind, Option.some.injEq] at hmapped
    exact hmapped

theorem occupy_inUse (h : PoolInv k pool) (hframe : pool.IsFrame frameId) (data : PageData)
    (nextPageId : PageId) (other : FrameId) :
    (pool.occupy frameId pageId data nextPageId replacer).InUse other ↔
      other = frameId ∨ pool.InUse other := by
  show pool.IsFrame other ∧ other ∉ pool.freeList.erase frameId ↔ _
  rw [h.free_nodup.mem_erase_iff]
  by_cases heq : other = frameId
  · simp [heq, hframe]
  · simp [heq, BufferPool.InUse]

theorem occupy_pageTable_iff (h : PoolInv k pool) {flag : Option Bool}
    (htaken : Taken k pool frameId flag replacer)
    (hfresh : ∀ first, pool.freeList.head? = some first →
      pool.pageTable (pool.pages first).pageId = none)
    (hmiss : pool.pageTable pageId = none) (data : PageData) (nextPageId query : PageId)
    (other : FrameId) :
    (pool.occupy frameId pageId data nextPageId replacer).pageTable query = some other ↔
      (pool.occupy frameId pageId data nextPageId replacer).InUse other ∧
        ((pool.occupy frameId pageId data nextPageId replacer).pages other).pageId = query := by
  rw [h.occupy_inUse htaken.isFrame]
  show update (update pool.pageTable (pool.pages frameId).pageId none) pageId
      (some frameId) query = some other ↔
    _ ∧ (update pool.pages frameId ⟨data, pageId, 1, false⟩ other).pageId = query
  have hold := h.pageTable_iff query other
  by_cases hother : other = frameId
  · subst hother
    -- the frame is mapped from its new page and, by the removal, from no other
    simp only [update_self, true_or, true_and, update_apply]
    split_ifs with hquery holdpage
    · simp [hquery]
    · simp [Ne.symm hquery]
    · refine ⟨fun hfind => absurd (h.pageId_of_find hfind).symm holdpage, fun heq => ?_⟩
      exact absurd heq.symm hquery
  · simp only [update_of_ne hother, hother, false_or, update_apply]
    split_ifs with hquery holdpage
    · subst hquery
      rw [hmiss] at hold
      simpa [Ne.symm hother] using hold
    · subst holdpage
      refine ⟨fun hfind => by simp at hfind, fun hin => ?_⟩
      exact absurd (h.find_old_of_taken htaken hfresh (hold.mpr hin)) hother
    · exact hold

theorem occupy (h : PoolInv k pool) (htaken : Taken k pool frameId (some false) replacer)
    (hfresh : ∀ first, pool.freeList.head? = some first →
      pool.pageTable (pool.pages first).pageId = none)
    (hmiss : pool.pageTable pageId = none) (data : PageData) {nextPageId : PageId}
    (hissued : pageId ∈ Set.Ico 0 nextPageId) (hnext : pool.nextPageId ≤ nextPageId) :
    PoolInv k (pool.occupy frameId pageId data nextPageId replacer) := by
  have hinUse : ∀ other, (pool.occupy frameId pageId data nextPageId replacer).InUse other ↔
      other = frameId ∨ pool.InUse other := h.occupy_inUse htaken.isFrame data nextPageId
  have hpages : ∀ other, other ≠ frameId →
      (pool.occupy frameId pageId data nextPageId replacer).pages other = pool.pages other :=
    fun other hne => update_of_ne hne _ _
  have hself : (pool.occupy frameId pageId data nextPageId replacer).pages frameId =
      ⟨data, pageId, 1, false⟩ := update_self _ _ _
  constructor
  · exact htaken.booked
  · exact h.free_nodup.erase frameId
  · exact fun other hfree => h.free_isFrame other (List.mem_of_mem_erase hfree)
  · intro other hfree
    have hmem := h.free_nodup.mem_erase_iff.mp hfree
    rw [hpages other hmem.1]
    exact h.free_unpinned other hmem.2
  · exact h.occupy_pageTable_iff htaken hfresh hmiss data nextPageId
  -- the taken frame has the flag of a pinned one, and the others keep theirs
  · intro other hin
    show replacer.evictableFlag other = _
    rw [htaken.flags]
    by_cases heq : other = frameId
    · rw [heq, hself, update_self]
      rfl
    · rw [hpages other heq, update_of_ne heq]
      exact h.flag_inUse other (((hinUse other).mp hin).resolve_left heq)
  · intro other hnot
    show replacer.evictableFlag other = _
    rw [hinUse, not_or] at hnot
    rw [htaken.flags, update_of_ne hnot.1]
    exact h.flag_free other hnot.2
  · exact h.next_nonneg.trans hnext
  · intro query other hfind
    by_cases hquery : query = pageId
    · rwa [hquery]
    · have hfind : update (update pool.pageTable
          (pool.pages frameId).pageId none) pageId (some frameId) query = some other := hfind
      rw [update_of_ne hquery, update_apply] at hfind
      split_ifs at hfind
      exact Set.Ico_subset_Ico_right hnext (h.resident_issued query other hfind)

theorem repin (h : PoolInv k pool) (hin : pool.InUse frameId) {page : Page}
    (hpage : page.pageId = (pool.pages frameId).pageId)
    (hbooked : Booked pool.poolSize k replacer)
    (hflags : replacer.evictableFlag = update pool.replacer.evictableFlag frameId
      (some (decide (page.pinCount = 0)))) :
    PoolInv k { pool with
      pages := update pool.pages frameId page
      replacer := replacer } := by
  have hpages : ∀ other, other ≠ frameId →
      update pool.pages frameId page other = pool.pages other :=
    fun other hne => update_of_ne hne _ _
  constructor
  · exact hbooked
  · exact h.free_nodup
  · exact h.free_isFrame
  · intro other hfree
    show (update pool.pages frameId page other).pinCount = 0
    rw [hpages other fun heq => hin.2 (heq ▸ hfree)]
    exact h.free_unpinned other hfree
  · intro query other
    show _ ↔ _ ∧ (update pool.pages frameId page other).pageId = query
    rw [h.pageTable_iff]
    by_cases heq : other = frameId
    · rw [heq, update_self, hpage]
      rfl
    · rw [hpages other heq]
      rfl
  · intro other hother
    show replacer.evictableFlag other =
      some (decide ((update pool.pages frameId page other).pinCount = 0))
    rw [hflags]
    by_cases heq : other = frameId
    · rw [heq, update_self, update_self]
    · rw [hpages other heq, update_of_ne heq]
      exact h.flag_inUse other hother
  · intro other hnot
    have hne : other ≠ frameId := by
      rintro rfl
      exact hnot hin
    rw [hflags, update_of_ne hne]
    exact h.flag_free other hnot
  · exact h.next_nonneg
  · exact h.resident_issued

theorem release (h : PoolInv k pool) (hfind : pool.pageTable pageId = some frameId)
    (hunpinned : (pool.pages frameId).pinCount = 0) (hbooked : Booked pool.poolSize k replacer)
    (hflags : replacer.evictableFlag =
      update pool.replacer.evictableFlag frameId none) :
    PoolInv k { pool with
      pages := update pool.pages frameId (pool.pages frameId).resetMemory
      replacer := replacer
      pageTable := update pool.pageTable pageId none
      freeList := pool.freeList ++ [frameId] } := by
  have hin := h.inUse_of_find hfind
  have hpageId : ∀ other,
      (update pool.pages frameId (pool.pages frameId).resetMemory other).pageId =
        (pool.pages other).pageId :=
    read_update_page Page.pageId (Page.resetMemory_pageId _)
  have hpinCount : ∀ other,
      (update pool.pages frameId (pool.pages frameId).resetMemory other).pinCount =
        (pool.pages other).pinCount :=
    read_update_page Page.pinCount (Page.resetMemory_pinCount _)
  have hinUse : ∀ other, (pool.IsFrame other ∧ other ∉ pool.freeList ++ [frameId]) ↔
      pool.InUse other ∧ other ≠ frameId := by
    intro other
    simp only [BufferPool.InUse, List.mem_append, List.mem_singleton, not_or, and_assoc]
  constructor
  · exact hbooked
  · exact h.free_nodup.append (List.nodup_singleton frameId) (by simpa using hin.2)
  · intro other hfree
    rcases List.mem_append.mp hfree with hfree | hfree
    · exact h.free_isFrame other hfree
    · exact List.mem_singleton.mp hfree ▸ hin.1
  · intro other hfree
    refine (hpinCount other).trans ?_
    rcases List.mem_append.mp hfree with hfree | hfree
    · exact h.free_unpinned other hfree
    · exact List.mem_singleton.mp hfree ▸ hunpinned
  -- the page that goes is the only one in its frame
  · intro query other
    refine Iff.trans ?_ (and_congr (hinUse other).symm (by rw [hpageId]))
    show update pool.pageTable pageId none query = some other ↔ _
    have hold := h.pageTable_iff query other
    by_cases hquery : query = pageId
    · subst hquery
      refine ⟨fun hsome => by simp at hsome, fun hin' => ?_⟩
      have hother := hold.mpr ⟨hin'.1.1, hin'.2⟩
      rw [hfind, Option.some.injEq] at hother
      exact absurd hother.symm hin'.1.2
    · rw [update_of_ne hquery, hold]
      refine ⟨fun hin' => ⟨⟨hin'.1, ?_⟩, hin'.2⟩, fun hin' => ⟨hin'.1.1, hin'.2⟩⟩
      rintro rfl
      exact hquery (hin'.2.symm.trans (h.pageId_of_find hfind))
  · intro other hother
    have hother := (hinUse other).mp hother
    rw [hflags, update_of_ne hother.2, h.flag_inUse other hother.1]
    exact congrArg (fun count => some (decide (count = 0))) (hpinCount other).symm
  · intro other hnot
    rw [hflags, update_apply]
    split_ifs with heq
    · rfl
    · exact h.flag_free other fun hin' => hnot ((hinUse other).mpr ⟨hin', heq⟩)
  · exact h.next_nonneg
  · intro query other hfind'
    have hfind' : update pool.pageTable pageId none query = some other := hfind'
    rw [update_apply] at hfind'
    split_ifs at hfind'
    exact h.resident_issued query other hfind'

theorem store (h : PoolInv k pool) (frameId : FrameId) (data : PageData) :
    PoolInv k (pool.store frameId data) :=
  h.congr pool.disk fun other =>
    ⟨read_update_page Page.pageId (by rfl) other, read_update_page Page.pinCount (by rfl) other⟩

end PoolInv

/-! ## Consistency over a run -/

/-- What an observer of the pool knows: the page ids that `NewPage` returned, those
that `DeletePage` deleted, and for each page the pins not yet given back. -/
structure PoolLog where
  issued : List PageId := []
  deleted : List PageId := []
  outstanding : PageId → ℕ := fun _ => 0

def PoolLog.after (log : PoolLog) : PoolCall → PoolAnswer → PoolLog
  | .newPage, .created (some (pageId, _)) =>
    { log with
      issued := pageId :: log.issued
      outstanding := Function.update log.outstanding pageId (log.outstanding pageId + 1) }
  | .fetchPage pageId, .fetched (some _) =>
    { log with
      outstanding := Function.update log.outstanding pageId (log.outstanding pageId + 1) }
  | .unpinPage pageId _, .returned true =>
    { log with
      outstanding := Function.update log.outstanding pageId (log.outstanding pageId - 1) }
  | .deletePage pageId, .returned true => { log with deleted := pageId :: log.deleted }
  | _, _ => log

/-- The call names only pages that `NewPage` returned before. -/
def PoolCall.Addresses (log : PoolLog) : PoolCall → Prop
  | .fetchPage pageId => pageId ∈ log.issued
  | .unpinPage pageId _ => pageId ∈ log.issued
  | .flushPage pageId => pageId ∈ log.issued
  | .deletePage pageId => pageId ∈ log.issued
  | _ => True

/-- The page id left on the front free frame is not that of a resident page. -/
def BufferPool.FrontFresh (pool : BufferPool PageMap) : Prop :=
  ∀ frameId, pool.freeList.head? = some frameId →
    pool.pageTable (pool.pages frameId).pageId = none

theorem BufferPool.exists_of_not_frontFresh {pool : BufferPool PageMap}
    (hstale : ¬ pool.FrontFresh) :
    ∃ first other, pool.freeList.head? = some first ∧
      pool.pageTable (pool.pages first).pageId = some other := by
  unfold BufferPool.FrontFresh at hstale
  push Not at hstale
  obtain ⟨first, hfirst, hresident⟩ := hstale
  obtain ⟨other, hother⟩ := Option.ne_none_iff_exists'.mp hresident
  exact ⟨first, other, hfirst, hother⟩

/-- A call that needs a frame finds no stale id of a resident page on the free frame
it takes. -/
def PoolCall.TakesFresh (pool : BufferPool PageMap) : PoolCall → Prop
  | .newPage => pool.FrontFresh
  | .fetchPage pageId => pool.pageTable pageId = none → pool.FrontFresh
  | _ => True

/-- The free list, the page table, the frames and the replacer agree. -/
structure PoolConsistent (pool : BufferPool PageMap) : Prop where
  /-- Every frame is either free or in the image of the page table. -/
  free_or_mapped : ∀ frameId, pool.IsFrame frameId →
    Xor (frameId ∈ pool.freeList) (∃ pageId, pool.pageTable pageId = some frameId)
  mapped_iff : ∀ pageId frameId, pool.pageTable pageId = some frameId ↔
    pool.InUse frameId ∧ (pool.pages frameId).pageId = pageId
  /-- No page is held by two frames. -/
  page_unique : ∀ first second, pool.InUse first → pool.InUse second →
    (pool.pages first).pageId = (pool.pages second).pageId → first = second
  tracked_iff : ∀ frameId, pool.replacer.Tracked frameId ↔ pool.InUse frameId
  evictable_iff : ∀ frameId, pool.InUse frameId →
    (pool.replacer.evictableFlag frameId = some true ↔ (pool.pages frameId).pinCount = 0)

namespace PoolInv

variable {k : ℕ} {pool : BufferPool PageMap} {pageId : PageId} {frameId : FrameId}
  {replacer : LRUKReplacer}

theorem consistent (h : PoolInv k pool) : PoolConsistent pool where
  free_or_mapped := by
    intro frameId hframe
    by_cases hfree : frameId ∈ pool.freeList
    · refine .inl ⟨hfree, ?_⟩
      rintro ⟨pageId, hfind⟩
      exact (h.inUse_of_find hfind).2 hfree
    · exact .inr ⟨⟨_, h.find_pageId ⟨hframe, hfree⟩⟩, hfree⟩
  mapped_iff := h.pageTable_iff
  page_unique := by
    intro first second hfirst hsecond heq
    have hfind := h.find_pageId hfirst
    rw [heq, h.find_pageId hsecond, Option.some.injEq] at hfind
    exact hfind.symm
  tracked_iff := by
    intro frameId
    have htracked : pool.replacer.Tracked frameId ↔
        (pool.replacer.evictableFlag frameId).isSome := by
      simp [LRUKReplacer.Tracked, LRUKReplacer.evictableFlag]
    rw [htracked]
    by_cases hin : pool.InUse frameId
    · simp [h.flag_inUse frameId hin, hin]
    · simp [h.flag_free frameId hin, hin]
  evictable_iff := by
    intro frameId hin
    simp [h.flag_inUse frameId hin]

/-- Putting a page in a frame with the stale id of a resident page: that page stays
in its frame but leaves the page table. -/
theorem not_consistent_occupy (h : PoolInv k pool) {flag : Option Bool}
    (htaken : Taken k pool frameId flag replacer) (hfree : frameId ∈ pool.freeList)
    {other : FrameId} (hstale : pool.pageTable (pool.pages frameId).pageId = some other)
    (hne : (pool.pages frameId).pageId ≠ pageId) (data : PageData) (nextPageId : PageId) :
    ¬ PoolConsistent (pool.occupy frameId pageId data nextPageId replacer) := by
  intro hconsistent
  have hin := h.inUse_of_find hstale
  have hother : other ≠ frameId := by
    rintro rfl
    exact hin.2 hfree
  have hpage : ((pool.occupy frameId pageId data nextPageId replacer).pages other).pageId =
      (pool.pages frameId).pageId := by
    rw [← h.pageId_of_find hstale]
    exact congrArg Page.pageId (update_of_ne hother _ _)
  have hfind := (hconsistent.mapped_iff _ other).mpr
    ⟨(h.occupy_inUse htaken.isFrame data nextPageId other).mpr (.inr hin), hpage⟩
  have hgone : (pool.occupy frameId pageId data nextPageId replacer).pageTable
      (pool.pages frameId).pageId = none := by
    show update (update _ _ _) _ _ _ = _
    rw [update_of_ne hne, update_self]
  rw [hgone] at hfind
  simp at hfind

end PoolInv

namespace PoolStep

variable {k : ℕ} {pool next : BufferPool PageMap} {call : PoolCall} {answer : PoolAnswer}

theorem find_next (h : PoolInv k pool) : pool.pageTable pool.nextPageId = none := by
  cases hfind : pool.pageTable pool.nextPageId with
  | none => rfl
  | some other => exact absurd (h.resident_issued _ _ hfind).2 (lt_irrefl _)

/-- **A transition keeps the structures in agreement**, if it takes no frame with the
stale id of a resident page. -/
theorem inv (hstep : PoolStep k pool call answer next) (h : PoolInv k pool)
    (hissued : ∀ pageId, call = .fetchPage pageId → pageId ∈ Set.Ico 0 pool.nextPageId)
    (hfresh : call.TakesFresh pool) : PoolInv k next := by
  cases hstep with
  | newFails | fetchFails | unpinFails | flushFails | deleteMiss | deleteFails => exact h
  | new htaken =>
    exact h.occupy htaken hfresh (find_next h) zeroData ⟨h.next_nonneg, Int.lt_succ _⟩
      (Int.le_add_one le_rfl)
  | fetchMiss hmiss htaken =>
    exact h.occupy htaken (hfresh hmiss) hmiss _ (hissued _ rfl) le_rfl
  | fetchHit hhit hbooked hflags => exact h.repin (h.inUse_of_find hhit) rfl hbooked hflags
  | unpin hfind _ hbooked hflags => exact h.repin (h.inUse_of_find hfind) rfl hbooked hflags
  | flush hflush => exact h.flushStep hflush
  | flushAll hflushes =>
    induction hflushes with
    | refl => exact h
    | tail _ hflush ih => exact ih.flushStep hflush
  | delete hfind hunpinned hbooked hflags => exact h.release hfind hunpinned hbooked hflags
  | store => exact h.store _ _

/-- **A transition that takes a frame with the stale id of a resident page** breaks
the agreement. -/
theorem not_consistent (hstep : PoolStep k pool call answer next) (h : PoolInv k pool)
    (hstale : ¬ call.TakesFresh pool) : ¬ PoolConsistent next := by
  have hbreak : ∀ {frameId : FrameId} {replacer : LRUKReplacer} {pageId : PageId},
      ¬ pool.FrontFresh → Taken k pool frameId (some false) replacer →
      pool.pageTable pageId = none → ∀ data nextPageId,
      ¬ PoolConsistent (pool.occupy frameId pageId data nextPageId replacer) := by
    intro frameId replacer pageId hfront htaken hmiss data nextPageId
    obtain ⟨first, other, hfirst, hother⟩ := BufferPool.exists_of_not_frontFresh hfront
    rw [htaken.front first hfirst] at hother hfirst
    refine h.not_consistent_occupy htaken (List.mem_of_head? hfirst) hother ?_ data nextPageId
    rintro rfl
    rw [hmiss] at hother
    simp at hother
  have hpinned : ¬ pool.FrontFresh → ¬ pool.AllPinned := by
    intro hfront hall
    obtain ⟨first, _, hfirst, _⟩ := BufferPool.exists_of_not_frontFresh hfront
    have hmem := List.mem_of_head? hfirst
    exact absurd (h.free_unpinned first hmem) (hall first (h.free_isFrame first hmem)).ne'
  cases hstep with
  | newFails hall => exact absurd hall (hpinned hstale)
  | new htaken => exact hbreak hstale htaken (find_next h) _ _
  | fetchFails hmiss hall => exact absurd hall (hpinned fun hfront => hstale fun _ => hfront)
  | fetchMiss hmiss htaken =>
    exact hbreak (fun hfront => hstale fun _ => hfront) htaken hmiss _ _
  | fetchHit hhit => exact absurd (fun hmiss => by simp [hhit] at hmiss) hstale
  | unpinFails | unpin | flushFails | flush | flushAll | deleteMiss | deleteFails | delete
  | store => exact absurd trivial hstale

theorem issued (hstep : PoolStep k pool call answer next) (h : PoolInv k pool) {log : PoolLog}
    (hissued : ∀ pageId ∈ log.issued, pageId ∈ Set.Ico 0 pool.nextPageId) :
    ∀ pageId ∈ (log.after call answer).issued, pageId ∈ Set.Ico 0 next.nextPageId := by
  cases hstep with
  | new =>
    intro pageId hmem
    rcases List.mem_cons.mp hmem with rfl | hmem
    · exact ⟨h.next_nonneg, Int.lt_succ _⟩
    · exact Set.Ico_subset_Ico_right (Int.le_add_one le_rfl) (hissued pageId hmem)
  | flush hflush =>
    obtain ⟨_, _, _, rfl⟩ := hflush
    exact hissued
  | flushAll hflushes =>
    have hnext : ∀ {last}, Relation.ReflTransGen FlushStep pool last →
        last.nextPageId = pool.nextPageId := by
      intro last hlast
      induction hlast with
      | refl => rfl
      | tail _ hflush ih =>
        obtain ⟨_, _, _, rfl⟩ := hflush
        exact ih
    rw [hnext hflushes]
    exact hissued
  | newFails | fetchFails | fetchMiss | fetchHit | unpinFails | unpin | flushFails | deleteMiss
  | deleteFails | delete | store => exact hissued

end PoolStep

abbrev observedPool : Machine (BufferPool PageMap × PoolLog) PoolCall PoolAnswer PoolFault :=
  (poolMachine PageMap).withGhost PoolLog.after

/-- The structures agree, and only ids below `next_page_id_` were returned. -/
structure Observed (k : ℕ) (state : BufferPool PageMap × PoolLog) : Prop where
  inv : PoolInv k state.1
  issued : ∀ pageId ∈ state.2.issued, pageId ∈ Set.Ico 0 state.1.nextPageId

namespace Observed

variable {k : ℕ} {state : BufferPool PageMap × PoolLog}

theorem create (poolSize : ℕ) {k : ℕ} (hk : 1 ≤ k) : Observed k (.create poolSize k, {}) :=
  ⟨PoolInv.create poolSize hk, by simp⟩

theorem exists_step (h : Observed k state) (hk : 1 ≤ k) (call : PoolCall) :
    ∃ answer next, observedPool.step state call =
        .ok (answer, next, state.2.after call answer) ∧
      PoolStep k state.1 call answer next := by
  obtain ⟨answer, next, hstep, htransition⟩ := h.inv.exists_step hk call
  exact ⟨answer, next, Machine.withGhost_step_of_ok hstep state.2, htransition⟩

theorem fetch_issued (h : Observed k state) {call : PoolCall} (haddresses : call.Addresses state.2)
    (pageId : PageId) (hcall : call = .fetchPage pageId) :
    pageId ∈ Set.Ico 0 state.1.nextPageId := by
  subst hcall
  exact h.issued pageId haddresses

theorem next (h : Observed k state) {call : PoolCall} {answer : PoolAnswer}
    {pool : BufferPool PageMap} (hstep : PoolStep k state.1 call answer pool)
    (haddresses : call.Addresses state.2) (hfresh : call.TakesFresh state.1) :
    Observed k (pool, state.2.after call answer) :=
  ⟨hstep.inv h.inv (h.fetch_issued haddresses) hfresh, hstep.issued h.inv h.issued⟩

end Observed

end BusTub
