import BusTub.Buffer.PoolInvariant

/-!
# Pins

In a run that does not fetch a page again after deleting it, the id left on a free
frame is that of a deleted page, so it is never resident and the structures of the
pool agree throughout.  In such runs the pin count of a resident page is the number of
pins an observer has counted, and a pinned page keeps its frame.
-/

namespace BusTub

open Function Machines

/-- The call names only pages that `NewPage` returned before, and does not fetch a
deleted page. -/
def PoolCall.Guarded (log : PoolLog) (call : PoolCall) : Prop :=
  call.Addresses log ∧ ∀ pageId, call = .fetchPage pageId → pageId ∉ log.deleted

/-- What holds of the pool and its observer in runs of guarded calls. -/
structure Pinned (k : ℕ) (state : BufferPool PageMap × PoolLog) : Prop
    extends Observed k state where
  deleted_issued : ∀ pageId ∈ state.2.deleted, pageId ∈ Set.Ico 0 state.1.nextPageId
  resident_kept : ∀ pageId frameId, state.1.pageTable pageId = some frameId →
    pageId ∉ state.2.deleted
  stale : ∀ frameId ∈ state.1.freeList, (state.1.pages frameId).pageId = invalidPageId ∨
    (state.1.pages frameId).pageId ∈ state.2.deleted
  outstanding : ∀ pageId, state.2.outstanding pageId =
    (state.1.pageTable pageId).elim 0 fun frameId => (state.1.pages frameId).pinCount

namespace Pinned

variable {k : ℕ} {pool : BufferPool PageMap} {log : PoolLog} {pageId : PageId}
  {frameId : FrameId} {replacer : LRUKReplacer}

theorem create (poolSize : ℕ) {k : ℕ} (hk : 1 ≤ k) : Pinned k (.create poolSize k, {}) where
  toObserved := Observed.create poolSize hk
  deleted_issued := by simp
  resident_kept := by simp
  stale := fun _ _ => .inl rfl
  outstanding := fun _ => rfl

/-- The id left on a free frame is not resident. -/
theorem frontFresh (h : Pinned k (pool, log)) : pool.FrontFresh := by
  intro frameId hfirst
  -- a frame that was never used has the invalid id; any other was left by `DeletePage`
  rcases h.stale frameId (List.mem_of_head? hfirst) with hinvalid | hdeleted
  · rw [hinvalid]
    exact h.inv.find_invalid
  · cases hfind : pool.pageTable (pool.pages frameId).pageId with
    | none => rfl
    | some other => exact absurd hdeleted (h.resident_kept _ other hfind)

theorem takesFresh (h : Pinned k (pool, log)) (call : PoolCall) : call.TakesFresh pool := by
  cases call with
  | newPage => exact h.frontFresh
  | fetchPage pageId => exact fun _ => h.frontFresh
  | unpinPage | flushPage | flushAllPages | deletePage | store => trivial

theorem outstanding_of_find (h : Pinned k (pool, log))
    (hfind : pool.pageTable pageId = some frameId) :
    log.outstanding pageId = (pool.pages frameId).pinCount := by
  have hout := h.outstanding pageId
  simpa [hfind] using hout

theorem outstanding_of_miss (h : Pinned k (pool, log)) (hmiss : pool.pageTable pageId = none) :
    log.outstanding pageId = 0 := by
  have hout := h.outstanding pageId
  simpa [hmiss] using hout

/-! ## One transition -/

theorem find_occupy (h : PoolInv k pool) (htaken : Taken k pool frameId (some false) replacer)
    {data : PageData} {nextPageId query : PageId} {other : FrameId} (hquery : query ≠ pageId)
    (hfind : (pool.occupy frameId pageId data nextPageId replacer).pageTable query = some other) :
    pool.pageTable query = some other ∧ other ≠ frameId := by
  change update (update pool.pageTable
      (pool.pages frameId).pageId none) pageId (some frameId) query = some other at hfind
  rw [update_of_ne hquery, update_apply] at hfind
  split_ifs at hfind with hold
  refine ⟨hfind, ?_⟩
  rintro rfl
  exact hold (h.pageId_of_find hfind).symm

/-- When a frame is taken, no pins are on a page that is not resident or is the one the
frame held. -/
theorem outstanding_of_evicted (h : Pinned k (pool, log))
    (htaken : Taken k pool frameId (some false) replacer) {query : PageId}
    (hgone : update pool.pageTable (pool.pages frameId).pageId none query = none) :
    log.outstanding query = 0 := by
  rw [update_apply] at hgone
  cases hmapped : pool.pageTable query with
  | none => exact h.outstanding_of_miss hmapped
  | some other =>
    split_ifs at hgone with hold
    · subst hold
      have hself := h.inv.find_old_of_taken htaken h.frontFresh hmapped
      rw [hself] at hmapped
      rw [h.outstanding_of_find hmapped, htaken.unpinned]
    · rw [hmapped] at hgone
      simp at hgone

theorem occupy (h : Pinned k (pool, log)) (htaken : Taken k pool frameId (some false) replacer)
    (hmiss : pool.pageTable pageId = none) (hkept : pageId ∉ log.deleted) {data : PageData}
    {nextPageId : PageId} {issued : List PageId}
    (hobserved : Observed k (pool.occupy frameId pageId data nextPageId replacer,
      { log with
        issued := issued
        outstanding := update log.outstanding pageId (log.outstanding pageId + 1) }))
    (hnext : pool.nextPageId ≤ nextPageId) :
    Pinned k (pool.occupy frameId pageId data nextPageId replacer,
      { log with
        issued := issued
        outstanding := update log.outstanding pageId (log.outstanding pageId + 1) }) where
  toObserved := hobserved
  deleted_issued query hdeleted :=
    Set.Ico_subset_Ico_right hnext (h.deleted_issued query hdeleted)
  resident_kept query other hfind := by
    by_cases hquery : query = pageId
    · rwa [hquery]
    · exact h.resident_kept query other (find_occupy h.inv htaken hquery hfind).1
  stale other hfree := by
    have hmem := h.inv.free_nodup.mem_erase_iff.mp hfree
    have hpage : (pool.occupy frameId pageId data nextPageId replacer).pages other =
        pool.pages other := update_of_ne hmem.1 _ _
    rw [hpage]
    exact h.stale other hmem.2
  outstanding query := by
    by_cases hquery : query = pageId
    · subst hquery
      have hmapped : (pool.occupy frameId query data nextPageId replacer).pageTable query =
          some frameId := update_self _ _ _
      have hpage : (pool.occupy frameId query data nextPageId replacer).pages frameId =
          ⟨data, query, 1, false⟩ := update_self _ _ _
      simp [h.outstanding_of_miss hmiss, hmapped, hpage]
    · show update log.outstanding pageId _ query = _
      rw [update_of_ne hquery]
      cases hfind : (pool.occupy frameId pageId data nextPageId replacer).pageTable query with
      | some other =>
        -- still resident, in a frame that was not taken
        obtain ⟨hold, hother⟩ := find_occupy h.inv htaken hquery hfind
        have hpage : (pool.occupy frameId pageId data nextPageId replacer).pages other =
            pool.pages other := update_of_ne hother _ _
        simp only [Option.elim_some, hpage]
        exact h.outstanding_of_find hold
      | none =>
        have hgone : update (update pool.pageTable
            (pool.pages frameId).pageId none) pageId (some frameId) query = none := hfind
        rw [update_of_ne hquery] at hgone
        exact h.outstanding_of_evicted htaken hgone

theorem repin (h : Pinned k (pool, log)) (hfind : pool.pageTable pageId = some frameId)
    {page : Page} (hpage : page.pageId = (pool.pages frameId).pageId) {log' : PoolLog}
    (hobserved : Observed k ({ pool with
      pages := update pool.pages frameId page, replacer := replacer }, log'))
    (hdeleted : log'.deleted = log.deleted)
    (hcount : log'.outstanding = update log.outstanding pageId page.pinCount) :
    Pinned k ({ pool with
      pages := update pool.pages frameId page, replacer := replacer }, log') where
  toObserved := hobserved
  deleted_issued := by
    rw [hdeleted]
    exact h.deleted_issued
  resident_kept := by
    rw [hdeleted]
    exact h.resident_kept
  stale other hfree := by
    rw [hdeleted]
    rw [read_update_page Page.pageId hpage]
    exact h.stale other hfree
  outstanding query := by
    rw [hcount]
    show _ = (pool.pageTable query).elim 0 fun frame =>
      (update pool.pages frameId page frame).pinCount
    by_cases hquery : query = pageId
    · subst hquery
      rw [hfind, update_self, Option.elim_some, update_self]
    · rw [update_of_ne hquery]
      cases hother : pool.pageTable query with
      | none => exact h.outstanding_of_miss hother
      | some other =>
        have hne : other ≠ frameId := by
          rintro rfl
          exact hquery (h.inv.find_inj hother hfind)
        rw [Option.elim_some, update_of_ne hne]
        exact h.outstanding_of_find hother

theorem congr (h : Pinned k (pool, log)) {pages : FrameId → Page} (disk : Disk)
    (hsame : ∀ frameId, (pages frameId).pageId = (pool.pages frameId).pageId ∧
      (pages frameId).pinCount = (pool.pages frameId).pinCount) :
    Pinned k ({ pool with pages := pages, disk := disk }, log) where
  inv := h.inv.congr disk hsame
  issued := h.issued
  deleted_issued := h.deleted_issued
  resident_kept := h.resident_kept
  stale other hfree := by
    rw [(hsame other).1]
    exact h.stale other hfree
  outstanding query := by
    simp only [fun frame => (hsame frame).2]
    exact h.outstanding query

theorem flushStep (h : Pinned k (pool, log)) {next : BufferPool PageMap}
    (hflush : FlushStep pool next) : Pinned k (next, log) := by
  obtain ⟨_, _, _, rfl⟩ := hflush
  exact h.congr _ fun other =>
    ⟨read_update_page Page.pageId (by rfl) other, read_update_page Page.pinCount (by rfl) other⟩

theorem deleted (h : Pinned k (pool, log)) (hissued : pageId ∈ Set.Ico 0 pool.nextPageId)
    (hmiss : pool.pageTable pageId = none) :
    Pinned k (pool, { log with deleted := pageId :: log.deleted }) where
  inv := h.inv
  issued := h.issued
  deleted_issued query hmem := by
    rcases List.mem_cons.mp hmem with rfl | hmem
    · exact hissued
    · exact h.deleted_issued query hmem
  resident_kept query other hfind hmem := by
    rcases List.mem_cons.mp hmem with rfl | hmem
    · exact absurd (hmiss.symm.trans hfind) (by simp)
    · exact h.resident_kept query other hfind hmem
  stale other hfree := (h.stale other hfree).imp_right (List.mem_cons_of_mem pageId)
  outstanding := h.outstanding

theorem release (h : Pinned k (pool, log)) (hfind : pool.pageTable pageId = some frameId)
    (hunpinned : (pool.pages frameId).pinCount = 0) (hbooked : Booked pool.poolSize k replacer)
    (hflags : replacer.evictableFlag =
      update pool.replacer.evictableFlag frameId none) :
    Pinned k ({ pool with
      pages := update pool.pages frameId (pool.pages frameId).resetMemory
      replacer := replacer
      pageTable := update pool.pageTable pageId none
      freeList := pool.freeList ++ [frameId] },
      { log with deleted := pageId :: log.deleted }) where
  inv := h.inv.release hfind hunpinned hbooked hflags
  issued := h.issued
  deleted_issued query hmem := by
    rcases List.mem_cons.mp hmem with rfl | hmem
    · exact h.inv.resident_issued query frameId hfind
    · exact h.deleted_issued query hmem
  resident_kept query other hother hmem := by
    change update pool.pageTable pageId none query = some other at hother
    rw [update_apply] at hother
    split_ifs at hother with hquery
    rcases List.mem_cons.mp hmem with heq | hmem
    · exact hquery heq
    · exact h.resident_kept query other hother hmem
  stale other hfree := by
    rw [read_update_page Page.pageId (Page.resetMemory_pageId _)]
    rcases List.mem_append.mp hfree with hfree | hfree
    · exact (h.stale other hfree).imp_right (List.mem_cons_of_mem pageId)
    · rw [List.mem_singleton.mp hfree, h.inv.pageId_of_find hfind]
      exact .inr List.mem_cons_self
  outstanding query := by
    simp only [read_update_page Page.pinCount (Page.resetMemory_pinCount (pool.pages frameId))]
    by_cases hquery : query = pageId
    · rw [hquery, update_self, h.outstanding_of_find hfind, hunpinned]
      rfl
    · rw [update_of_ne hquery]
      exact h.outstanding query

/-- **One guarded call** keeps what is known of the pins. -/
theorem next (h : Pinned k (pool, log)) {call : PoolCall} {answer : PoolAnswer}
    {next : BufferPool PageMap} (hstep : PoolStep k pool call answer next)
    (hguarded : call.Guarded log) : Pinned k (next, log.after call answer) := by
  have hobserved : Observed k (next, log.after call answer) :=
    h.toObserved.next hstep hguarded.1 (h.takesFresh call)
  cases hstep with
  | newFails | fetchFails | unpinFails | flushFails | deleteFails => exact h
  | new htaken =>
    refine h.occupy htaken (PoolStep.find_next h.inv) ?_ hobserved (Int.le_add_one le_rfl)
    exact fun hdeleted => absurd (h.deleted_issued _ hdeleted).2 (lt_irrefl _)
  | fetchMiss hmiss htaken =>
    exact h.occupy htaken hmiss (hguarded.2 _ rfl) hobserved le_rfl
  | fetchHit hhit _ _ =>
    refine h.repin hhit (by rfl) hobserved rfl ?_
    show update log.outstanding _ _ = _
    rw [h.outstanding_of_find hhit]
  | unpin hfind _ _ _ =>
    refine h.repin hfind (by rfl) hobserved rfl ?_
    show update log.outstanding _ _ = _
    rw [h.outstanding_of_find hfind]
  | flush hflush => exact h.flushStep hflush
  | flushAll hflushes =>
    clear hobserved
    induction hflushes with
    | refl => exact h
    | tail _ hflush ih => exact ih.flushStep hflush
  | deleteMiss hmiss => exact h.deleted (h.issued _ hguarded.1) hmiss
  | delete hfind hunpinned hbooked hflags => exact h.release hfind hunpinned hbooked hflags
  | store =>
    exact h.congr pool.disk fun other =>
      ⟨read_update_page Page.pageId (by rfl) other, read_update_page Page.pinCount (by rfl) other⟩

/-- **One guarded call** returns and keeps what is known of the pins. -/
theorem step {state : BufferPool PageMap × PoolLog} (hk : 1 ≤ k) (h : Pinned k state)
    {call : PoolCall} (hguarded : call.Guarded state.2) :
    ∃ answer next, observedPool.step state call = .ok (answer, next) ∧ Pinned k next := by
  obtain ⟨answer, next, hstep, htransition⟩ := h.toObserved.exists_step hk call
  exact ⟨answer, _, hstep, h.next htransition hguarded⟩

end Pinned

/-! ## Failure -/

/-- What `NewPage` and `FetchPage` of a page that is not resident have in common: they
return, they fail exactly when every frame is pinned, and then they change nothing. -/
def FailsWhenPinned {α : Type*} (pool : BufferPool PageMap)
    (outcome : Except PoolFault (Option α × BufferPool PageMap)) : Prop :=
  ∃ result next, outcome = .ok (result, next) ∧ (result = none ↔ pool.AllPinned) ∧
    (result = none → next = pool)

variable {k : ℕ} {pool : BufferPool PageMap}

theorem Taken.not_allPinned {frameId : FrameId}
    {flag : Option Bool} {replacer : LRUKReplacer} (h : Taken k pool frameId flag replacer) :
    ¬ pool.AllPinned :=
  fun hall => absurd h.unpinned (hall frameId h.isFrame).ne'

theorem FailsWhenPinned.of_taken {α : Type*}
    {outcome : Except PoolFault (Option α × BufferPool PageMap)} {result : FrameId → α}
    {after : FrameId → LRUKReplacer → BufferPool PageMap}
    (h : outcome = .ok (none, pool) ∧ pool.AllPinned ∨
      ∃ frameId replacer, Taken k pool frameId (some false) replacer ∧
        outcome = .ok (some (result frameId), after frameId replacer)) :
    FailsWhenPinned pool outcome := by
  rcases h with ⟨hfails, hpinned⟩ | ⟨frameId, replacer, htaken, hreturns⟩
  · exact ⟨none, pool, hfails, ⟨fun _ => hpinned, fun _ => rfl⟩, fun _ => rfl⟩
  · refine ⟨_, _, hreturns, ⟨fun hnone => by simp at hnone, fun hall => ?_⟩, fun hnone => ?_⟩
    · exact absurd hall htaken.not_allPinned
    · simp at hnone

theorem PoolInv.newPg_failsWhenPinned (h : PoolInv k pool)
    (hk : 1 ≤ k) : FailsWhenPinned pool pool.newPg :=
  .of_taken (h.newPg hk)

theorem PoolInv.fetchPg_failsWhenPinned (h : PoolInv k pool)
    (hk : 1 ≤ k) {pageId : PageId} (hmiss : pool.pageTable pageId = none) :
    FailsWhenPinned pool (pool.fetchPg pageId) :=
  .of_taken (h.fetchPg_miss hk hmiss)

/-- The frame holds the page and is neither free nor on its way to another page. -/
structure HoldsPage (pool : BufferPool PageMap) (pageId : PageId) (frameId : FrameId) : Prop where
  pageId_eq : (pool.pages frameId).pageId = pageId
  inUse : pool.InUse frameId
  mapped : pool.pageTable pageId = some frameId

def PoolCall.Pins : PoolCall → PoolAnswer → PageId → FrameId → Prop
  | .newPage, .created (some page), pageId, frameId => page = (pageId, frameId)
  | .fetchPage fetched, .fetched (some frame), pageId, frameId =>
    fetched = pageId ∧ frame = frameId
  | _, _, _, _ => False

namespace PoolStep

variable {k : ℕ} {pool next : BufferPool PageMap} {call : PoolCall} {answer : PoolAnswer}
  {pageId : PageId} {frameId : FrameId}

theorem occupy_other {taken : FrameId} {replacer : LRUKReplacer} (h : PoolInv k pool)
    (htaken : Taken k pool taken (some false) replacer) (hin : pool.InUse frameId)
    (hpin : 0 < (pool.pages frameId).pinCount) (pageId : PageId) (data : PageData)
    (nextPageId : PageId) :
    (pool.occupy taken pageId data nextPageId replacer).pages frameId = pool.pages frameId ∧
      (pool.occupy taken pageId data nextPageId replacer).InUse frameId := by
  have hne : frameId ≠ taken := by
    rintro rfl
    exact absurd htaken.unpinned hpin.ne'
  refine ⟨update_of_ne hne _ _, ?_⟩
  exact (h.occupy_inUse htaken.isFrame data nextPageId frameId).mpr (.inr hin)

/-- **A transition keeps a pinned frame**: its page id, its place among the frames in
use and, unless a client writes to it, its data. -/
theorem keeps_pinned (hstep : PoolStep k pool call answer next) (h : PoolInv k pool)
    (hin : pool.InUse frameId) (hpin : 0 < (pool.pages frameId).pinCount) :
    (next.pages frameId).pageId = (pool.pages frameId).pageId ∧ next.InUse frameId ∧
      ((∀ data, call ≠ .store frameId data) →
        (next.pages frameId).data = (pool.pages frameId).data) := by
  have hflush : ∀ {before after : BufferPool PageMap}, FlushStep before after →
      (after.pages frameId).pageId = (before.pages frameId).pageId ∧
        (after.pages frameId).data = (before.pages frameId).data ∧
        (before.InUse frameId → after.InUse frameId) := by
    rintro before _ ⟨_, _, _, rfl⟩
    exact ⟨read_update_page Page.pageId (by rfl) frameId,
      read_update_page Page.data (by rfl) frameId, id⟩
  cases hstep with
  | newFails | fetchFails | unpinFails | flushFails | deleteMiss | deleteFails =>
    exact ⟨rfl, hin, fun _ => rfl⟩
  | new htaken =>
    obtain ⟨hpages, hinUse⟩ := occupy_other h htaken hin hpin pool.nextPageId zeroData
      (pool.nextPageId + 1)
    rw [hpages]
    exact ⟨rfl, hinUse, fun _ => rfl⟩
  | fetchMiss hmiss htaken =>
    obtain ⟨hpages, hinUse⟩ := occupy_other h htaken hin hpin _ _ pool.nextPageId
    rw [hpages]
    exact ⟨rfl, hinUse, fun _ => rfl⟩
  | fetchHit | unpin =>
    exact ⟨read_update_page Page.pageId (by rfl) frameId, hin,
      fun _ => read_update_page Page.data (by rfl) frameId⟩
  | flush hstep =>
    exact ⟨(hflush hstep).1, (hflush hstep).2.2 hin, fun _ => (hflush hstep).2.1⟩
  | flushAll hsteps =>
    induction hsteps with
    | refl => exact ⟨rfl, hin, fun _ => rfl⟩
    | tail _ hstep ih =>
      exact ⟨(hflush hstep).1.trans ih.1, (hflush hstep).2.2 ih.2.1,
        fun hstore => (hflush hstep).2.1.trans (ih.2.2 hstore)⟩
  | @delete _ freed _ _ hunpinned =>
    have hne : frameId ≠ freed := by
      rintro rfl
      exact absurd hunpinned hpin.ne'
    refine ⟨read_update_page Page.pageId (by rfl) frameId, ⟨hin.1, ?_⟩, fun _ => ?_⟩
    · simp [hin.2, hne]
    · exact congrArg Page.data (update_of_ne hne _ _)
  | @store written data =>
    refine ⟨read_update_page Page.pageId (by rfl) frameId, hin, fun hstore => ?_⟩
    have hne : frameId ≠ written := by
      rintro rfl
      exact hstore data rfl
    exact congrArg Page.data (update_of_ne hne _ _)

theorem mapped_of_pins (hstep : PoolStep k pool call answer next)
    (hpins : call.Pins answer pageId frameId) : next.pageTable pageId = some frameId := by
  cases hstep with
  | new =>
    cases hpins
    exact update_self _ _ _
  | fetchMiss =>
    obtain ⟨rfl, rfl⟩ := hpins
    exact update_self _ _ _
  | fetchHit hhit =>
    obtain ⟨rfl, rfl⟩ := hpins
    exact hhit
  | newFails | fetchFails | unpinFails | unpin | flushFails | flush | flushAll | deleteMiss
  | deleteFails | delete | store => exact hpins.elim

end PoolStep

theorem PoolInv.holdsPage {pageId : PageId}
    {frameId : FrameId} (h : PoolInv k pool) (hmapped : pool.pageTable pageId = some frameId) :
    HoldsPage pool pageId frameId :=
  ⟨h.pageId_of_find hmapped, h.inUse_of_find hmapped, hmapped⟩

namespace Pinned

variable {k : ℕ} {state next : BufferPool PageMap × PoolLog} {pageId : PageId}
  {frameId : FrameId}

theorem of_step (hk : 1 ≤ k) (h : Pinned k state) {call : PoolCall} {answer : PoolAnswer}
    (hguarded : call.Guarded state.2)
    (hstep : observedPool.step state call = .ok (answer, next)) :
    Pinned k next ∧ PoolStep k state.1 call answer next.1 := by
  obtain ⟨answer', pool, hstep', htransition⟩ := h.toObserved.exists_step hk call
  rw [hstep, Except.ok.injEq, Prod.mk.injEq] at hstep'
  obtain ⟨rfl, rfl⟩ := hstep'
  exact ⟨h.next htransition hguarded, htransition⟩

theorem mapped_next (h : Pinned k state) {call : PoolCall} {answer : PoolAnswer}
    {pool : BufferPool PageMap} (hstep : PoolStep k state.1 call answer pool)
    (hinv : PoolInv k pool) (hmapped : state.1.pageTable pageId = some frameId)
    (hheld : 0 < state.2.outstanding pageId) : pool.pageTable pageId = some frameId := by
  have hpin : 0 < (state.1.pages frameId).pinCount := by
    rwa [← h.outstanding_of_find hmapped]
  obtain ⟨hpageId, hinUse, _⟩ := hstep.keeps_pinned h.inv (h.inv.inUse_of_find hmapped) hpin
  refine (hinv.pageTable_iff pageId frameId).mpr ⟨hinUse, ?_⟩
  rw [hpageId, h.inv.pageId_of_find hmapped]

/-- **A run while the page has pins**: it stays mapped to the frame. -/
theorem mapped_run (hk : 1 ≤ k) {calls : List PoolCall} {answers : List PoolAnswer}
    (h : Pinned k state)
    (hguarded : observedPool.Along (fun state call => call.Guarded state.2) state calls)
    (hrun : observedPool.run state calls = .ok (answers, next))
    (hmapped : state.1.pageTable pageId = some frameId)
    (hheld : observedPool.Always (fun state => 0 < state.2.outstanding pageId) state calls) :
    Pinned k next ∧ next.1.pageTable pageId = some frameId ∧ 0 < next.2.outstanding pageId := by
  induction calls generalizing state answers with
  | nil =>
    obtain ⟨_, rfl⟩ := hrun
    exact ⟨h, hmapped, hheld⟩
  | cons call rest ih =>
    obtain ⟨answer, middle, tail, hstep, hrest, _⟩ := Machine.run_cons_eq_ok hrun
    obtain ⟨hpositive, answer', middle', hstep', halways⟩ := hheld
    rw [hstep, Except.ok.injEq, Prod.mk.injEq] at hstep'
    obtain ⟨rfl, rfl⟩ := hstep'
    obtain ⟨hmiddle, htransition⟩ := h.of_step hk hguarded.1 hstep
    exact ih hmiddle (hguarded.2 answer middle hstep) hrest
      (h.mapped_next htransition hmiddle.inv hmapped hpositive) halways

end Pinned

end BusTub
