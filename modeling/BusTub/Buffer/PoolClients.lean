import BusTub.Buffer.PoolPins

/-!
# No update is lost

Clients write a page through a pin they hold, and tell the pool so when they end the
pin.  The content of a page is what was written to it last.  While the page is
resident, its frame holds the content; when it is not, the disk does.  In between
stands the dirty flag: if it is not set, and no held pin has written, the disk has the
content already, so a frame may be taken without a write-back.
-/

namespace BusTub

open Function Machines

/-! ## Clients -/

/-- A pin a client holds, and whether the client wrote through it. -/
structure Pin where
  pageId : PageId
  frameId : FrameId
  wrote : Bool
deriving DecidableEq

/-- The pins that are held, and what was last written to each page. -/
structure Clients where
  pins : List Pin := []
  written : PageId → Option PageData := fun _ => none

/-- What a client does: an operation of the pool, where `UnpinPage` says which pin it
ends, or a write through a pin. -/
inductive ClientAction
  | newPage
  | fetchPage (pageId : PageId)
  | unpinPage (pageId : PageId) (isDirty : Bool) (ended : Pin)
  | flushPage (pageId : PageId)
  | flushAllPages
  | deletePage (pageId : PageId)
  | write (pin : Pin) (data : PageData)

def ClientAction.toCall : ClientAction → PoolCall
  | .newPage => .newPage
  | .fetchPage pageId => .fetchPage pageId
  | .unpinPage pageId isDirty _ => .unpinPage pageId isDirty
  | .flushPage pageId => .flushPage pageId
  | .flushAllPages => .flushAllPages
  | .deletePage pageId => .deletePage pageId
  | .write pin data => .store pin.frameId data

namespace Clients

def after (clients : Clients) : ClientAction → PoolAnswer → Clients
  | .newPage, .created (some (pageId, frameId)) =>
    { clients with pins := ⟨pageId, frameId, false⟩ :: clients.pins }
  | .fetchPage pageId, .fetched (some frameId) =>
    { clients with pins := ⟨pageId, frameId, false⟩ :: clients.pins }
  | .unpinPage _ _ ended, .returned true => { clients with pins := clients.pins.erase ended }
  | .write pin data, _ =>
    { pins := { pin with wrote := true } :: clients.pins.erase pin
      written := Function.update clients.written pin.pageId (some data) }
  | _, _ => clients

/-- The bytes most recently written to a page, or zeros. -/
def content (clients : Clients) (pageId : PageId) : PageData :=
  (clients.written pageId).getD zeroData

def pinsOn (clients : Clients) (pageId : PageId) : ℕ :=
  clients.pins.countP fun pin => pin.pageId = pageId

end Clients

abbrev clientMachine :
    Machine ((BufferPool PageMap × PoolLog) × Clients) ClientAction PoolAnswer PoolFault :=
  (observedPool.relabel ClientAction.toCall).withGhost Clients.after

/-- The rules for clients: they name only pages that `NewPage` returned, fetch no page
after its deletion, write only through a pin they hold, and say `is_dirty` when they end
a pin through which they wrote. -/
def ClientAction.Disciplined (log : PoolLog) (clients : Clients) : ClientAction → Prop
  | .fetchPage pageId => pageId ∈ log.issued ∧ pageId ∉ log.deleted
  | .unpinPage pageId isDirty ended =>
    pageId ∈ log.issued ∧ (0 < log.outstanding pageId →
      ended ∈ clients.pins ∧ ended.pageId = pageId ∧ (ended.wrote = true → isDirty = true))
  | .flushPage pageId => pageId ∈ log.issued
  | .deletePage pageId => pageId ∈ log.issued
  | .write pin _ => pin ∈ clients.pins
  | _ => True

theorem ClientAction.Disciplined.guarded {log : PoolLog} {clients : Clients}
    {action : ClientAction} (h : action.Disciplined log clients) : action.toCall.Guarded log := by
  cases action with
  | fetchPage pageId =>
    refine ⟨h.1, fun other heq => ?_⟩
    cases heq
    exact h.2
  | unpinPage pageId isDirty ended => exact ⟨h.1, fun _ heq => by cases heq⟩
  | newPage | flushPage | flushAllPages | deletePage | write =>
    exact ⟨by first | exact h | trivial, fun _ heq => by cases heq⟩

/-! ## Where the content of a page is -/

/-- The content of every page is in its frame or on the disk. -/
structure Contents (k : ℕ) (state : (BufferPool PageMap × PoolLog) × Clients) : Prop where
  pinned : Pinned k state.1
  pins_mapped : ∀ pin ∈ state.2.pins, state.1.1.pageTable pin.pageId = some pin.frameId
  pins_count : ∀ pageId, state.1.2.outstanding pageId = state.2.pinsOn pageId
  resident : ∀ pageId frameId, state.1.1.pageTable pageId = some frameId →
    (state.1.1.pages frameId).data = state.2.content pageId
  clean : ∀ pageId frameId, state.1.1.pageTable pageId = some frameId →
    (state.1.1.pages frameId).isDirty = false →
    (∀ pin ∈ state.2.pins, pin.pageId = pageId → pin.wrote = false) →
    state.1.1.disk pageId = state.2.content pageId
  onDisk : ∀ pageId ∈ state.1.2.issued, pageId ∉ state.1.2.deleted →
    state.1.1.pageTable pageId = none → state.1.1.disk pageId = state.2.content pageId
  unissued : ∀ pageId, state.1.1.nextPageId ≤ pageId →
    state.1.1.disk pageId = zeroData ∧ state.2.written pageId = none

theorem writtenBack_of_ne {pool : BufferPool PageMap} {frameId : FrameId} {pageId : PageId}
    (hne : pageId ≠ (pool.pages frameId).pageId) :
    pool.writtenBack frameId pageId = pool.disk pageId := by
  unfold BufferPool.writtenBack
  split_ifs
  · exact update_of_ne hne _ _
  · rfl

/-- The page a frame names is below `next_page_id_`, whether it is resident or stale. -/
theorem Pinned.pageId_lt {k : ℕ} {pool : BufferPool PageMap} {log : PoolLog}
    (h : Pinned k (pool, log)) {frameId : FrameId} (hframe : pool.IsFrame frameId) :
    (pool.pages frameId).pageId < pool.nextPageId := by
  by_cases hfree : frameId ∈ pool.freeList
  · rcases h.stale frameId hfree with hinvalid | hdeleted
    · rw [hinvalid]
      exact lt_of_lt_of_le (by decide) h.inv.next_nonneg
    · exact (h.deleted_issued _ hdeleted).2
  · exact (h.inv.resident_issued _ _ (h.inv.find_pageId ⟨hframe, hfree⟩)).2

namespace Contents

variable {k : ℕ} {pool : BufferPool PageMap} {log : PoolLog} {clients : Clients}
  {pageId : PageId} {frameId : FrameId} {replacer : LRUKReplacer}

theorem create (poolSize : ℕ) {k : ℕ} (hk : 1 ≤ k) :
    Contents k ((.create poolSize k, {}), {}) where
  pinned := Pinned.create poolSize hk
  pins_mapped := by simp
  pins_count := fun _ => rfl
  resident := by simp [BufferPool.create, PageTable.empty]
  clean := by simp [BufferPool.create, PageTable.empty]
  onDisk := by simp
  unissued := fun _ _ => ⟨rfl, rfl⟩

variable (h : Contents k ((pool, log), clients))
include h

theorem outstanding_pos {pin : Pin}
    (hpin : pin ∈ clients.pins) : 0 < log.outstanding pin.pageId := by
  rw [h.pins_count]
  exact List.countP_pos_iff.mpr ⟨pin, hpin, by simp⟩

theorem ne_of_unpinned
    (hfind : pool.pageTable pageId = some frameId)
    (hunpinned : (pool.pages frameId).pinCount = 0) {pin : Pin} (hpin : pin ∈ clients.pins) :
    pin.pageId ≠ pageId := by
  rintro rfl
  have hpos := h.outstanding_pos hpin
  rw [h.pinned.outstanding_of_find hfind, hunpinned] at hpos
  exact absurd hpos (lt_irrefl 0)

/-- A write-back does not touch a page that is not resident and was not deleted. -/
theorem ne_pageId_of_kept
    (hframe : pool.IsFrame frameId) (hissued : pageId ∈ log.issued)
    (hkept : pageId ∉ log.deleted) (hmiss : pool.pageTable pageId = none) :
    pageId ≠ (pool.pages frameId).pageId := by
  rintro rfl
  by_cases hfree : frameId ∈ pool.freeList
  · rcases h.pinned.stale frameId hfree with hinvalid | hdeleted
    · have hnonneg := (h.pinned.issued _ hissued).1
      rw [hinvalid] at hnonneg
      exact absurd hnonneg (by decide)
    · exact hkept hdeleted
  · rw [h.pinned.inv.find_pageId ⟨hframe, hfree⟩] at hmiss
    simp at hmiss

theorem writtenBack_self (hin : pool.InUse frameId)
    (hunpinned : (pool.pages frameId).pinCount = 0) :
    pool.writtenBack frameId (pool.pages frameId).pageId =
      clients.content (pool.pages frameId).pageId := by
  have hfind := h.pinned.inv.find_pageId hin
  unfold BufferPool.writtenBack
  split_ifs with hdirty
  · rw [Disk.writePage, update_self]
    exact h.resident _ _ hfind
  · refine h.clean _ _ hfind (Bool.not_eq_true _ |>.mp hdirty) fun pin hpin heq => ?_
    exact absurd heq (h.ne_of_unpinned hfind hunpinned hpin)

omit h

/-! ## One action -/

theorem pinsOn_cons (clients : Clients) (pin : Pin) (pageId : PageId) :
    ({ clients with pins := pin :: clients.pins } : Clients).pinsOn pageId =
      clients.pinsOn pageId + if pin.pageId = pageId then 1 else 0 := by
  simp [Clients.pinsOn, List.countP_cons]

theorem pinsOn_erase {clients : Clients} {pin : Pin} (hpin : pin ∈ clients.pins)
    (pageId : PageId) :
    clients.pinsOn pageId =
      ({ clients with pins := clients.pins.erase pin } : Clients).pinsOn pageId +
        if pin.pageId = pageId then 1 else 0 := by
  unfold Clients.pinsOn
  rw [(List.perm_cons_erase hpin).countP_eq, List.countP_cons]
  simp

variable (h : Contents k ((pool, log), clients))
include h

theorem pins_count_cons (pageId : PageId)
    (frameId : FrameId) (query : PageId) :
    update log.outstanding pageId (log.outstanding pageId + 1) query =
      ({ clients with pins := ⟨pageId, frameId, false⟩ :: clients.pins } : Clients).pinsOn
        query := by
  rw [pinsOn_cons, ← h.pins_count query]
  by_cases hquery : query = pageId
  · simp [hquery]
  · simp [update_of_ne hquery, Ne.symm hquery]

/-- When a frame is taken, a page that is not resident, or is the one the frame held,
is on the disk after the write-back. -/
theorem onDisk_of_evicted
    (htaken : Taken k pool frameId (some false) replacer) {query : PageId}
    (hmem : query ∈ log.issued) (hkept : query ∉ log.deleted)
    (hgone : update pool.pageTable (pool.pages frameId).pageId none query = none) :
    pool.writtenBack frameId query = clients.content query := by
  rw [update_apply] at hgone
  cases hold : pool.pageTable query with
  | none =>
    have hne := h.ne_pageId_of_kept htaken.isFrame hmem hkept hold
    exact (writtenBack_of_ne hne).trans (h.onDisk query hmem hkept hold)
  | some other =>
    -- the page was evicted from the taken frame
    split_ifs at hgone with heq
    · have hframe := h.pinned.inv.find_old_of_taken htaken h.pinned.frontFresh (heq ▸ hold)
      rw [heq]
      exact h.writtenBack_self (hframe ▸ h.pinned.inv.inUse_of_find hold) htaken.unpinned
    · rw [hold] at hgone
      simp at hgone

theorem occupy
    (htaken : Taken k pool frameId (some false) replacer)
    (hmiss : pool.pageTable pageId = none) {data : PageData} (hdata : data = clients.content pageId)
    (hdisk : pool.writtenBack frameId pageId = clients.content pageId) {nextPageId : PageId}
    (hnext : pool.nextPageId ≤ nextPageId) {log' : PoolLog}
    (hpinned : Pinned k (pool.occupy frameId pageId data nextPageId replacer, log'))
    (hpins : ∀ pin ∈ clients.pins,
      (pool.occupy frameId pageId data nextPageId replacer).pageTable pin.pageId =
        some pin.frameId)
    (hissued : ∀ query ∈ log'.issued, query ≠ pageId → query ∈ log.issued)
    (hdeleted : log'.deleted = log.deleted)
    (hcount : log'.outstanding =
      update log.outstanding pageId (log.outstanding pageId + 1)) :
    Contents k ((pool.occupy frameId pageId data nextPageId replacer, log'),
      { clients with pins := ⟨pageId, frameId, false⟩ :: clients.pins }) := by
  have hself : (pool.occupy frameId pageId data nextPageId replacer).pageTable pageId =
      some frameId := update_self _ _ _
  have hpage : (pool.occupy frameId pageId data nextPageId replacer).pages frameId =
      ⟨data, pageId, 1, false⟩ := update_self _ _ _
  have hother : ∀ {other}, other ≠ frameId →
      (pool.occupy frameId pageId data nextPageId replacer).pages other = pool.pages other :=
    fun hne => update_of_ne hne _ _
  constructor
  · exact hpinned
  · intro pin hpin
    rcases List.mem_cons.mp hpin with rfl | hpin
    · exact hself
    · exact hpins pin hpin
  · intro query
    rw [hcount]
    exact h.pins_count_cons pageId frameId query
  · intro query other hfind
    by_cases hquery : query = pageId
    · subst hquery
      rw [hself, Option.some.injEq] at hfind
      rw [← hfind, hpage]
      exact hdata
    · obtain ⟨hold, hne⟩ := Pinned.find_occupy h.pinned.inv htaken hquery hfind
      rw [hother hne]
      exact h.resident query other hold
  · intro query other hfind hclean hwrote
    by_cases hquery : query = pageId
    · subst hquery
      exact hdisk
    · obtain ⟨hold, hne⟩ := Pinned.find_occupy h.pinned.inv htaken hquery hfind
      rw [hother hne] at hclean
      have hquery' : query ≠ (pool.pages frameId).pageId := by
        rintro rfl
        exact hne (h.pinned.inv.find_old_of_taken htaken h.pinned.frontFresh hold)
      refine (writtenBack_of_ne hquery').trans (h.clean query other hold hclean ?_)
      exact fun pin hpin => hwrote pin (List.mem_cons_of_mem _ hpin)
  · intro query hmem hkept hgone
    rw [hdeleted] at hkept
    have hquery : query ≠ pageId := by
      rintro rfl
      rw [hself] at hgone
      simp at hgone
    change update (update pool.pageTable
      (pool.pages frameId).pageId none) pageId (some frameId) query = none at hgone
    rw [update_of_ne hquery] at hgone
    exact h.onDisk_of_evicted htaken (hissued query hmem hquery) hkept hgone
  · intro query hle
    have hle := hnext.trans hle
    have hne : query ≠ (pool.pages frameId).pageId :=
      ((h.pinned.pageId_lt htaken.isFrame).trans_le hle).ne'
    exact ⟨(writtenBack_of_ne hne).trans (h.unissued query hle).1, (h.unissued query hle).2⟩

/-- A change of the pins of a resident page.  If the page is clean afterwards and no
held pin has written, both were so before. -/
theorem repin {page : Page}
    (hdata : page.data = (pool.pages frameId).data) {log' : PoolLog} {pins : List Pin}
    (hpinned : Pinned k ({ pool with
      pages := update pool.pages frameId page, replacer := replacer }, log'))
    (hissued : log'.issued = log.issued) (hdeleted : log'.deleted = log.deleted)
    (hpins : ∀ pin ∈ pins, pool.pageTable pin.pageId = some pin.frameId)
    (hcount : ∀ query,
      log'.outstanding query = ({ clients with pins := pins } : Clients).pinsOn query)
    (hclean : ∀ query other, pool.pageTable query = some other →
      (update pool.pages frameId page other).isDirty = false →
      (∀ pin ∈ pins, pin.pageId = query → pin.wrote = false) →
      (pool.pages other).isDirty = false ∧
        ∀ pin ∈ clients.pins, pin.pageId = query → pin.wrote = false) :
    Contents k (({ pool with
      pages := update pool.pages frameId page, replacer := replacer }, log'),
      { clients with pins := pins }) where
  pinned := hpinned
  pins_mapped := hpins
  pins_count := hcount
  resident query other hfind :=
    (read_update_page Page.data hdata other).trans (h.resident query other hfind)
  clean query other hfind hflag hwrote :=
    have hbefore := hclean query other hfind hflag hwrote
    h.clean query other hfind hbefore.1 hbefore.2
  onDisk query hmem hkept hmiss := by
    rw [hissued] at hmem
    rw [hdeleted] at hkept
    exact h.onDisk query hmem hkept hmiss
  unissued := h.unissued

theorem flushStep {next : BufferPool PageMap}
    (hflush : FlushStep pool next) : Contents k ((next, log), clients) := by
  have hpinned := h.pinned.flushStep hflush
  obtain ⟨pageId, frameId, hfind, rfl⟩ := hflush
  have hcontent : ∀ query, pool.disk query = clients.content query →
      pool.disk.writePage pageId (pool.pages frameId).data query = clients.content query := by
    intro query hold
    unfold Disk.writePage
    rw [update_apply]
    split_ifs with hquery
    · rw [hquery]
      exact h.resident pageId frameId hfind
    · exact hold
  constructor
  · exact hpinned
  · exact h.pins_mapped
  · exact h.pins_count
  · intro query other hother
    exact (read_update_page Page.data (by rfl) other).trans (h.resident query other hother)
  · intro query other hother hclean hwrote
    by_cases hquery : query = pageId
    · subst hquery
      show update pool.disk query _ query = _
      rw [update_self]
      exact h.resident query frameId hfind
    · have hne : other ≠ frameId := by
        rintro rfl
        exact hquery (h.pinned.inv.find_inj hother hfind)
      have hclean : (update pool.pages frameId _ other).isDirty = false := hclean
      rw [update_of_ne hne] at hclean
      exact hcontent query (h.clean query other hother hclean hwrote)
  · exact fun query hmem hkept hmiss => hcontent query (h.onDisk query hmem hkept hmiss)
  · intro query hle
    have hne : query ≠ pageId :=
      ((h.pinned.inv.resident_issued pageId frameId hfind).2.trans_le hle).ne'
    exact ⟨(update_of_ne hne _ _).trans (h.unissued query hle).1,
      (h.unissued query hle).2⟩

theorem release
    (hfind : pool.pageTable pageId = some frameId)
    (hunpinned : (pool.pages frameId).pinCount = 0) (hbooked : Booked pool.poolSize k replacer)
    (hflags : replacer.evictableFlag =
      update pool.replacer.evictableFlag frameId none) :
    Contents k (({ pool with
      pages := update pool.pages frameId (pool.pages frameId).resetMemory
      replacer := replacer
      pageTable := update pool.pageTable pageId none
      freeList := pool.freeList ++ [frameId] },
      { log with deleted := pageId :: log.deleted }), clients) := by
  have hold : ∀ {query other}, update pool.pageTable pageId none query = some other →
      pool.pageTable query = some other ∧ other ≠ frameId := by
    intro query other hother
    rw [update_apply] at hother
    split_ifs at hother with hquery
    refine ⟨hother, ?_⟩
    rintro rfl
    exact hquery (h.pinned.inv.find_inj hother hfind)
  constructor
  · exact h.pinned.release hfind hunpinned hbooked hflags
  · intro pin hpin
    show update pool.pageTable pageId none pin.pageId = _
    rw [update_of_ne (h.ne_of_unpinned hfind hunpinned hpin)]
    exact h.pins_mapped pin hpin
  · exact h.pins_count
  · intro query other hother
    obtain ⟨hother, hne⟩ := hold hother
    exact (congrArg Page.data (update_of_ne hne _ _)).trans
      (h.resident query other hother)
  · intro query other hother hclean hwrote
    obtain ⟨hother, hne⟩ := hold hother
    have hclean : (update pool.pages frameId _ other).isDirty = false := hclean
    rw [update_of_ne hne] at hclean
    exact h.clean query other hother hclean hwrote
  · intro query hmem hkept hmiss
    have hquery : query ≠ pageId := fun heq => hkept (heq ▸ List.mem_cons_self)
    have hmiss : update pool.pageTable pageId none query = none := hmiss
    rw [update_of_ne hquery] at hmiss
    exact h.onDisk query hmem (fun hdeleted => hkept (List.mem_cons_of_mem _ hdeleted)) hmiss
  · exact h.unissued

theorem write {pin : Pin} (hpin : pin ∈ clients.pins)
    (data : PageData) (hpinned : Pinned k (pool.store pin.frameId data, log)) :
    Contents k ((pool.store pin.frameId data, log),
      { pins := { pin with wrote := true } :: clients.pins.erase pin
        written := update clients.written pin.pageId (some data) }) := by
  have hfind := h.pins_mapped pin hpin
  -- only the content of the pin's page changes, and only in the frame of that page
  have hcontent : ∀ {query}, query ≠ pin.pageId →
      ({ pins := { pin with wrote := true } :: clients.pins.erase pin
         written := update clients.written pin.pageId (some data) } : Clients).content
        query = clients.content query := by
    intro query hne
    simp [Clients.content, update_of_ne hne]
  have hframe : ∀ {query other}, pool.pageTable query = some other → query ≠ pin.pageId →
      other ≠ pin.frameId := by
    rintro query other hother hne rfl
    exact hne (h.pinned.inv.find_inj hother hfind)
  constructor
  · exact hpinned
  · intro other hother
    rcases List.mem_cons.mp hother with rfl | hother
    · exact hfind
    · exact h.pins_mapped other (List.mem_of_mem_erase hother)
  · intro query
    have hcount := pinsOn_erase hpin query
    have hold := h.pins_count query
    simp only [Clients.pinsOn, List.countP_cons] at hcount hold ⊢
    simpa [hcount] using hold
  · intro query other hother
    by_cases hquery : query = pin.pageId
    · subst hquery
      rw [show pool.pageTable pin.pageId = some other from hother, Option.some.injEq] at hfind
      subst hfind
      show (update pool.pages _ _ _).data = _
      simp [Clients.content]
    · rw [hcontent hquery, ← h.resident query other hother]
      exact congrArg Page.data (update_of_ne (hframe hother hquery) _ _)
  · intro query other hother hclean hwrote
    have hquery : query ≠ pin.pageId := by
      rintro rfl
      exact absurd (hwrote _ List.mem_cons_self rfl) (by simp)
    have hclean : (update pool.pages _ _ other).isDirty = false := hclean
    rw [update_of_ne (hframe hother hquery)] at hclean
    rw [hcontent hquery]
    refine h.clean query other hother hclean fun held hheld heq => ?_
    have hne : held ≠ pin := by
      rintro rfl
      exact hquery heq.symm
    exact hwrote held (List.mem_cons_of_mem _ ((List.mem_erase_of_ne hne).mpr hheld)) heq
  · intro query hmem hkept hmiss
    have hquery : query ≠ pin.pageId := by
      rintro rfl
      rw [show pool.pageTable pin.pageId = none from hmiss] at hfind
      simp at hfind
    rw [hcontent hquery]
    exact h.onDisk query hmem hkept hmiss
  · intro query hle
    have hquery : query ≠ pin.pageId :=
      ((h.pinned.inv.resident_issued _ _ hfind).2.trans_le hle).ne'
    exact ⟨(h.unissued query hle).1,
      (update_of_ne hquery _ _).trans (h.unissued query hle).2⟩

theorem unpin {isDirty : Bool} {ended : Pin}
    (hfind : pool.pageTable pageId = some frameId) (hended : ended ∈ clients.pins)
    (hpage : ended.pageId = pageId) (hdirty : ended.wrote = true → isDirty = true)
    (hpinned : Pinned k ({ pool with
      pages := update pool.pages frameId
        { pool.pages frameId with
          pinCount := (pool.pages frameId).pinCount - 1
          isDirty := (pool.pages frameId).isDirty || isDirty }
      replacer := replacer },
      { log with
        outstanding := update log.outstanding pageId (log.outstanding pageId - 1) })) :
    Contents k (({ pool with
      pages := update pool.pages frameId
        { pool.pages frameId with
          pinCount := (pool.pages frameId).pinCount - 1
          isDirty := (pool.pages frameId).isDirty || isDirty }
      replacer := replacer },
      { log with
        outstanding := update log.outstanding pageId (log.outstanding pageId - 1) }),
      { clients with pins := clients.pins.erase ended }) := by
  apply h.repin (by rfl) hpinned rfl rfl
  · exact fun pin hpin => h.pins_mapped pin (List.mem_of_mem_erase hpin)
  · intro query
    have hcount := pinsOn_erase hended query
    rw [← h.pins_count query, hpage] at hcount
    show update log.outstanding pageId (log.outstanding pageId - 1) query = _
    by_cases hquery : query = pageId
    · subst hquery
      rw [update_self, hcount]
      simp
    · simpa [update_of_ne hquery, Ne.symm hquery] using hcount
  · intro query other hother hclean hwrote
    rw [update_apply] at hclean
    split_ifs at hclean with hframe
    · -- the page of the ended pin: it is clean, so the pin did not write
      subst hframe
      obtain ⟨hold, hflag⟩ := Bool.or_eq_false_iff.mp hclean
      refine ⟨hold, fun pin hpin heq => ?_⟩
      by_cases hpin' : pin = ended
      · subst hpin'
        by_contra hwrites
        rw [hdirty (Bool.not_eq_false _ |>.mp hwrites)] at hflag
        simp at hflag
      · exact hwrote pin ((List.mem_erase_of_ne hpin').mpr hpin) heq
    · refine ⟨hclean, fun pin hpin heq => ?_⟩
      have hpin' : pin ≠ ended := by
        rintro rfl
        rw [← heq, hpage, hfind, Option.some.injEq] at hother
        exact hframe hother.symm
      exact hwrote pin ((List.mem_erase_of_ne hpin').mpr hpin) heq

/-- **One action** of a disciplined client keeps the content of every page. -/
theorem next {action : ClientAction}
    {answer : PoolAnswer} {next : BufferPool PageMap}
    (hstep : PoolStep k pool action.toCall answer next)
    (hdisciplined : action.Disciplined log clients) :
    Contents k ((next, log.after action.toCall answer), clients.after action answer) := by
  have hpinned := h.pinned.next hstep hdisciplined.guarded
  have hpins : ∀ pin ∈ clients.pins, next.pageTable pin.pageId = some pin.frameId :=
    fun pin hpin => h.pinned.mapped_next hstep hpinned.inv (h.pins_mapped pin hpin)
      (h.outstanding_pos hpin)
  cases action with
  | newPage =>
    cases hstep with
    | newFails => exact h
    | new htaken =>
      -- nothing was ever written under a new id, so zeros are its content
      obtain ⟨hzero, hnone⟩ := h.unissued pool.nextPageId le_rfl
      have hcontent : clients.content pool.nextPageId = zeroData :=
        congrArg (fun written => written.getD zeroData) hnone
      have hne := (h.pinned.pageId_lt htaken.isFrame).ne'
      refine h.occupy htaken (PoolStep.find_next h.pinned.inv) hcontent.symm ?_
        (Int.le_add_one le_rfl) hpinned hpins ?_ rfl rfl
      · rw [writtenBack_of_ne hne, hzero, hcontent]
      · exact fun query hmem hquery => (List.mem_cons.mp hmem).resolve_left hquery
  | fetchPage pageId =>
    cases hstep with
    | fetchFails => exact h
    | fetchMiss hmiss htaken =>
      -- the write-back is of another page and leaves what is read as it was
      have hne := h.ne_pageId_of_kept htaken.isFrame hdisciplined.1 hdisciplined.2 hmiss
      have hdisk := (writtenBack_of_ne hne).trans
        (h.onDisk pageId hdisciplined.1 hdisciplined.2 hmiss)
      exact h.occupy htaken hmiss hdisk hdisk le_rfl hpinned hpins (fun _ hmem _ => hmem)
        rfl rfl
    | @fetchHit _ frameId _ hhit =>
      apply h.repin (by rfl) hpinned rfl rfl
      · intro pin hpin
        rcases List.mem_cons.mp hpin with rfl | hpin
        · exact hhit
        · exact h.pins_mapped pin hpin
      · exact h.pins_count_cons pageId frameId
      · intro query other hother hclean hwrote
        refine ⟨?_, fun pin hpin => hwrote pin (List.mem_cons_of_mem _ hpin)⟩
        rwa [read_update_page Page.isDirty (by rfl)] at hclean
  | unpinPage pageId isDirty ended =>
    cases hstep with
    | unpinFails => exact h
    | unpin hfind hpin =>
      have hheld : 0 < log.outstanding pageId := by
        rwa [h.pinned.outstanding_of_find hfind]
      obtain ⟨hended, hpage, hdirty⟩ := hdisciplined.2 hheld
      exact h.unpin hfind hended hpage hdirty hpinned
  | flushPage pageId =>
    cases hstep with
    | flushFails => exact h
    | flush hflush => exact h.flushStep hflush
  | flushAllPages =>
    cases hstep with
    | flushAll hflushes =>
      clear hpinned hpins
      induction hflushes with
      | refl => exact h
      | tail _ hflush ih => exact ih.flushStep hflush
  | deletePage pageId =>
    cases hstep with
    | deleteFails => exact h
    | deleteMiss hmiss =>
      exact ⟨hpinned, h.pins_mapped, h.pins_count, h.resident, h.clean,
        fun query hmem hkept => h.onDisk query hmem
          fun hdeleted => hkept (List.mem_cons_of_mem _ hdeleted), h.unissued⟩
    | delete hfind hunpinned hbooked hflags => exact h.release hfind hunpinned hbooked hflags
  | write pin data =>
    cases hstep with
    | store => exact h.write hdisciplined data hpinned

omit h

theorem step {state : (BufferPool PageMap × PoolLog) × Clients} (hk : 1 ≤ k)
    (h : Contents k state) {action : ClientAction}
    (hdisciplined : action.Disciplined state.1.2 state.2) :
    ∃ answer next, clientMachine.step state action = .ok (answer, next) ∧ Contents k next := by
  obtain ⟨⟨pool, log⟩, clients⟩ := state
  obtain ⟨answer, next, hstep, htransition⟩ := h.pinned.toObserved.exists_step hk action.toCall
  have haction : (observedPool.relabel ClientAction.toCall).step (pool, log) action =
      .ok (answer, next, log.after action.toCall answer) := hstep
  exact ⟨answer, _, Machine.withGhost_step_of_ok haction clients,
    h.next htransition hdisciplined⟩

theorem fetchPg (h : Contents k ((pool, log), clients)) (hk : 1 ≤ k)
    (hissued : pageId ∈ log.issued) (hkept : pageId ∉ log.deleted) {next : BufferPool PageMap}
    (hfetch : pool.fetchPg pageId = .ok (some frameId, next)) :
    (next.pages frameId).data = clients.content pageId := by
  have hdisciplined : (ClientAction.fetchPage pageId).Disciplined log clients := ⟨hissued, hkept⟩
  obtain ⟨answer, next', hstep, htransition⟩ := h.pinned.inv.exists_step hk (.fetchPage pageId)
  have hcall : (poolMachine PageMap).step pool (.fetchPage pageId) =
      .ok (.fetched (some frameId), next) := by
    simp only [poolMachine, hfetch]
    rfl
  rw [hcall, Except.ok.injEq, Prod.mk.injEq] at hstep
  obtain ⟨rfl, rfl⟩ := hstep
  have haction : PoolStep k pool (ClientAction.fetchPage pageId).toCall
      (.fetched (some frameId)) next := htransition
  have hnext := h.next haction hdisciplined
  exact hnext.resident pageId frameId (htransition.mapped_of_pins ⟨rfl, rfl⟩)

end Contents

end BusTub
