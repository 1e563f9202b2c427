import BusTub.Table.HeapRuns

/-!
# Table iterators

The model of `storage/table/table_iterator.cpp` and of `TableHeap::Begin`, and the proof
that a scan yields the table.

The code looks for the next tuple in three places: `Begin` walks the chain from its
first page, `GetNextTupleRid` looks at the rest of the current page, and `operator++`
walks the pages behind it.  All three look for the first element of one list, the rids
of the live tuples that are still to come, so the proof is about that list: an iterator
stands `At` a rid with a tail of rids behind it, and `operator++` moves it to the head of
the tail.
-/

namespace BusTub

open ByteMemory Machines

/-! ## The model -/

/-- `TableIterator`: the tuple it points to. -/
structure TableIterator where
  rid : Rid
  tuple : Tuple

namespace TableIterator

/-- `*this == table_heap_->End()`. -/
def isEnd (iterator : TableIterator) : Bool := iterator.rid = Rid.invalid

/-- `table_heap_->GetTuple(tuple_->rid_, tuple_, txn_)`: the old bytes stay if it fails. -/
def load (iterator : TableIterator) (frame : Bool) (pool : PagePool) (txn : Transaction) :
    TableIterator × PagePool × Transaction :=
  match TableHeap.getTuple frame pool txn iterator.rid with
  | (found, pool, txn) => ({ iterator with tuple := found.getD iterator.tuple }, pool, txn)

/-- The constructor. -/
def create (frame : Bool) (pool : PagePool) (txn : Transaction) (rid : Rid) :
    TableIterator × PagePool × Transaction :=
  if rid.pageId ≠ invalidPageId then load ⟨rid, .empty⟩ frame pool txn
  else (⟨rid, .empty⟩, pool, txn)

/-- The loop of `operator++` over the pages behind `curPageId`, which is pinned: the rid that
was found, the page that is pinned then, and the number of the next request. -/
def nextLoop (frames : ℕ → Bool) :
    ℕ → ℕ → PagePool → PageId → Except TableFault (Rid × PagePool × PageId × ℕ)
  | 0, _, _, _ => .error .endlessChain
  | fuel + 1, request, pool, curPageId =>
    let page : TablePage := pool.bytes curPageId
    let nextPageId := page.getNextPageId
    if nextPageId ≠ invalidPageId then
      if frames request then
        let nextPage : TablePage := pool.bytes nextPageId
        let pool := (pool.fetchPage nextPageId).unpinPage page.getTablePageId false
        match nextPage.getFirstTupleRid with
        | some rid => .ok (rid, pool, nextPageId, request + 1)
        | none => nextLoop frames fuel (request + 1) pool nextPageId
      else .error .nullPage
    else .ok (Rid.invalid, pool, curPageId, request)

/-- The rid that `operator++` moves to. -/
def nextRid (frames : ℕ → Bool) (rid : Rid) (pool : PagePool) :
    Except TableFault (Rid × PagePool × PageId × ℕ) :=
  match (pool.bytes rid.pageId).getNextTupleRid rid with
  | .error fault => .error fault
  | .ok (some next) => .ok (next, pool, rid.pageId, 1)
  | .ok none => nextLoop frames (pool.nextPageId.toNat + 1) 1 pool rid.pageId

/-- `operator++`. -/
def next (iterator : TableIterator) (frames : ℕ → Bool) (pool : PagePool) (txn : Transaction) :
    Except TableFault (TableIterator × PagePool × Transaction) :=
  if frames 0 then
    match nextRid frames iterator.rid (pool.fetchPage iterator.rid.pageId) with
    | .error fault => .error fault
    | .ok (rid, pool, curPageId, request) =>
      let moved := { iterator with rid := rid }
      let (moved, pool, txn) :=
        if moved.isEnd then (moved, pool, txn) else moved.load (frames request) pool txn
      .ok (moved, pool.unpinPage (pool.bytes curPageId).getTablePageId false, txn)
  else .error .nullPage

/-- A loop over the table that ends at `End()`: the rids and tuples that it sees.  The requests
of each `operator++` are numbered from zero. -/
def scan (frames : ℕ → ℕ → Bool) : ℕ → TableIterator → PagePool → Transaction →
    Except TableFault (List (Rid × Tuple) × PagePool × Transaction)
  | 0, _, _, _ => .error .endlessChain
  | fuel + 1, iterator, pool, txn =>
    if iterator.isEnd then .ok ([], pool, txn)
    else
      match iterator.next (frames fuel) pool txn with
      | .error fault => .error fault
      | .ok (moved, pool, txn) =>
        match scan frames fuel moved pool txn with
        | .error fault => .error fault
        | .ok (rest, pool, txn) => .ok ((iterator.rid, iterator.tuple) :: rest, pool, txn)

end TableIterator

namespace TableHeap

/-- The loop of `Begin`: the first rid and the number of the next request. -/
def beginLoop (frames : ℕ → Bool) :
    ℕ → ℕ → PagePool → PageId → Except TableFault (Rid × PagePool × ℕ)
  | 0, _, _, _ => .error .endlessChain
  | fuel + 1, request, pool, pageId =>
    if pageId ≠ invalidPageId then
      if frames request then
        let pool := pool.fetchPage pageId
        let page : TablePage := pool.bytes pageId
        let pool := pool.unpinPage pageId false
        match page.getFirstTupleRid with
        | some rid => .ok (rid, pool, request + 1)
        | none => beginLoop frames fuel (request + 1) pool page.getNextPageId
      else .error .nullPage
    else .ok (Rid.invalid, pool, request)

/-- `Begin`. -/
def begin (firstPageId : PageId) (frames : ℕ → Bool) (pool : PagePool) (txn : Transaction) :
    Except TableFault (TableIterator × PagePool × Transaction) :=
  match beginLoop frames (pool.nextPageId.toNat + 1) 0 pool firstPageId with
  | .error fault => .error fault
  | .ok (rid, pool, request) => .ok (TableIterator.create (frames request) pool txn rid)

/-- The loop over the table from `Begin()`. -/
def scan (firstPageId : PageId) (frames : ℕ → ℕ → Bool) (fuel : ℕ) (pool : PagePool)
    (txn : Transaction) : Except TableFault (List (Rid × Tuple) × PagePool × Transaction) :=
  match begin firstPageId (frames fuel) pool txn with
  | .error fault => .error fault
  | .ok (iterator, pool, txn) => iterator.scan frames fuel pool txn

end TableHeap

/-! ## The rids to come -/

namespace TablePage

/-- The slots from `start` on whose tuples are live. -/
def slotsFrom (page : TablePage) (start : ℕ) : List ℕ :=
  (List.range' start (page.getTupleCount - start)).filter fun slot =>
    (page.view.live slot).isSome

variable {page : TablePage}

theorem mem_slotsFrom {start slot : ℕ} :
    slot ∈ page.slotsFrom start ↔
      start ≤ slot ∧ slot < page.getTupleCount ∧ (page.view.live slot).isSome := by
  rw [slotsFrom, List.mem_filter, List.mem_range'_1]
  constructor
  · rintro ⟨hrange, hlive⟩
    exact ⟨hrange.1, by omega, hlive⟩
  · rintro ⟨hstart, hcount, hlive⟩
    exact ⟨by omega, hlive⟩

theorem slotsFrom_eq_cons {start slot : ℕ} {tail : List ℕ}
    (h : page.slotsFrom start = slot :: tail) : tail = page.slotsFrom (slot + 1) := by
  unfold slotsFrom at h ⊢
  generalize hcount : page.getTupleCount - start = count at h
  induction count generalizing start with
  | zero => cases h
  | succ count ih =>
    rw [List.range'_succ, List.filter_cons] at h
    have hrest : page.getTupleCount - (start + 1) = count := by omega
    split_ifs at h with hlive
    · rw [List.cons.injEq] at h
      obtain ⟨rfl, rfl⟩ := h
      rw [hrest]
    · exact ih hrest h

theorem isDeleted_eq {slot : ℕ} (hslot : slot < page.getTupleCount) :
    (!isDeleted (page.getTupleSize slot)) = (page.view.live slot).isSome := by
  have hget := page.getTuple_eq slot
  unfold getTuple at hget
  rw [if_neg (Nat.not_le.mpr hslot)] at hget
  rw [← hget]
  cases isDeleted (page.getTupleSize slot) <;> rfl

theorem liveSlotFrom_eq (page : TablePage) (start : ℕ) :
    page.liveSlotFrom start = (page.slotsFrom start).head? := by
  rw [liveSlotFrom, slotsFrom, ← List.head?_filter]
  congr 1
  apply List.filter_congr
  intro slot hmem
  rw [List.mem_range'_1] at hmem
  exact isDeleted_eq (by omega)

def ridsFrom (pageId : PageId) (page : TablePage) (start : ℕ) : List Rid :=
  (page.slotsFrom start).map fun slot => ⟨pageId, slot⟩

theorem getFirstTupleRid_eq {pageId : PageId}
    (hid : page.getTablePageId = pageId) :
    page.getFirstTupleRid = (ridsFrom pageId page 0).head? := by
  rw [getFirstTupleRid, liveSlotFrom_eq, ridsFrom, List.head?_map, hid]

theorem getNextTupleRid_eq {rid : Rid}
    (hid : page.getTablePageId = rid.pageId) :
    page.getNextTupleRid rid = .ok (ridsFrom rid.pageId page (rid.slotNum + 1)).head? := by
  rw [getNextTupleRid, if_neg (not_not.mpr hid.symm), liveSlotFrom_eq, ridsFrom, List.head?_map,
    hid]

end TablePage

namespace TableHeap

/-- The rids of the live tuples of some pages: page by page, and slot by slot. -/
def ridsOf (pool : PagePool) (pages : List PageId) : List Rid :=
  pages.flatMap fun pageId => TablePage.ridsFrom pageId (pool.bytes pageId) 0

/-- The rids of the live tuples of the heap, in the order of the chain and of the slots. -/
def liveRids (firstPageId : PageId) (pool : PagePool) : List Rid :=
  ridsOf pool (pageIds firstPageId pool)

variable {firstPageId : PageId} {base pool : PagePool} {chain : List PageId}

/-- An iterator at `rid` has the rids of `tail` still to visit. -/
def At (pool : PagePool) (chain : List PageId) (rid : Rid) (tail : List Rid) : Prop :=
  ∃ front rest, chain = front ++ rid.pageId :: rest ∧
    (((pool.bytes rid.pageId).view.live rid.slotNum).isSome) ∧
    tail = TablePage.ridsFrom rid.pageId (pool.bytes rid.pageId) (rid.slotNum + 1) ++
      ridsOf pool rest

variable {rid : Rid} {tail : List Rid}

theorem at_of_ridsFrom {front rest : List PageId} {pageId : PageId} {start : ℕ}
    (hchain : chain = front ++ pageId :: rest)
    (hrids : TablePage.ridsFrom pageId (pool.bytes pageId) start = rid :: tail) :
    At pool chain rid (tail ++ ridsOf pool rest) := by
  unfold TablePage.ridsFrom at hrids
  cases hslots : (pool.bytes pageId).slotsFrom start with
  | nil =>
    rw [hslots] at hrids
    cases hrids
  | cons slot slots =>
    rw [hslots, List.map_cons, List.cons.injEq] at hrids
    obtain ⟨rfl, rfl⟩ := hrids
    have hlive : slot ∈ (pool.bytes pageId).slotsFrom start := by
      rw [hslots]
      exact List.mem_cons_self
    refine ⟨front, rest, hchain, (TablePage.mem_slotsFrom.mp hlive).2.2, ?_⟩
    rw [TablePage.slotsFrom_eq_cons hslots]
    rfl

theorem at_of_ridsOf {front rest : List PageId}
    (hchain : chain = front ++ rest) (hrids : ridsOf pool rest = rid :: tail) :
    At pool chain rid tail := by
  induction rest generalizing front with
  | nil => cases hrids
  | cons pageId rest ih =>
    rw [ridsOf, List.flatMap_cons] at hrids
    cases hpage : TablePage.ridsFrom pageId (pool.bytes pageId) 0 with
    | nil =>
      rw [hpage, List.nil_append] at hrids
      have hrest : chain = (front ++ [pageId]) ++ rest := by rw [hchain, List.append_cons]
      exact ih hrest hrids
    | cons first others =>
      rw [hpage, List.cons_append, List.cons.injEq] at hrids
      obtain ⟨rfl, rfl⟩ := hrids
      exact at_of_ridsFrom hchain hpage

/-! ## The walks along the chain -/

/-- A pin on the next page is taken before the pin on the current one is given back. -/
theorem Pinned.move {pageId next : PageId} (h : Pinned base pool pageId) (hne : pageId ≠ next) :
    Pinned base ((pool.fetchPage next).unpinPage pageId false) next where
  bytes := by rw [PagePool.bytes_unpinPage, PagePool.bytes_fetchPage, h.bytes]
  pins := by
    rw [PagePool.pinCount_unpinPage, PagePool.pinCount_fetchPage, h.pins,
      Function.update_of_ne hne.symm, Function.update_of_ne hne, Function.update_self,
      Nat.add_sub_cancel, Function.update_comm hne.symm, Function.update_idem,
      Function.update_eq_self]
  next := h.next

variable {frames : ℕ → Bool}

/-- `operator++` finds the first rid of the pages behind the current one. -/
theorem nextLoop_eq (hsupply : ∀ request, frames request = true)
    {front rest : List PageId} {pageId : PageId}
    (h : IsHeap firstPageId base (front ++ pageId :: rest)) (hpinned : Pinned base pool pageId)
    (request : ℕ) {fuel : ℕ} (hfuel : rest.length < fuel) :
    ∃ pool' curPageId request',
      TableIterator.nextLoop frames fuel request pool pageId =
        .ok ((ridsOf base rest).headD Rid.invalid, pool', curPageId, request') ∧
      curPageId ∈ front ++ pageId :: rest ∧ Pinned base pool' curPageId := by
  induction rest generalizing front pageId pool request fuel with
  | nil =>
    obtain ⟨fuel, rfl⟩ := Nat.exists_eq_add_one_of_ne_zero (Nat.ne_zero_of_lt hfuel)
    have hend : (base.bytes pageId).getNextPageId = invalidPageId := h.linked.of_append
    refine ⟨pool, pageId, request, ?_, by simp, hpinned⟩
    simp only [TableIterator.nextLoop, hpinned.bytes, hend, ne_eq, not_true_eq_false, if_false]
    rfl
  | cons next rest ih =>
    obtain ⟨fuel, rfl⟩ := Nat.exists_eq_add_one_of_ne_zero (Nat.ne_zero_of_lt hfuel)
    have hlink : (base.bytes pageId).getNextPageId = next := h.linked.of_append
    have hvalid : next ≠ invalidPageId := h.ne_invalid (show next ∈ _ by simp)
    have hne : pageId ≠ next := by
      have hnodup := (List.nodup_append.mp h.nodup).2.1
      exact fun heq => (List.nodup_cons.mp hnodup).1 (heq ▸ List.mem_cons_self)
    have hmoved := hpinned.move hne
    have hnextid : (base.bytes next).getTablePageId = next := h.linked.id_eq (by simp)
    have hfirst := TablePage.getFirstTupleRid_eq hnextid
    simp only [TableIterator.nextLoop, hpinned.bytes, hlink, ne_eq, hvalid, not_false_eq_true,
      if_true, hsupply, h.linked.id_eq (show pageId ∈ _ by simp), hfirst]
    rw [ridsOf, List.flatMap_cons]
    cases hpage : TablePage.ridsFrom next (base.bytes next) 0 with
    | nil =>
      have happend : front ++ pageId :: next :: rest = (front ++ [pageId]) ++ next :: rest := by
        simp
      rw [happend] at h ⊢
      exact ih h hmoved (request + 1) (Nat.lt_of_succ_lt_succ hfuel)
    | cons rid tail => exact ⟨_, next, request + 1, rfl, by simp, hmoved⟩

theorem beginLoop_eq (hsupply : ∀ request, frames request = true)
    {front rest : List PageId} (h : IsHeap firstPageId base (front ++ rest))
    (hsame : Same base pool) (request : ℕ) {fuel : ℕ} (hfuel : rest.length < fuel) :
    ∃ pool' request', beginLoop frames fuel request pool (rest.headD invalidPageId) =
        .ok ((ridsOf base rest).headD Rid.invalid, pool', request') ∧ Same base pool' := by
  induction rest generalizing front pool request fuel with
  | nil =>
    obtain ⟨fuel, rfl⟩ := Nat.exists_eq_add_one_of_ne_zero (Nat.ne_zero_of_lt hfuel)
    exact ⟨pool, request, if_neg (not_not.mpr rfl), hsame⟩
  | cons pageId rest ih =>
    obtain ⟨fuel, rfl⟩ := Nat.exists_eq_add_one_of_ne_zero (Nat.ne_zero_of_lt hfuel)
    have hlink : (base.bytes pageId).getNextPageId = rest.headD invalidPageId :=
      h.linked.of_append
    have hvalid : pageId ≠ invalidPageId := h.ne_invalid (by simp)
    have hid : (base.bytes pageId).getTablePageId = pageId := h.linked.id_eq (by simp)
    have hunpinned := (hsame.fetch pageId).unpin false
    simp only [List.headD_cons, beginLoop, ne_eq, hvalid, not_false_eq_true, if_true, hsupply,
      (hsame.fetch pageId).bytes, TablePage.getFirstTupleRid_eq hid, hlink]
    rw [ridsOf, List.flatMap_cons]
    cases hpage : TablePage.ridsFrom pageId (base.bytes pageId) 0 with
    | nil =>
      rw [List.append_cons] at h
      exact ih h hunpinned (request + 1) (Nat.lt_of_succ_lt_succ hfuel)
    | cons rid tail => exact ⟨_, request + 1, rfl, hunpinned⟩

/-! ## Scans -/

def Loaded (pool : PagePool) (iterator : TableIterator) : Prop :=
  (pool.bytes iterator.rid.pageId).getTuple iterator.rid.slotNum = some iterator.tuple

/-- The iterator is at the first of the rids to come, or at the end. -/
def Stands (pool : PagePool) (chain : List PageId) (iterator : TableIterator) : List Rid → Prop
  | [] => iterator.rid = Rid.invalid
  | rid :: tail => iterator.rid = rid ∧ At pool chain rid tail ∧ Loaded pool iterator

theorem load_spec {pool : PagePool} (hbytes : pool.bytes = base.bytes) (iterator : TableIterator)
    (txn : Transaction)
    (hlive : ((base.bytes iterator.rid.pageId).view.live iterator.rid.slotNum).isSome) :
    ∃ moved pool', iterator.load true pool txn = (moved, pool', txn) ∧
      moved.rid = iterator.rid ∧ Loaded base moved ∧ pool'.bytes = pool.bytes ∧
      pool'.pinCount = pool.pinCount ∧ pool'.nextPageId = pool.nextPageId := by
  obtain ⟨pool', hget, hbytes', hpins, hnext⟩ := getTuple_eq pool txn iterator.rid
  have hlive' := hlive
  rw [← TablePage.getTuple_eq, Option.isSome_map, Option.isSome_iff_exists] at hlive'
  obtain ⟨tuple, htuple⟩ := hlive'
  rw [hbytes, htuple] at hget
  refine ⟨{ iterator with tuple := tuple }, pool', ?_, rfl, htuple, hbytes', hpins, hnext⟩
  simp [TableIterator.load, hget]

theorem IsHeap.rid_ne_invalid (h : IsHeap firstPageId base chain)
    (hat : At base chain rid tail) : rid ≠ Rid.invalid := by
  obtain ⟨front, rest, hchain, _⟩ := hat
  have hvalid := h.ne_invalid (show rid.pageId ∈ chain by rw [hchain]; simp)
  exact fun heq => hvalid (heq ▸ rfl)

variable {rids : List Rid}

theorem arrive_spec (h : IsHeap firstPageId base chain) {pool : PagePool}
    (hbytes : pool.bytes = base.bytes) (tuple : Tuple) (txn : Transaction)
    (hat : ∀ rid tail, rids = rid :: tail → At base chain rid tail) :
    ∃ moved pool',
      (if TableIterator.isEnd ⟨rids.headD Rid.invalid, tuple⟩
        then ((⟨rids.headD Rid.invalid, tuple⟩ : TableIterator), pool, txn)
        else TableIterator.load ⟨rids.headD Rid.invalid, tuple⟩ true pool txn) =
          (moved, pool', txn) ∧
      Stands base chain moved rids ∧ pool'.bytes = pool.bytes ∧
      pool'.pinCount = pool.pinCount ∧ pool'.nextPageId = pool.nextPageId := by
  cases rids with
  | nil =>
    refine ⟨⟨Rid.invalid, tuple⟩, pool, ?_, rfl, rfl, rfl, rfl⟩
    exact if_pos (decide_eq_true rfl)
  | cons rid tail =>
    have hrid := hat rid tail rfl
    obtain ⟨front, rest, hchain, hlive, htail⟩ := hrid
    obtain ⟨moved, pool', hload, hmoved, hloaded, hsame⟩ :=
      load_spec hbytes ⟨rid, tuple⟩ txn hlive
    refine ⟨moved, pool', ?_, ⟨hmoved, ⟨front, rest, hchain, hlive, htail⟩, hloaded⟩, hsame⟩
    rw [if_neg, List.headD_cons, hload]
    rw [TableIterator.isEnd, decide_eq_true_iff]
    exact h.rid_ne_invalid ⟨front, rest, hchain, hlive, htail⟩

theorem create_eq (h : IsHeap firstPageId base chain) (frame : Bool) (pool : PagePool)
    (txn : Transaction)
    (hat : ∀ rid tail, rids = rid :: tail → At base chain rid tail) :
    TableIterator.create frame pool txn (rids.headD Rid.invalid) =
      if TableIterator.isEnd ⟨rids.headD Rid.invalid, .empty⟩
        then ((⟨rids.headD Rid.invalid, .empty⟩ : TableIterator), pool, txn)
        else TableIterator.load ⟨rids.headD Rid.invalid, .empty⟩ frame pool txn := by
  cases rids with
  | nil =>
    exact (if_neg (not_not.mpr rfl)).trans (if_pos (decide_eq_true rfl)).symm
  | cons rid tail =>
    have hne := h.rid_ne_invalid (hat rid tail rfl)
    obtain ⟨front, rest, hchain, _⟩ := hat rid tail rfl
    have hvalid := h.ne_invalid (show rid.pageId ∈ chain by rw [hchain]; simp)
    rw [if_neg (by rw [TableIterator.isEnd, decide_eq_true_iff]; exact hne)]
    exact if_pos hvalid

theorem nextRid_eq (h : IsHeap firstPageId base chain)
    (hsupply : ∀ request, frames request = true)
    (hat : At base chain rid tail) (hpinned : Pinned base pool rid.pageId) :
    ∃ pool' curPageId request', TableIterator.nextRid frames rid pool =
        .ok (tail.headD Rid.invalid, pool', curPageId, request') ∧
      curPageId ∈ chain ∧ Pinned base pool' curPageId ∧
      ∀ next rest, tail = next :: rest → At base chain next rest := by
  obtain ⟨front, rest, rfl, _, rfl⟩ := hat
  have hid : (base.bytes rid.pageId).getTablePageId = rid.pageId := h.linked.id_eq (by simp)
  unfold TableIterator.nextRid
  rw [hpinned.bytes, TablePage.getNextTupleRid_eq hid]
  cases hpage : TablePage.ridsFrom rid.pageId (base.bytes rid.pageId) (rid.slotNum + 1) with
  | nil =>
    have hlength := h.length_le
    simp only [List.length_append, List.length_cons, ← hpinned.next] at hlength
    obtain ⟨pool', curPageId, request', hloop, hcur, hpinned'⟩ :=
      nextLoop_eq hsupply h hpinned 1 (show rest.length < pool.nextPageId.toNat + 1 by omega)
    refine ⟨pool', curPageId, request', hloop, hcur, hpinned', fun next others hrids => ?_⟩
    exact at_of_ridsOf (List.append_cons front rid.pageId rest) hrids
  | cons next others =>
    refine ⟨pool, rid.pageId, 1, rfl, by simp, hpinned, fun next' rest' hrids => ?_⟩
    obtain ⟨rfl, rfl⟩ := hrids
    exact at_of_ridsFrom rfl hpage

/-- **One step** of a scan. -/
theorem next_spec (h : IsHeap firstPageId base chain)
    (hsupply : ∀ request, frames request = true) {iterator : TableIterator}
    (hat : At base chain iterator.rid tail) (hsame : Same base pool) (txn : Transaction) :
    ∃ moved pool', iterator.next frames pool txn = .ok (moved, pool', txn) ∧
      Stands base chain moved tail ∧ Same base pool' := by
  obtain ⟨pool₁, curPageId, request, hrid, hcur, hpinned, hstands⟩ :=
    nextRid_eq h hsupply hat (hsame.fetch iterator.rid.pageId)
  obtain ⟨moved, pool₂, harrive, hmoved, hbytes, hpins, hnext⟩ :=
    arrive_spec h hpinned.bytes iterator.tuple txn hstands
  have hpinned₂ : Pinned base pool₂ curPageId :=
    ⟨hbytes.trans hpinned.bytes, hpins.trans hpinned.pins, hnext.trans hpinned.next⟩
  refine ⟨moved, pool₂.unpinPage curPageId false, ?_, hmoved, hpinned₂.unpin false⟩
  simp only [TableIterator.next, hsupply, if_true, hrid, harrive, hpinned₂.bytes,
    h.linked.id_eq hcur]

/-- **Every scan** from an iterator sees the rids to come, with their tuples. -/
theorem iterator_scan_eq (h : IsHeap firstPageId base chain) {frames : ℕ → ℕ → Bool}
    (hsupply : ∀ step request, frames step request = true) (txn : Transaction)
    {fuel : ℕ} (hfuel : rids.length < fuel) {iterator : TableIterator}
    (hstands : Stands base chain iterator rids) (hsame : Same base pool) :
    ∃ tuples pool', iterator.scan frames fuel pool txn = .ok (tuples, pool', txn) ∧
      tuples.map Prod.fst = rids ∧ Same base pool' ∧
      ∀ entry ∈ tuples, (base.bytes entry.1.pageId).getTuple entry.1.slotNum = some entry.2 := by
  induction rids generalizing fuel iterator pool with
  | nil =>
    obtain ⟨fuel, rfl⟩ := Nat.exists_eq_add_one_of_ne_zero (Nat.ne_zero_of_lt hfuel)
    have hend : iterator.rid = Rid.invalid := hstands
    refine ⟨[], pool, ?_, rfl, hsame, fun entry hmem => (nomatch hmem)⟩
    exact if_pos (decide_eq_true hend)
  | cons rid tail ih =>
    obtain ⟨fuel, rfl⟩ := Nat.exists_eq_add_one_of_ne_zero (Nat.ne_zero_of_lt hfuel)
    obtain ⟨rfl, hat, hloaded⟩ := hstands
    obtain ⟨moved, pool₁, hnext, hmoved, hsame₁⟩ := next_spec h (hsupply fuel) hat hsame txn
    obtain ⟨tuples, pool₂, hscan, hrids, hsame₂, htuples⟩ :=
      ih (Nat.lt_of_succ_lt_succ hfuel) hmoved hsame₁
    have hend : ¬ iterator.isEnd = true := by
      rw [TableIterator.isEnd, decide_eq_true_iff]
      exact h.rid_ne_invalid hat
    refine ⟨(iterator.rid, iterator.tuple) :: tuples, pool₂, ?_, ?_, hsame₂, ?_⟩
    · simp [TableIterator.scan, if_neg hend, hnext, hscan]
    · rw [List.map_cons, hrids]
    · intro entry hmem
      rcases List.mem_cons.mp hmem with rfl | hrest
      · exact hloaded
      · exact htuples entry hrest

/-- `Begin` is at the first live tuple of the heap. -/
theorem begin_spec (h : IsHeap firstPageId pool chain)
    (hsupply : ∀ request, frames request = true) (txn : Transaction) :
    ∃ iterator pool', begin firstPageId frames pool txn = .ok (iterator, pool', txn) ∧
      Stands pool chain iterator (ridsOf pool chain) ∧ Same pool pool' := by
  have hfirst : chain.headD invalidPageId = firstPageId := by
    rw [List.headD_eq_head?_getD, h.head, Option.getD_some]
  obtain ⟨pool₁, request, hloop, hsame⟩ := beginLoop_eq hsupply
    (show IsHeap firstPageId pool ([] ++ chain) from h) ⟨rfl, rfl, rfl⟩ 0
    (Nat.lt_succ_of_le h.length_le)
  rw [hfirst] at hloop
  have hat : ∀ rid tail, ridsOf pool chain = rid :: tail → At pool chain rid tail :=
    fun rid tail hrids => at_of_ridsOf (List.nil_append chain).symm hrids
  obtain ⟨iterator, pool₂, harrive, hstands, hbytes, hpins, hnext⟩ :=
    arrive_spec h hsame.bytes .empty txn hat
  refine ⟨iterator, pool₂, ?_, hstands, hbytes.trans hsame.bytes, hpins.trans hsame.pins,
    hnext.trans hsame.next⟩
  simp only [begin, hloop, hsupply, create_eq h true pool₁ txn hat, harrive]

theorem mem_ridsOf {pages : List PageId} :
    rid ∈ ridsOf pool pages ↔
      rid.pageId ∈ pages ∧ ((pool.bytes rid.pageId).view.live rid.slotNum).isSome := by
  simp only [ridsOf, TablePage.ridsFrom, List.mem_flatMap, List.mem_map, TablePage.mem_slotsFrom]
  constructor
  · rintro ⟨pageId, hmem, slot, ⟨_, _, hlive⟩, rfl⟩
    exact ⟨hmem, hlive⟩
  · rintro ⟨hmem, hlive⟩
    refine ⟨rid.pageId, hmem, rid.slotNum, ⟨Nat.zero_le _, ?_, hlive⟩, rfl⟩
    by_contra hslot
    have hnone : (pool.bytes rid.pageId).view.contents rid.slotNum = none :=
      TablePage.contents_of_count_le (Nat.le_of_not_lt hslot)
    rw [SlotMap.live, hnone] at hlive
    cases hlive

theorem nodup_ridsOf {pages : List PageId} (hnodup : pages.Nodup) :
    (ridsOf pool pages).Nodup := by
  refine List.nodup_flatMap.mpr ⟨fun pageId _ => ?_, hnodup.imp fun hne => ?_⟩
  · refine List.Nodup.map (fun slot other heq => congrArg Rid.slotNum heq) ?_
    exact (List.nodup_range').filter _
  · intro rid hfirst hsecond
    obtain ⟨slot, _, rfl⟩ := List.mem_map.mp hfirst
    obtain ⟨slot', _, heq⟩ := List.mem_map.mp hsecond
    exact hne (congrArg Rid.pageId heq).symm

/-- **Scans.**  In every heap that a run reaches, and if the pool has a frame for each
request, a loop from `Begin()` to `End()` ends.  It sees the live tuples page by page and
slot by slot, each once, with the bytes that `GetTuple` returns for them. -/
theorem scan_eq_liveRids (hreachable : Reachable firstPageId pool) (txn : Transaction)
    (frames : ℕ → ℕ → Bool) (hsupply : ∀ step request, frames step request = true) (fuel : ℕ)
    (hfuel : (liveRids firstPageId pool).length < fuel) :
    (∃ tuples pool', scan firstPageId frames fuel pool txn = .ok (tuples, pool', txn) ∧
      tuples.map Prod.fst = liveRids firstPageId pool ∧
      (∀ entry ∈ tuples, (getTuple true pool txn entry.1).1 = some entry.2) ∧
      Same pool pool') ∧
    (liveRids firstPageId pool).Nodup ∧
    ∀ rid, rid ∈ liveRids firstPageId pool ↔
      ∃ bytes, contents firstPageId pool rid = some ⟨bytes, false⟩ := by
  obtain ⟨chain, h⟩ := hreachable.isHeap
  unfold liveRids at hfuel ⊢
  rw [h.pageIds_eq] at hfuel ⊢
  refine ⟨?_, nodup_ridsOf h.nodup, fun rid => ?_⟩
  · obtain ⟨iterator, pool₁, hbegin, hstands, hsame⟩ := begin_spec h (hsupply fuel) txn
    obtain ⟨tuples, pool₂, hscan, hrids, hsame₂, htuples⟩ :=
      iterator_scan_eq h hsupply txn hfuel hstands hsame
    refine ⟨tuples, pool₂, ?_, hrids, fun entry hmem => ?_, hsame₂⟩
    · simp [scan, hbegin, hscan]
    · obtain ⟨_, hget, _⟩ := TableHeap.getTuple_eq pool txn entry.1
      rw [hget, htuples entry hmem]
  · rw [mem_ridsOf]
    by_cases hmem : rid.pageId ∈ chain
    · rw [h.contents_of_mem hmem, and_iff_right hmem, SlotMap.live]
      rcases (pool.bytes rid.pageId).view.contents rid.slotNum with _ | ⟨bytes, _ | _⟩ <;> simp
    · simp [h.contents_of_notMem hmem, hmem, reduceCtorEq]

theorem scan_eq_liveRids_one :
    ∃ pool tuples pool', Reachable 0 pool ∧
      scan 0 (fun _ _ => true) 2 pool .fresh = .ok (tuples, pool', .fresh) ∧
      tuples.map Prod.fst = [⟨0, 0⟩] := by
  obtain ⟨created, hcreate, _⟩ := create_freshPool
  have hcheck : ((create freshPool true).toOption.all fun result =>
      ((heapMachine 0).run result.2 [.insert (fun _ => true) .fresh ⟨[7], by decide⟩]).isOk &&
        ((heapMachine 0).run result.2 [.insert (fun _ => true) .fresh
          ⟨[7], by decide⟩]).toOption.all fun final => liveRids 0 final.2 = [⟨0, 0⟩]) = true := by
    decide +kernel
  rw [hcreate] at hcheck
  cases hrun : (heapMachine 0).run created
      [.insert (fun _ => true) .fresh ⟨[7], by decide⟩] with
  | error fault => simp [Except.toOption, Except.isOk, Except.toBool, hrun] at hcheck
  | ok final =>
    obtain ⟨answers, pool⟩ := final
    have hrids : liveRids 0 pool = [⟨0, 0⟩] := by
      simpa [Except.toOption, Except.isOk, Except.toBool, hrun] using hcheck
    have hreachable : Reachable 0 pool := by
      refine ⟨freshPool, true, created, _, answers, ready_freshPool, hcreate, ?_, hrun⟩
      exact ⟨trivial, fun _ _ _ => trivial⟩
    obtain ⟨⟨tuples, pool', hscan, htuples, _⟩, _⟩ := scan_eq_liveRids hreachable .fresh
      (fun _ _ => true) (fun _ _ => rfl) 2 (by rw [hrids]; decide)
    exact ⟨pool, tuples, pool', hreachable, hscan, htuples.trans hrids⟩

end TableHeap

end BusTub
