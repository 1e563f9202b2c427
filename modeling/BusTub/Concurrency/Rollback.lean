import BusTub.Concurrency.TransactionManager

/-!
# What `Abort` undoes

One transaction runs alone on a table heap and then aborts.  `Abort` goes through the write set
from the back and undoes one entry after the other.

Undoing leaves the pages with more slots than they had, since no slot is ever given back, and
pages that were appended stay.  `Like` compares two pools up to this: the same tuples and free
space on the pages of the first one, and no tuples on the pages that the second one has in
addition.  Undoing a call takes a pool that is like the state after the call to one that is like
the state before it; the run lemma is an induction over the calls.

Three things can keep a call from being undone.  `UpdateTuple` does not record anything in an
aborted transaction.  `MarkDelete` records a deletion even if the tuple was marked before the
transaction began.  And an update that made a tuple smaller cannot be undone if slots that were
added later have taken its space.  The conditions `Careful` and `Roomy` exclude them.
-/

namespace BusTub

open Function ByteMemory Machines TableHeap TransactionManager

/-! ## A transaction on its own -/

/-- The pool and the transaction; for every update in the write set, its page and the free
space pointer of the page before it.  No code reads the last part. -/
structure TxnState where
  pool : PagePool
  txn : Transaction
  updates : List (PageId × ℕ)

def updateOf (pool : PagePool) (txn txn' : Transaction) : TxnCall → List (PageId × ℕ)
  | .update _ _ rid =>
    if txn'.writeSet.length = txn.writeSet.length then []
    else [(rid.pageId, (pool.bytes rid.pageId).getFreeSpacePointer)]
  | _ => []

def txnMachine (firstPageId : PageId) : Machine TxnState TxnCall Unit TableFault where
  step state call :=
    (call.apply firstPageId state.pool state.txn).map fun result =>
      ((), ⟨result.1, result.2, state.updates ++ updateOf state.pool state.txn result.2 call⟩)

def TxnCall.Names (firstPageId : PageId) (pool : PagePool) : TxnCall → Prop
  | .insert _ _ => True
  | .mark _ rid => contents firstPageId pool rid ≠ none
  | .update _ _ rid => contents firstPageId pool rid ≠ none

/-- A tuple that is marked is not marked by anyone else, and an aborted transaction makes
no updates. -/
def Careful (firstPageId : PageId) (state : TxnState) : TxnCall → Prop
  | .insert _ _ => True
  | .mark frame rid => frame = true →
      (∃ bytes, contents firstPageId state.pool rid = some ⟨bytes, false⟩) ∨
        Deletes state.txn.writeSet rid
  | .update _ _ _ => state.txn.state ≠ .aborted

/-- The slots of each page leave the space that the page had before each update. -/
def Roomy (state : TxnState) : Prop :=
  ∀ update ∈ state.updates, 24 + 8 * (state.pool.bytes update.1).getTupleCount ≤ update.2

/-! ## Pools that are alike -/

/-- Two slots hold the same tuple, and if they may not differ in it, the same mark. -/
def Agrees (mayDiffer : Prop) (first second : Option Stored) : Prop :=
  first.map Stored.bytes = second.map Stored.bytes ∧ (¬ mayDiffer → first = second)

/-- `pool` has the tuples and the free space of `base` on the pages of `chain`, and no tuples on
the pages of `extra`.  Tuples of DELETE entries may differ in their mark. -/
structure Like (firstPageId : PageId) (records : List WriteRecord) (base : PagePool)
    (chain extra : List PageId) (counts : PageId → ℕ) (pool : PagePool) : Prop where
  heap : IsHeap firstPageId pool (chain ++ extra)
  pointers : ∀ pageId ∈ chain,
    (pool.bytes pageId).view.pointer = (base.bytes pageId).view.pointer
  slots : ∀ pageId ∈ chain, ∀ slot, Agrees (Deletes records ⟨pageId, slot⟩)
    ((pool.bytes pageId).view.contents slot) ((base.bytes pageId).view.contents slot)
  empty : ∀ pageId ∈ extra, ∀ slot, (pool.bytes pageId).view.contents slot = none
  counts_eq : ∀ pageId ∈ chain ++ extra, (pool.bytes pageId).view.count = counts pageId

variable {firstPageId : PageId} {records : List WriteRecord} {base base' pool pool' : PagePool}
  {chain extra : List PageId} {counts : PageId → ℕ} {rid : Rid}

theorem Agrees.mono {mayDiffer mayDiffer' : Prop} {first second : Option Stored}
    (h : Agrees mayDiffer first second) (himp : mayDiffer → mayDiffer') :
    Agrees mayDiffer' first second :=
  ⟨h.1, fun hnot => h.2 fun hdiffer => hnot (himp hdiffer)⟩

theorem Agrees.of_eq {mayDiffer : Prop} {first second : Option Stored} (h : first = second) :
    Agrees mayDiffer first second :=
  ⟨congrArg _ h, fun _ => h⟩

/-- A call changed one slot of `base`, and undoing it changes this slot back. -/
theorem Like.edit {records' : List WriteRecord} {after undone : SlotMap} {new old : Option Stored}
    (h : Like firstPageId records' base' chain extra counts pool) (hmem : rid.pageId ∈ chain)
    (hcall : Edited base base' rid.pageId after)
    (hafter : after.contents =
      update (base.bytes rid.pageId).view.contents rid.slotNum new)
    (hheap : IsHeap firstPageId pool' (chain ++ extra))
    (hundo : Edited pool pool' rid.pageId undone)
    (hcontents : undone.contents =
      update (pool.bytes rid.pageId).view.contents rid.slotNum old)
    (hcount : undone.count = (pool.bytes rid.pageId).view.count)
    (hpointer : undone.pointer = (base.bytes rid.pageId).view.pointer)
    (hold : Agrees (Deletes records rid) old
      ((base.bytes rid.pageId).view.contents rid.slotNum))
    (hrecords : ∀ other, other ≠ rid → Deletes records' other → Deletes records other) :
    Like firstPageId records base chain extra counts pool' where
  heap := hheap
  pointers := by
    intro pageId hpage
    by_cases hsame : pageId = rid.pageId
    · rw [hsame, hundo.view, hpointer]
    · rw [hundo.others pageId hsame, h.pointers pageId hpage, hcall.others pageId hsame]
  slots := by
    intro pageId hpage slot
    have hslot := h.slots pageId hpage slot
    by_cases hsame : pageId = rid.pageId
    · subst hsame
      rw [hcall.view, hafter] at hslot
      rw [hundo.view, hcontents]
      by_cases hrid : slot = rid.slotNum
      · subst hrid
        rw [update_self]
        exact hold
      · have hne : (⟨rid.pageId, slot⟩ : Rid) ≠ rid := fun heq => hrid (congrArg Rid.slotNum heq)
        rw [update_of_ne hrid] at hslot ⊢
        exact hslot.mono (hrecords _ hne)
    · have hne : (⟨pageId, slot⟩ : Rid) ≠ rid := fun heq => hsame (congrArg Rid.pageId heq)
      rw [hundo.others pageId hsame]
      rw [hcall.others pageId hsame] at hslot
      exact hslot.mono (hrecords _ hne)
  empty := by
    intro pageId hpage slot
    have hne : pageId ≠ rid.pageId := by
      rintro rfl
      exact (List.nodup_append.mp h.heap.nodup).2.2 _ hmem _ hpage rfl
    rw [hundo.others pageId hne]
    exact h.empty pageId hpage slot
  counts_eq := by
    intro pageId hpage
    by_cases hsame : pageId = rid.pageId
    · subst hsame
      rw [hundo.view, hcount]
      exact h.counts_eq _ hpage
    · rw [hundo.others pageId hsame]
      exact h.counts_eq pageId hpage

/-! ## Undoing one call -/

theorem deletes_append {new : WriteRecord} :
    Deletes (records ++ [new]) rid ↔ Deletes records rid ∨ new.wtype = .delete ∧ new.rid = rid := by
  constructor
  · rintro ⟨record, hmem, hboth⟩
    rcases List.mem_append.mp hmem with hold | hnew
    · exact .inl ⟨record, hold, hboth⟩
    · rw [List.mem_singleton] at hnew
      exact .inr (hnew ▸ hboth)
  · rintro (⟨record, hmem, hboth⟩ | hboth)
    · exact ⟨record, List.mem_append_left _ hmem, hboth⟩
    · exact ⟨new, List.mem_append_right _ (List.mem_singleton_self _), hboth⟩

def Marked (firstPageId : PageId) (pool : PagePool) (records : List WriteRecord) : Prop :=
  ∀ rid, Deletes records rid → ∃ bytes, contents firstPageId pool rid = some ⟨bytes, true⟩

theorem undo_found (rid : Rid) (hbase : IsHeap firstPageId base chain)
    (hmarked : Marked firstPageId base records) {bytes : List UInt8} {after : SlotMap}
    (hmem : rid.pageId ∈ chain)
    (hinsert : (base.bytes rid.pageId).view.insert bytes = some (rid.slotNum, after))
    (hcall : Edited base base' rid.pageId after)
    (h : Like firstPageId (records ++ [⟨rid, .insert, .empty⟩]) base' chain extra counts pool) :
    ∃ pool', abortRecord true pool ⟨rid, .insert, .empty⟩ = .ok pool' ∧
      Like firstPageId records base chain extra counts pool' := by
  obtain ⟨hfree, hafter⟩ := insert_contents (TablePage.contents_of_count_le le_rfl) hinsert
  obtain ⟨hroom, _, hview⟩ := SlotMap.insert_eq_some_iff.mp hinsert
  have hchain : rid.pageId ∈ chain ++ extra := List.mem_append_left _ hmem
  have hnot : ¬ Deletes (records ++ [⟨rid, .insert, .empty⟩]) rid := by
    rw [deletes_append]
    rintro (hdeletes | ⟨htype, _⟩)
    · obtain ⟨old, hold⟩ := hmarked rid hdeletes
      rw [hbase.contents_of_mem hmem, hfree] at hold
      cases hold
    · cases htype
  have hstored : contents firstPageId pool rid = some ⟨bytes, false⟩ := by
    rw [h.heap.contents_of_mem hchain, (h.slots _ hmem rid.slotNum).2 hnot, hcall.view, hafter,
      update_self]
  obtain ⟨pool', hdelete, hheap, hundo, _⟩ := applyDelete_contents h.heap hstored
  refine ⟨pool', hdelete, h.edit hmem hcall hafter hheap hundo rfl rfl ?_ ?_ ?_⟩
  · have hpointer := h.pointers _ hmem
    rw [hcall.view, hview] at hpointer
    rw [hpointer]
    change (base.bytes rid.pageId).view.pointer - bytes.length + bytes.length = _
    omega
  · exact Agrees.of_eq hfree.symm
  · intro other _ hdeletes
    rw [deletes_append] at hdeletes
    exact hdeletes.resolve_right fun hboth => (nomatch hboth.1)

/-- A deletion is undone, if the tuple was not marked or is one of the transaction's own. -/
theorem undo_mark (hmem : rid.pageId ∈ chain)
    (hbase : (base.bytes rid.pageId).view.contents rid.slotNum ≠ none)
    (hcareful : (∃ bytes, (base.bytes rid.pageId).view.contents rid.slotNum =
      some ⟨bytes, false⟩) ∨ Deletes records rid)
    (hcall : Edited base base' rid.pageId (((base.bytes rid.pageId).view.mark rid.slotNum).getD
      (base.bytes rid.pageId).view))
    (h : Like firstPageId (records ++ [⟨rid, .delete, .empty⟩]) base' chain extra counts pool) :
    ∃ pool', abortRecord true pool ⟨rid, .delete, .empty⟩ = .ok pool' ∧
      Like firstPageId records base chain extra counts pool' := by
  obtain ⟨stored, hbase⟩ := Option.ne_none_iff_exists'.mp hbase
  have hchain : rid.pageId ∈ chain ++ extra := List.mem_append_left _ hmem
  -- the page marks the tuple, or it was marked already
  have hafter : (((base.bytes rid.pageId).view.mark rid.slotNum).getD
      (base.bytes rid.pageId).view).contents = update (base.bytes rid.pageId).view.contents
        rid.slotNum (some ⟨stored.bytes, true⟩) ∧
      (((base.bytes rid.pageId).view.mark rid.slotNum).getD
        (base.bytes rid.pageId).view).pointer = (base.bytes rid.pageId).view.pointer := by
    obtain ⟨bytes, marked⟩ := stored
    cases marked with
    | false =>
      rw [SlotMap.mark_eq_some_iff.mpr ⟨bytes, hbase, rfl⟩]
      exact ⟨rfl, rfl⟩
    | true =>
      have hnone : (base.bytes rid.pageId).view.mark rid.slotNum = none := by
        rw [SlotMap.mark_eq_none_iff, hbase]
        intro other heq
        cases heq
      rw [hnone]
      exact ⟨(update_eq_self_iff.mpr hbase.symm).symm, rfl⟩
  have hagrees := (h.slots _ hmem rid.slotNum).1
  rw [hcall.view, hafter.1, update_self, Option.map_some] at hagrees
  obtain ⟨found, hfound, hbytes⟩ := Option.map_eq_some_iff.mp hagrees
  have hstored : contents firstPageId pool rid = some found := by
    rw [h.heap.contents_of_mem hchain, hfound]
  obtain ⟨pool', hrollback, hheap, hundo, _⟩ := rollbackDelete_contents h.heap hstored
  refine ⟨pool', hrollback, h.edit hmem hcall hafter.1 hheap hundo rfl rfl ?_ ?_ ?_⟩
  · have hpointer := h.pointers _ hmem
    rw [hcall.view, hafter.2] at hpointer
    exact hpointer
  · rw [hfound, Option.map_some, hbase]
    refine ⟨by rw [Option.map_some, Option.map_some, hbytes], fun hnot => ?_⟩
    obtain ⟨bytes, hunmarked⟩ := hcareful.resolve_right hnot
    rw [hbase, Option.some.injEq] at hunmarked
    subst hunmarked
    rw [hbytes]
  · intro other hne hdeletes
    rw [deletes_append] at hdeletes
    exact hdeletes.resolve_right fun hboth => hne hboth.2.symm

theorem undo_update (hbase : IsHeap firstPageId base chain)
    (hmarked : Marked firstPageId base records) (hmem : rid.pageId ∈ chain) {tuple old : Tuple}
    {after : SlotMap}
    (hupdate : (base.bytes rid.pageId).view.update rid.slotNum tuple.data = some (old.data, after))
    (hcall : Edited base base' rid.pageId after)
    (hroom : 24 + 8 * counts rid.pageId ≤ (base.bytes rid.pageId).view.pointer)
    (h : Like firstPageId (records ++ [⟨rid, .update, old⟩]) base' chain extra counts pool) :
    ∃ pool', abortRecord true pool ⟨rid, .update, old⟩ = .ok pool' ∧
      Like firstPageId records base chain extra counts pool' := by
  obtain ⟨hold, hfits, rfl⟩ := SlotMap.update_eq_some_iff.mp hupdate
  have hchain : rid.pageId ∈ chain ++ extra := List.mem_append_left _ hmem
  have hcontents : contents firstPageId base rid = some ⟨old.data, false⟩ :=
    (hbase.contents_of_mem hmem).trans hold
  have hpos : old.size ≠ 0 := fun hzero =>
    (hbase.of_contents hcontents).2.2.2 (List.eq_nil_of_length_eq_zero hzero)
  have hnot : ¬ Deletes (records ++ [⟨rid, .update, old⟩]) rid := by
    rw [deletes_append]
    rintro (hdeletes | ⟨htype, _⟩)
    · obtain ⟨bytes, hbytes⟩ := hmarked rid hdeletes
      rw [hcontents] at hbytes
      cases hbytes
    · cases htype
  have hstored : (pool.bytes rid.pageId).view.contents rid.slotNum = some ⟨tuple.data, false⟩ := by
    rw [(h.slots _ hmem rid.slotNum).2 hnot, hcall.view]
    exact update_self _ _ _
  have hpointer := h.pointers _ hmem
  rw [hcall.view] at hpointer
  change (pool.bytes rid.pageId).view.pointer =
    (base.bytes rid.pageId).view.pointer + old.data.length - tuple.data.length at hpointer
  have hcount := h.counts_eq _ hchain
  obtain ⟨oldTuple, pool', _, hends, hheap, hundo⟩ := updateTuple_some h.heap hchain hpos
    (SlotMap.update_eq_some_iff.mpr ⟨hstored, by rw [hcount, hpointer]; omega, rfl⟩)
  refine ⟨pool', ?_, h.edit hmem hcall rfl hheap hundo rfl rfl ?_ ?_ ?_⟩
  · change (updateTuple true pool ⟨.aborted, []⟩ old rid).map (fun result => result.2.1) = _
    rw [hends]
    rfl
  · change (pool.bytes rid.pageId).view.pointer + tuple.data.length - old.data.length = _
    omega
  · exact Agrees.of_eq hold.symm
  · intro other _ hdeletes
    rw [deletes_append] at hdeletes
    exact hdeletes.resolve_right fun hboth => (nomatch hboth.1)

/-! Calls that put nothing into the write set. -/

/-- The pages of `base` are those of `base'`, as far as `base` has them. -/
theorem Like.of_views {chain' : List PageId}
    (h : Like firstPageId records base' (chain ++ chain') extra counts pool)
    (hviews : ∀ pageId ∈ chain, (base'.bytes pageId).view = (base.bytes pageId).view)
    (hempty : ∀ pageId ∈ chain', ∀ slot, (base'.bytes pageId).view.contents slot = none) :
    Like firstPageId records base chain (chain' ++ extra) counts pool where
  heap := by
    rw [← List.append_assoc]
    exact h.heap
  pointers := by
    intro pageId hpage
    rw [h.pointers pageId (List.mem_append_left _ hpage), hviews pageId hpage]
  slots := by
    intro pageId hpage slot
    rw [← hviews pageId hpage]
    exact h.slots pageId (List.mem_append_left _ hpage) slot
  empty := by
    intro pageId hpage slot
    rcases List.mem_append.mp hpage with hnew | hextra
    · have hbytes := (h.slots pageId (List.mem_append_right _ hnew) slot).1
      rw [hempty pageId hnew slot] at hbytes
      exact Option.map_eq_none_iff.mp hbytes
    · exact h.empty pageId hextra slot
  counts_eq := by
    rw [← List.append_assoc]
    exact h.counts_eq

theorem undo_appended (hbase : IsHeap firstPageId base chain)
    (hmarked : Marked firstPageId base records) {bytes : List UInt8} {slot : ℕ} {after : SlotMap}
    (hinsert : TablePage.emptyPage.insert bytes = some (slot, after))
    (hview : (base'.bytes base.nextPageId).view = after)
    (hviews : ∀ pageId ∈ chain, (base'.bytes pageId).view = (base.bytes pageId).view)
    (h : Like firstPageId (records ++ [⟨⟨base.nextPageId, slot⟩, .insert, .empty⟩]) base'
      (chain ++ [base.nextPageId]) extra counts pool) :
    ∃ pool', abortRecord true pool ⟨⟨base.nextPageId, slot⟩, .insert, .empty⟩ = .ok pool' ∧
      Like firstPageId records base chain ([base.nextPageId] ++ extra) counts pool' := by
  obtain ⟨_, hafter⟩ := insert_contents rfl hinsert
  have hfresh := hbase.nextPageId_notMem
  have hmem : base.nextPageId ∈ chain ++ [base.nextPageId] := by simp
  have hchain : base.nextPageId ∈ chain ++ [base.nextPageId] ++ extra :=
    List.mem_append_left _ hmem
  have hnot : ∀ other, ¬ Deletes (records ++ [⟨⟨base.nextPageId, slot⟩, .insert, .empty⟩])
      ⟨base.nextPageId, other⟩ := by
    intro other
    rw [deletes_append]
    rintro (hdeletes | ⟨htype, _⟩)
    · obtain ⟨old, hold⟩ := hmarked _ hdeletes
      rw [hbase.contents_of_notMem hfresh] at hold
      cases hold
    · cases htype
  have hslots : (pool.bytes base.nextPageId).view.contents =
      update (fun _ => none) slot (some ⟨bytes, false⟩) := by
    funext other
    rw [(h.slots _ hmem other).2 (hnot other), hview, hafter]
    rfl
  have hstored : contents firstPageId pool ⟨base.nextPageId, slot⟩ = some ⟨bytes, false⟩ := by
    rw [h.heap.contents_of_mem hchain, hslots, update_self]
  obtain ⟨pool', hdelete, hheap, hundo, _⟩ := applyDelete_contents h.heap hstored
  have hothers : ∀ pageId, pageId ≠ base.nextPageId → pool'.bytes pageId = pool.bytes pageId :=
    hundo.others
  have hne : ∀ pageId ∈ chain, pageId ≠ base.nextPageId := fun pageId hpage heq =>
    hfresh (heq ▸ hpage)
  refine ⟨pool', hdelete, ?_⟩
  constructor
  · rw [← List.append_assoc]
    exact hheap
  · intro pageId hpage
    rw [hothers pageId (hne pageId hpage), h.pointers pageId (List.mem_append_left _ hpage),
      hviews pageId hpage]
  · intro pageId hpage other
    have hslot := h.slots pageId (List.mem_append_left _ hpage) other
    rw [hviews pageId hpage] at hslot
    rw [hothers pageId (hne pageId hpage)]
    refine hslot.mono fun hdeletes => ?_
    rw [deletes_append] at hdeletes
    exact hdeletes.resolve_right fun hboth => (nomatch hboth.1)
  · intro pageId hpage other
    by_cases hsame : pageId = base.nextPageId
    · subst hsame
      rw [hundo.view]
      change update (pool.bytes base.nextPageId).view.contents slot none other = none
      rw [hslots, update_idem]
      exact congrFun (update_eq_self slot fun _ => none) other
    · rw [hothers pageId hsame]
      refine h.empty pageId ?_ other
      rcases List.mem_append.mp hpage with hnew | hextra
      · exact absurd (List.mem_singleton.mp hnew) hsame
      · exact hextra
  · intro pageId hpage
    rw [← List.append_assoc] at hpage
    by_cases hsame : pageId = base.nextPageId
    · subst hsame
      rw [hundo.view]
      exact h.counts_eq _ hpage
    · rw [hothers pageId hsame]
      exact h.counts_eq pageId hpage

/-! ## Undoing a run -/

/-- The entries by which the write sets differ take a pool that is like `base'` to one that is
like `base`, if the pages have the room that the updates need. -/
def Undoes (firstPageId : PageId) (base base' : PagePool) (records records' : List WriteRecord)
    (chain chain' : List PageId) (room : List (PageId × ℕ)) : Prop :=
  ∃ new, records' = records ++ new ∧ ∀ extra counts pool,
    (∀ update ∈ room, 24 + 8 * counts update.1 ≤ update.2) →
    Like firstPageId records' base' chain' extra counts pool →
    ∃ pool' extra', writeSetLoop abortRecord (fun _ => true) new.reverse pool = .ok pool' ∧
      Like firstPageId records base chain extra' counts pool'

theorem writeSetLoop_append {act : Bool → PagePool → WriteRecord → Except TableFault PagePool}
    {first second : List WriteRecord} {pool' pool'' : PagePool}
    (hfirst : writeSetLoop act (fun _ => true) first pool = .ok pool')
    (hsecond : writeSetLoop act (fun _ => true) second pool' = .ok pool'') :
    writeSetLoop act (fun _ => true) (first ++ second) pool = .ok pool'' := by
  induction first generalizing pool with
  | nil =>
    cases hfirst
    exact hsecond
  | cons record rest ih =>
    rw [List.cons_append]
    unfold writeSetLoop at hfirst ⊢
    cases hact : act true pool record with
    | error fault => simp only [hact, reduceCtorEq] at hfirst
    | ok after =>
      simp only [hact] at hfirst ⊢
      exact ih hfirst

variable {base'' : PagePool} {records' records'' : List WriteRecord}
  {chain' chain'' : List PageId} {room room' : List (PageId × ℕ)}

theorem Undoes.refl (firstPageId : PageId) (base : PagePool) (records : List WriteRecord)
    (chain : List PageId) : Undoes firstPageId base base records records chain chain [] :=
  ⟨[], (List.append_nil _).symm, fun extra _ pool _ h => ⟨pool, extra, rfl, h⟩⟩

theorem Undoes.trans (h : Undoes firstPageId base base' records records' chain chain' room)
    (h' : Undoes firstPageId base' base'' records' records'' chain' chain'' room') :
    Undoes firstPageId base base'' records records'' chain chain'' (room ++ room') := by
  obtain ⟨new, rfl, hundo⟩ := h
  obtain ⟨new', rfl, hundo'⟩ := h'
  refine ⟨new ++ new', List.append_assoc _ _ _, fun extra counts pool hroom hlike => ?_⟩
  obtain ⟨pool₁, extra₁, hloop₁, hlike₁⟩ := hundo' extra counts pool
    (fun update hmem => hroom update (List.mem_append_right _ hmem)) hlike
  obtain ⟨pool₂, extra₂, hloop₂, hlike₂⟩ := hundo extra₁ counts pool₁
    (fun update hmem => hroom update (List.mem_append_left _ hmem)) hlike₁
  refine ⟨pool₂, extra₂, ?_, hlike₂⟩
  rw [List.reverse_append]
  exact writeSetLoop_append hloop₁ hloop₂

theorem undoes_of_record {record : WriteRecord}
    (hundo : ∀ extra counts pool, (∀ update ∈ room, 24 + 8 * counts update.1 ≤ update.2) →
      Like firstPageId (records ++ [record]) base' chain' extra counts pool →
      ∃ pool' extra', abortRecord true pool record = .ok pool' ∧
        Like firstPageId records base chain extra' counts pool') :
    Undoes firstPageId base base' records (records ++ [record]) chain chain' room := by
  refine ⟨[record], rfl, fun extra counts pool hroom hlike => ?_⟩
  obtain ⟨pool', extra', hrecord, hlike'⟩ := hundo extra counts pool hroom hlike
  refine ⟨pool', extra', ?_, hlike'⟩
  simp only [List.reverse_singleton, writeSetLoop, hrecord]

theorem undoes_of_views
    (hviews : ∀ pageId ∈ chain, (base'.bytes pageId).view = (base.bytes pageId).view) :
    Undoes firstPageId base base' records records chain chain room := by
  refine ⟨[], (List.append_nil _).symm, fun extra counts pool _ hlike => ⟨pool, extra, rfl, ?_⟩⟩
  rw [← List.append_nil chain] at hlike
  have hsame := hlike.of_views hviews fun pageId hmem => (nomatch hmem)
  rwa [List.nil_append] at hsame

theorem Edited.views {pageId : PageId}
    (h : Edited base base' pageId (base.bytes pageId).view) (other : PageId) :
    (base'.bytes other).view = (base.bytes other).view := by
  by_cases hsame : other = pageId
  · rw [hsame, h.view]
  · rw [h.others other hsame]

variable {txn txn' : Transaction} {updates : List (PageId × ℕ)}

theorem undo_insert (hbase : IsHeap firstPageId base chain)
    (hmarked : Marked firstPageId base txn.writeSet) {frames : ℕ → Bool} {tuple : Tuple}
    (hcall : TxnCall.apply firstPageId base txn (.insert frames tuple) = .ok (base', txn')) :
    ∃ chain', IsHeap firstPageId base' chain' ∧
      Undoes firstPageId base base' txn.writeSet txn'.writeSet chain chain' [] := by
  simp only [TxnCall.apply] at hcall
  cases hinsert : insertTuple firstPageId frames base txn tuple with
  | error fault => simp only [hinsert, Except.map, reduceCtorEq] at hcall
  | ok result =>
    simp only [hinsert, Except.map, Except.ok.injEq] at hcall
    cases insertTuple_outcome hbase hinsert with
    | @inserted rid after chain' _ hheap hinserted =>
      cases hcall
      refine ⟨chain', hheap, undoes_of_record fun extra counts pool _ hlike => ?_⟩
      cases hinserted with
      | @found pageId slot view hmem hroom hedited =>
        obtain ⟨pool', hundo, hlike'⟩ :=
          undo_found ⟨pageId, slot⟩ hbase hmarked hmem hroom hedited hlike
        exact ⟨pool', extra, hundo, hlike'⟩
      | appended hroom hview hviews _ _ _ =>
        obtain ⟨pool', hundo, hlike'⟩ :=
          undo_appended hbase hmarked hroom hview hviews hlike
        exact ⟨pool', _, hundo, hlike'⟩
    | @refused after chain' hheap hgrown =>
      cases hcall
      obtain ⟨new, rfl, hempty⟩ := hgrown.extra
      refine ⟨_, hheap, [], (List.append_nil _).symm, fun extra counts pool _ hlike => ?_⟩
      refine ⟨pool, new ++ extra, rfl, hlike.of_views hgrown.views fun pageId hmem slot => ?_⟩
      rw [hempty pageId hmem]
      rfl

theorem undo_markDelete (hbase : IsHeap firstPageId base chain) {frame : Bool}
    (hnames : contents firstPageId base rid ≠ none)
    (hcareful : frame = true → (∃ bytes, contents firstPageId base rid = some ⟨bytes, false⟩) ∨
      Deletes txn.writeSet rid)
    (hcall : TxnCall.apply firstPageId base txn (.mark frame rid) = .ok (base', txn')) :
    ∃ chain', IsHeap firstPageId base' chain' ∧
      Undoes firstPageId base base' txn.writeSet txn'.writeSet chain chain' [] := by
  simp only [TxnCall.apply, Except.ok.injEq] at hcall
  cases frame with
  | false =>
    cases hcall
    exact ⟨chain, hbase, undoes_of_views fun _ _ => rfl⟩
  | true =>
    obtain ⟨stored, hstored⟩ := Option.ne_none_iff_exists'.mp hnames
    obtain ⟨hmem, hslot, _⟩ := hbase.of_contents hstored
    have hheld : (base.bytes rid.pageId).view.contents rid.slotNum ≠ none := by
      rw [hslot]
      exact Option.some_ne_none _
    have hcareful' := hcareful rfl
    rw [hbase.contents_of_mem hmem] at hcareful'
    obtain ⟨after, hmark, hheap, hedited⟩ := markDelete_spec hbase hmem
    rw [hmark] at hcall
    cases hcall
    refine ⟨chain, hheap, undoes_of_record fun extra counts pool _ hlike => ?_⟩
    obtain ⟨pool', hundo, hlike'⟩ := undo_mark hmem hheld hcareful' hedited hlike
    exact ⟨pool', extra, hundo, hlike'⟩

theorem undo_updateTuple (hbase : IsHeap firstPageId base chain)
    (hmarked : Marked firstPageId base txn.writeSet) {frame : Bool} {tuple : Tuple}
    (hnames : contents firstPageId base rid ≠ none) (hactive : txn.state ≠ .aborted)
    (hcall : TxnCall.apply firstPageId base txn (.update frame tuple rid) = .ok (base', txn')) :
    ∃ chain', IsHeap firstPageId base' chain' ∧
      Undoes firstPageId base base' txn.writeSet txn'.writeSet chain chain'
        (updateOf base txn txn' (.update frame tuple rid)) := by
  obtain ⟨stored, hstored⟩ := Option.ne_none_iff_exists'.mp hnames
  have hmem := (hbase.of_contents hstored).1
  simp only [TxnCall.apply] at hcall
  rcases updateTuple_outcome hbase hmem frame txn tuple with
    ⟨result, hends, houtcome⟩ | ⟨hfault, _⟩
  · simp only [hends, Except.map, Except.ok.injEq] at hcall
    rw [hcall] at houtcome
    generalize hpair : (base', txn') = pair at houtcome
    cases houtcome with
    | noFrame =>
      cases hpair
      exact ⟨chain, hbase, undoes_of_views fun _ _ => rfl⟩
    | refused hheap hedited =>
      cases hpair
      exact ⟨chain, hheap, undoes_of_views fun pageId _ => Edited.views hedited pageId⟩
    | @done after old view hheap hupdate hedited =>
      rw [if_pos hactive] at hpair
      cases hpair
      refine ⟨chain, hheap, undoes_of_record fun extra counts pool hroom hlike => ?_⟩
      have hrecorded : updateOf base txn (txn.record rid .update old) (.update frame tuple rid) =
          [(rid.pageId, (base.bytes rid.pageId).getFreeSpacePointer)] := by
        refine if_neg ?_
        simp only [Transaction.record, List.length_append, List.length_singleton]
        omega
      rw [hrecorded] at hroom
      have hneed := hroom _ (List.mem_singleton_self _)
      obtain ⟨pool', hundo, hlike'⟩ :=
        undo_update hbase hmarked hmem hupdate hedited hneed hlike
      exact ⟨pool', extra, hundo, hlike'⟩
  · simp only [hfault, Except.map, reduceCtorEq] at hcall

theorem TxnCall.Names.valid (hbase : IsHeap firstPageId base chain) {call : TxnCall}
    (hnames : call.Names firstPageId base) : call.Valid firstPageId base := by
  have hpage : ∀ rid, contents firstPageId base rid ≠ none →
      rid.pageId ∈ pageIds firstPageId base := by
    intro rid hrid
    obtain ⟨stored, hstored⟩ := Option.ne_none_iff_exists'.mp hrid
    rw [hbase.pageIds_eq]
    exact (hbase.of_contents hstored).1
  cases call with
  | insert frames tuple => trivial
  | mark frame rid => exact hpage rid hnames
  | update frame tuple rid => exact hpage rid hnames

theorem marked_of_effect {table table' : Rid → Option Stored} {call : TxnCall}
    (h : ∀ rid, Deletes txn.writeSet rid → ∃ bytes, table rid = some ⟨bytes, true⟩)
    (hnames : ∀ frame rid, call = .mark frame rid → table rid ≠ none)
    (heffect : call.Effect table txn table' txn') (rid : Rid) (hrid : Deletes txn'.writeSet rid) :
    ∃ bytes, table' rid = some ⟨bytes, true⟩ := by
  cases heffect with
  | nothing hsame => exact h rid (hsame ▸ hrid)
  | @inserted frames tuple new hfree =>
    have hold := (deletes_append.mp hrid).resolve_right fun hboth => (nomatch hboth.1)
    obtain ⟨bytes, hbytes⟩ := h rid hold
    have hne : rid ≠ new := by
      rintro rfl
      rw [hfree] at hbytes
      cases hbytes
    exact ⟨bytes, by rw [update_of_ne hne, hbytes]⟩
  | @marked new =>
    by_cases hsame : rid = new
    · subst hsame
      obtain ⟨stored, hstored⟩ := Option.ne_none_iff_exists'.mp (hnames true rid rfl)
      exact ⟨stored.bytes, by rw [update_self, hstored]; rfl⟩
    · have hold := (deletes_append.mp hrid).resolve_right fun hboth => hsame hboth.2.symm
      rw [update_of_ne hsame]
      exact h rid hold
  | @updated frame tuple old new _ hunmarked htxn =>
    have hold : Deletes txn.writeSet rid := by
      rcases htxn with rfl | hsame
      · exact (deletes_append.mp hrid).resolve_right fun hboth => (nomatch hboth.1)
      · exact hsame ▸ hrid
    obtain ⟨bytes, hbytes⟩ := h rid hold
    have hne : rid ≠ new := by
      rintro rfl
      rw [hunmarked] at hbytes
      cases hbytes
    exact ⟨bytes, by rw [update_of_ne hne, hbytes]⟩

/-- **A call** can be undone. -/
theorem undo_call (hbase : IsHeap firstPageId base chain)
    (hmarked : Marked firstPageId base txn.writeSet) {call : TxnCall}
    (hnames : call.Names firstPageId base)
    (hcareful : Careful firstPageId ⟨base, txn, updates⟩ call)
    (hcall : call.apply firstPageId base txn = .ok (base', txn')) :
    ∃ chain', IsHeap firstPageId base' chain' ∧ Marked firstPageId base' txn'.writeSet ∧
      Undoes firstPageId base base' txn.writeSet txn'.writeSet chain chain'
        (updateOf base txn txn' call) := by
  obtain ⟨_, _, _, heffect⟩ := TxnCall.apply_effect hbase (hnames.valid hbase) hcall
  have hmarked' : Marked firstPageId base' txn'.writeSet := by
    refine marked_of_effect hmarked (fun frame rid hmark => ?_) heffect
    subst hmark
    exact hnames
  cases call with
  | insert frames tuple =>
    obtain ⟨chain', hheap, hundoes⟩ := undo_insert hbase hmarked hcall
    exact ⟨chain', hheap, hmarked', hundoes⟩
  | mark frame rid =>
    obtain ⟨chain', hheap, hundoes⟩ := undo_markDelete hbase hnames hcareful hcall
    exact ⟨chain', hheap, hmarked', hundoes⟩
  | update frame tuple rid =>
    obtain ⟨chain', hheap, hundoes⟩ := undo_updateTuple hbase hmarked hnames hcareful hcall
    exact ⟨chain', hheap, hmarked', hundoes⟩

/-- **A run** can be undone. -/
theorem undo_run {state final : TxnState} {calls : List TxnCall} {answers : List Unit}
    (hbase : IsHeap firstPageId state.pool chain)
    (hmarked : Marked firstPageId state.pool state.txn.writeSet)
    (hcalls : (txnMachine firstPageId).Along (fun state call =>
      call.Names firstPageId state.pool ∧ Careful firstPageId state call) state calls)
    (hrun : (txnMachine firstPageId).run state calls = .ok (answers, final)) :
    ∃ chain' room, IsHeap firstPageId final.pool chain' ∧ final.updates = state.updates ++ room ∧
      Undoes firstPageId state.pool final.pool state.txn.writeSet final.txn.writeSet chain chain'
        room := by
  induction calls generalizing state chain answers with
  | nil =>
    obtain ⟨_, rfl⟩ := hrun
    exact ⟨chain, [], hbase, (List.append_nil _).symm, Undoes.refl _ _ _ _⟩
  | cons call rest ih =>
    obtain ⟨answer, next, tail, hstep, htail, _⟩ := Machine.run_cons_eq_ok hrun
    obtain ⟨⟨hnames, hcareful⟩, hrest⟩ := hcalls
    have hnext := hrest answer next hstep
    simp only [txnMachine] at hstep
    cases hcall : call.apply firstPageId state.pool state.txn with
    | error fault => simp only [hcall, Except.map, reduceCtorEq] at hstep
    | ok result =>
      simp only [hcall, Except.map, Except.ok.injEq, Prod.mk.injEq, true_and] at hstep
      subst hstep
      obtain ⟨chain₁, hheap₁, hmarked₁, hundoes₁⟩ :=
        undo_call hbase hmarked hnames hcareful hcall
      obtain ⟨chain₂, room, hheap₂, hupdates, hundoes₂⟩ := ih hheap₁ hmarked₁ hnext htail
      refine ⟨chain₂, _, hheap₂, ?_, hundoes₁.trans hundoes₂⟩
      rw [hupdates, List.append_assoc]

/-! ## `Abort` -/

theorem Like.refl (h : IsHeap firstPageId pool chain) (records : List WriteRecord) :
    Like firstPageId records pool chain [] (fun pageId => (pool.bytes pageId).getTupleCount)
      pool where
  heap := by rwa [List.append_nil]
  pointers := fun _ _ => rfl
  slots := fun _ _ _ => Agrees.of_eq rfl
  empty := fun _ hmem => (nomatch hmem)
  counts_eq := fun _ _ => rfl

theorem Like.contents_eq (h : Like firstPageId [] base chain extra counts pool)
    (hbase : IsHeap firstPageId base chain) :
    contents firstPageId pool = contents firstPageId base := by
  funext rid
  by_cases hmem : rid.pageId ∈ chain
  · have hnot : ¬ Deletes [] rid := fun ⟨record, hrecord, _⟩ => (nomatch hrecord)
    rw [h.heap.contents_of_mem (List.mem_append_left _ hmem), hbase.contents_of_mem hmem]
    exact (h.slots _ hmem rid.slotNum).2 hnot
  · rw [hbase.contents_of_notMem hmem]
    by_cases hextra : rid.pageId ∈ extra
    · rw [h.heap.contents_of_mem (List.mem_append_right _ hextra)]
      exact h.empty _ hextra rid.slotNum
    · rw [h.heap.contents_of_notMem fun hin => (List.mem_append.mp hin).elim hmem hextra]

/-- **Rollback.**  A transaction runs alone from any reachable heap, and every call names a
tuple.  If it marks no tuple that was marked before it began, makes no update once it is
aborted, and leaves the slots of each page the space that the page had before each of its
updates, then `Abort` returns, and the table is what it was: every `GetTuple` returns what
it returned before the transaction. -/
theorem abort_restores (pool : PagePool) (hreachable : Reachable firstPageId pool)
    (calls : List TxnCall) (answers : List Unit) (final : TxnState) (frames : ℕ → Bool)
    (hcalls : (txnMachine firstPageId).Along (fun state call =>
      call.Names firstPageId state.pool ∧ Careful firstPageId state call)
      ⟨pool, .fresh, []⟩ calls)
    (hrun : (txnMachine firstPageId).run ⟨pool, .fresh, []⟩ calls = .ok (answers, final))
    (hroomy : Roomy final) (hframes : ∀ request, frames request = true) :
    ∃ pool', abort frames final.pool final.txn = .ok (pool', ⟨.aborted, []⟩) ∧
      contents firstPageId pool' = contents firstPageId pool ∧
      (∀ pageId ∈ pageIds firstPageId pool, ∀ slot txn,
        (getTuple true pool' txn ⟨pageId, slot⟩).1 = (getTuple true pool txn ⟨pageId, slot⟩).1) ∧
      ∀ pageId ∈ pageIds firstPageId pool', pageId ∉ pageIds firstPageId pool →
        ∀ slot txn, (getTuple true pool' txn ⟨pageId, slot⟩).1 = none := by
  obtain ⟨chain, hbase⟩ := hreachable.isHeap
  have hmarked : Marked firstPageId pool Transaction.fresh.writeSet :=
    fun rid ⟨record, hmem, _⟩ => (nomatch hmem)
  obtain ⟨chain', room, hheap, hupdates, new, hrecords, hundo⟩ :=
    undo_run hbase hmarked hcalls hrun
  have hroom : ∀ update ∈ room, 24 + 8 * (final.pool.bytes update.1).getTupleCount ≤ update.2 :=
    fun update hmem => hroomy update (hupdates ▸ hmem)
  obtain ⟨pool', extra, hloop, hlike⟩ := hundo []
    (fun pageId => (final.pool.bytes pageId).getTupleCount) final.pool hroom (Like.refl hheap _)
  have hcontents := hlike.contents_eq hbase
  have hfresh : Transaction.fresh.writeSet = [] := rfl
  rw [hfresh, List.nil_append] at hrecords
  obtain rfl : frames = fun _ => true := funext hframes
  refine ⟨pool', ?_, hcontents, ?_, ?_⟩
  · rw [abort, hrecords, hloop]
    rfl
  · intro pageId hmem slot txn
    rw [hbase.pageIds_eq] at hmem
    have hbefore := hbase.getTuple_eq txn (show (⟨pageId, slot⟩ : Rid).pageId ∈ chain from hmem)
    have hafter := hlike.heap.getTuple_eq txn
      (show (⟨pageId, slot⟩ : Rid).pageId ∈ chain ++ extra from List.mem_append_left _ hmem)
    rw [hcontents, ← hbefore] at hafter
    exact Option.map_injective (fun _ _ => Tuple.ext_data) hafter
  · intro pageId hmem hnot slot txn
    rw [hlike.heap.pageIds_eq] at hmem
    rw [hbase.pageIds_eq] at hnot
    have hafter := hlike.heap.getTuple_eq txn (show (⟨pageId, slot⟩ : Rid).pageId ∈ _ from hmem)
    rw [hcontents, hbase.contents_of_notMem hnot] at hafter
    exact Option.map_eq_none_iff.mp hafter

/-- A transaction inserts a tuple, updates it and aborts. -/
theorem abort_restores_empty :
    ∃ pool answers final pool', create freshPool true = .ok (0, pool) ∧
      (txnMachine 0).run ⟨pool, .fresh, []⟩ [.insert (fun _ => true) ⟨[7], by decide⟩,
        .update true ⟨[8, 9], by decide⟩ ⟨0, 0⟩] = .ok (answers, final) ∧
      abort (fun _ => true) final.pool final.txn = .ok (pool', ⟨.aborted, []⟩) ∧
      contents 0 pool' = contents 0 pool := by
  obtain ⟨pool, hcreate, _, hreachable⟩ := create_freshPool
  have hcheck : ((create freshPool true).toOption.all fun created =>
      ((txnMachine 0).run ⟨created.2, .fresh, []⟩ [.insert (fun _ => true) ⟨[7], by decide⟩,
        .update true ⟨[8, 9], by decide⟩ ⟨0, 0⟩]).toOption.any fun result =>
          decide (∀ update ∈ result.2.updates,
            24 + 8 * (result.2.pool.bytes update.1).getTupleCount ≤ update.2)) = true := by
    decide +kernel
  have hfirst : ((create freshPool true).toOption.all fun created =>
      ((txnMachine 0).step ⟨created.2, .fresh, []⟩
        (.insert (fun _ => true) ⟨[7], by decide⟩)).toOption.all fun result =>
          decide (contents 0 result.2.pool ⟨0, 0⟩ ≠ none ∧ result.2.txn.state ≠ .aborted)) =
      true := by
    decide +kernel
  simp only [hcreate, Except.toOption, Option.all_some] at hcheck hfirst
  have hcalls : (txnMachine 0).Along (fun state call =>
      call.Names 0 state.pool ∧ Careful 0 state call) ⟨pool, .fresh, []⟩
      [.insert (fun _ => true) ⟨[7], by decide⟩, .update true ⟨[8, 9], by decide⟩ ⟨0, 0⟩] := by
    refine ⟨⟨trivial, trivial⟩, fun answer next hstep => ⟨?_, fun _ _ _ => trivial⟩⟩
    simp only [hstep, Option.all_some, decide_eq_true_eq] at hfirst
    exact hfirst
  cases hrun : (txnMachine 0).run ⟨pool, .fresh, []⟩ [.insert (fun _ => true) ⟨[7], by decide⟩,
      .update true ⟨[8, 9], by decide⟩ ⟨0, 0⟩] with
  | error fault => simp only [hrun, Option.any_none, Bool.false_eq_true] at hcheck
  | ok result =>
    obtain ⟨answers, final⟩ := result
    simp only [hrun, Option.any_some, decide_eq_true_eq] at hcheck
    obtain ⟨pool', habort, hcontents, _⟩ := abort_restores pool hreachable _ answers final
      (fun _ => true) hcalls hrun hcheck fun _ => rfl
    exact ⟨pool, answers, final, pool', hcreate, hrun, habort, hcontents⟩

/-- A tuple of more than a page is refused and aborts the transaction.  An update after that is
made and not recorded, so that `Abort` does not undo it: `GetTuple` returns other bytes. -/
theorem abort_keeps_update :
    (((create freshPool true).toOption.bind fun created =>
      ((heapMachine 0).run created.2
        [.insert (fun _ => true) .fresh ⟨[7], by decide⟩]).toOption.bind fun before =>
      ((txnMachine 0).run ⟨before.2, .fresh, []⟩
        [.insert (fun _ => true) ⟨List.replicate 4065 0, by rw [List.length_replicate]; decide⟩,
          .update true ⟨[8], by decide⟩ ⟨0, 0⟩]).toOption.bind fun final =>
      (abort (fun _ => true) final.2.pool final.2.txn).toOption.map fun after =>
        ((getTuple true before.2 .fresh ⟨0, 0⟩).1, (getTuple true after.1 .fresh ⟨0, 0⟩).1)) =
      some (some ⟨[7], by decide⟩, some ⟨[8], by decide⟩)) := by
  decide +kernel

end BusTub
