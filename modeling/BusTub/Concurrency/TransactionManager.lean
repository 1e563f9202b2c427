import BusTub.Table.HeapRuns

/-!
# Transactions over a table heap

The model of `concurrency/transaction_manager.cpp` for transactions over one table heap: the calls
that a transaction makes, and `Commit` and `Abort`, which go through its write set from the back.
Locks and the latches around each call are not modelled: a call is one step.

The lemmas say what each call does to the table: the call of a transaction has an `Effect` on the
table and on the write set, and `ApplyDelete` and `RollbackDelete` of a tuple that is there
return.
-/

namespace BusTub

open Function ByteMemory Machines TableHeap

/-- A call of a transaction, with the frames that the pool finds for it. -/
inductive TxnCall
  | insert (frames : ℕ → Bool) (tuple : Tuple)
  | mark (frame : Bool) (rid : Rid)
  | update (frame : Bool) (tuple : Tuple) (rid : Rid)

namespace TxnCall

def apply (firstPageId : PageId) (pool : PagePool) (txn : Transaction) :
    TxnCall → Except TableFault (PagePool × Transaction)
  | .insert frames tuple =>
    (insertTuple firstPageId frames pool txn tuple).map fun result => result.2
  | .mark frame rid => .ok (markDelete frame pool txn rid).2
  | .update frame tuple rid =>
    (updateTuple frame pool txn tuple rid).map fun result => result.2

/-- The rid of a call names a page of the heap. -/
def Valid (firstPageId : PageId) (pool : PagePool) : TxnCall → Prop
  | .insert _ _ => True
  | .mark _ rid => rid.pageId ∈ pageIds firstPageId pool
  | .update _ _ rid => rid.pageId ∈ pageIds firstPageId pool

end TxnCall

namespace TransactionManager

/-- What `Commit` does for an entry of the write set. -/
def commitRecord (frame : Bool) (pool : PagePool) (record : WriteRecord) :
    Except TableFault PagePool :=
  match record.wtype with
  | .delete => applyDelete frame pool record.rid
  | .insert => .ok pool
  | .update => .ok pool

/-- What `Abort` does for an entry of the write set.  The transaction is aborted by now, so
that `UpdateTuple` does not record the update that undoes one. -/
def abortRecord (frame : Bool) (pool : PagePool) (record : WriteRecord) :
    Except TableFault PagePool :=
  match record.wtype with
  | .delete => rollbackDelete frame pool record.rid
  | .insert => applyDelete frame pool record.rid
  | .update =>
    (updateTuple frame pool ⟨.aborted, []⟩ record.tuple record.rid).map
      fun result => result.2.1

/-- The loop over the write set, given from its back; entry and request have one number. -/
def writeSetLoop (act : Bool → PagePool → WriteRecord → Except TableFault PagePool)
    (frames : ℕ → Bool) : List WriteRecord → PagePool → Except TableFault PagePool
  | [], pool => .ok pool
  | record :: rest, pool =>
    match act (frames rest.length) pool record with
    | .error fault => .error fault
    | .ok after => writeSetLoop act frames rest after

/-- `Commit`. -/
def commit (frames : ℕ → Bool) (pool : PagePool) (txn : Transaction) :
    Except TableFault (PagePool × Transaction) :=
  (writeSetLoop commitRecord frames txn.writeSet.reverse pool).map
    fun after => (after, ⟨.committed, []⟩)

/-- `Abort`. -/
def abort (frames : ℕ → Bool) (pool : PagePool) (txn : Transaction) :
    Except TableFault (PagePool × Transaction) :=
  (writeSetLoop abortRecord frames txn.writeSet.reverse pool).map
    fun after => (after, ⟨.aborted, []⟩)

def Deletes (records : List WriteRecord) (rid : Rid) : Prop :=
  ∃ record ∈ records, record.wtype = .delete ∧ record.rid = rid

theorem deletes_cons {record : WriteRecord} {rest : List WriteRecord} {rid : Rid} :
    Deletes (record :: rest) rid ↔
      (record.wtype = .delete ∧ record.rid = rid) ∨ Deletes rest rid := by
  simp [Deletes]

end TransactionManager

/-! ## The calls and the table -/

namespace TableHeap

variable {firstPageId : PageId} {pool pool' : PagePool} {chain : List PageId} {rid : Rid}

variable (h : IsHeap firstPageId pool chain)
include h

theorem IsHeap.of_contents {stored : Stored}
    (hcontents : contents firstPageId pool rid = some stored) :
    rid.pageId ∈ chain ∧ (pool.bytes rid.pageId).view.contents rid.slotNum = some stored ∧
      rid.slotNum < (pool.bytes rid.pageId).getTupleCount ∧ stored.bytes ≠ [] := by
  have hmem : rid.pageId ∈ chain := by
    by_contra hmem
    rw [h.contents_of_notMem hmem] at hcontents
    cases hcontents
  rw [h.contents_of_mem hmem] at hcontents
  have hoccupied := TablePage.mem_occupied_of_contents hcontents
  refine ⟨hmem, hcontents, hoccupied.1, ?_⟩
  have hlength := TablePage.length_bytes hcontents
  have hpos := (h.layout _ hmem).tiles.length_pos _ hoccupied
  exact List.ne_nil_of_length_pos (hlength ▸ hpos)

/-- `MarkDelete` marks the tuple, if it is there. -/
theorem markDelete_contents (hmem : rid.pageId ∈ chain)
    (txn : Transaction) :
    ∃ pool', markDelete true pool txn rid = (true, pool', txn.record rid .delete .empty) ∧
      IsHeap firstPageId pool' chain ∧
      contents firstPageId pool' = update (contents firstPageId pool) rid
        ((contents firstPageId pool rid).map fun stored => { stored with marked := true }) := by
  obtain ⟨pool', hmark, hheap, hedited⟩ := markDelete_spec h hmem
  refine ⟨pool', hmark, hheap, hedited.contents_eq h hheap hmem ?_⟩
  rw [h.contents_of_mem hmem]
  cases hcase : (pool.bytes rid.pageId).view.mark rid.slotNum with
  | some after =>
    obtain ⟨bytes, hbytes, rfl⟩ := SlotMap.mark_eq_some_iff.mp hcase
    rw [hbytes]
    rfl
  | none =>
    symm
    apply update_eq_self_iff.mpr
    rcases hstored : (pool.bytes rid.pageId).view.contents rid.slotNum with _ | ⟨bytes, _ | _⟩
    · rfl
    · exact absurd hstored (SlotMap.mark_eq_none_iff.mp hcase bytes)
    · rfl

/-- `UpdateTuple` puts the new bytes in the place of the old ones. -/
theorem Edited.contents_of_update
    (h' : IsHeap firstPageId pool' chain) (hmem : rid.pageId ∈ chain) {after : SlotMap}
    {old new : List UInt8} (hedited : Edited pool pool' rid.pageId after)
    (hupdate : (pool.bytes rid.pageId).view.update rid.slotNum new = some (old, after)) :
    contents firstPageId pool rid = some ⟨old, false⟩ ∧
      contents firstPageId pool' =
        update (contents firstPageId pool) rid (some ⟨new, false⟩) := by
  obtain ⟨hold, _, rfl⟩ := SlotMap.update_eq_some_iff.mp hupdate
  exact ⟨(h.contents_of_mem hmem).trans hold, hedited.contents_eq h h' hmem rfl⟩

theorem Edited.contents_of_same
    (h' : IsHeap firstPageId pool' chain) (hmem : rid.pageId ∈ chain)
    (hedited : Edited pool pool' rid.pageId (pool.bytes rid.pageId).view) :
    contents firstPageId pool' = contents firstPageId pool := by
  rw [hedited.contents_eq h h' hmem (update_eq_self _ _).symm, ← h.contents_of_mem hmem,
    update_eq_self]

/-- `ApplyDelete` removes a tuple that is there, if its page can be fetched. -/
theorem applyDelete_contents {stored : Stored}
    (hstored : contents firstPageId pool rid = some stored) :
    ∃ pool', applyDelete true pool rid = .ok pool' ∧ IsHeap firstPageId pool' chain ∧
      Edited pool pool' rid.pageId
        { (pool.bytes rid.pageId).view.set rid.slotNum none with
          pointer := (pool.bytes rid.pageId).view.pointer + stored.bytes.length } ∧
      contents firstPageId pool' = update (contents firstPageId pool) rid none := by
  obtain ⟨hmem, hslot, _, _⟩ := h.of_contents hstored
  obtain ⟨pool', hdelete, hheap, hedited⟩ :=
    applyDelete_some h hmem (SlotMap.remove_eq_some_iff.mpr ⟨stored, hslot, rfl⟩)
  exact ⟨pool', hdelete, hheap, hedited, hedited.contents_eq h hheap hmem rfl⟩

/-- `RollbackDelete` unmarks a tuple that is there, if its page can be fetched. -/
theorem rollbackDelete_contents {stored : Stored}
    (hstored : contents firstPageId pool rid = some stored) :
    ∃ pool', rollbackDelete true pool rid = .ok pool' ∧ IsHeap firstPageId pool' chain ∧
      Edited pool pool' rid.pageId ((pool.bytes rid.pageId).view.unmark rid.slotNum) ∧
      contents firstPageId pool' = update (contents firstPageId pool) rid
        (some ⟨stored.bytes, false⟩) := by
  obtain ⟨hmem, hslot, hcount, _⟩ := h.of_contents hstored
  obtain ⟨pool', hdelete, hheap, hedited⟩ := rollbackDelete_of_lt h hmem hcount
  refine ⟨pool', hdelete, hheap, hedited, hedited.contents_eq h hheap hmem ?_⟩
  rw [SlotMap.unmark, SlotMap.set, hslot]
  rfl

omit h

end TableHeap

/-! ## Calls that return -/

namespace TxnCall

variable {firstPageId : PageId} {pool pool' : PagePool} {chain : List PageId}
  {txn txn' : Transaction}

/-- What a call does to the table and to the write set. -/
inductive Effect (before : Rid → Option Stored) (txn : Transaction) :
    TxnCall → (Rid → Option Stored) → Transaction → Prop
  | nothing {call : TxnCall} {txn' : Transaction} (hsame : txn'.writeSet = txn.writeSet) :
      Effect before txn call before txn'
  | inserted {frames : ℕ → Bool} {tuple : Tuple} {rid : Rid} (hfree : before rid = none) :
      Effect before txn (.insert frames tuple)
        (Function.update before rid (some ⟨tuple.data, false⟩)) (txn.record rid .insert .empty)
  | marked {rid : Rid} :
      Effect before txn (.mark true rid)
        (Function.update before rid
          ((before rid).map fun stored => { stored with marked := true }))
        (txn.record rid .delete .empty)
  | updated {frame : Bool} {tuple old : Tuple} {rid : Rid} {txn' : Transaction}
      (hold : before rid = some ⟨old.data, false⟩)
      (htxn : txn' = txn.record rid .update old ∨ txn'.writeSet = txn.writeSet) :
      Effect before txn (.update frame tuple rid)
        (Function.update before rid (some ⟨tuple.data, false⟩)) txn'

variable (h : TableHeap.IsHeap firstPageId pool chain)
include h

theorem apply_insert {frames : ℕ → Bool} {tuple : Tuple}
    (hcall : apply firstPageId pool txn (.insert frames tuple) = .ok (pool', txn')) :
    ∃ chain', TableHeap.IsHeap firstPageId pool' chain' ∧ chain ⊆ chain' ∧
      Effect (contents firstPageId pool) txn (.insert frames tuple)
        (contents firstPageId pool') txn' := by
  simp only [apply] at hcall
  cases hinsert : insertTuple firstPageId frames pool txn tuple with
  | error fault => simp only [hinsert, Except.map, reduceCtorEq] at hcall
  | ok result =>
    simp only [hinsert, Except.map, Except.ok.injEq] at hcall
    have houtcome := insertTuple_outcome h hinsert
    cases houtcome with
    | @inserted rid after chain' hpos hheap hinserted =>
      cases hcall
      obtain ⟨hfree, hcontents⟩ := hinserted.contents_eq h hheap
      refine ⟨chain', hheap, ?_, hcontents ▸ .inserted hfree⟩
      rcases hinserted.chain_eq.2.2 with rfl | ⟨newPageId, rfl⟩
      · exact List.Subset.refl _
      · exact List.subset_append_left _ _
    | @refused after chain' hheap hgrown =>
      cases hcall
      obtain ⟨extra, rfl, _⟩ := hgrown.extra
      refine ⟨_, hheap, List.subset_append_left _ _, ?_⟩
      rw [hgrown.contents_eq h hheap]
      exact .nothing rfl

theorem apply_mark {frame : Bool} {rid : Rid}
    (hmem : rid.pageId ∈ chain)
    (hcall : apply firstPageId pool txn (.mark frame rid) = .ok (pool', txn')) :
    TableHeap.IsHeap firstPageId pool' chain ∧
      Effect (contents firstPageId pool) txn (.mark frame rid)
        (contents firstPageId pool') txn' := by
  simp only [apply, Except.ok.injEq] at hcall
  cases frame with
  | false =>
    obtain ⟨rfl, rfl⟩ := hcall
    exact ⟨h, .nothing rfl⟩
  | true =>
    obtain ⟨after, hmark, hheap, hcontents⟩ := markDelete_contents h hmem txn
    rw [hmark, Prod.mk.injEq] at hcall
    obtain ⟨rfl, rfl⟩ := hcall
    exact ⟨hheap, hcontents ▸ .marked⟩

theorem apply_update {frame : Bool} {tuple : Tuple} {rid : Rid}
    (hmem : rid.pageId ∈ chain)
    (hcall : apply firstPageId pool txn (.update frame tuple rid) = .ok (pool', txn')) :
    TableHeap.IsHeap firstPageId pool' chain ∧
      Effect (contents firstPageId pool) txn (.update frame tuple rid)
        (contents firstPageId pool') txn' := by
  simp only [apply] at hcall
  rcases updateTuple_outcome h hmem frame txn tuple with
    ⟨result, hends, houtcome⟩ | ⟨hfault, _⟩
  · simp only [hends, Except.map, Except.ok.injEq] at hcall
    rw [hcall] at houtcome
    generalize hpair : (pool', txn') = pair at houtcome
    cases houtcome with
    | noFrame =>
      cases hpair
      exact ⟨h, .nothing rfl⟩
    | refused hheap hedited =>
      cases hpair
      rw [hedited.contents_of_same h hheap hmem]
      exact ⟨hheap, .nothing rfl⟩
    | @done after old view hheap hupdate hedited =>
      cases hpair
      obtain ⟨hold, hcontents⟩ := hedited.contents_of_update h hheap hmem hupdate
      rw [hcontents]
      refine ⟨hheap, .updated hold ?_⟩
      split_ifs
      · exact .inl rfl
      · exact .inr rfl
  · simp only [hfault, Except.map, reduceCtorEq] at hcall

/-- **A call that returns**, and what it does to the table. -/
theorem apply_effect {call : TxnCall}
    (hvalid : call.Valid firstPageId pool)
    (hcall : call.apply firstPageId pool txn = .ok (pool', txn')) :
    ∃ chain', TableHeap.IsHeap firstPageId pool' chain' ∧ chain ⊆ chain' ∧
      Effect (contents firstPageId pool) txn call
        (contents firstPageId pool') txn' := by
  cases call with
  | insert frames tuple => exact apply_insert h hcall
  | mark frame rid =>
    have hmem : rid.pageId ∈ chain := h.pageIds_eq ▸ hvalid
    obtain ⟨hheap, heffect⟩ := apply_mark h hmem hcall
    exact ⟨chain, hheap, List.Subset.refl _, heffect⟩
  | update frame tuple rid =>
    have hmem : rid.pageId ∈ chain := h.pageIds_eq ▸ hvalid
    obtain ⟨hheap, heffect⟩ := apply_update h hmem hcall
    exact ⟨chain, hheap, List.Subset.refl _, heffect⟩

omit h

/-! A call stops at an empty tuple or at a page that is not found, never at an assertion
about slots or offsets. -/

theorem insertLoop_fault {tuple : Tuple} {frames : ℕ → Bool} {fuel request : ℕ} {pageId : PageId}
    {fault : TableFault}
    (hloop : insertLoop tuple frames fuel request pool pageId = .error fault) :
    fault = .endlessChain ∨ fault = .emptyTuple ∨ fault = .nullPage := by
  induction fuel generalizing request pool pageId with
  | zero =>
    simp only [insertLoop, Except.error.injEq] at hloop
    exact .inl hloop.symm
  | succ fuel ih =>
    rw [insertLoop] at hloop
    split at hloop
    · next hpage =>
        obtain rfl := Except.error.inj hloop
        unfold TablePage.insertTuple at hpage
        split_ifs at hpage
        exact .inr (.inl (Except.error.inj hpage).symm)
    · cases hloop
    · split_ifs at hloop
      · exact ih hloop
      · exact .inr (.inr (Except.error.inj hloop).symm)
      · split at hloop
        · cases hloop
        · exact ih hloop

/-- **A call that faults.** -/
theorem apply_fault (h : TableHeap.IsHeap firstPageId pool chain) {call : TxnCall}
    (hvalid : call.Valid firstPageId pool) {fault : TableFault}
    (hcall : call.apply firstPageId pool txn = .error fault) :
    fault = .endlessChain ∨ fault = .emptyTuple ∨ fault = .nullPage := by
  cases call with
  | insert frames tuple =>
    simp only [apply, insertTuple] at hcall
    split_ifs at hcall
    · cases hcall
    · cases hloop : insertLoop tuple frames (pool.nextPageId.toNat + 2) 1
          (pool.fetchPage firstPageId) firstPageId with
      | error fault' =>
        simp only [hloop, Except.map, Except.error.injEq] at hcall
        exact hcall ▸ insertLoop_fault hloop
      | ok result =>
        obtain ⟨answer, after⟩ := result
        cases answer <;> simp only [hloop, Except.map, reduceCtorEq] at hcall
    · cases hcall
  | mark frame rid => cases hcall
  | update frame tuple rid =>
    have hmem : rid.pageId ∈ chain := h.pageIds_eq ▸ hvalid
    simp only [apply] at hcall
    rcases updateTuple_outcome h hmem frame txn tuple with
      ⟨result, hends, _⟩ | ⟨hfault, _⟩
    · simp only [hends, Except.map, reduceCtorEq] at hcall
    · simp only [hfault, Except.map, Except.error.injEq] at hcall
      exact .inr (.inl hcall.symm)

end TxnCall

end BusTub
