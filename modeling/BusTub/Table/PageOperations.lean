import BusTub.Library.Machine
import BusTub.Table.PageContents

/-!
# The operations of a table page

On a page with a layout every operation of the code is the operation of the abstract page, keeps
the layout and keeps the links of the page.  There is one lemma for an operation that the abstract
page accepts and one for an operation that it refuses.

From these, over every sequence of calls that starts at `Init`: the layout holds in every state
and no assertion about offsets fails, and the calls are the obvious updates of a map from slots to
tuples.
-/

namespace BusTub

open ByteMemory Tiling Machines Memory

namespace TablePage

variable {page page' : TablePage} {slot : ℕ}

/-! ## The operations -/

/-- `page'` has a layout, the links of `page`, and represents `after`. -/
structure Becomes (page page' : TablePage) (after : SlotMap) : Prop where
  layout : Layout page'
  links : SameLinks page page'
  view : page'.view = after

theorem freeSlot_view (page : TablePage) : page.view.freeSlot = page.freeSlot := by
  have hfind :
      ((List.range page.getTupleCount).find? fun slot => (page.view.contents slot).isNone) =
        (List.range page.getTupleCount).find? fun slot => page.getTupleSize slot == 0 := by
    rw [← List.head?_filter, ← List.head?_filter]
    refine congrArg List.head? (List.filter_congr fun slot hslot => ?_)
    rw [Bool.eq_iff_iff, beq_iff_eq]
    exact contents_isNone_iff (List.mem_range.mp hslot)
  exact congrArg (fun found => found.getD page.getTupleCount) hfind

theorem freeSlot_spec (page : TablePage) :
    page.freeSlot ≤ page.getTupleCount ∧ page.freeSlot ∉ page.occupied := by
  unfold freeSlot
  cases hfind : (List.range page.getTupleCount).find? fun slot => page.getTupleSize slot == 0 with
  | none => exact ⟨le_refl _, fun hmem => absurd hmem.1 (lt_irrefl _)⟩
  | some slot =>
    have hmem := List.mem_range.mp (List.mem_of_find?_eq_some hfind)
    have hzero := List.find?_some hfind
    rw [beq_iff_eq] at hzero
    exact ⟨hmem.le, fun hin => hin.2 hzero⟩

theorem insertTuple_none (h : Layout page) {tuple : Tuple} (hpos : tuple.size ≠ 0)
    (hinsert : page.view.insert tuple.data = none) : page.insertTuple tuple = .ok (none, page) := by
  have hfull : page.getFreeSpacePointer < 32 + 8 * page.getTupleCount + tuple.size :=
    SlotMap.insert_eq_none_iff.mp hinsert
  rw [insertTuple, if_neg hpos, if_pos]
  rw [h.remaining_eq]
  unfold sizeTablePageHeader sizeTuple
  omega

theorem insertTuple_some (h : Layout page) {tuple : Tuple} (hpos : tuple.size ≠ 0) {after : SlotMap}
    (hinsert : page.view.insert tuple.data = some (slot, after)) :
    ∃ page', page.insertTuple tuple = .ok (some ⟨page.getTablePageId, slot⟩, page') ∧
      Becomes page page' after := by
  obtain ⟨hfits, rfl, rfl⟩ := SlotMap.insert_eq_some_iff.mp hinsert
  have hroom : 32 + 8 * page.getTupleCount + tuple.size ≤ page.getFreeSpacePointer := hfits
  obtain ⟨hslot, hfresh⟩ := page.freeSlot_spec
  have hplaced := placeTuple_placed hroom h.pointer_le hslot
  have hremaining : ¬ page.getFreeSpaceRemaining < tuple.size + sizeTuple := by
    rw [h.remaining_eq]
    unfold sizeTablePageHeader sizeTuple
    omega
  rw [freeSlot_view]
  refine ⟨page.placeTuple page.freeSlot tuple, ?_, ?_, hplaced.links, ?_⟩
  · rw [insertTuple, if_neg hpos, if_neg hremaining, if_neg fun hfull => hremaining hfull.2]
  · exact hplaced.layout h hroom hslot hfresh (Nat.pos_of_ne_zero hpos)
  · have hcontents := hplaced.contents_eq h hroom hslot (Nat.pos_of_ne_zero hpos)
    rw [view, hcontents, hplaced.pointer, hplaced.count]
    rfl

theorem markDelete_none (hmark : page.view.mark slot = none) :
    page.markDelete slot = (false, page) := by
  unfold markDelete
  by_cases hslot : page.getTupleCount ≤ slot
  · rw [if_pos hslot]
  · have hdeleted : isDeleted (page.getTupleSize slot) = true := by
      by_contra hlive
      obtain ⟨_, _, hcontents⟩ := contents_of_live (by omega) (Bool.eq_false_of_not_eq_true hlive)
      exact SlotMap.mark_eq_none_iff.mp hmark _ hcontents
    rw [if_neg hslot, if_pos hdeleted]

theorem live_of_contents {bytes : List UInt8} (h : page.contents slot = some ⟨bytes, false⟩) :
    slot < page.getTupleCount ∧ isDeleted (page.getTupleSize slot) = false ∧
      (page.tupleBytes slot).data = bytes := by
  have hslot := (mem_occupied_of_contents h).1
  have hlive : isDeleted (page.getTupleSize slot) = false := by
    by_contra hdeleted
    rcases contents_of_deleted (Bool.eq_true_of_not_eq_false hdeleted) with hnone | ⟨_, hmarked⟩
    · rw [hnone] at h
      cases h
    · rw [hmarked] at h
      cases h
  obtain ⟨_, _, hcontents⟩ := contents_of_live hslot hlive
  rw [hcontents, Option.some.injEq, Stored.mk.injEq] at h
  exact ⟨hslot, hlive, h.1⟩

theorem markDelete_some (h : Layout page) {after : SlotMap}
    (hmark : page.view.mark slot = some after) :
    ∃ page', page.markDelete slot = (true, page') ∧ Becomes page page' after := by
  obtain ⟨bytes, hbytes, rfl⟩ := SlotMap.mark_eq_some_iff.mp hmark
  have hcontents : page.contents slot = some ⟨bytes, false⟩ := hbytes
  obtain ⟨hslot, hlive, _⟩ := live_of_contents hcontents
  obtain ⟨hmem, hlength, _⟩ := contents_of_live hslot hlive
  have hstop := h.stop_le hmem
  have hpos : 0 < page.getTupleSize slot := Nat.pos_of_ne_zero hmem.2
  have hflag : setDeletedFlag (page.getTupleSize slot) = page.getTupleSize slot + 2 ^ 31 :=
    setDeletedFlag_of_lt (by omega)
  have hvalue : page.getTupleSize slot + 2 ^ 31 < 2 ^ 32 := by omega
  have hsame : (page.getTupleSize slot + 2 ^ 31) % 2 ^ 31 = page.tupleLength slot := by omega
  have hmarked : 2 ^ 31 ≤ page.getTupleSize slot + 2 ^ 31 := by omega
  obtain ⟨hlinks, hpointer, hcount⟩ :=
    page.setTupleSize_header slot (page.getTupleSize slot + 2 ^ 31)
  refine ⟨page.setTupleSize slot (page.getTupleSize slot + 2 ^ 31), ?_, ?_, hlinks, ?_⟩
  · simp only [markDelete, if_neg hslot.not_ge, hlive, Bool.false_eq_true, if_false, if_pos hpos,
      hflag]
  · exact setTupleSize_layout h hmem hvalue hsame
  · have hafter := setTupleSize_contents h hmem hvalue hsame hcontents
    simp only [view, SlotMap.set, hafter, hpointer, hcount, hmarked, decide_true]

theorem updateTuple_none (h : Layout page) {tuple : Tuple} (hpos : tuple.size ≠ 0)
    (hupdate : page.view.update slot tuple.data = none) :
    page.updateTuple tuple slot = .ok (none, page) := by
  have hheader := h.header_le'
  rw [updateTuple, if_neg hpos]
  by_cases hslot : page.getTupleCount ≤ slot
  · rw [if_pos hslot]
  · rw [if_neg hslot]
    cases hdeleted : isDeleted (page.getTupleSize slot) with
    | true => rw [if_pos rfl]
    | false =>
      obtain ⟨hmem, hlength, hcontents⟩ := contents_of_live (by omega) hdeleted
      have hfull : page.getFreeSpacePointer + (page.tupleBytes slot).data.length <
          24 + 8 * page.getTupleCount + tuple.size :=
        SlotMap.update_eq_none_iff.mp hupdate _ hcontents
      have hstop := h.stop_le hmem
      have hle := h.pointer_le'
      rw [length_bytes hcontents, hlength] at hfull
      rw [if_neg Bool.false_ne_true, if_pos]
      rw [h.remaining_eq]
      unfold sizeTablePageHeader sizeTuple
      rw [addU32_of_lt (by omega)]
      omega

theorem updateTuple_some (h : Layout page) {tuple : Tuple} (hpos : tuple.size ≠ 0)
    {old : List UInt8} {after : SlotMap}
    (hupdate : page.view.update slot tuple.data = some (old, after)) :
    ∃ oldTuple page', page.updateTuple tuple slot = .ok (some oldTuple, page') ∧
      oldTuple.data = old ∧ Becomes page page' after := by
  obtain ⟨hold, hfits, rfl⟩ := SlotMap.update_eq_some_iff.mp hupdate
  have hcontents : page.contents slot = some ⟨old, false⟩ := hold
  obtain ⟨hslot, hlive, hdata⟩ := live_of_contents hcontents
  obtain ⟨hmem, hlength, _⟩ := contents_of_live hslot hlive
  have holdlength : old.length = page.getTupleSize slot := (length_bytes hcontents).trans hlength
  have hroom : 24 + 8 * page.getTupleCount + tuple.size ≤
      page.getFreeSpacePointer + page.getTupleSize slot := holdlength ▸ hfits
  have hstop := h.stop_le hmem
  have hlow := h.tiles.low_le_start slot hmem
  have hreplaced := replaceTuple_replaced hroom hslot (Nat.pos_of_ne_zero hpos) hmem.2 hlow
    (hlength ▸ hstop) fun other hother hsize => h.tiles.low_le_start other ⟨hother, hsize⟩
  have hspace : ¬ addU32 page.getFreeSpaceRemaining (page.getTupleSize slot) < tuple.size := by
    rw [h.remaining_eq]
    unfold sizeTablePageHeader sizeTuple
    rw [addU32_of_lt (by omega)]
    omega
  refine ⟨page.tupleBytes slot, page.replaceTuple slot tuple, ?_, hdata, ?_, hreplaced.links, ?_⟩
  · rw [updateTuple, if_neg hpos, if_neg hslot.not_ge, hlive, if_neg Bool.false_ne_true,
      if_neg hspace, if_neg hlow.not_gt]
  · exact hreplaced.layout h hmem hlength hroom (Nat.pos_of_ne_zero hpos)
  · have hafter := hreplaced.contents_eq h hmem hlength hroom (Nat.pos_of_ne_zero hpos)
    simp [view, SlotMap.set, hafter, hreplaced.pointer, hreplaced.count, holdlength, Tuple.size]

theorem unmarkedSize_eq (page : TablePage) (slot : ℕ) :
    (if isDeleted (page.getTupleSize slot) = true then
      unsetDeletedFlag (page.getTupleSize slot) else page.getTupleSize slot) =
      page.tupleLength slot := by
  cases hdeleted : isDeleted (page.getTupleSize slot) with
  | true => rw [if_pos rfl, tupleLength]
  | false =>
    have hsize : ¬ (2 ^ 31 ≤ page.getTupleSize slot ∨ page.getTupleSize slot = 0) := by
      rw [← isDeleted_iff (page.getTupleSize_lt slot), hdeleted]
      exact Bool.false_ne_true
    rw [if_neg Bool.false_ne_true, tupleLength_eq, Nat.mod_eq_of_lt (by omega)]

theorem applyDelete_some (h : Layout page) {after : SlotMap}
    (hremove : page.view.remove slot = some after) :
    ∃ page', page.applyDelete slot = .ok page' ∧ Becomes page page' after := by
  obtain ⟨stored, hstored, rfl⟩ := SlotMap.remove_eq_some_iff.mp hremove
  have hcontents : page.contents slot = some stored := hstored
  have hmem := mem_occupied_of_contents hcontents
  have hlow := h.tiles.low_le_start slot hmem
  have hremoved := removeTuple_removed hmem.1 h.header_le' hlow (h.stop_le hmem)
  refine ⟨page.removeTuple slot (page.tupleLength slot), ?_, ?_, hremoved.links, ?_⟩
  · simp [applyDelete, if_neg hmem.1.not_ge, unmarkedSize_eq, if_neg hlow.not_gt]
  · exact hremoved.layout h hmem
  · have hafter := hremoved.contents_eq h hmem
    simp [view, SlotMap.set, hafter, hremoved.pointer, hremoved.count, length_bytes hcontents]

/-- `ApplyDelete` of a slot that holds nothing fails one of its assertions. -/
theorem applyDelete_none (h : Layout page) (hcontents : page.contents slot = none) :
    page.applyDelete slot = .error .noSuchSlot ∨
      page.applyDelete slot = .error .freeSpaceBeforeTuples := by
  unfold applyDelete
  by_cases hslot : page.getTupleCount ≤ slot
  · exact .inl (if_pos hslot)
  · have hzero : page.getTupleSize slot = 0 := by
      by_contra hne
      rw [contents_of_mem ⟨by omega, hne⟩] at hcontents
      cases hcontents
    have hheader := h.header_le'
    have hoffset := h.empty slot (by omega) hzero
    right
    simp only [if_neg hslot, hoffset]
    exact if_pos (by omega)

theorem rollbackDelete_of_lt (h : Layout page) (hslot : slot < page.getTupleCount) :
    ∃ page', page.rollbackDelete slot = .ok page' ∧ Becomes page page' (page.view.unmark slot) := by
  by_cases hmem : slot ∈ page.occupied
  · have hlt := page.getTupleSize_lt slot
    have hlength := page.tupleLength_eq slot
    have hcontents := contents_of_mem hmem
    have hsame : page.tupleLength slot % 2 ^ 31 = page.tupleLength slot := by omega
    have hvalue : page.tupleLength slot < 2 ^ 32 := by omega
    have hmark : ¬ 2 ^ 31 ≤ page.tupleLength slot := by omega
    obtain ⟨hlinks, hpointer, hcount⟩ := page.setTupleSize_header slot (page.tupleLength slot)
    have hafter := setTupleSize_contents h hmem hvalue hsame hcontents
    cases hdeleted : isDeleted (page.getTupleSize slot) with
    | true =>
      refine ⟨page.setTupleSize slot (page.tupleLength slot), ?_, ?_, hlinks, ?_⟩
      · simp [rollbackDelete, if_neg hslot.not_ge, hdeleted, tupleLength]
      · exact setTupleSize_layout h hmem hvalue hsame
      · simp only [view, SlotMap.unmark, SlotMap.set, hafter, hpointer, hcount, hcontents,
          Option.map_some, hmark, decide_false]
    | false =>
      obtain ⟨_, _, hlive⟩ := contents_of_live hslot hdeleted
      refine ⟨page, ?_, h, ⟨rfl, rfl, rfl⟩, ?_⟩
      · simp [rollbackDelete, if_neg hslot.not_ge, hdeleted]
      · refine (SlotMap.unmark_eq_self fun stored hstored => ?_).symm
        rw [show page.view.contents slot = page.contents slot from rfl, hlive,
          Option.some.injEq] at hstored
        rw [← hstored]
  · -- the size of an empty slot is written again
    have hzero : page.getTupleSize slot = 0 := by
      by_contra hne
      exact hmem ⟨hslot, hne⟩
    have hrewrite : page.setTupleSize slot 0 = page := by
      have hsame := page.store_load_same 4 (offsetTupleSize + sizeTuple * slot)
      rwa [show page.load 4 (offsetTupleSize + sizeTuple * slot) = 0 from hzero] at hsame
    refine ⟨page, ?_, h, ⟨rfl, rfl, rfl⟩, ?_⟩
    · have hdeleted : isDeleted 0 = true := rfl
      simp only [rollbackDelete, if_neg hslot.not_ge, hzero, hdeleted, if_true,
        show unsetDeletedFlag 0 = 0 from rfl, hrewrite]
    · refine (SlotMap.unmark_eq_self fun stored hstored => ?_).symm
      rw [show page.view.contents slot = page.contents slot from rfl,
        contents_of_notMem hmem] at hstored
      cases hstored

theorem rollbackDelete_of_le (hslot : page.getTupleCount ≤ slot) :
    page.rollbackDelete slot = .error .noSuchSlot :=
  if_pos hslot

/-- `GetTuple` reads what the abstract page shows its readers. -/
theorem getTuple_eq (page : TablePage) (slot : ℕ) :
    (page.getTuple slot).map Tuple.data = page.view.live slot := by
  unfold getTuple SlotMap.live
  by_cases hslot : page.getTupleCount ≤ slot
  · rw [if_pos hslot, show page.view.contents slot = none from contents_of_count_le hslot]
    rfl
  · rw [if_neg hslot]
    cases hdeleted : isDeleted (page.getTupleSize slot) with
    | true =>
      rcases contents_of_deleted hdeleted with hnone | ⟨bytes, hmarked⟩
      · rw [show page.view.contents slot = none from hnone]
        rfl
      · rw [show page.view.contents slot = some ⟨bytes, true⟩ from hmarked]
        rfl
    | false =>
      obtain ⟨_, _, hcontents⟩ := contents_of_live (by omega) hdeleted
      rw [if_neg Bool.false_ne_true, show page.view.contents slot = _ from hcontents]
      rfl

theorem init_pointer (page : TablePage) (pageId prevPageId : PageId) :
    (page.init pageId bustubPageSize prevPageId).getFreeSpacePointer = bustubPageSize := by
  change (store _ 4 20 0).load 4 16 = bustubPageSize
  rw [load_store_of_disjoint (by omega)]
  exact load_store_same _ 4 16 bustubPageSize

theorem init_count (page : TablePage) (pageId prevPageId : PageId) :
    (page.init pageId bustubPageSize prevPageId).getTupleCount = 0 :=
  load_store_same _ 4 20 0

theorem init_layout (page : TablePage) (pageId prevPageId : PageId) :
    Layout (page.init pageId bustubPageSize prevPageId) := by
  have hpointer := page.init_pointer pageId prevPageId
  have hcount := page.init_count pageId prevPageId
  have hempty : (page.init pageId bustubPageSize prevPageId).occupied = ∅ := by
    ext slot
    simp [occupied, hcount]
  constructor
  · rw [hpointer, hcount]
    decide
  · rw [hpointer]
  · rw [hempty, hpointer]
    exact tiles_empty _ _ _
  · intro slot hslot
    omega

def emptyPage : SlotMap := ⟨bustubPageSize, 0, fun _ => none⟩

theorem init_view (page : TablePage) (pageId prevPageId : PageId) :
    (page.init pageId bustubPageSize prevPageId).view = emptyPage := by
  have hcontents : (page.init pageId bustubPageSize prevPageId).contents = fun _ => none := by
    funext slot
    exact contents_of_count_le (by rw [init_count]; omega)
  rw [view, hcontents, init_pointer, init_count, emptyPage]

theorem int32_range {id : ℤ} (hlower : -2 ^ 31 ≤ id) (hupper : id < 2 ^ 31) :
    -(256 ^ 4 : ℕ) ≤ id * 2 ∧ id * 2 < (256 ^ 4 : ℕ) := by
  constructor <;> push_cast <;> omega

theorem init_links (page : TablePage) {pageId prevPageId : PageId} (hid : -2 ^ 31 ≤ pageId)
    (hid' : pageId < 2 ^ 31) (hprev : -2 ^ 31 ≤ prevPageId) (hprev' : prevPageId < 2 ^ 31) :
    (page.init pageId bustubPageSize prevPageId).getTablePageId = pageId ∧
      (page.init pageId bustubPageSize prevPageId).getPrevPageId = prevPageId ∧
      (page.init pageId bustubPageSize prevPageId).getNextPageId = invalidPageId := by
  simp (disch := omega) only [init, getTablePageId, getPrevPageId, getNextPageId, setTablePageId,
    setPrevPageId, setNextPageId, setFreeSpacePointer, setTupleCount, offsetPrevPageId,
    offsetNextPageId, offsetFreeSpace, offsetTupleCount, loadInt_store_of_disjoint,
    loadInt_storeInt_of_disjoint]
  refine ⟨?_, ?_, ?_⟩
  · exact loadInt_storeInt_same _ 4 0 (int32_range hid hid').1 (int32_range hid hid').2
  · exact loadInt_storeInt_same _ 4 8 (int32_range hprev hprev').1
      (int32_range hprev hprev').2
  · exact loadInt_storeInt_same _ 4 12 (by decide) (by decide)

/-! ## The links of a page -/

section Links

variable (hcells : ∀ cell, 16 ≤ cell → page' cell = page cell)

include hcells

theorem fields_of_cells :
    page'.getFreeSpacePointer = page.getFreeSpacePointer ∧
      page'.getTupleCount = page.getTupleCount ∧
      page'.getTupleOffsetAtSlot = page.getTupleOffsetAtSlot ∧
      page'.getTupleSize = page.getTupleSize := by
  refine ⟨?_, ?_, ?_, ?_⟩
  · exact load_congr fun index _ => hcells _ (by unfold offsetFreeSpace; omega)
  · exact load_congr fun index _ => hcells _ (by unfold offsetTupleCount; omega)
  · funext slot
    exact (slot_congr fun cell hlower _ => hcells cell (by omega)).1
  · funext slot
    exact (slot_congr fun cell hlower _ => hcells cell (by omega)).2

theorem layout_of_cells (h : Layout page) : Layout page' := by
  obtain ⟨hpointer, hcount, hoffset, hsize⟩ := fields_of_cells hcells
  have hoccupied : page'.occupied = page.occupied := by
    unfold occupied
    rw [hcount, hsize]
  have hlength : page'.tupleLength = page.tupleLength := by
    funext slot
    exact tupleLength_congr (congrFun hsize slot)
  constructor
  · rw [hpointer, hcount]
    exact h.header_le
  · rw [hpointer]
    exact h.pointer_le
  · rw [hoccupied, hoffset, hlength, hpointer]
    exact h.tiles
  · rw [hcount, hoffset, hsize]
    exact h.empty

theorem view_of_cells (h : Layout page) : page'.view = page.view := by
  obtain ⟨hpointer, hcount, hoffset, hsize⟩ := fields_of_cells hcells
  have hcontents : page'.contents = page.contents := by
    funext slot
    apply contents_congr
    · rw [hcount]
    · rw [hsize]
      exact fun _ => rfl
    · intro hmem
      have hlow := h.tiles.low_le_start slot hmem
      have hheader := h.header_le'
      rw [hoffset]
      exact read_congr fun index _ => hcells _ (by omega)
  rw [view, view, hpointer, hcount, hcontents]

end Links

theorem setNextPageId_spec (h : Layout page) {nextPageId : PageId} (hlower : -2 ^ 31 ≤ nextPageId)
    (hupper : nextPageId < 2 ^ 31) :
    Layout (page.setNextPageId nextPageId) ∧ (page.setNextPageId nextPageId).view = page.view ∧
      (page.setNextPageId nextPageId).getTablePageId = page.getTablePageId ∧
      (page.setNextPageId nextPageId).getPrevPageId = page.getPrevPageId ∧
      (page.setNextPageId nextPageId).getNextPageId = nextPageId := by
  have hcells : ∀ cell, 16 ≤ cell → page.setNextPageId nextPageId cell = page cell := by
    intro cell hcell
    exact store_apply_outside (by unfold offsetNextPageId; omega)
  refine ⟨layout_of_cells hcells h, view_of_cells hcells h, ?_, ?_, ?_⟩
  · exact loadInt_storeInt_of_disjoint (by unfold offsetNextPageId; omega)
  · exact loadInt_storeInt_of_disjoint
      (by unfold offsetNextPageId offsetPrevPageId; omega)
  · exact loadInt_storeInt_same _ 4 _ (int32_range hlower hupper).1
      (int32_range hlower hupper).2

/-! ## Sequences of calls -/

inductive PageCall
  | insert (tuple : Tuple)
  | mark (slot : ℕ)
  | update (tuple : Tuple) (slot : ℕ)
  | applyDelete (slot : ℕ)
  | rollbackDelete (slot : ℕ)

inductive PageAnswer
  | inserted (rid : Option Rid)
  | marked (done : Bool)
  | updated (old : Option Tuple)
  | done

def pageMachine : Machine TablePage PageCall PageAnswer TableFault where
  step page
    | .insert tuple => (page.insertTuple tuple).map fun result => (.inserted result.1, result.2)
    | .mark slot => .ok (.marked (page.markDelete slot).1, (page.markDelete slot).2)
    | .update tuple slot =>
      (page.updateTuple tuple slot).map fun result => (.updated result.1, result.2)
    | .applyDelete slot => (page.applyDelete slot).map fun after => (.done, after)
    | .rollbackDelete slot => (page.rollbackDelete slot).map fun after => (.done, after)

/-- The call is one that the page can answer: tuples are not empty and fit a page, a
tuple that is removed is there, and a slot that is unmarked is one of the page. -/
def PageCall.Valid (page : TablePage) : PageCall → Prop
  | .insert tuple => 0 < tuple.size
  | .mark _ => True
  | .update tuple _ => 0 < tuple.size
  | .applyDelete slot => slot ∈ page.occupied
  | .rollbackDelete slot => slot < page.getTupleCount

/-- The update of a map from slots to tuples that a call is meant to be, given what it
returned. -/
def MapStep (contents : ℕ → Option Stored) : PageCall → PageAnswer → (ℕ → Option Stored) → Prop
  | .insert _, .inserted none, after => after = contents
  | .insert tuple, .inserted (some rid), after =>
    contents rid.slotNum = none ∧
      after = Function.update contents rid.slotNum (some ⟨tuple.data, false⟩)
  | .mark slot, .marked false, after =>
    (∀ bytes, contents slot ≠ some ⟨bytes, false⟩) ∧ after = contents
  | .mark slot, .marked true, after =>
    ∃ bytes, contents slot = some ⟨bytes, false⟩ ∧
      after = Function.update contents slot (some ⟨bytes, true⟩)
  | .update _ _, .updated none, after => after = contents
  | .update tuple slot, .updated (some old), after =>
    contents slot = some ⟨old.data, false⟩ ∧
      after = Function.update contents slot (some ⟨tuple.data, false⟩)
  | .applyDelete slot, .done, after =>
    contents slot ≠ none ∧ after = Function.update contents slot none
  | .rollbackDelete slot, .done, after =>
    after = Function.update contents slot
      ((contents slot).map fun stored => { stored with marked := false })
  | _, _, _ => False

/-- A call that the page can answer returns, and in any case a page with a layout is left
with a layout, its links, and the map that the call is meant to leave. -/
structure StepsTo (page : TablePage) (call : PageCall) (answer : PageAnswer) (page' : TablePage) :
    Prop where
  step : pageMachine.step page call = .ok (answer, page')
  layout : Layout page'
  links : SameLinks page page'
  contents : MapStep page.contents call answer page'.contents

theorem Becomes.contents {after : SlotMap} (h : Becomes page page' after) :
    page'.contents = after.contents :=
  congrArg SlotMap.contents h.view

theorem insert_stepsTo (h : Layout page) {tuple : Tuple} (hpos : 0 < tuple.size) :
    ∃ answer page', StepsTo page (.insert tuple) answer page' := by
  cases hinsert : page.view.insert tuple.data with
  | none =>
    refine ⟨.inserted none, page, ?_, h, ⟨rfl, rfl, rfl⟩, rfl⟩
    simp [pageMachine, insertTuple_none h hpos.ne' hinsert, Except.map]
  | some result =>
    obtain ⟨slot, after⟩ := result
    obtain ⟨page', hstep, hbecomes⟩ := insertTuple_some h hpos.ne' hinsert
    obtain ⟨_, hslot, rfl⟩ := SlotMap.insert_eq_some_iff.mp hinsert
    refine ⟨.inserted (some ⟨page.getTablePageId, slot⟩), page', ?_, hbecomes.layout,
      hbecomes.links, ?_, hbecomes.contents⟩
    · simp [pageMachine, hstep, Except.map]
    · have hfree : page.contents page.freeSlot = none := contents_of_notMem page.freeSlot_spec.2
      rw [hslot, freeSlot_view]
      exact hfree

theorem mark_stepsTo (h : Layout page) (slot : ℕ) :
    ∃ answer page', StepsTo page (.mark slot) answer page' := by
  cases hmark : page.view.mark slot with
  | none =>
    refine ⟨.marked false, page, ?_, h, ⟨rfl, rfl, rfl⟩, SlotMap.mark_eq_none_iff.mp hmark, rfl⟩
    simp [pageMachine, markDelete_none hmark]
  | some after =>
    obtain ⟨page', hstep, hbecomes⟩ := markDelete_some h hmark
    obtain ⟨bytes, hbytes, rfl⟩ := SlotMap.mark_eq_some_iff.mp hmark
    refine ⟨.marked true, page', ?_, hbecomes.layout, hbecomes.links, bytes, hbytes,
      hbecomes.contents⟩
    simp [pageMachine, hstep]

theorem update_stepsTo (h : Layout page) {tuple : Tuple} (hpos : 0 < tuple.size) (slot : ℕ) :
    ∃ answer page', StepsTo page (.update tuple slot) answer page' := by
  cases hupdate : page.view.update slot tuple.data with
  | none =>
    refine ⟨.updated none, page, ?_, h, ⟨rfl, rfl, rfl⟩, rfl⟩
    simp [pageMachine, updateTuple_none h hpos.ne' hupdate, Except.map]
  | some result =>
    obtain ⟨old, after⟩ := result
    obtain ⟨oldTuple, page', hstep, hdata, hbecomes⟩ := updateTuple_some h hpos.ne' hupdate
    obtain ⟨hold, _, rfl⟩ := SlotMap.update_eq_some_iff.mp hupdate
    refine ⟨.updated (some oldTuple), page', ?_, hbecomes.layout, hbecomes.links, ?_,
      hbecomes.contents⟩
    · simp [pageMachine, hstep, Except.map]
    · rw [hdata]
      exact hold

theorem applyDelete_stepsTo (h : Layout page) (hmem : slot ∈ page.occupied) :
    ∃ answer page', StepsTo page (.applyDelete slot) answer page' := by
  have hcontents := contents_of_mem hmem
  obtain ⟨page', hstep, hbecomes⟩ :=
    applyDelete_some h (SlotMap.remove_eq_some_iff.mpr ⟨_, hcontents, rfl⟩)
  refine ⟨.done, page', ?_, hbecomes.layout, hbecomes.links, ?_, hbecomes.contents⟩
  · simp [pageMachine, hstep, Except.map]
  · rw [hcontents]
    exact Option.some_ne_none _

theorem rollbackDelete_stepsTo (h : Layout page) (hslot : slot < page.getTupleCount) :
    ∃ answer page', StepsTo page (.rollbackDelete slot) answer page' := by
  obtain ⟨page', hstep, hbecomes⟩ := rollbackDelete_of_lt h hslot
  refine ⟨.done, page', ?_, hbecomes.layout, hbecomes.links, hbecomes.contents⟩
  simp [pageMachine, hstep, Except.map]

/-- **One step.**  A valid call returns and does what it is meant to do. -/
theorem valid_stepsTo (h : Layout page) {call : PageCall} (hvalid : call.Valid page) :
    ∃ answer page', StepsTo page call answer page' := by
  cases call with
  | insert tuple => exact insert_stepsTo h hvalid
  | mark slot => exact mark_stepsTo h slot
  | update tuple slot => exact update_stepsTo h hvalid slot
  | applyDelete slot => exact applyDelete_stepsTo h hvalid
  | rollbackDelete slot => exact rollbackDelete_stepsTo h hvalid

theorem step_of_not_valid (h : Layout page) {call : PageCall} (hvalid : ¬ call.Valid page) :
    ∃ fault, pageMachine.step page call = .error fault := by
  cases call with
  | insert tuple =>
    have hzero : tuple.size = 0 := by
      simp only [PageCall.Valid] at hvalid
      omega
    exact ⟨.emptyTuple, by simp only [pageMachine, insertTuple, if_pos hzero, Except.map]⟩
  | mark slot => exact absurd trivial hvalid
  | update tuple slot =>
    have hzero : tuple.size = 0 := by
      simp only [PageCall.Valid] at hvalid
      omega
    exact ⟨.emptyTuple, by simp only [pageMachine, updateTuple, if_pos hzero, Except.map]⟩
  | applyDelete slot =>
    rcases applyDelete_none h (contents_of_notMem hvalid) with hfault | hfault
    · exact ⟨_, by simp only [pageMachine, hfault, Except.map]; rfl⟩
    · exact ⟨_, by simp only [pageMachine, hfault, Except.map]; rfl⟩
  | rollbackDelete slot =>
    have hfault := rollbackDelete_of_le (Nat.le_of_not_lt hvalid)
    exact ⟨_, by simp only [pageMachine, hfault, Except.map]; rfl⟩

theorem stepsTo_of_step (h : Layout page) {call : PageCall} {answer : PageAnswer}
    (hstep : pageMachine.step page call = .ok (answer, page')) :
    StepsTo page call answer page' := by
  by_cases hvalid : call.Valid page
  · obtain ⟨answer', after, hsteps⟩ := valid_stepsTo h hvalid
    have hsame := hsteps.step
    rw [hstep, Except.ok.injEq, Prod.mk.injEq] at hsame
    obtain ⟨rfl, rfl⟩ := hsame
    exact hsteps
  · obtain ⟨fault, hfault⟩ := step_of_not_valid h hvalid
    rw [hstep] at hfault
    cases hfault

/-! ## Layout and contents of every page -/

/-- The calls that the layout is claimed for: tuples that are not empty and no larger than
a page, and `ApplyDelete` of slots that hold a tuple only. -/
def PageCall.InScope (page : TablePage) : PageCall → Prop
  | .insert tuple => 0 < tuple.size ∧ tuple.size ≤ bustubPageSize
  | .mark _ => True
  | .update tuple _ => 0 < tuple.size ∧ tuple.size ≤ bustubPageSize
  | .applyDelete slot => slot ∈ page.occupied
  | .rollbackDelete _ => True

theorem fault_of_inScope (h : Layout page) {call : PageCall} (hscope : call.InScope page)
    {fault : TableFault} (hstep : pageMachine.step page call = .error fault) :
    fault = .noSuchSlot := by
  have hvalid : ¬ call.Valid page := by
    intro hvalid
    obtain ⟨answer, after, hsteps⟩ := valid_stepsTo h hvalid
    rw [hsteps.step] at hstep
    cases hstep
  cases call with
  | insert tuple => exact absurd hscope.1 hvalid
  | mark slot => exact absurd trivial hvalid
  | update tuple slot => exact absurd hscope.1 hvalid
  | applyDelete slot => exact absurd hscope hvalid
  | rollbackDelete slot =>
    simp only [pageMachine, rollbackDelete_of_le (Nat.le_of_not_lt hvalid), Except.map,
      Except.error.injEq] at hstep
    exact hstep.symm

/-- **The layout of a page.**  After every sequence of calls from `Init` the tuples tile
the bytes from the free space pointer on, the header and the slots end before it, so that
the free space is the true difference, and no assertion about offsets stopped the
sequence: the only one that can is that of `RollbackDelete` about the slot number. -/
theorem tablePage_layout (memory : TablePage) (pageId prevPageId : PageId) (calls : List PageCall)
    (hscope : pageMachine.Along (fun page call => call.InScope page)
      (memory.init pageId bustubPageSize prevPageId) calls) :
    (∀ answers page,
      pageMachine.run (memory.init pageId bustubPageSize prevPageId) calls = .ok (answers, page) →
      Layout page ∧ (page.getFreeSpaceRemaining : ℤ) =
        page.getFreeSpacePointer - sizeTablePageHeader - sizeTuple * page.getTupleCount) ∧
      ∀ fault,
        pageMachine.run (memory.init pageId bustubPageSize prevPageId) calls = .error fault →
        fault = .noSuchSlot := by
  obtain ⟨hlayout, hfault⟩ := Machine.run_keeps
    (fun page call answer next h _ hstep => (stepsTo_of_step h hstep).layout)
    (fun page call fault h hcall hstep => fault_of_inScope h hcall hstep)
    (memory.init_layout pageId prevPageId) hscope
  refine ⟨fun answers page hrun => ?_, hfault⟩
  have h := hlayout answers page hrun
  refine ⟨h, ?_⟩
  have hle := h.header_le
  rw [h.remaining_eq]
  push_cast [hle]
  ring

/-- The layout after a tuple was inserted and removed again. -/
theorem tablePage_layout_removed :
    ∃ answers page, pageMachine.run (init (fun _ => 0) 5 bustubPageSize invalidPageId)
      [.insert ⟨[7], by decide⟩, .applyDelete 0] = .ok (answers, page) ∧ Layout page := by
  have hstep : (pageMachine.step (init (fun _ => 0) 5 bustubPageSize invalidPageId)
      (.insert ⟨[7], by decide⟩)).toOption.any (fun result =>
        0 < result.2.getTupleCount ∧ result.2.getTupleSize 0 ≠ 0) = true := by decide +kernel
  obtain ⟨⟨inserted, next⟩, hstep, hoccupied⟩ := Machine.exists_ok_of_check hstep
  have hboth : 0 < next.getTupleCount ∧ next.getTupleSize 0 ≠ 0 := of_decide_eq_true hoccupied
  have hlayout := tablePage_layout (fun _ => 0) 5 invalidPageId
    [.insert ⟨[7], by decide⟩, .applyDelete 0] (by
      refine ⟨⟨by decide, by decide⟩, fun answer next' hstep' => ⟨?_, fun _ _ _ => trivial⟩⟩
      rw [hstep, Except.ok.injEq, Prod.mk.injEq] at hstep'
      rw [← hstep'.2]
      exact hboth)
  have hrun : (pageMachine.run (init (fun _ => 0) 5 bustubPageSize invalidPageId)
      [.insert ⟨[7], by decide⟩, .applyDelete 0]).toOption.any (fun _ => true) = true := by
    decide +kernel
  obtain ⟨⟨answers, page⟩, hrun, -⟩ := Machine.exists_ok_of_check hrun
  exact ⟨answers, page, hrun, (hlayout.1 answers page hrun).1⟩

/-- A page that some sequence of calls leaves. -/
def Reachable (page : TablePage) : Prop :=
  ∃ (memory : TablePage) (pageId prevPageId : PageId) (calls : List PageCall)
    (answers : List PageAnswer),
    pageMachine.run (memory.init pageId bustubPageSize prevPageId) calls = .ok (answers, page)

theorem Reachable.layout (h : Reachable page) : Layout page := by
  obtain ⟨memory, pageId, prevPageId, calls, answers, hrun⟩ := h
  exact Machine.run_preserves
    (fun page call answer next h hstep => (stepsTo_of_step h hstep).layout)
    (memory.init_layout pageId prevPageId) hrun

theorem getTuple_congr (hcontents : page'.contents slot = page.contents slot) :
    page'.getTuple slot = page.getTuple slot := by
  have hlive : (page'.getTuple slot).map Tuple.data = (page.getTuple slot).map Tuple.data := by
    rw [getTuple_eq, getTuple_eq, SlotMap.live, SlotMap.live,
      show page'.view.contents slot = page.view.contents slot from hcontents]
  exact Option.map_injective (fun _ _ => Tuple.ext_data) hlive

/-- **The contents of a page.**  In every page that a sequence of calls from `Init`
leaves, a valid call returns; a call that returns is the update of the map from slots to
tuples that it is meant to be, so that every other slot keeps its bytes and its mark and
an update hands back the old tuple; and `RollbackDelete` after a `MarkDelete` that marked
a tuple restores what `GetTuple` returns. -/
theorem tablePage_contents (hpage : Reachable page) :
    (∀ slot, (page.getTuple slot).map Tuple.data = page.view.live slot) ∧
      (∀ call, call.Valid page → ∃ answer page', pageMachine.step page call = .ok (answer, page')) ∧
      (∀ call answer page', pageMachine.step page call = .ok (answer, page') →
        MapStep page.contents call answer page'.contents) ∧
      ∀ slot page', page.markDelete slot = (true, page') →
        ∃ page'', page'.rollbackDelete slot = .ok page'' ∧
          ∀ other, page''.getTuple other = page.getTuple other := by
  have h := hpage.layout
  refine ⟨page.getTuple_eq, ?_, ?_, ?_⟩
  · intro call hvalid
    obtain ⟨answer, page', hsteps⟩ := valid_stepsTo h hvalid
    exact ⟨answer, page', hsteps.step⟩
  · intro call answer page' hstep
    exact (stepsTo_of_step h hstep).contents
  · intro slot page' hmark
    cases hview : page.view.mark slot with
    | none =>
      rw [markDelete_none hview] at hmark
      cases hmark
    | some after =>
      obtain ⟨marked, hmarked, hbecomes⟩ := markDelete_some h hview
      obtain ⟨bytes, hbytes, rfl⟩ := SlotMap.mark_eq_some_iff.mp hview
      rw [hmark, Prod.mk.injEq] at hmarked
      obtain ⟨_, rfl⟩ := hmarked
      have hafter : page'.contents = Function.update page.contents slot (some ⟨bytes, true⟩) :=
        hbecomes.contents
      have hmem : page'.contents slot = some ⟨bytes, true⟩ := by
        rw [hafter, Function.update_self]
      obtain ⟨page'', hrollback, hrestored⟩ :=
        rollbackDelete_of_lt hbecomes.layout (mem_occupied_of_contents hmem).1
      refine ⟨page'', hrollback, fun other => getTuple_congr ?_⟩
      have hlast : page''.contents = Function.update page'.contents slot
          ((page'.contents slot).map fun stored => { stored with marked := false }) :=
        hrestored.contents
      have hbytes' : page.contents slot = some ⟨bytes, false⟩ := hbytes
      rw [hlast, hafter, Function.update_self, Function.update_idem, Option.map_some, ← hbytes',
        Function.update_eq_self]

/-- A page with one tuple, and what the calls on it do. -/
theorem tablePage_contents_inserted :
    ∃ page, Reachable page ∧ page.getTuple 0 = some ⟨[7], by decide⟩ ∧
      ∀ call answer page', pageMachine.step page call = .ok (answer, page') →
        MapStep page.contents call answer page'.contents := by
  have hcheck : (pageMachine.run (init (fun _ => 0) 5 bustubPageSize invalidPageId)
      [.insert ⟨[7], by decide⟩]).toOption.any (fun result =>
        result.2.getTuple 0 = some ⟨[7], by decide⟩) = true := by decide +kernel
  obtain ⟨⟨answers, page⟩, hrun, htuple⟩ := Machine.exists_ok_of_check hcheck
  have hreachable : Reachable page := ⟨_, _, _, _, answers, hrun⟩
  exact ⟨page, hreachable, of_decide_eq_true htuple, (tablePage_contents hreachable).2.2.1⟩

/-- On a tuple that is marked already, `MarkDelete` and then `RollbackDelete` do not restore
what `GetTuple` returned: the first call refuses, the second unmarks. -/
theorem markDelete_rollbackDelete_unmarks :
    ∃ page, Reachable page ∧ page.getTuple 0 = none ∧ (page.markDelete 0).1 = false ∧
      ∃ page', (page.markDelete 0).2.rollbackDelete 0 = .ok page' ∧
        page'.getTuple 0 = some ⟨[7], by decide⟩ := by
  have hcheck : (pageMachine.run (init (fun _ => 0) 5 bustubPageSize invalidPageId)
      [.insert ⟨[7], by decide⟩, .mark 0]).toOption.any (fun result =>
        result.2.getTuple 0 = none ∧ (result.2.markDelete 0).1 = false ∧
          ((result.2.markDelete 0).2.rollbackDelete 0).toOption.any (fun page' =>
            page'.getTuple 0 = some ⟨[7], by decide⟩) = true) = true := by decide +kernel
  obtain ⟨⟨answers, page⟩, hrun, hpassed⟩ := Machine.exists_ok_of_check hcheck
  obtain ⟨hnone, hrefused, hunmarked⟩ := of_decide_eq_true hpassed
  obtain ⟨page', hrollback, htuple⟩ := Machine.exists_ok_of_check hunmarked
  exact ⟨page, ⟨_, _, _, _, answers, hrun⟩, hnone, hrefused, page', hrollback,
    of_decide_eq_true htuple⟩

end TablePage

end BusTub
