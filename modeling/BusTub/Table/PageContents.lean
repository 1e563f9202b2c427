import BusTub.Table.PageLayout
import BusTub.Table.SlotMap

/-!
# What a table page stores

`view` reads an abstract page off the bytes of a page.  This file follows it, and the
layout, through the writes of the page operations: a tuple placed before the others, a
tuple replaced, a tuple removed, and a mark set or unset.

The frame part is where the bytes matter: a replaced or removed tuple moves the bytes of
others, and the offsets of the slots follow them, so that every other slot reads what it
read before.
-/

namespace BusTub

open Function ByteMemory Tiling

namespace TablePage

/-! ## Reading the abstract page off the bytes -/

def contents (page : TablePage) (slot : ℕ) : Option Stored :=
  if slot < page.getTupleCount ∧ page.getTupleSize slot ≠ 0 then
    some ⟨page.read (page.getTupleOffsetAtSlot slot) (page.tupleLength slot),
      2 ^ 31 ≤ page.getTupleSize slot⟩
  else none

def view (page : TablePage) : SlotMap where
  pointer := page.getFreeSpacePointer
  count := page.getTupleCount
  contents := page.contents

variable {page page' : TablePage} {slot : ℕ}

theorem contents_of_mem (h : slot ∈ page.occupied) :
    page.contents slot = some ⟨page.read (page.getTupleOffsetAtSlot slot) (page.tupleLength slot),
      2 ^ 31 ≤ page.getTupleSize slot⟩ :=
  if_pos h

theorem contents_of_notMem (h : slot ∉ page.occupied) : page.contents slot = none := if_neg h

-- from here on a slot is read through the two lemmas above
attribute [irreducible] contents

theorem contents_isNone_iff (hslot : slot < page.getTupleCount) :
    (page.contents slot).isNone = true ↔ page.getTupleSize slot = 0 := by
  by_cases hsize : page.getTupleSize slot = 0
  · rw [contents_of_notMem fun hmem => hmem.2 hsize]
    exact ⟨fun _ => hsize, fun _ => rfl⟩
  · rw [contents_of_mem ⟨hslot, hsize⟩]
    exact ⟨fun h => absurd h Bool.false_ne_true, fun h => absurd h hsize⟩

theorem contents_congr (hcount : slot < page'.getTupleCount ↔ slot < page.getTupleCount)
    (hsize : slot < page.getTupleCount → page'.getTupleSize slot = page.getTupleSize slot)
    (hread : slot ∈ page.occupied →
      page'.read (page'.getTupleOffsetAtSlot slot) (page.tupleLength slot) =
        page.read (page.getTupleOffsetAtSlot slot) (page.tupleLength slot)) :
    page'.contents slot = page.contents slot := by
  by_cases hslot : slot < page.getTupleCount
  · have hsame := hsize hslot
    by_cases hzero : page.getTupleSize slot = 0
    · rw [contents_of_notMem (fun h => h.2 hzero),
        contents_of_notMem (fun h => h.2 (hsame.trans hzero))]
    · have hmem : slot ∈ page.occupied := ⟨hslot, hzero⟩
      have hmem' : slot ∈ page'.occupied := ⟨hcount.mpr hslot, fun h => hzero (hsame ▸ h)⟩
      have hlength : page'.tupleLength slot = page.tupleLength slot := by
        rw [tupleLength, tupleLength, hsame]
      rw [contents_of_mem hmem, contents_of_mem hmem', hlength, hread hmem, hsame]
  · rw [contents_of_notMem (fun h => hslot h.1),
      contents_of_notMem (fun h => hslot (hcount.mp h.1))]

/-! ## Pages with a layout -/

namespace Layout

theorem remaining_eq (h : Layout page) :
    page.getFreeSpaceRemaining =
      page.getFreeSpacePointer - (sizeTablePageHeader + sizeTuple * page.getTupleCount) :=
  subU32_of_le h.header_le page.getFreeSpacePointer_lt

theorem header_le' (h : Layout page) : 24 + 8 * page.getTupleCount ≤ page.getFreeSpacePointer :=
  h.header_le

theorem pointer_le' (h : Layout page) : page.getFreeSpacePointer ≤ 4096 := h.pointer_le

theorem stop_le (h : Layout page) (hmem : slot ∈ page.occupied) :
    page.getTupleOffsetAtSlot slot + page.tupleLength slot ≤ 4096 :=
  h.tiles.stop_le_high slot hmem

end Layout

theorem tupleLength_eq (page : TablePage) (slot : ℕ) :
    page.tupleLength slot = page.getTupleSize slot % 2 ^ 31 :=
  unsetDeletedFlag_eq _

theorem tupleLength_congr (h : page'.getTupleSize slot = page.getTupleSize slot) :
    page'.tupleLength slot = page.tupleLength slot := by
  rw [tupleLength, tupleLength, h]

theorem mem_occupied_of_contents {stored : Stored} (h : page.contents slot = some stored) :
    slot ∈ page.occupied := by
  by_contra hmem
  rw [contents_of_notMem hmem] at h
  cases h

theorem length_bytes {stored : Stored} (h : page.contents slot = some stored) :
    stored.bytes.length = page.tupleLength slot := by
  rw [contents_of_mem (mem_occupied_of_contents h), Option.some.injEq] at h
  rw [← h]
  exact Memory.length_read _ _ _

theorem contents_of_count_le (h : page.getTupleCount ≤ slot) : page.contents slot = none :=
  contents_of_notMem fun hmem => absurd hmem.1 (by omega)

theorem contents_of_live (hslot : slot < page.getTupleCount)
    (hlive : isDeleted (page.getTupleSize slot) = false) :
    slot ∈ page.occupied ∧ page.tupleLength slot = page.getTupleSize slot ∧
      page.contents slot = some ⟨(page.tupleBytes slot).data, false⟩ := by
  have hsize : ¬ (2 ^ 31 ≤ page.getTupleSize slot ∨ page.getTupleSize slot = 0) := by
    rw [← isDeleted_iff (page.getTupleSize_lt slot), hlive]
    exact Bool.false_ne_true
  have hmem : slot ∈ page.occupied := ⟨hslot, fun h => hsize (.inr h)⟩
  have hlength : page.tupleLength slot = page.getTupleSize slot := by
    rw [tupleLength_eq, Nat.mod_eq_of_lt (by omega)]
  refine ⟨hmem, hlength, ?_⟩
  rw [contents_of_mem hmem, hlength, tupleBytes]
  simp only [Option.some.injEq, Stored.mk.injEq, true_and, decide_eq_false_iff_not]
  omega

theorem contents_of_deleted (hdeleted : isDeleted (page.getTupleSize slot) = true) :
    page.contents slot = none ∨ ∃ bytes, page.contents slot = some ⟨bytes, true⟩ := by
  by_cases hmem : slot ∈ page.occupied
  · refine .inr ⟨page.read (page.getTupleOffsetAtSlot slot) (page.tupleLength slot), ?_⟩
    rw [contents_of_mem hmem]
    have hsize := (isDeleted_iff (page.getTupleSize_lt slot)).mp hdeleted
    have hmarked : 2 ^ 31 ≤ page.getTupleSize slot := hsize.resolve_right hmem.2
    simp only [hmarked, decide_true]
  · exact .inl (contents_of_notMem hmem)

/-! ## A placed tuple -/

section Place

variable {tuple : Tuple}

theorem Placed.occupied_eq (hplaced : Placed page slot tuple page')
    (hslot : slot ≤ page.getTupleCount) (hpos : 0 < tuple.size) :
    page'.occupied = insert slot page.occupied := by
  ext other
  have hcount := hplaced.count
  constructor
  · intro hmem
    have hle : other ≤ page.getTupleCount := by
      have := hmem.1
      split_ifs at hcount <;> omega
    by_cases hsame : other = slot
    · exact .inl hsame
    · have hsize := hmem.2
      rw [hplaced.size other hle, if_neg hsame] at hsize
      refine .inr ⟨?_, hsize⟩
      have := hmem.1
      split_ifs at hcount <;> omega
  · rintro (rfl | hmem)
    · refine ⟨by split_ifs at hcount <;> omega, ?_⟩
      rw [hplaced.size other hslot, if_pos rfl]
      exact hpos.ne'
    · have hle : other ≤ page.getTupleCount := hmem.1.le
      refine ⟨by have := hmem.1; split_ifs at hcount <;> omega, ?_⟩
      rw [hplaced.size other hle]
      split_ifs
      · exact hpos.ne'
      · exact hmem.2

theorem Placed.layout (h : Layout page) (hplaced : Placed page slot tuple page')
    (hroom : 32 + 8 * page.getTupleCount + tuple.size ≤ page.getFreeSpacePointer)
    (hslot : slot ≤ page.getTupleCount) (hfresh : slot ∉ page.occupied) (hpos : 0 < tuple.size) :
    Layout page' := by
  have hcount := hplaced.count
  have hle := h.pointer_le'
  have hne : ∀ other ∈ page.occupied, other ≠ slot := fun other hother heq => hfresh (heq ▸ hother)
  have hsize : page'.getTupleSize slot = tuple.size := by rw [hplaced.size slot hslot, if_pos rfl]
  constructor
  · rw [hplaced.pointer, hcount]
    unfold sizeTablePageHeader sizeTuple
    split_ifs <;> omega
  · rw [hplaced.pointer]
    exact (Nat.sub_le _ _).trans h.pointer_le
  · rw [hplaced.occupied_eq hslot hpos, hplaced.pointer]
    refine h.tiles.insert hfresh hpos (by omega) h.pointer_le ?_ ?_ ?_ ?_
    · rw [hplaced.offset slot hslot, if_pos rfl]
    · rw [tupleLength_eq, hsize, Nat.mod_eq_of_lt (by omega)]
    · intro other hother
      rw [hplaced.offset other hother.1.le, if_neg (hne other hother)]
    · intro other hother
      apply tupleLength_congr
      rw [hplaced.size other hother.1.le, if_neg (hne other hother)]
  · intro other hother hzero
    have hother' : other ≤ page.getTupleCount := by split_ifs at hcount <;> omega
    by_cases hsame : other = slot
    · subst hsame
      omega
    · rw [hplaced.size other hother', if_neg hsame] at hzero
      rw [hplaced.offset other hother', if_neg hsame]
      exact h.empty other (by split_ifs at hcount <;> omega) hzero

theorem Placed.contents_eq (h : Layout page) (hplaced : Placed page slot tuple page')
    (hroom : 32 + 8 * page.getTupleCount + tuple.size ≤ page.getFreeSpacePointer)
    (hslot : slot ≤ page.getTupleCount) (hpos : 0 < tuple.size) :
    page'.contents = update page.contents slot (some ⟨tuple.data, false⟩) := by
  have hcount := hplaced.count
  have hle := h.pointer_le'
  funext other
  by_cases hsame : other = slot
  · subst hsame
    have hsize : page'.getTupleSize other = tuple.size := by
      rw [hplaced.size other hslot, if_pos rfl]
    have hmem : other ∈ page'.occupied := by
      rw [hplaced.occupied_eq hslot hpos]
      exact Set.mem_insert _ _
    have hlength : page'.tupleLength other = tuple.size := by
      rw [tupleLength_eq, hsize, Nat.mod_eq_of_lt (by omega)]
    have hmark : ¬ 2 ^ 31 ≤ tuple.size := by omega
    rw [update_self, contents_of_mem hmem, hlength, hplaced.offset other hslot, if_pos rfl,
      hplaced.data, hsize]
    simp only [hmark, decide_false]
  · rw [update_of_ne hsame]
    apply contents_congr
    · split_ifs at hcount <;> omega
    · intro hother
      rw [hplaced.size other hother.le, if_neg hsame]
    · intro hmem
      rw [hplaced.offset other hmem.1.le, if_neg hsame]
      apply Memory.read_congr
      intro index _
      apply hplaced.above
      have := h.tiles.low_le_start other hmem
      omega

end Place

/-! ## A replaced tuple -/

section Replace

variable {tuple : Tuple}

theorem Replaced.occupied_eq (hreplaced : Replaced page slot tuple page')
    (hmem : slot ∈ page.occupied) (hpos : 0 < tuple.size) : page'.occupied = page.occupied := by
  ext other
  change other < page'.getTupleCount ∧ page'.getTupleSize other ≠ 0 ↔ _
  rw [hreplaced.count]
  constructor
  · rintro ⟨hother, hsize⟩
    rw [hreplaced.size other hother] at hsize
    split_ifs at hsize with hsame
    · exact hsame ▸ hmem
    · exact ⟨hother, hsize⟩
  · rintro ⟨hother, hsize⟩
    refine ⟨hother, ?_⟩
    rw [hreplaced.size other hother]
    split_ifs
    · exact hpos.ne'
    · exact hsize

variable (h : Layout page) (hreplaced : Replaced page slot tuple page')
  (hmem : slot ∈ page.occupied) (hlength : page.tupleLength slot = page.getTupleSize slot)
  (hroom : 24 + 8 * page.getTupleCount + tuple.size ≤
    page.getFreeSpacePointer + page.getTupleSize slot)
  (hpos : 0 < tuple.size)

include h hreplaced hmem hlength hroom hpos

theorem Replaced.layout : Layout page' := by
  have hstop := h.stop_le hmem
  have hlow := h.tiles.low_le_start slot hmem
  have hsize : page'.getTupleSize slot = tuple.size := by
    rw [hreplaced.size slot hmem.1, if_pos rfl]
  constructor
  · rw [hreplaced.pointer, hreplaced.count]
    unfold sizeTablePageHeader sizeTuple
    omega
  · rw [hreplaced.pointer]
    unfold bustubPageSize
    omega
  · rw [hreplaced.occupied_eq hmem hpos, hreplaced.pointer, ← hlength]
    refine h.tiles.resize hmem hpos (by omega) ?_ ?_ ?_ ?_
    · rw [tupleLength_eq, hsize, Nat.mod_eq_of_lt (by omega)]
    · intro other hother hne
      apply tupleLength_congr
      rw [hreplaced.size other hother.1, if_neg hne]
    · intro other hother hbelow
      rw [hreplaced.offset other hother.1 hother.2, if_pos (hlength ▸ hbelow), hlength]
    · intro other hother habove
      rw [hreplaced.offset other hother.1 hother.2, if_neg (by omega)]
  · intro other hother hzero
    rw [hreplaced.count] at hother
    rw [hreplaced.size other hother] at hzero
    split_ifs at hzero
    · omega
    · rw [hreplaced.empty other hother hzero]
      exact h.empty other hother hzero

theorem Replaced.contents_eq :
    page'.contents = update page.contents slot (some ⟨tuple.data, false⟩) := by
  have hstop := h.stop_le hmem
  have hlow := h.tiles.low_le_start slot hmem
  funext other
  by_cases hsame : other = slot
  · subst hsame
    have hsize : page'.getTupleSize other = tuple.size := by
      rw [hreplaced.size other hmem.1, if_pos rfl]
    have hmem' : other ∈ page'.occupied := by rwa [hreplaced.occupied_eq hmem hpos]
    have hnew : page'.tupleLength other = tuple.size := by
      rw [tupleLength_eq, hsize, Nat.mod_eq_of_lt (by omega)]
    have hmark : ¬ 2 ^ 31 ≤ tuple.size := by omega
    have hold := h.tiles.length_pos other hmem
    rw [update_self, contents_of_mem hmem', hnew, hreplaced.offset other hmem.1 hmem.2,
      if_pos (by omega), hreplaced.data, hsize]
    simp only [hmark, decide_false]
  · rw [update_of_ne hsame]
    apply contents_congr
    · rw [hreplaced.count]
    · intro hother
      rw [hreplaced.size other hother, if_neg hsame]
    · intro hother
      have hfirst := h.tiles.low_le_start other hother
      rw [hreplaced.offset other hother.1 hother.2]
      apply Memory.read_congr
      intro index hindex
      rcases h.tiles.below_or_above hmem hother hsame with hbelow | habove
      · rw [if_pos (by omega), hreplaced.moved _ (by omega) (by omega)]
        congr 1
        omega
      · rw [if_neg (by omega)]
        exact hreplaced.above _ (by omega)

end Replace

/-! ## A removed tuple -/

section Remove

variable {length : ℕ}

theorem Removed.occupied_eq (hremoved : Removed page slot length page') :
    page'.occupied = page.occupied \ {slot} := by
  ext other
  change other < page'.getTupleCount ∧ page'.getTupleSize other ≠ 0 ↔ _
  rw [hremoved.count]
  constructor
  · rintro ⟨hother, hsize⟩
    rw [hremoved.size other hother] at hsize
    split_ifs at hsize with hsame
    · exact absurd rfl hsize
    · exact ⟨⟨hother, hsize⟩, hsame⟩
  · rintro ⟨⟨hother, hsize⟩, hne⟩
    refine ⟨hother, ?_⟩
    rwa [hremoved.size other hother, if_neg (show other ≠ slot from hne)]

variable (h : Layout page) (hmem : slot ∈ page.occupied)
  (hremoved : Removed page slot (page.tupleLength slot) page')

include h hmem hremoved

theorem Removed.layout : Layout page' := by
  have hheader := h.header_le'
  have hstop := h.stop_le hmem
  have hlow := h.tiles.low_le_start slot hmem
  constructor
  · rw [hremoved.pointer, hremoved.count]
    unfold sizeTablePageHeader sizeTuple
    omega
  · rw [hremoved.pointer]
    unfold bustubPageSize
    omega
  · rw [hremoved.occupied_eq, hremoved.pointer]
    refine h.tiles.remove hmem ?_ ?_ ?_
    · intro other hother hne
      apply tupleLength_congr
      rw [hremoved.size other hother.1, if_neg hne]
    · intro other hother hne hbelow
      rw [hremoved.offset other hother.1 hne hother.2, if_pos hbelow]
    · intro other hother hne habove
      rw [hremoved.offset other hother.1 hne hother.2, if_neg (by omega)]
  · intro other hother hzero
    rw [hremoved.count] at hother
    rw [hremoved.size other hother] at hzero
    split_ifs at hzero with hsame
    · rw [hsame]
      exact hremoved.cleared
    · rw [hremoved.empty other hother hsame hzero]
      exact h.empty other hother hzero

theorem Removed.contents_eq :
    page'.contents = update page.contents slot none := by
  funext other
  by_cases hsame : other = slot
  · subst hsame
    have hmem' : other ∉ page'.occupied := by
      rw [hremoved.occupied_eq]
      exact fun hin => hin.2 rfl
    rw [update_self, contents_of_notMem hmem']
  · rw [update_of_ne hsame]
    apply contents_congr
    · rw [hremoved.count]
    · intro hother
      rw [hremoved.size other hother, if_neg hsame]
    · intro hother
      have hfirst := h.tiles.low_le_start other hother
      rw [hremoved.offset other hother.1 hsame hother.2]
      apply Memory.read_congr
      intro index hindex
      rcases h.tiles.below_or_above hmem hother hsame with hbelow | habove
      · rw [if_pos (by omega), hremoved.moved _ (by omega) (by omega)]
        congr 1
        omega
      · rw [if_neg (by omega)]
        exact hremoved.above _ (by omega)

end Remove

/-! ## A mark set or unset -/

section Mark

variable {value : ℕ}

theorem getTupleSize_set (page : TablePage) (slot other : ℕ) (hvalue : value < 2 ^ 32) :
    (page.setTupleSize slot value).getTupleSize other =
      if other = slot then value else page.getTupleSize other := by
  split_ifs with hsame
  · subst hsame
    exact (page.load_store_same 4 _ value).trans (Nat.mod_eq_of_lt hvalue)
  · apply Memory.load_store_of_disjoint
    unfold sizeTuple
    omega

theorem setTupleSize_cell (page : TablePage) (slot : ℕ) {cell : ℕ}
    (hcell : cell < 28 + 8 * slot ∨ 32 + 8 * slot ≤ cell) :
    page.setTupleSize slot value cell = page cell := by
  apply Memory.store_apply_outside
  unfold offsetTupleSize sizeTuple
  omega

theorem getTupleOffset_setTupleSize (page : TablePage) (slot other : ℕ) :
    (page.setTupleSize slot value).getTupleOffsetAtSlot other =
      page.getTupleOffsetAtSlot other := by
  apply Memory.load_store_of_disjoint
  unfold offsetTupleOffset offsetTupleSize sizeTuple
  omega

theorem setTupleSize_header (page : TablePage) (slot value : ℕ) :
    SameLinks page (page.setTupleSize slot value) ∧
      (page.setTupleSize slot value).getFreeSpacePointer = page.getFreeSpacePointer ∧
      (page.setTupleSize slot value).getTupleCount = page.getTupleCount :=
  ⟨sameLinks_of_cells fun cell hcell => page.setTupleSize_cell slot (by omega),
    Memory.load_congr fun index hindex =>
      page.setTupleSize_cell slot (by unfold offsetFreeSpace; omega),
    Memory.load_congr fun index hindex =>
      page.setTupleSize_cell slot (by unfold offsetTupleCount; omega)⟩

theorem setTupleSize_tupleLength (hvalue : value < 2 ^ 32)
    (hlength : value % 2 ^ 31 = page.tupleLength slot) (other : ℕ) :
    (page.setTupleSize slot value).tupleLength other = page.tupleLength other := by
  rw [tupleLength_eq, getTupleSize_set page slot other hvalue]
  split_ifs with hsame
  · rw [hlength, hsame]
  · rw [tupleLength_eq]

variable (h : Layout page) (hmem : slot ∈ page.occupied) (hvalue : value < 2 ^ 32)
  (hlength : value % 2 ^ 31 = page.tupleLength slot)

include h hmem hvalue hlength

theorem setTupleSize_occupied : (page.setTupleSize slot value).occupied = page.occupied := by
  ext other
  have hpos := h.tiles.length_pos slot hmem
  change _ < (page.setTupleSize slot value).getTupleCount ∧ _ ↔ _ ∧ _
  rw [(page.setTupleSize_header slot value).2.2, getTupleSize_set page slot other hvalue]
  split_ifs with hsame
  · subst hsame
    have := hmem.2
    constructor <;> intro hin <;> exact ⟨hin.1, by omega⟩
  · rfl

theorem setTupleSize_layout : Layout (page.setTupleSize slot value) := by
  obtain ⟨_, hpointer, hcount⟩ := page.setTupleSize_header slot value
  constructor
  · rw [hpointer, hcount]
    exact h.header_le
  · rw [hpointer]
    exact h.pointer_le
  · rw [hpointer, setTupleSize_occupied h hmem hvalue hlength]
    apply h.tiles.congr
    · exact fun other _ => getTupleOffset_setTupleSize page slot other
    · exact fun other _ => setTupleSize_tupleLength hvalue hlength other
  · intro other hother hzero
    have hpos := h.tiles.length_pos slot hmem
    rw [hcount] at hother
    rw [getTupleSize_set page slot other hvalue] at hzero
    rw [getTupleOffset_setTupleSize]
    split_ifs at hzero with hsame
    · omega
    · exact h.empty other hother hzero

theorem setTupleSize_contents {stored : Stored} (hstored : page.contents slot = some stored) :
    (page.setTupleSize slot value).contents =
      update page.contents slot (some ⟨stored.bytes, 2 ^ 31 ≤ value⟩) := by
  have hheader := h.header_le'
  have hread : ∀ other ∈ page.occupied, ∀ length,
      (page.setTupleSize slot value).read (page.getTupleOffsetAtSlot other) length =
        page.read (page.getTupleOffsetAtSlot other) length := by
    intro other hother length
    apply Memory.read_congr
    intro index _
    have := h.tiles.low_le_start other hother
    have := hmem.1
    exact page.setTupleSize_cell slot (by omega)
  funext other
  by_cases hsame : other = slot
  · subst hsame
    have hmem' : other ∈ (page.setTupleSize other value).occupied := by
      rwa [setTupleSize_occupied h hmem hvalue hlength]
    rw [contents_of_mem hmem, Option.some.injEq] at hstored
    rw [update_self, contents_of_mem hmem', getTupleOffset_setTupleSize,
      setTupleSize_tupleLength hvalue hlength, hread other hmem,
      getTupleSize_set page other other hvalue, if_pos rfl, ← hstored]
  · rw [update_of_ne hsame]
    apply contents_congr
    · rw [(page.setTupleSize_header slot value).2.2]
    · intro _
      rw [getTupleSize_set page slot other hvalue, if_neg hsame]
    · intro hother
      rw [getTupleOffset_setTupleSize, hread other hother]

end Mark

end TablePage

end BusTub
