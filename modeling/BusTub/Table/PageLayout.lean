import BusTub.Library.Tiling
import BusTub.Table.TablePage
import Mathlib.Data.Nat.Bitwise
import Mathlib.Tactic.SplitIfs

/-!
# The layout of a table page

In every state of a page the tuples, live or marked, tile the bytes between the free
space pointer and the end of the page, and the header with its slot array ends before
them.  `Layout` states this, with the tiles of `Library.Tiling`.

The first half of the file computes what each write of the operations does to the
fields of the page; the operations are then described by their effect on the free space
pointer, the slot array and the bytes of the tuples, from which the tiling lemmas give
the layout after the operation.
-/

namespace BusTub

open ByteMemory Tiling Memory

/-! ## Wrapping arithmetic and the deletion flag -/

theorem addU32_of_lt {first second : ℕ} (h : first + second < 2 ^ 32) :
    addU32 first second = first + second :=
  Nat.mod_eq_of_lt h

theorem subU32_of_le {first second : ℕ} (hle : second ≤ first) (hlt : first < 2 ^ 32) :
    subU32 first second = first - second := by
  unfold subU32
  omega

theorem addU32_subU32 {offset old new : ℕ} (hle : new ≤ offset + old)
    (hlt : offset + old < 2 ^ 32) : addU32 offset (subU32 old new) = offset + old - new := by
  unfold addU32 subU32
  omega

namespace TablePage

theorem isDeleted_iff {size : ℕ} (hsize : size < 2 ^ 32) :
    isDeleted size = true ↔ 2 ^ 31 ≤ size ∨ size = 0 := by
  have hbit : size &&& deleteMask ≠ 0 ↔ 2 ^ 31 ≤ size := by
    rw [deleteMask, Nat.and_two_pow, Nat.testBit_eq_decide_div_mod_eq]
    by_cases h : size / 2 ^ 31 % 2 = 1
    · simp only [h, decide_true, Bool.toNat_true, Nat.one_mul]
      omega
    · simp only [h, decide_false, Bool.toNat_false, Nat.zero_mul]
      omega
  rw [isDeleted, Bool.or_eq_true, bne_iff_ne, beq_iff_eq, hbit]

theorem setDeletedFlag_of_lt {size : ℕ} (hsize : size < 2 ^ 31) :
    setDeletedFlag size = size + 2 ^ 31 := by
  rw [setDeletedFlag, deleteMask, Nat.or_comm]
  have h := Nat.two_pow_add_eq_or_of_lt hsize 1
  rw [Nat.mul_one] at h
  rw [← h, Nat.add_comm]

theorem unsetDeletedFlag_eq (size : ℕ) : unsetDeletedFlag size = size % 2 ^ 31 := by
  rw [unsetDeletedFlag, show 2 ^ 32 - 1 - deleteMask = 2 ^ 31 - 1 from rfl,
    Nat.and_two_pow_sub_one_eq_mod]

/-! ## Fields of a page -/

section Fields

variable (page : TablePage)

theorem getFreeSpacePointer_lt : page.getFreeSpacePointer < 2 ^ 32 := page.load_lt 4 _

theorem getTupleSize_lt (slot : ℕ) : page.getTupleSize slot < 2 ^ 32 := page.load_lt 4 _

variable {page} {page' : TablePage} {slot : ℕ}

def SameLinks (page page' : TablePage) : Prop :=
  page'.getTablePageId = page.getTablePageId ∧ page'.getPrevPageId = page.getPrevPageId ∧
    page'.getNextPageId = page.getNextPageId

theorem sameLinks_of_cells (h : ∀ cell < 16, page' cell = page cell) : SameLinks page page' :=
  ⟨loadInt_congr fun _ _ => h _ (by omega),
    loadInt_congr fun _ _ => h _ (by unfold offsetPrevPageId; omega),
    loadInt_congr fun _ _ => h _ (by unfold offsetNextPageId; omega)⟩

theorem slot_congr (h : ∀ cell, 24 + 8 * slot ≤ cell → cell < 32 + 8 * slot →
      page' cell = page cell) :
    page'.getTupleOffsetAtSlot slot = page.getTupleOffsetAtSlot slot ∧
      page'.getTupleSize slot = page.getTupleSize slot := by
  constructor
  · apply load_congr
    intro index hindex
    apply h <;> unfold offsetTupleOffset sizeTuple <;> omega
  · apply load_congr
    intro index hindex
    apply h <;> unfold offsetTupleSize sizeTuple <;> omega

end Fields

/-! ## The loop over the slots -/

/-- `page'` is `page` with the offsets of the first `count` slots shifted. -/
structure Shifted (page : TablePage) (limit amount count : ℕ) (page' : TablePage) : Prop where
  outside : ∀ cell, cell < 24 ∨ 24 + 8 * count ≤ cell → page' cell = page cell
  size : ∀ slot, page'.getTupleSize slot = page.getTupleSize slot
  offset : ∀ slot < count, page'.getTupleOffsetAtSlot slot =
    if page.getTupleSize slot ≠ 0 ∧ page.getTupleOffsetAtSlot slot < limit then
      addU32 (page.getTupleOffsetAtSlot slot) amount
    else page.getTupleOffsetAtSlot slot

section Header

variable {page page' : TablePage} {limit amount count : ℕ}

theorem Shifted.getFreeSpacePointer_eq (h : Shifted page limit amount count page') :
    page'.getFreeSpacePointer = page.getFreeSpacePointer :=
  load_congr fun index hindex => h.outside _ (by unfold offsetFreeSpace; omega)

theorem Shifted.getTupleCount_eq (h : Shifted page limit amount count page') :
    page'.getTupleCount = page.getTupleCount :=
  load_congr fun index hindex => h.outside _ (by unfold offsetTupleCount; omega)

end Header

theorem getTupleOffsetAtSlot_set (page : TablePage) (slot value other : ℕ) :
    (page.setTupleOffsetAtSlot slot value).getTupleOffsetAtSlot other =
      if other = slot then value % 2 ^ 32 else page.getTupleOffsetAtSlot other := by
  split_ifs with h
  · subst h
    exact page.load_store_same 4 _ value
  · apply load_store_of_disjoint
    unfold sizeTuple
    omega

theorem getTupleSize_setTupleOffset (page : TablePage) (slot value other : ℕ) :
    (page.setTupleOffsetAtSlot slot value).getTupleSize other = page.getTupleSize other := by
  apply load_store_of_disjoint
  unfold offsetTupleSize offsetTupleOffset sizeTuple
  omega

theorem shiftSlot_shifted {page page' : TablePage} {limit amount count : ℕ}
    (h : Shifted page limit amount count page') :
    Shifted page limit amount (count + 1) (shiftSlot limit amount page' count) := by
  have hlast : page'.getTupleOffsetAtSlot count = page.getTupleOffsetAtSlot count :=
    (slot_congr fun cell hlower _ => h.outside cell (.inr hlower)).1
  have hsize := h.size count
  unfold shiftSlot
  simp only [hlast, hsize]
  split_ifs with hshift
  · refine ⟨fun cell hcell => ?_, fun slot => ?_, fun slot hslot => ?_⟩
    · rw [setTupleOffsetAtSlot, store_apply_outside]
      · exact h.outside cell (by omega)
      · unfold offsetTupleOffset sizeTuple
        omega
    · rw [getTupleSize_setTupleOffset, h.size]
    · rw [getTupleOffsetAtSlot_set]
      by_cases heq : slot = count
      · subst heq
        rw [if_pos rfl, if_pos hshift, addU32, Nat.mod_mod]
      · rw [if_neg heq, h.offset slot (by omega)]
  · refine ⟨fun cell hcell => h.outside cell (by omega), h.size, fun slot hslot => ?_⟩
    by_cases heq : slot = count
    · subst heq
      rw [if_neg hshift, hlast]
    · exact h.offset slot (by omega)

/-- The whole loop, by induction on the slots it has passed. -/
theorem shiftOffsets_shifted (page : TablePage) (limit amount : ℕ) :
    Shifted page limit amount page.getTupleCount (page.shiftOffsets limit amount) := by
  unfold shiftOffsets
  induction page.getTupleCount with
  | zero => exact ⟨fun _ _ => rfl, fun _ => rfl, fun slot hslot => absurd hslot (by omega)⟩
  | succ count ih =>
    rw [List.range_succ, List.foldl_append, List.foldl_cons, List.foldl_nil]
    exact shiftSlot_shifted ih

/-! ## Layout -/

/-- The slots that hold a tuple, live or marked. -/
def occupied (page : TablePage) : Set ℕ :=
  { slot | slot < page.getTupleCount ∧ page.getTupleSize slot ≠ 0 }

def tupleLength (page : TablePage) (slot : ℕ) : ℕ := unsetDeletedFlag (page.getTupleSize slot)

/-- The header and the slot array end before the free space pointer, and the tuples tile
the bytes from there to the end of the page.  An empty slot has offset zero. -/
structure Layout (page : TablePage) : Prop where
  header_le : sizeTablePageHeader + sizeTuple * page.getTupleCount ≤ page.getFreeSpacePointer
  pointer_le : page.getFreeSpacePointer ≤ bustubPageSize
  tiles : Tiles page.occupied page.getTupleOffsetAtSlot page.tupleLength
    page.getFreeSpacePointer bustubPageSize
  empty : ∀ slot < page.getTupleCount, page.getTupleSize slot = 0 →
    page.getTupleOffsetAtSlot slot = 0

/-! ## Placing a tuple -/

structure Placed (page : TablePage) (slot : ℕ) (tuple : Tuple) (page' : TablePage) : Prop where
  links : SameLinks page page'
  pointer : page'.getFreeSpacePointer = page.getFreeSpacePointer - tuple.size
  count : page'.getTupleCount =
    if slot = page.getTupleCount then page.getTupleCount + 1 else page.getTupleCount
  offset : ∀ other ≤ page.getTupleCount, page'.getTupleOffsetAtSlot other =
    if other = slot then page.getFreeSpacePointer - tuple.size
    else page.getTupleOffsetAtSlot other
  size : ∀ other ≤ page.getTupleCount, page'.getTupleSize other =
    if other = slot then tuple.size else page.getTupleSize other
  above : ∀ cell, page.getFreeSpacePointer ≤ cell → page' cell = page cell
  data : page'.read (page.getFreeSpacePointer - tuple.size) tuple.size = tuple.data

section Place

variable {page : TablePage} {slot : ℕ} {tuple : Tuple}

theorem placeTuple_eq
    (hroom : 32 + 8 * page.load 4 20 + tuple.data.length ≤ page.load 4 16)
    (hpointer : page.load 4 16 ≤ 4096) :
    page.placeTuple slot tuple =
      let pointer := page.load 4 16 - tuple.data.length
      let placed := (((page.store 4 16 pointer).write pointer tuple.data).store 4
        (24 + 8 * slot) pointer).store 4 (28 + 8 * slot) tuple.data.length
      if slot = page.load 4 20 then placed.store 4 20 (page.load 4 20 + 1) else placed := by
  have hsub : subU32 (page.load 4 16) tuple.data.length = page.load 4 16 - tuple.data.length :=
    subU32_of_le (by omega) (by omega)
  have hmod : (page.load 4 16 - tuple.data.length) % 256 ^ 4 =
      page.load 4 16 - tuple.data.length := Nat.mod_eq_of_lt (by omega)
  have hadd : addU32 (page.load 4 20) 1 = page.load 4 20 + 1 := addU32_of_lt (by omega)
  simp (disch := omega) only [placeTuple, setFreeSpacePointer, setTupleOffsetAtSlot, setTupleSize,
    setTupleCount, getFreeSpacePointer, getTupleCount, offsetFreeSpace, offsetTupleCount,
    offsetTupleOffset, offsetTupleSize, sizeTuple, Tuple.size, hsub, hmod, hadd,
    load_store_of_disjoint, load_store_same, load_write_of_disjoint]

theorem placeTuple_placed
    (hroom : 32 + 8 * page.getTupleCount + tuple.size ≤ page.getFreeSpacePointer)
    (hpointer : page.getFreeSpacePointer ≤ bustubPageSize) (hslot : slot ≤ page.getTupleCount) :
    Placed page slot tuple (page.placeTuple slot tuple) := by
  change 32 + 8 * page.load 4 20 + tuple.data.length ≤ page.load 4 16 at hroom
  change page.load 4 16 ≤ 4096 at hpointer
  change slot ≤ page.load 4 20 at hslot
  have hmod : (page.load 4 16 - tuple.data.length) % 256 ^ 4 =
      page.load 4 16 - tuple.data.length := Nat.mod_eq_of_lt (by omega)
  have hsize : tuple.data.length % 256 ^ 4 = tuple.data.length := Nat.mod_eq_of_lt (by omega)
  have hcount : (page.load 4 20 + 1) % 256 ^ 4 = page.load 4 20 + 1 := Nat.mod_eq_of_lt (by omega)
  rw [placeTuple_eq hroom hpointer]
  constructor
  · apply sameLinks_of_cells
    intro cell hcell
    split_ifs <;>
      simp (disch := omega) only [store_apply_outside, write_apply_outside]
  · change load _ 4 16 = page.load 4 16 - tuple.data.length
    split_ifs <;> simp (disch := omega) only [load_store_of_disjoint,
      load_write_of_disjoint, load_store_same, hmod]
  · change load _ 4 20 = if slot = page.load 4 20 then page.load 4 20 + 1 else page.load 4 20
    split_ifs <;> simp (disch := omega) only [load_store_of_disjoint,
      load_write_of_disjoint, load_store_same, hcount]
  · intro other hother
    change other ≤ page.load 4 20 at hother
    change load _ 4 (24 + 8 * other) =
      if other = slot then page.load 4 16 - tuple.data.length else page.load 4 (24 + 8 * other)
    by_cases hsame : other = slot
    · subst hsame
      split_ifs <;> simp (disch := omega) only [load_store_of_disjoint,
        load_write_of_disjoint, load_store_same, hmod]
    · rw [if_neg hsame]
      split_ifs <;> simp (disch := omega) only [load_store_of_disjoint,
        load_write_of_disjoint]
  · intro other hother
    change other ≤ page.load 4 20 at hother
    change load _ 4 (28 + 8 * other) = if other = slot then tuple.data.length
      else page.load 4 (28 + 8 * other)
    by_cases hsame : other = slot
    · subst hsame
      split_ifs <;> simp (disch := omega) only [load_store_of_disjoint,
        load_write_of_disjoint, load_store_same, hsize]
    · rw [if_neg hsame]
      split_ifs <;> simp (disch := omega) only [load_store_of_disjoint,
        load_write_of_disjoint]
  · intro cell hcell
    change page.load 4 16 ≤ cell at hcell
    split_ifs <;>
      simp (disch := omega) only [store_apply_outside, write_apply_outside]
  · change read _ (page.load 4 16 - tuple.data.length) tuple.data.length = tuple.data
    split_ifs <;> simp (disch := omega) only [read_store_of_disjoint,
      read_write_same]

end Place

/-! ## Replacing a tuple -/

/-- `page'` is `page` with the tuple of a slot replaced and the tuples below it moved. -/
structure Replaced (page : TablePage) (slot : ℕ) (tuple : Tuple) (page' : TablePage) : Prop where
  links : SameLinks page page'
  pointer : page'.getFreeSpacePointer =
    page.getFreeSpacePointer + page.getTupleSize slot - tuple.size
  count : page'.getTupleCount = page.getTupleCount
  offset : ∀ other < page.getTupleCount, page.getTupleSize other ≠ 0 →
    page'.getTupleOffsetAtSlot other =
      if page.getTupleOffsetAtSlot other < page.getTupleOffsetAtSlot slot + page.getTupleSize slot
      then page.getTupleOffsetAtSlot other + page.getTupleSize slot - tuple.size
      else page.getTupleOffsetAtSlot other
  empty : ∀ other < page.getTupleCount, page.getTupleSize other = 0 →
    page'.getTupleOffsetAtSlot other = page.getTupleOffsetAtSlot other
  size : ∀ other < page.getTupleCount, page'.getTupleSize other =
    if other = slot then tuple.size else page.getTupleSize other
  moved : ∀ cell, page.getFreeSpacePointer + page.getTupleSize slot - tuple.size ≤ cell →
    cell < page.getTupleOffsetAtSlot slot + page.getTupleSize slot - tuple.size →
    page' cell = page (cell + tuple.size - page.getTupleSize slot)
  above : ∀ cell, page.getTupleOffsetAtSlot slot + page.getTupleSize slot ≤ cell →
    page' cell = page cell
  data : page'.read (page.getTupleOffsetAtSlot slot + page.getTupleSize slot - tuple.size)
    tuple.size = tuple.data

section Replace

variable {page : TablePage} {slot : ℕ} {tuple : Tuple}

def replaceBase (page : TablePage) (slot : ℕ) (tuple : Tuple) : TablePage :=
  (((page.move (page.load 4 16 + page.load 4 (28 + 8 * slot) - tuple.data.length)
      (page.load 4 16) (page.load 4 (24 + 8 * slot) - page.load 4 16)).store 4 16
      (page.load 4 16 + page.load 4 (28 + 8 * slot) - tuple.data.length)).write
      (page.load 4 (24 + 8 * slot) + page.load 4 (28 + 8 * slot) - tuple.data.length)
      tuple.data).store 4 (28 + 8 * slot) tuple.data.length

theorem replaceTuple_eq
    (hroom : 24 + 8 * page.load 4 20 + tuple.data.length ≤
      page.load 4 16 + page.load 4 (28 + 8 * slot))
    (hbelow : page.load 4 16 ≤ page.load 4 (24 + 8 * slot))
    (hend : page.load 4 (24 + 8 * slot) + page.load 4 (28 + 8 * slot) ≤ 4096) :
    page.replaceTuple slot tuple = (replaceBase page slot tuple).shiftOffsets
      (page.load 4 (24 + 8 * slot) + page.load 4 (28 + 8 * slot))
      (subU32 (page.load 4 (28 + 8 * slot)) tuple.data.length) := by
  have hadd : addU32 (page.load 4 16) (page.load 4 (28 + 8 * slot)) =
      page.load 4 16 + page.load 4 (28 + 8 * slot) := addU32_of_lt (by omega)
  have hlimit : addU32 (page.load 4 (24 + 8 * slot)) (page.load 4 (28 + 8 * slot)) =
      page.load 4 (24 + 8 * slot) + page.load 4 (28 + 8 * slot) := addU32_of_lt (by omega)
  have hsub : subU32 (page.load 4 16 + page.load 4 (28 + 8 * slot)) tuple.data.length =
      page.load 4 16 + page.load 4 (28 + 8 * slot) - tuple.data.length :=
    subU32_of_le (by omega) (by omega)
  simp only [replaceTuple, replaceBase, setFreeSpacePointer, setTupleSize, getFreeSpacePointer,
    getTupleSize, getTupleOffsetAtSlot, offsetFreeSpace, offsetTupleOffset, offsetTupleSize,
    sizeTuple, Tuple.size, hadd, hlimit, hsub]

theorem replaceBase_fields
    (hroom : 24 + 8 * page.load 4 20 + tuple.data.length ≤
      page.load 4 16 + page.load 4 (28 + 8 * slot))
    (hslot : slot < page.load 4 20)
    (hbelow : page.load 4 16 ≤ page.load 4 (24 + 8 * slot))
    (hend : page.load 4 (24 + 8 * slot) + page.load 4 (28 + 8 * slot) ≤ 4096) :
    (∀ cell < 16, replaceBase page slot tuple cell = page cell) ∧
    (replaceBase page slot tuple).load 4 16 =
      page.load 4 16 + page.load 4 (28 + 8 * slot) - tuple.data.length ∧
    (replaceBase page slot tuple).load 4 20 = page.load 4 20 ∧
    (∀ other < page.load 4 20, (replaceBase page slot tuple).load 4 (24 + 8 * other) =
      page.load 4 (24 + 8 * other)) ∧
    ∀ other < page.load 4 20, (replaceBase page slot tuple).load 4 (28 + 8 * other) =
      if other = slot then tuple.data.length else page.load 4 (28 + 8 * other) := by
  have hmod : (page.load 4 16 + page.load 4 (28 + 8 * slot) - tuple.data.length) % 256 ^ 4 =
      page.load 4 16 + page.load 4 (28 + 8 * slot) - tuple.data.length :=
    Nat.mod_eq_of_lt (by omega)
  have hsize : tuple.data.length % 256 ^ 4 = tuple.data.length := Nat.mod_eq_of_lt (by omega)
  unfold replaceBase
  refine ⟨fun cell hcell => ?_, ?_, ?_, fun other hother => ?_, fun other hother => ?_⟩
  · simp (disch := omega) only [store_apply_outside, write_apply_outside,
      move_apply_outside]
  · simp (disch := omega) only [load_store_of_disjoint, load_write_of_disjoint,
      load_store_same, hmod]
  · simp (disch := omega) only [load_store_of_disjoint, load_write_of_disjoint,
      load_move_of_disjoint]
  · simp (disch := omega) only [load_store_of_disjoint, load_write_of_disjoint,
      load_move_of_disjoint]
  · split_ifs with hsame
    · subst hsame
      rw [load_store_same, hsize]
    · simp (disch := omega) only [load_store_of_disjoint, load_write_of_disjoint,
        load_move_of_disjoint]

theorem replaceBase_cells
    (hroom : 24 + 8 * page.load 4 20 + tuple.data.length ≤
      page.load 4 16 + page.load 4 (28 + 8 * slot))
    (hslot : slot < page.load 4 20)
    (hbelow : page.load 4 16 ≤ page.load 4 (24 + 8 * slot)) :
    (∀ cell, page.load 4 16 + page.load 4 (28 + 8 * slot) - tuple.data.length ≤ cell →
      cell < page.load 4 (24 + 8 * slot) + page.load 4 (28 + 8 * slot) - tuple.data.length →
      replaceBase page slot tuple cell =
        page (cell + tuple.data.length - page.load 4 (28 + 8 * slot))) ∧
    (∀ cell, page.load 4 (24 + 8 * slot) + page.load 4 (28 + 8 * slot) ≤ cell →
      24 + 8 * page.load 4 20 ≤ cell → replaceBase page slot tuple cell = page cell) ∧
    (replaceBase page slot tuple).read
      (page.load 4 (24 + 8 * slot) + page.load 4 (28 + 8 * slot) - tuple.data.length)
      tuple.data.length = tuple.data := by
  unfold replaceBase
  refine ⟨fun cell hlower hupper => ?_, fun cell habove hdata => ?_, ?_⟩
  · simp (disch := omega) only [store_apply_outside, write_apply_outside,
      move_apply_inside]
    congr 1
    omega
  · simp (disch := omega) only [store_apply_outside, write_apply_outside,
      move_apply_outside]
  · rw [read_store_of_disjoint (by omega), read_write_same]

theorem replaceTuple_replaced
    (hroom : 24 + 8 * page.getTupleCount + tuple.size ≤
      page.getFreeSpacePointer + page.getTupleSize slot)
    (hslot : slot < page.getTupleCount) (hpos : 0 < tuple.size)
    (hlive : page.getTupleSize slot ≠ 0)
    (hbelow : page.getFreeSpacePointer ≤ page.getTupleOffsetAtSlot slot)
    (hend : page.getTupleOffsetAtSlot slot + page.getTupleSize slot ≤ bustubPageSize)
    (hstarts : ∀ other < page.getTupleCount, page.getTupleSize other ≠ 0 →
      page.getFreeSpacePointer ≤ page.getTupleOffsetAtSlot other) :
    Replaced page slot tuple (page.replaceTuple slot tuple) := by
  obtain ⟨hlow, hpointer, hcount, hoffset, hsize⟩ := replaceBase_fields hroom hslot hbelow hend
  obtain ⟨hmoved, habove, hdata⟩ := replaceBase_cells hroom hslot hbelow
  replace hoffset : ∀ other < page.getTupleCount,
      (replaceBase page slot tuple).getTupleOffsetAtSlot other =
        page.getTupleOffsetAtSlot other := hoffset
  replace hsize : ∀ other < page.getTupleCount, (replaceBase page slot tuple).getTupleSize other =
      if other = slot then tuple.size else page.getTupleSize other := hsize
  have hshifted := shiftOffsets_shifted (replaceBase page slot tuple)
    (page.getTupleOffsetAtSlot slot + page.getTupleSize slot)
    (subU32 (page.getTupleSize slot) tuple.size)
  rw [show (replaceBase page slot tuple).getTupleCount = page.getTupleCount from hcount]
    at hshifted
  have heq : page.replaceTuple slot tuple = (replaceBase page slot tuple).shiftOffsets
      (page.getTupleOffsetAtSlot slot + page.getTupleSize slot)
      (subU32 (page.getTupleSize slot) tuple.size) := replaceTuple_eq hroom hbelow hend
  rw [← heq] at hshifted
  -- the loop changes slots only: everything else is as in the page it starts from
  have hcell : ∀ cell, cell < 24 ∨ 24 + 8 * page.getTupleCount ≤ cell →
      page.replaceTuple slot tuple cell = replaceBase page slot tuple cell := hshifted.outside
  have hlimit : page.getTupleOffsetAtSlot slot + page.getTupleSize slot ≤ 4096 := hend
  constructor
  · apply sameLinks_of_cells
    intro cell hlt
    rw [hcell cell (by omega), hlow cell hlt]
  · exact hshifted.getFreeSpacePointer_eq.trans hpointer
  · exact hshifted.getTupleCount_eq.trans hcount
  · intro other hother hne
    have hstart := hstarts other hother hne
    have hother' : (replaceBase page slot tuple).getTupleSize other ≠ 0 := by
      rw [hsize other hother]
      split_ifs
      · exact hpos.ne'
      · exact hne
    rw [hshifted.offset other hother, hoffset other hother]
    by_cases hbefore : page.getTupleOffsetAtSlot other <
        page.getTupleOffsetAtSlot slot + page.getTupleSize slot
    · rw [if_pos ⟨hother', hbefore⟩, if_pos hbefore, addU32_subU32 (by omega) (by omega)]
    · rw [if_neg (fun h => hbefore h.2), if_neg hbefore]
  · intro other hother hzero
    have hne : other ≠ slot := by
      rintro rfl
      exact hlive hzero
    have hother' : (replaceBase page slot tuple).getTupleSize other = 0 := by
      rw [hsize other hother, if_neg hne, hzero]
    rw [hshifted.offset other hother, if_neg (fun h => h.1 hother')]
    exact hoffset other hother
  · intro other hother
    rw [hshifted.size]
    exact hsize other hother
  · intro cell hlower hupper
    rw [hcell cell (.inr (by omega))]
    exact hmoved cell hlower hupper
  · intro cell hupper
    rw [hcell cell (.inr (by omega))]
    exact habove cell hupper (by change 24 + 8 * page.getTupleCount ≤ cell; omega)
  · rw [← hdata]
    apply read_congr
    intro index hindex
    exact hcell _ (.inr (by omega))

end Replace

/-! ## Removing a tuple -/

/-- `page'` is `page` with the tuple of a slot taken out and the tuples below it moved. -/
structure Removed (page : TablePage) (slot length : ℕ) (page' : TablePage) : Prop where
  links : SameLinks page page'
  pointer : page'.getFreeSpacePointer = page.getFreeSpacePointer + length
  count : page'.getTupleCount = page.getTupleCount
  offset : ∀ other < page.getTupleCount, other ≠ slot → page.getTupleSize other ≠ 0 →
    page'.getTupleOffsetAtSlot other =
      if page.getTupleOffsetAtSlot other < page.getTupleOffsetAtSlot slot
      then page.getTupleOffsetAtSlot other + length
      else page.getTupleOffsetAtSlot other
  empty : ∀ other < page.getTupleCount, other ≠ slot → page.getTupleSize other = 0 →
    page'.getTupleOffsetAtSlot other = page.getTupleOffsetAtSlot other
  cleared : page'.getTupleOffsetAtSlot slot = 0
  size : ∀ other < page.getTupleCount, page'.getTupleSize other =
    if other = slot then 0 else page.getTupleSize other
  moved : ∀ cell, page.getFreeSpacePointer + length ≤ cell →
    cell < page.getTupleOffsetAtSlot slot + length → page' cell = page (cell - length)
  above : ∀ cell, page.getTupleOffsetAtSlot slot + length ≤ cell → page' cell = page cell

section Remove

variable {page : TablePage} {slot length : ℕ}

def removeBase (page : TablePage) (slot length : ℕ) : TablePage :=
  (((page.move (page.load 4 16 + length) (page.load 4 16)
      (page.load 4 (24 + 8 * slot) - page.load 4 16)).store 4 16
      (page.load 4 16 + length)).store 4 (28 + 8 * slot) 0).store 4 (24 + 8 * slot) 0

theorem removeTuple_eq (hroom : page.load 4 16 + length ≤ 4096) :
    page.removeTuple slot length =
      (removeBase page slot length).shiftOffsets (page.load 4 (24 + 8 * slot)) length := by
  have hadd : addU32 (page.load 4 16) length = page.load 4 16 + length :=
    addU32_of_lt (by omega)
  simp only [removeTuple, removeBase, setFreeSpacePointer, setTupleSize, setTupleOffsetAtSlot,
    getFreeSpacePointer, getTupleOffsetAtSlot, offsetFreeSpace, offsetTupleOffset,
    offsetTupleSize, sizeTuple, hadd]

theorem removeBase_fields (hheader : 24 + 8 * page.load 4 20 ≤ page.load 4 16)
    (hslot : slot < page.load 4 20)
    (hend : page.load 4 (24 + 8 * slot) + length ≤ 4096)
    (hbelow : page.load 4 16 ≤ page.load 4 (24 + 8 * slot)) :
    (∀ cell < 16, removeBase page slot length cell = page cell) ∧
    (removeBase page slot length).load 4 16 = page.load 4 16 + length ∧
    (removeBase page slot length).load 4 20 = page.load 4 20 ∧
    (∀ other < page.load 4 20, (removeBase page slot length).load 4 (24 + 8 * other) =
      if other = slot then 0 else page.load 4 (24 + 8 * other)) ∧
    ∀ other < page.load 4 20, (removeBase page slot length).load 4 (28 + 8 * other) =
      if other = slot then 0 else page.load 4 (28 + 8 * other) := by
  have hmod : (page.load 4 16 + length) % 256 ^ 4 = page.load 4 16 + length :=
    Nat.mod_eq_of_lt (by omega)
  unfold removeBase
  refine ⟨fun cell hcell => ?_, ?_, ?_, fun other hother => ?_, fun other hother => ?_⟩
  · simp (disch := omega) only [store_apply_outside, move_apply_outside]
  · simp (disch := omega) only [load_store_of_disjoint, load_store_same, hmod]
  · simp (disch := omega) only [load_store_of_disjoint, load_move_of_disjoint]
  · split_ifs with hsame
    · subst hsame
      rw [load_store_same, Nat.zero_mod]
    · simp (disch := omega) only [load_store_of_disjoint, load_move_of_disjoint]
  · split_ifs with hsame
    · subst hsame
      rw [load_store_of_disjoint (by omega), load_store_same, Nat.zero_mod]
    · simp (disch := omega) only [load_store_of_disjoint, load_move_of_disjoint]

theorem removeBase_cells {page : TablePage} {slot : ℕ} (length : ℕ)
    (hheader : 24 + 8 * page.load 4 20 ≤ page.load 4 16)
    (hslot : slot < page.load 4 20)
    (hbelow : page.load 4 16 ≤ page.load 4 (24 + 8 * slot)) :
    (∀ cell, page.load 4 16 + length ≤ cell → cell < page.load 4 (24 + 8 * slot) + length →
      removeBase page slot length cell = page (cell - length)) ∧
    ∀ cell, page.load 4 (24 + 8 * slot) + length ≤ cell →
      removeBase page slot length cell = page cell := by
  unfold removeBase
  refine ⟨fun cell hlower hupper => ?_, fun cell habove => ?_⟩
  · simp (disch := omega) only [store_apply_outside, move_apply_inside]
    congr 1
    omega
  · simp (disch := omega) only [store_apply_outside, move_apply_outside]

theorem removeTuple_removed (hslot : slot < page.getTupleCount)
    (hheader : 24 + 8 * page.getTupleCount ≤ page.getFreeSpacePointer)
    (hbelow : page.getFreeSpacePointer ≤ page.getTupleOffsetAtSlot slot)
    (hend : page.getTupleOffsetAtSlot slot + length ≤ bustubPageSize) :
    Removed page slot length (page.removeTuple slot length) := by
  obtain ⟨hlow, hpointer, hcount, hoffset, hsize⟩ := removeBase_fields hheader hslot hend hbelow
  obtain ⟨hmoved, habove⟩ := removeBase_cells length hheader hslot hbelow
  replace hoffset : ∀ other < page.getTupleCount,
      (removeBase page slot length).getTupleOffsetAtSlot other =
        if other = slot then 0 else page.getTupleOffsetAtSlot other := hoffset
  replace hsize : ∀ other < page.getTupleCount, (removeBase page slot length).getTupleSize other =
      if other = slot then 0 else page.getTupleSize other := hsize
  have hshifted := shiftOffsets_shifted (removeBase page slot length)
    (page.getTupleOffsetAtSlot slot) length
  rw [show (removeBase page slot length).getTupleCount = page.getTupleCount from hcount]
    at hshifted
  have hlimit : page.getTupleOffsetAtSlot slot + length ≤ 4096 := hend
  have heq : page.removeTuple slot length = (removeBase page slot length).shiftOffsets
      (page.getTupleOffsetAtSlot slot) length :=
    removeTuple_eq (by change page.getFreeSpacePointer + length ≤ 4096; omega)
  rw [← heq] at hshifted
  have hcell : ∀ cell, cell < 24 ∨ 24 + 8 * page.getTupleCount ≤ cell →
      page.removeTuple slot length cell = removeBase page slot length cell := hshifted.outside
  constructor
  · apply sameLinks_of_cells
    intro cell hlt
    rw [hcell cell (by omega), hlow cell hlt]
  · exact hshifted.getFreeSpacePointer_eq.trans hpointer
  · exact hshifted.getTupleCount_eq.trans hcount
  · intro other hother hne hused
    have hused' : (removeBase page slot length).getTupleSize other ≠ 0 := by
      rwa [hsize other hother, if_neg hne]
    rw [hshifted.offset other hother, hoffset other hother, if_neg hne]
    by_cases hbefore : page.getTupleOffsetAtSlot other < page.getTupleOffsetAtSlot slot
    · rw [if_pos ⟨hused', hbefore⟩, if_pos hbefore, addU32_of_lt (by omega)]
    · rw [if_neg (fun h => hbefore h.2), if_neg hbefore]
  · intro other hother hne hzero
    have hzero' : (removeBase page slot length).getTupleSize other = 0 := by
      rw [hsize other hother, if_neg hne, hzero]
    rw [hshifted.offset other hother, if_neg (fun h => h.1 hzero'), hoffset other hother,
      if_neg hne]
  · have hzero : (removeBase page slot length).getTupleSize slot = 0 := by
      rw [hsize slot hslot, if_pos rfl]
    rw [hshifted.offset slot hslot, if_neg (fun h => h.1 hzero), hoffset slot hslot, if_pos rfl]
  · intro other hother
    rw [hshifted.size, hsize other hother]
  · intro cell hlower hupper
    rw [hcell cell (.inr (by omega))]
    exact hmoved cell hlower hupper
  · intro cell hupper
    rw [hcell cell (.inr (by omega))]
    exact habove cell hupper

end Remove

end TablePage

end BusTub
