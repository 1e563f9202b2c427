import Mathlib.Data.List.Basic
import Mathlib.Data.Nat.Basic
import Mathlib.Data.Int.Basic
import Mathlib.Tactic.Ring
import Mathlib.Tactic.NormNum
import Mathlib.Tactic.Common

/-!
# Byte-addressed memory

A memory gives a byte at every address.  `read` and `write` are `memcpy` out of it
and into it, `move` is `memmove`, and `load` and `store` are the unsigned
little-endian numbers of a fixed number of bytes.

Every access has two laws: what it does inside the range it touches, and that it does
nothing outside (`read_write_of_disjoint` and its relatives).  A proof about a page
format needs no more than these two and a proof that its fields are apart.
-/

namespace ByteMemory

/-! ## Little-endian numbers -/

/-- The `width` little-endian bytes of a number; what does not fit is dropped. -/
def leBytes : ℕ → ℕ → List UInt8
  | 0, _ => []
  | width + 1, value => UInt8.ofNat (value % 256) :: leBytes width (value / 256)

/-- The number with the given little-endian bytes. -/
def ofLeBytes : List UInt8 → ℕ
  | [] => 0
  | byte :: rest => byte.toNat + 256 * ofLeBytes rest

@[simp] theorem length_leBytes (width value : ℕ) : (leBytes width value).length = width := by
  induction width generalizing value with
  | zero => rfl
  | succ width ih => rw [leBytes, List.length_cons, ih]

theorem ofLeBytes_leBytes (width value : ℕ) :
    ofLeBytes (leBytes width value) = value % 256 ^ width := by
  induction width generalizing value with
  | zero => simp only [leBytes, ofLeBytes, pow_zero, Nat.mod_one]
  | succ width ih =>
    have hbyte : (UInt8.ofNat (value % 256)).toNat = value % 256 := by
      exact Nat.mod_eq_of_lt (Nat.mod_lt value (by norm_num))
    rw [leBytes, ofLeBytes, ih, hbyte, pow_succ', Nat.mod_mul]

theorem ofLeBytes_lt (bytes : List UInt8) : ofLeBytes bytes < 256 ^ bytes.length := by
  induction bytes with
  | nil => simp only [ofLeBytes, List.length_nil, pow_zero, Nat.lt_one_iff]
  | cons byte rest ih =>
    have hbyte : byte.toNat < 256 := byte.toNat_lt
    rw [ofLeBytes, List.length_cons, pow_succ]
    omega

theorem leBytes_ofLeBytes (bytes : List UInt8) :
    leBytes bytes.length (ofLeBytes bytes) = bytes := by
  induction bytes with
  | nil => rfl
  | cons byte rest ih =>
    have hbyte : byte.toNat < 256 := byte.toNat_lt
    rw [List.length_cons, ofLeBytes, leBytes, Nat.add_mul_mod_self_left, Nat.mod_eq_of_lt hbyte,
      UInt8.ofNat_toNat, Nat.add_mul_div_left _ _ (by norm_num), Nat.div_eq_of_lt hbyte,
      Nat.zero_add, ih]

/-! ## Memory -/

/-- A byte at every address. -/
abbrev Memory := ℕ → UInt8

namespace Memory

/-- `memcpy` of `length` bytes out of the memory. -/
def read (memory : Memory) (address : ℕ) : ℕ → List UInt8
  | 0 => []
  | length + 1 => memory address :: read memory (address + 1) length

/-- `memcpy` of the bytes into the memory. -/
def write (memory : Memory) (address : ℕ) (bytes : List UInt8) : Memory := fun cell =>
  if address ≤ cell ∧ cell < address + bytes.length then bytes.getD (cell - address) 0
  else memory cell

/-- `memmove`: the source range is read before anything is written. -/
def move (memory : Memory) (target source length : ℕ) : Memory :=
  memory.write target (memory.read source length)

/-- The unsigned number in `width` bytes. -/
def load (memory : Memory) (width address : ℕ) : ℕ := ofLeBytes (memory.read address width)

/-- Stores a number in `width` bytes. -/
def store (memory : Memory) (width address value : ℕ) : Memory :=
  memory.write address (leBytes width value)

/-- The two's complement number in `width` bytes. -/
def loadInt (memory : Memory) (width address : ℕ) : ℤ :=
  Int.bmod (memory.load width address) (256 ^ width)

/-- Stores a number in two's complement in `width` bytes. -/
def storeInt (memory : Memory) (width address : ℕ) (value : ℤ) : Memory :=
  memory.store width address (value % (256 ^ width : ℕ)).toNat

variable {memory : Memory} {address cell length width value : ℕ} {bytes : List UInt8}

@[simp] theorem length_read (memory : Memory) (address length : ℕ) :
    (memory.read address length).length = length := by
  induction length generalizing address with
  | zero => rfl
  | succ length ih => rw [read, List.length_cons, ih]

theorem getD_read (memory : Memory) (address : ℕ) {index : ℕ} (hindex : index < length) :
    (memory.read address length).getD index 0 = memory (address + index) := by
  induction length generalizing address index with
  | zero => omega
  | succ length ih =>
    cases index with
    | zero => rfl
    | succ index =>
      rw [read, List.getD_cons_succ, ih _ (by omega)]
      congr 1
      omega

theorem read_congr {memory' : Memory} {address' : ℕ}
    (h : ∀ index < length, memory' (address' + index) = memory (address + index)) :
    memory'.read address' length = memory.read address length := by
  induction length generalizing address address' with
  | zero => rfl
  | succ length ih =>
    have hfirst := h 0 (by omega)
    rw [Nat.add_zero, Nat.add_zero] at hfirst
    rw [read, read, hfirst, ih fun index hindex => ?_]
    rw [Nat.add_assoc, Nat.add_assoc, Nat.add_comm 1 index]
    exact h (index + 1) (by omega)

/-! ## Inside and outside a write -/

theorem write_apply_inside (hlower : address ≤ cell) (hupper : cell < address + bytes.length) :
    memory.write address bytes cell = bytes.getD (cell - address) 0 :=
  if_pos ⟨hlower, hupper⟩

theorem write_apply_outside (h : cell < address ∨ address + bytes.length ≤ cell) :
    memory.write address bytes cell = memory cell :=
  if_neg (by omega)

theorem read_write_same (memory : Memory) (address : ℕ) (bytes : List UInt8) :
    (memory.write address bytes).read address bytes.length = bytes := by
  apply List.ext_getElem (length_read _ _ _)
  intro index hread hindex
  have hcell := getD_read (memory.write address bytes) address hindex
  rw [write_apply_inside (by omega) (by omega), Nat.add_sub_cancel_left] at hcell
  simpa only [List.getD_eq_getElem?_getD, List.getElem?_eq_getElem hread,
    List.getElem?_eq_getElem hindex, Option.getD_some] using hcell

theorem read_write_of_disjoint
    (h : cell + length ≤ address ∨ address + bytes.length ≤ cell) :
    (memory.write address bytes).read cell length = memory.read cell length :=
  read_congr fun _ hindex => write_apply_outside (by omega)

theorem write_read_same (memory : Memory) (address length : ℕ) :
    memory.write address (memory.read address length) = memory := by
  funext cell
  by_cases hcell : address ≤ cell ∧ cell < address + length
  · rw [write_apply_inside hcell.1 (by rw [length_read]; exact hcell.2),
      getD_read _ _ (by omega), Nat.add_sub_cancel' hcell.1]
  · exact write_apply_outside (by rw [length_read]; omega)

theorem move_apply_inside {target source : ℕ} (hlower : target ≤ cell)
    (hupper : cell < target + length) :
    memory.move target source length cell = memory (source + (cell - target)) := by
  rw [move, write_apply_inside hlower (by rwa [length_read]), getD_read _ _ (by omega)]

theorem move_apply_outside {target source : ℕ} (h : cell < target ∨ target + length ≤ cell) :
    memory.move target source length cell = memory cell :=
  write_apply_outside (by rwa [length_read])

theorem store_apply_outside (h : cell < address ∨ address + width ≤ cell) :
    memory.store width address value cell = memory cell :=
  write_apply_outside (by rwa [length_leBytes])

theorem read_store_of_disjoint (h : cell + length ≤ address ∨ address + width ≤ cell) :
    (memory.store width address value).read cell length = memory.read cell length :=
  read_write_of_disjoint (by rwa [length_leBytes])

/-! ## Numbers in memory -/

theorem load_lt (memory : Memory) (width address : ℕ) :
    memory.load width address < 256 ^ width := by
  have h := ofLeBytes_lt (memory.read address width)
  rwa [length_read] at h

theorem load_congr {memory' : Memory} {address' : ℕ}
    (h : ∀ index < width, memory' (address' + index) = memory (address + index)) :
    memory'.load width address' = memory.load width address := by
  rw [load, load, read_congr h]

theorem load_store_same (memory : Memory) (width address value : ℕ) :
    (memory.store width address value).load width address = value % 256 ^ width := by
  have h := read_write_same memory address (leBytes width value)
  rw [length_leBytes] at h
  rw [load, store, h, ofLeBytes_leBytes]

theorem store_load_same (memory : Memory) (width address : ℕ) :
    memory.store width address (memory.load width address) = memory := by
  have h := leBytes_ofLeBytes (memory.read address width)
  rw [length_read] at h
  rw [store, load, h, write_read_same]

theorem load_store_of_disjoint {width' : ℕ}
    (h : cell + width' ≤ address ∨ address + width ≤ cell) :
    (memory.store width address value).load width' cell = memory.load width' cell := by
  rw [load, load, read_store_of_disjoint h]

theorem load_write_of_disjoint (h : cell + width ≤ address ∨ address + bytes.length ≤ cell) :
    (memory.write address bytes).load width cell = memory.load width cell := by
  rw [load, load, read_write_of_disjoint h]

theorem load_move_of_disjoint {target source : ℕ}
    (h : cell + width ≤ target ∨ target + length ≤ cell) :
    (memory.move target source length).load width cell = memory.load width cell :=
  load_write_of_disjoint (by rwa [length_read])

theorem loadInt_range (memory : Memory) (width address : ℕ) :
    -(256 ^ width : ℕ) ≤ memory.loadInt width address * 2 ∧
      memory.loadInt width address * 2 < (256 ^ width : ℕ) := by
  have hpos : 0 < 256 ^ width := Nat.pow_pos (by decide)
  have hlower := Int.le_bmod (x := memory.load width address) hpos
  have hupper := Int.bmod_lt (x := memory.load width address) hpos
  rw [loadInt]
  constructor <;> omega

theorem loadInt_storeInt_same (memory : Memory) (width address : ℕ) {value : ℤ}
    (hlower : -(256 ^ width : ℕ) ≤ value * 2) (hupper : value * 2 < (256 ^ width : ℕ)) :
    (memory.storeInt width address value).loadInt width address = value := by
  have hpos : (0 : ℤ) < (256 ^ width : ℕ) := by positivity
  have hnonneg := Int.emod_nonneg value hpos.ne'
  have hload : (memory.storeInt width address value).load width address =
      (value % (256 ^ width : ℕ)).toNat := by
    rw [storeInt, load_store_same, Nat.mod_eq_of_lt (by omega)]
  rw [loadInt, hload, Int.toNat_of_nonneg hnonneg, Int.emod_bmod,
    Int.bmod_eq_of_le_mul_two (by omega) (by omega)]

theorem loadInt_storeInt_of_disjoint {width' : ℕ} {number : ℤ}
    (h : cell + width' ≤ address ∨ address + width ≤ cell) :
    (memory.storeInt width address number).loadInt width' cell = memory.loadInt width' cell := by
  rw [loadInt, loadInt, storeInt, load_store_of_disjoint h]

theorem loadInt_store_of_disjoint {width' : ℕ}
    (h : cell + width' ≤ address ∨ address + width ≤ cell) :
    (memory.store width address value).loadInt width' cell = memory.loadInt width' cell := by
  rw [loadInt, loadInt, load_store_of_disjoint h]

theorem loadInt_congr {memory' : Memory} {address' : ℕ}
    (h : ∀ index < width, memory' (address' + index) = memory (address + index)) :
    memory'.loadInt width address' = memory.loadInt width address := by
  rw [loadInt, loadInt, load_congr h]

end Memory

end ByteMemory
