import BusTub.Library.ByteMemory

/-!
# Values and their encoding

The model of `type/value.cpp` and of `SerializeTo` and `DeserializeFrom` of the types
BOOLEAN, TINYINT, SMALLINT, INTEGER, BIGINT and VARCHAR.

The first five hold an integer of a fixed width, and are read and written the same way;
`NumberType` is the parameter by which they differ.  Their NULL is the least integer of the
width, so that a value and its NULL flag are both determined by the integer.  A VARCHAR
value is NULL or holds bytes, whose number is stored in front of them; the largest number
stands for NULL.
-/

namespace BusTub

open ByteMemory

/-- The types whose values are integers. -/
inductive NumberType
  | boolean
  | tinyint
  | smallint
  | integer
  | bigint
deriving DecidableEq, Repr

/-- `TypeId`. -/
inductive TypeId
  | number (type : NumberType)
  | varchar
deriving DecidableEq, Repr

def NumberType.size : NumberType → ℕ
  | .boolean => 1
  | .tinyint => 1
  | .smallint => 2
  | .integer => 4
  | .bigint => 8

/-- `BUSTUB_VALUE_NULL`. -/
def bustubValueNull : ℕ := 2 ^ 32 - 1

/-- The bytes of a VARCHAR value, fewer than `BUSTUB_VARCHAR_MAX_LEN`. -/
structure Varlen where
  data : List UInt8
  length_lt : data.length < 2 ^ 32 - 1
deriving DecidableEq

/-- `Value`: an integer in the range of its type, or the bytes of a string. -/
inductive Value
  | number (type : NumberType) (payload : ℤ) (lower : -(256 ^ type.size : ℕ) ≤ payload * 2)
      (upper : payload * 2 < (256 ^ type.size : ℕ))
  | varchar (data : Option Varlen)
deriving DecidableEq

namespace Value

/-- `GetTypeId`. -/
def getTypeId : Value → TypeId
  | .number type _ _ _ => .number type
  | .varchar _ => .varchar

/-- `GetLength`: only VARCHAR values have one, for others the code throws. -/
def getLength : Value → Option ℕ
  | .number _ _ _ _ => none
  | .varchar none => some bustubValueNull
  | .varchar (some string) => some string.data.length

/-- `SerializeTo`. -/
def serializeTo (value : Value) (memory : Memory) (address : ℕ) : Memory :=
  match value with
  | .number type payload _ _ => memory.storeInt type.size address payload
  | .varchar none => memory.store 4 address bustubValueNull
  | .varchar (some string) =>
    (memory.store 4 address string.data.length).write (address + 4) string.data

/-- `DeserializeFrom`. -/
def deserializeFrom (memory : Memory) (address : ℕ) : TypeId → Value
  | .number type => .number type (memory.loadInt type.size address)
      (memory.loadInt_range type.size address).1 (memory.loadInt_range type.size address).2
  | .varchar =>
    if h : memory.load 4 address = bustubValueNull then .varchar none
    else .varchar (some ⟨memory.read (address + 4) (memory.load 4 address), by
      have hlt := memory.load_lt 4 address
      rw [Memory.length_read]
      unfold bustubValueNull at h
      omega⟩)

/-- The number of bytes that `SerializeTo` writes. -/
def encodedLength : Value → ℕ
  | .number type _ _ _ => type.size
  | .varchar none => 4
  | .varchar (some string) => 4 + string.data.length

variable {value : Value} {memory memory' : Memory} {address : ℕ}

theorem serializeTo_outside {cell : ℕ}
    (hcell : cell < address ∨ address + value.encodedLength ≤ cell) :
    value.serializeTo memory address cell = memory cell := by
  match value with
  | .number type payload _ _ => exact Memory.store_apply_outside hcell
  | .varchar none => exact Memory.store_apply_outside hcell
  | .varchar (some string) =>
    simp only [encodedLength] at hcell
    simp only [serializeTo]
    rw [Memory.write_apply_outside (by omega), Memory.store_apply_outside (by omega)]

theorem varchar_ext {first second : Varlen} (h : first.data = second.data) :
    Value.varchar (some first) = Value.varchar (some second) := by
  cases first
  cases second
  simp_all only

/-- **Values** are read back as they were written. -/
theorem deserializeFrom_serializeTo (value : Value) (memory : Memory) (address : ℕ) :
    deserializeFrom (value.serializeTo memory address) address value.getTypeId = value := by
  match value with
  | .number type payload lower upper =>
    simp only [serializeTo, deserializeFrom, getTypeId,
      Memory.loadInt_storeInt_same memory type.size address lower upper]
  | .varchar none =>
    have hload : (memory.store 4 address bustubValueNull).load 4 address = bustubValueNull :=
      memory.load_store_same 4 address bustubValueNull
    exact dif_pos hload
  | .varchar (some string) =>
    have hlt := string.length_lt
    have hload : ((memory.store 4 address string.data.length).write (address + 4)
        string.data).load 4 address = string.data.length := by
      rw [Memory.load_write_of_disjoint (by omega), Memory.load_store_same,
        Nat.mod_eq_of_lt (by omega)]
    have hne : string.data.length ≠ bustubValueNull := by
      unfold bustubValueNull
      omega
    simp only [serializeTo, deserializeFrom, getTypeId, hload, dif_neg hne]
    exact varchar_ext (Memory.read_write_same _ _ _)

theorem deserializeFrom_varchar (memory : Memory) (address : ℕ) (data : Option Varlen) :
    deserializeFrom memory address .varchar = .varchar data ↔
      match data with
      | none => memory.load 4 address = bustubValueNull
      | some string => memory.load 4 address = string.data.length ∧
          memory.read (address + 4) string.data.length = string.data := by
  unfold deserializeFrom
  by_cases hnull : memory.load 4 address = bustubValueNull
  · rw [dif_pos hnull]
    cases data with
    | none => exact ⟨fun _ => hnull, fun _ => rfl⟩
    | some string =>
      have hne : ¬ memory.load 4 address = string.data.length := by
        rw [hnull]
        exact (Nat.ne_of_lt string.length_lt).symm
      simp [hne, reduceCtorEq]
  · rw [dif_neg hnull]
    cases data with
    | none => simp only [hnull, reduceCtorEq, Value.varchar.injEq]
    | some string =>
      constructor
      · intro heq
        obtain rfl := Option.some.inj (Value.varchar.inj heq)
        simp
      · rintro ⟨hload, hread⟩
        apply varchar_ext
        rw [← hread, ← hload]

theorem deserializeFrom_congr (hvalue : deserializeFrom memory address value.getTypeId = value)
    (hcells : ∀ index < value.encodedLength, memory' (address + index) = memory (address + index)) :
    deserializeFrom memory' address value.getTypeId = value := by
  match value with
  | .number type payload lower upper =>
    simp only [deserializeFrom, getTypeId, Value.number.injEq, true_and] at hvalue ⊢
    exact (Memory.loadInt_congr hcells).trans hvalue
  | .varchar none =>
    have hload := (deserializeFrom_varchar memory address none).mp hvalue
    apply (deserializeFrom_varchar memory' address none).mpr
    exact (Memory.load_congr hcells).trans hload
  | .varchar (some string) =>
    have hboth := (deserializeFrom_varchar memory address (some string)).mp hvalue
    simp only [encodedLength] at hcells
    apply (deserializeFrom_varchar memory' address (some string)).mpr
    refine ⟨?_, ?_⟩
    · rw [Memory.load_congr fun index hindex => hcells index (by omega)]
      exact hboth.1
    · rw [Memory.read_congr fun index hindex => ?_]
      · exact hboth.2
      · have hcell := hcells (4 + index) (by omega)
        rwa [← Nat.add_assoc] at hcell

end Value

end BusTub
