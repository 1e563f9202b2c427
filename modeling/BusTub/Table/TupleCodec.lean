import BusTub.Table.PageLayout
import BusTub.Type.Value

/-!
# Tuples of values

The model of the tuple encoding: the schema's layout, the constructor, `GetValue`, `KeyFromTuple`,
`SerializeTo` and `DeserializeFrom` of `storage/table/tuple.cpp`, and
`storage/index/generic_key.h`.

A tuple starts with one field for each column.  The field of a VARCHAR column holds the offset of
the string; the strings follow behind the fields, in the order of the columns.  The size of the
tuple is computed in one pass over the VARCHAR columns, the offsets in a second one over all
columns.

The proof is an induction over the columns.  The rest of the columns is written to the fields from
`start` on and to the strings from `offset` on, so what the columns before have written stays.
-/

namespace BusTub

open ByteMemory Value

/-! ## Schemas -/

/-- `Column`. -/
structure Column where
  columnType : TypeId
  columnOffset : ℕ
deriving DecidableEq

namespace Column

/-- `TypeSize`. -/
def typeSize : TypeId → ℕ
  | .number type => type.size
  | .varchar => 12

/-- `GetFixedLength`. -/
def getFixedLength (column : Column) : ℕ := typeSize column.columnType

/-- `IsInlined`. -/
def isInlined (column : Column) : Bool := column.columnType ≠ .varchar

end Column

/-- `Schema`. -/
structure Schema where
  columns : List Column
  length : ℕ
  uninlinedColumns : List ℕ

namespace Schema

/-- The loop of the constructor: the columns with their offsets, and the next offset. -/
def layOut : ℕ → List Column → List Column × ℕ
  | offset, [] => ([], offset)
  | offset, column :: rest =>
    let (columns, length) := layOut (addU32 offset column.getFixedLength) rest
    ({ column with columnOffset := offset } :: columns, length)

/-- The loop of the constructor: the indices of the VARCHAR columns. -/
def uninlinedFrom : ℕ → List Column → List ℕ
  | _, [] => []
  | index, column :: rest =>
    if !column.isInlined then index :: uninlinedFrom (index + 1) rest
    else uninlinedFrom (index + 1) rest

/-- The constructor. -/
def create (columns : List Column) : Schema where
  columns := (layOut 0 columns).1
  length := (layOut 0 columns).2
  uninlinedColumns := uninlinedFrom 0 columns

/-- `CopySchema`; the columns must exist. -/
def copySchema (schema : Schema) (attrs : List ℕ) : Option Schema :=
  (attrs.mapM fun attr => schema.columns[attr]?).map create

end Schema

/-! ## Tuples -/

namespace Tuple

def stringLength (value : Value) : Option ℕ :=
  value.getLength.map fun length => if length = bustubValueNull then 0 else length

/-- A step of the first pass of the constructor: the string of one column is added. -/
def addString (values : List Value) (size index : ℕ) : Option ℕ := do
  let value ← values[index]?
  let length ← stringLength value
  return addU32 size (length + 4)

def sizeOf (values : List Value) (schema : Schema) : Option ℕ :=
  schema.uninlinedColumns.foldlM (addString values) schema.length

/-- The second pass of the constructor: the bytes. -/
def writeColumns : List Column → List Value → Memory → ℕ → Option Memory
  | [], _, memory, _ => some memory
  | _ :: _, [], _, _ => none
  | column :: columns, value :: values, memory, offset =>
    if !column.isInlined then do
      let memory := memory.store 4 column.columnOffset offset
      let memory := value.serializeTo memory offset
      let length ← stringLength value
      writeColumns columns values memory (addU32 offset (length + 4))
    else
      writeColumns columns values (value.serializeTo memory column.columnOffset) offset

/-- The constructor; `none` stands for the assertion about the number of values and for
the length of a value that has none. -/
def ofValues (values : List Value) (schema : Schema) : Option Tuple :=
  if values.length = schema.columns.length then do
    let size ← sizeOf values schema
    let memory ← writeColumns schema.columns values (fun _ => 0) schema.length
    return ⟨memory.read 0 (size % 2 ^ 32), by
      rw [Memory.length_read]
      exact Nat.mod_lt _ (by decide)⟩
  else none

def memoryOf (bytes : List UInt8) : Memory := fun cell => bytes.getD cell 0

/-- `GetDataPtr` and `Value::DeserializeFrom`, on the bytes at `data_`. -/
def readColumn (memory : Memory) (column : Column) : Value :=
  if column.isInlined then
    deserializeFrom memory column.columnOffset column.columnType
  else
    deserializeFrom memory (memory.loadInt 4 column.columnOffset).toNat column.columnType

def valueAt (memory : Memory) (schema : Schema) (index : ℕ) : Option Value :=
  (schema.columns[index]?).map (readColumn memory)

/-- `GetValue`. -/
def getValue (tuple : Tuple) (schema : Schema) (index : ℕ) : Option Value :=
  valueAt (memoryOf tuple.data) schema index

/-- `KeyFromTuple`. -/
def keyFromTuple (tuple : Tuple) (schema keySchema : Schema) (keyAttrs : List ℕ) :
    Option Tuple := do
  let values ← keyAttrs.mapM fun index => tuple.getValue schema index
  ofValues values keySchema

/-- `SerializeTo`. -/
def serializeTo (tuple : Tuple) (storage : Memory) (address : ℕ) : Memory :=
  (storage.store 4 address tuple.size).write (address + 4) tuple.data

/-- `DeserializeFrom`. -/
def deserializeFrom (storage : Memory) (address : ℕ) : Tuple :=
  ⟨storage.read (address + 4) (storage.load 4 address), by
    rw [Memory.length_read]
    exact storage.load_lt 4 address⟩

end Tuple

/-- `GenericKey<KeySize>`. -/
structure GenericKey (keySize : ℕ) where
  data : List UInt8
  length_eq : data.length = keySize

namespace GenericKey

/-- `SetFromKey`; a tuple that does not fit overruns the key. -/
def setFromKey (keySize : ℕ) (tuple : Tuple) : Option (GenericKey keySize) :=
  if h : tuple.size ≤ keySize then
    some ⟨tuple.data ++ List.replicate (keySize - tuple.size) 0, by
      rw [List.length_append, List.length_replicate]
      exact Nat.add_sub_cancel' h⟩
  else none

/-- `ToValue`. -/
def toValue {keySize : ℕ} (key : GenericKey keySize) (schema : Schema) (index : ℕ) : Option Value :=
  Tuple.valueAt (Tuple.memoryOf key.data) schema index

end GenericKey

/-! ## Sizes -/

def Value.stringSize : Value → ℕ
  | .number _ _ _ _ => 0
  | .varchar none => 4
  | .varchar (some string) => 4 + string.data.length

def fieldsSize (types : List TypeId) : ℕ := (types.map Column.typeSize).sum

def stringsSize (values : List Value) : ℕ := (values.map stringSize).sum

def encodedSize (values : List Value) : ℕ :=
  fieldsSize (values.map getTypeId) + stringsSize values

@[simp] theorem fieldsSize_cons (type : TypeId) (types : List TypeId) :
    fieldsSize (type :: types) = Column.typeSize type + fieldsSize types :=
  List.sum_cons

@[simp] theorem stringsSize_cons (value : Value) (values : List Value) :
    stringsSize (value :: values) = value.stringSize + stringsSize values :=
  List.sum_cons

variable {value : Value}

theorem stringLength_of_varchar (h : value.getTypeId = .varchar) :
    ∃ length, Tuple.stringLength value = some length ∧ value.stringSize = length + 4 := by
  cases value with
  | number type payload lower upper => cases h
  | varchar data =>
    cases data with
    | none =>
      refine ⟨0, ?_, rfl⟩
      simp [Tuple.stringLength, getLength]
    | some string =>
      have hne : string.data.length ≠ bustubValueNull := Nat.ne_of_lt string.length_lt
      refine ⟨string.data.length, ?_, Nat.add_comm _ _⟩
      simp [Tuple.stringLength, getLength, if_neg hne]

theorem stringSize_of_number (h : value.getTypeId ≠ .varchar) :
    value.stringSize = 0 := by
  cases value with
  | number type payload lower upper => rfl
  | varchar data => exact absurd rfl h

variable {column : Column}

theorem isInlined_iff : column.isInlined = true ↔ column.columnType ≠ .varchar :=
  decide_eq_true_iff

theorem foldlM_uninlined {columns : List Column} {front values : List Value} {size : ℕ}
    (htypes : values.map getTypeId = columns.map Column.columnType)
    (hsize : size + stringsSize values < 2 ^ 32) :
    (Schema.uninlinedFrom front.length columns).foldlM (Tuple.addString (front ++ values)) size =
      some (size + stringsSize values) := by
  induction columns generalizing front values size with
  | nil =>
    obtain rfl : values = [] := List.map_eq_nil_iff.mp htypes
    rfl
  | cons column columns ih =>
    cases values with
    | nil => cases htypes
    | cons value values =>
      rw [List.map_cons, List.map_cons, List.cons.injEq] at htypes
      obtain ⟨htype, htypes⟩ := htypes
      have hat : (front ++ value :: values)[front.length]? = some value := by simp
      have happend : front ++ value :: values = (front ++ [value]) ++ values := by simp
      have hlength : front.length + 1 = (front ++ [value]).length := by simp
      rw [stringsSize_cons] at hsize ⊢
      rw [Schema.uninlinedFrom]
      by_cases hvarchar : value.getTypeId = .varchar
      · obtain ⟨length, hstring, hstringSize⟩ := stringLength_of_varchar hvarchar
        have hinline : ¬ column.isInlined = true := by
          rw [isInlined_iff, ← htype]
          exact not_not.mpr hvarchar
        have hadd : Tuple.addString (front ++ value :: values) size front.length =
            some (size + value.stringSize) := by
          simp only [Tuple.addString, hat, hstring, Option.bind_eq_bind, Option.bind_some]
          rw [addU32_of_lt (by omega), hstringSize]
          rfl
        rw [if_pos (by simpa using hinline), List.foldlM_cons, hadd, Option.bind_eq_bind,
          Option.bind_some, happend, hlength, ih htypes (by omega), Nat.add_assoc]
      · have hinline : column.isInlined = true := by
          rw [isInlined_iff, ← htype]
          exact hvarchar
        rw [if_neg (by simp [hinline]), happend, hlength, stringSize_of_number hvarchar,
          ih htypes (by omega), Nat.zero_add]

/-! ## The layout of the fields -/

/-- The fields of the columns fill the bytes from `start` to `stop`. -/
def Laid : ℕ → List Column → ℕ → Prop
  | start, [], stop => start = stop
  | start, column :: columns, stop =>
    column.columnOffset = start ∧ Laid (start + column.getFixedLength) columns stop

variable {columns : List Column}

theorem Laid.le {start stop : ℕ} (h : Laid start columns stop) :
    start ≤ stop := by
  induction columns generalizing start with
  | nil => exact Nat.le_of_eq h
  | cons column columns ih =>
    have := ih h.2
    omega

theorem layOut_spec {start : ℕ} {columns : List Column}
    (hsize : start + fieldsSize (columns.map Column.columnType) < 2 ^ 32) :
    Laid start (Schema.layOut start columns).1
        (start + fieldsSize (columns.map Column.columnType)) ∧
      (Schema.layOut start columns).2 = start + fieldsSize (columns.map Column.columnType) ∧
      (Schema.layOut start columns).1.map Column.columnType = columns.map Column.columnType := by
  induction columns generalizing start with
  | nil => exact ⟨rfl, rfl, rfl⟩
  | cons column columns ih =>
    rw [List.map_cons, fieldsSize_cons] at hsize ⊢
    have hnext : addU32 start column.getFixedLength =
        start + Column.typeSize column.columnType :=
      addU32_of_lt (show start + Column.typeSize column.columnType < 2 ^ 32 by omega)
    obtain ⟨hlaid, hlength, htypes⟩ := ih (show start + Column.typeSize column.columnType +
      fieldsSize (columns.map Column.columnType) < 2 ^ 32 by omega)
    rw [Nat.add_assoc] at hlaid hlength
    simp only [Schema.layOut, hnext, List.map_cons, htypes]
    exact ⟨⟨rfl, hlaid⟩, hlength, trivial⟩

/-! ## The bytes of a column -/

/-- The memory holds the value of the column: in its field, or at `address`, which is in the
field. -/
def Column.Holds (memory : Memory) (column : Column) (value : Value) (address : ℕ) : Prop :=
  if column.isInlined then
    deserializeFrom memory column.columnOffset column.columnType = value
  else
    memory.loadInt 4 column.columnOffset = address ∧
      deserializeFrom memory address column.columnType = value

theorem Column.Holds.readColumn {memory : Memory} {column : Column} {value : Value} {address : ℕ}
    (h : Column.Holds memory column value address) : Tuple.readColumn memory column = value := by
  unfold Column.Holds at h
  unfold Tuple.readColumn
  split_ifs at h ⊢ with hinline
  · exact h
  · rw [h.1, Int.toNat_natCast]
    exact h.2

theorem encodedLength_of_varchar (h : value.getTypeId = .varchar) :
    value.encodedLength = value.stringSize := by
  cases value with
  | number type payload lower upper => cases h
  | varchar data => cases data <;> rfl

theorem encodedLength_of_number (h : value.getTypeId ≠ .varchar) :
    value.encodedLength = Column.typeSize value.getTypeId := by
  cases value with
  | number type payload lower upper => rfl
  | varchar data => exact absurd rfl h

theorem Column.Holds.congr {memory memory' : Memory} {address : ℕ}
    (h : Column.Holds memory column value address) (htype : value.getTypeId = column.columnType)
    (hfield : ∀ index < column.getFixedLength,
      memory' (column.columnOffset + index) = memory (column.columnOffset + index))
    (hstring : ∀ index < value.stringSize, memory' (address + index) = memory (address + index)) :
    Column.Holds memory' column value address := by
  unfold Column.Holds at h ⊢
  rw [← htype] at h ⊢
  split_ifs at h ⊢ with hinline
  · have hnumber : value.getTypeId ≠ .varchar := htype ▸ isInlined_iff.mp hinline
    apply deserializeFrom_congr h
    rw [encodedLength_of_number hnumber, htype]
    exact hfield
  · have hvarchar : value.getTypeId = .varchar := by
      rw [isInlined_iff, ← htype] at hinline
      exact not_not.mp hinline
    refine ⟨?_, deserializeFrom_congr h.2 ?_⟩
    · rw [Memory.loadInt_congr fun index hindex => hfield index ?_]
      · exact h.1
      · rw [Column.getFixedLength, ← htype, hvarchar]
        exact Nat.lt_of_lt_of_le hindex (by decide)
    · rwa [encodedLength_of_varchar hvarchar]

theorem write_column (memory : Memory) {offset : ℕ}
    (htype : value.getTypeId = column.columnType)
    (hfield : column.columnOffset + column.getFixedLength ≤ offset)
    (hoffset : offset + value.stringSize < 2 ^ 31) :
    ∃ memory', (∀ columns values,
        Tuple.writeColumns (column :: columns) (value :: values) memory offset =
          Tuple.writeColumns columns values memory' (offset + value.stringSize)) ∧
      Column.Holds memory' column value offset ∧
      ∀ cell, (cell < column.columnOffset ∨
          column.columnOffset + column.getFixedLength ≤ cell ∧ cell < offset ∨
          offset + value.stringSize ≤ cell) → memory' cell = memory cell := by
  by_cases hinline : column.isInlined = true
  · have hnumber : value.getTypeId ≠ .varchar := htype ▸ isInlined_iff.mp hinline
    have hlength : value.encodedLength = column.getFixedLength := by
      rw [encodedLength_of_number hnumber, htype, Column.getFixedLength]
    have hempty := stringSize_of_number hnumber
    refine ⟨value.serializeTo memory column.columnOffset, fun columns values => ?_, ?_, ?_⟩
    · simp [Tuple.writeColumns, hinline, hempty]
    · rw [Column.Holds, if_pos hinline, ← htype]
      exact deserializeFrom_serializeTo value memory column.columnOffset
    · intro cell hcell
      apply serializeTo_outside
      omega
  · have hvarchar : value.getTypeId = .varchar := by
      rw [isInlined_iff, ← htype] at hinline
      exact not_not.mp hinline
    have hlength := encodedLength_of_varchar hvarchar
    have hfixed : column.getFixedLength = 12 := by
      rw [Column.getFixedLength, ← htype, hvarchar]
      rfl
    obtain ⟨length, hstring, hstringSize⟩ := stringLength_of_varchar hvarchar
    refine ⟨value.serializeTo (memory.store 4 column.columnOffset offset) offset,
      fun columns values => ?_, ?_, ?_⟩
    · have hinline' : (!column.isInlined) = true := by simpa using hinline
      simp only [Tuple.writeColumns, hinline', if_true, hstring, Option.bind_eq_bind,
        Option.bind_some]
      rw [addU32_of_lt (by omega), hstringSize]
    · rw [Column.Holds, if_neg hinline, ← htype]
      refine ⟨?_, deserializeFrom_serializeTo value _ offset⟩
      have hload : (value.serializeTo (memory.store 4 column.columnOffset offset)
          offset).load 4 column.columnOffset = offset := by
        rw [Memory.load_congr fun index hindex => serializeTo_outside (by omega),
          Memory.load_store_same, Nat.mod_eq_of_lt (by omega)]
      rw [Memory.loadInt, hload]
      exact Int.bmod_eq_of_le_mul_two (by push_cast; omega) (by push_cast; omega)
    · intro cell hcell
      rw [serializeTo_outside (by rw [hlength]; omega),
        Memory.store_apply_outside (by omega)]

/-- **The second pass** writes the rest of the columns: their fields from `start` to `stop`, and
their strings from `offset` on.  The induction is on the columns. -/
theorem writeColumns_spec {columns : List Column} {values : List Value} {memory : Memory}
    {start stop offset : ℕ} (hlaid : Laid start columns stop)
    (htypes : values.map getTypeId = columns.map Column.columnType)
    (hstop : stop ≤ offset) (hsize : offset + stringsSize values < 2 ^ 31) :
    ∃ memory', Tuple.writeColumns columns values memory offset = some memory' ∧
      (∀ cell, (cell < start ∨ stop ≤ cell ∧ cell < offset ∨ offset + stringsSize values ≤ cell) →
        memory' cell = memory cell) ∧
      ∀ (index : ℕ) column value, columns[index]? = some column → values[index]? = some value →
        column.columnOffset + column.getFixedLength ≤ stop ∧ ∃ address,
          Column.Holds memory' column value address ∧ offset ≤ address ∧
            address + value.stringSize ≤ offset + stringsSize values := by
  induction columns generalizing values memory start offset with
  | nil =>
    exact ⟨memory, rfl, fun cell _ => rfl, fun index column value hcolumn => (nomatch hcolumn)⟩
  | cons column columns ih =>
    cases values with
    | nil => cases htypes
    | cons value values =>
      rw [List.map_cons, List.map_cons, List.cons.injEq] at htypes
      obtain ⟨htype, htypes⟩ := htypes
      obtain ⟨rfl, hlaid⟩ := hlaid
      have hle := hlaid.le
      rw [stringsSize_cons] at hsize ⊢
      obtain ⟨memory₁, hwrite, hstored, houtside₁⟩ :=
        write_column memory htype (hle.trans hstop) (by omega)
      obtain ⟨memory', hrest, houtside, hcolumns⟩ :=
        ih hlaid htypes (hstop.trans (Nat.le_add_right offset value.stringSize)) (by omega)
      refine ⟨memory', (hwrite columns values).trans hrest, fun cell hcell => ?_, ?_⟩
      · rw [houtside cell (by omega), houtside₁ cell (by omega)]
      · intro index column' value' hcolumn hvalue
        cases index with
        | zero =>
          cases hcolumn
          cases hvalue
          refine ⟨hle, offset, hstored.congr htype (fun index hindex => ?_)
            (fun index hindex => ?_), le_rfl, by omega⟩
          · exact houtside _ (by omega)
          · exact houtside _ (by omega)
        | succ index =>
          obtain ⟨hfield, address, hstored', hlower, hupper⟩ :=
            hcolumns index column' value' hcolumn hvalue
          exact ⟨hfield, address, hstored', by omega, by omega⟩

/-! ## The round trip -/

theorem create_spec {values : List Value}
    (htypes : values.map getTypeId = columns.map Column.columnType)
    (hsize : encodedSize values < 2 ^ 31) :
    Laid 0 (Schema.create columns).columns (Schema.create columns).length ∧
      (Schema.create columns).length + stringsSize values = encodedSize values ∧
      values.map getTypeId = (Schema.create columns).columns.map Column.columnType := by
  rw [encodedSize, htypes] at hsize
  obtain ⟨hlaid, hlength, hcolumns⟩ := @layOut_spec 0 columns (by omega)
  rw [Nat.zero_add] at hlaid hlength
  refine ⟨?_, ?_, htypes.trans hcolumns.symm⟩
  · rw [Schema.create, hlength]
    exact hlaid
  · rw [Schema.create, hlength, encodedSize, htypes]

/-- **The constructor**: the tuple has the size of the values, and the values can be read
wherever its bytes are. -/
theorem ofValues_spec {values : List Value}
    (htypes : values.map getTypeId = columns.map Column.columnType)
    (hsize : encodedSize values < 2 ^ 31) :
    ∃ tuple, Tuple.ofValues values (Schema.create columns) = some tuple ∧
      tuple.size = encodedSize values ∧
      ∀ memory : Memory, (∀ cell < tuple.size, memory cell = Tuple.memoryOf tuple.data cell) →
        ∀ index, Tuple.valueAt memory (Schema.create columns) index = values[index]? := by
  obtain ⟨hlaid, hlength, hcolumns⟩ := create_spec htypes hsize
  have hcount : values.length = (Schema.create columns).columns.length := by
    simpa using congrArg List.length hcolumns
  have hpass : Tuple.sizeOf values (Schema.create columns) = some (encodedSize values) := by
    rw [← hlength]
    exact @foldlM_uninlined columns [] values _ htypes (by omega)
  obtain ⟨written, hwrite, -, hstored⟩ :=
    @writeColumns_spec _ _ (fun _ => 0) _ _ _ hlaid hcolumns le_rfl (by omega)
  have hmod : encodedSize values % 2 ^ 32 = encodedSize values := Nat.mod_eq_of_lt (by omega)
  refine ⟨⟨written.read 0 (encodedSize values % 2 ^ 32), by
    rw [Memory.length_read]; exact Nat.mod_lt _ (by decide)⟩, ?_, ?_, ?_⟩
  · simp only [Tuple.ofValues, hcount, if_true, hpass, hwrite, Option.bind_eq_bind,
      Option.bind_some]
    rfl
  · rw [Tuple.size, Memory.length_read, hmod]
  · intro memory hmemory index
    simp only [Tuple.size, Memory.length_read, hmod] at hmemory
    have hcells : ∀ cell < encodedSize values, memory cell = written cell := by
      intro cell hcell
      rw [hmemory cell hcell, Tuple.memoryOf, Memory.getD_read written 0 hcell, Nat.zero_add]
    by_cases hindex : index < values.length
    · have hvalue := List.getElem?_eq_getElem hindex
      have hcolumn := List.getElem?_eq_getElem (hcount ▸ hindex)
      obtain ⟨hfield, address, hstored, hlower, hupper⟩ := hstored index _ _ hcolumn hvalue
      have htype := congrArg (·[index]?) hcolumns
      simp only [List.getElem?_map, hvalue, hcolumn, Option.map_some, Option.some.injEq] at htype
      rw [Tuple.valueAt, hcolumn, hvalue, Option.map_some]
      refine congrArg some (hstored.congr htype ?_ ?_).readColumn
      · intro offset hoffset
        exact hcells _ (by omega)
      · intro offset hoffset
        exact hcells _ (by omega)
    · rw [Tuple.valueAt, List.getElem?_eq_none (by omega), List.getElem?_eq_none (by omega)]
      rfl

theorem deserializeFrom_serializeTo (tuple : Tuple) (storage : Memory) (address : ℕ) :
    Tuple.deserializeFrom (tuple.serializeTo storage address) address = tuple := by
  have hload : (tuple.serializeTo storage address).load 4 address = tuple.data.length := by
    rw [Tuple.serializeTo, Memory.load_write_of_disjoint (Or.inl le_rfl), Memory.load_store_same]
    exact Nat.mod_eq_of_lt tuple.length_lt
  have hdata : (tuple.serializeTo storage address).read (address + 4)
      ((tuple.serializeTo storage address).load 4 address) = tuple.data := by
    rw [hload]
    exact Memory.read_write_same _ _ _
  cases tuple with
  | mk data length_lt =>
    simp only [Tuple.deserializeFrom, Tuple.mk.injEq]
    exact hdata

theorem mapM_columns {values keyValues : List Value} {attrs : List ℕ}
    (htypes : values.map getTypeId = columns.map Column.columnType)
    (h : attrs.mapM (fun attr => values[attr]?) = some keyValues) :
    ∃ keyColumns, attrs.mapM (fun attr => columns[attr]?) = some keyColumns ∧
      keyValues.map getTypeId = keyColumns.map Column.columnType := by
  induction attrs generalizing keyValues with
  | nil =>
    obtain rfl : [] = keyValues := Option.some.inj h
    exact ⟨[], rfl, rfl⟩
  | cons attr attrs ih =>
    simp only [List.mapM_cons, Option.bind_eq_bind, Option.bind_eq_some_iff, Option.pure_def,
      Option.some.injEq] at h
    obtain ⟨value, hvalue, rest, hrest, rfl⟩ := h
    obtain ⟨keyColumns, hcolumns, hkeyTypes⟩ := ih hrest
    have htype := congrArg (·[attr]?) htypes
    simp only [List.getElem?_map, hvalue, Option.map_some] at htype
    obtain ⟨column, hcolumn, hcolumnType⟩ := Option.map_eq_some_iff.mp htype.symm
    refine ⟨column :: keyColumns, ?_, ?_⟩
    · simp [hcolumn, hcolumns]
    · rw [List.map_cons, List.map_cons, hcolumnType, hkeyTypes]

theorem GenericKey.setFromKey_spec {keySize : ℕ} {tuple : Tuple} (h : tuple.size ≤ keySize) :
    ∃ key, GenericKey.setFromKey keySize tuple = some key ∧
      ∀ cell < tuple.size, Tuple.memoryOf key.data cell = Tuple.memoryOf tuple.data cell := by
  refine ⟨_, dif_pos h, fun cell hcell => ?_⟩
  exact List.getD_append _ _ _ _ hcell

/-- **Tuples encode their values.**  Every value can be read back from the tuple; the tuple
from the bytes it is serialised to; and the values of a key, in any choice of the columns,
from every generic key that the tuple of the key fits in. -/
theorem Tuple.round_trip (columns : List Column) (values : List Value)
    (htypes : values.map getTypeId = columns.map Column.columnType)
    (hsize : encodedSize values < 2 ^ 31) :
    ∃ tuple, Tuple.ofValues values (Schema.create columns) = some tuple ∧
      (∀ index, tuple.getValue (Schema.create columns) index = values[index]?) ∧
      (∀ storage address,
        Tuple.deserializeFrom (tuple.serializeTo storage address) address = tuple) ∧
      ∀ keyAttrs keyValues, keyAttrs.mapM (fun attr => values[attr]?) = some keyValues →
        encodedSize keyValues < 2 ^ 31 →
        ∃ keySchema key, (Schema.create columns).copySchema keyAttrs = some keySchema ∧
          tuple.keyFromTuple (Schema.create columns) keySchema keyAttrs = some key ∧
          ∀ keySize, key.size ≤ keySize → ∃ generic : GenericKey keySize,
            GenericKey.setFromKey keySize key = some generic ∧
              ∀ index, generic.toValue keySchema index = keyValues[index]? := by
  obtain ⟨tuple, htuple, -, hread⟩ := ofValues_spec htypes hsize
  have hvalues : ∀ index, tuple.getValue (Schema.create columns) index = values[index]? :=
    hread _ fun cell _ => rfl
  refine ⟨tuple, htuple, hvalues, deserializeFrom_serializeTo tuple, ?_⟩
  intro keyAttrs keyValues hkey hkeySize
  obtain ⟨-, -, hcolumns⟩ := create_spec htypes hsize
  obtain ⟨keyColumns, hkeyColumns, hkeyTypes⟩ := mapM_columns hcolumns hkey
  obtain ⟨key, hofValues, -, hkeyRead⟩ := ofValues_spec hkeyTypes hkeySize
  refine ⟨Schema.create keyColumns, key, ?_, ?_, fun keySize hfits => ?_⟩
  · rw [Schema.copySchema, hkeyColumns, Option.map_some]
  · simp [Tuple.keyFromTuple, hvalues, hkey, hofValues]
  · obtain ⟨generic, hgeneric, hcells⟩ := GenericKey.setFromKey_spec hfits
    exact ⟨generic, hgeneric, hkeyRead _ hcells⟩

/-- A number, a string and a NULL string, with the key of the last column and the first. -/
theorem Tuple.round_trip_mixed :
    let values : List Value := [.number .integer 7 (by decide) (by decide),
      .varchar (some ⟨[104, 105], by decide⟩), .varchar none]
    let columns : List Column := [⟨.number .integer, 0⟩, ⟨.varchar, 0⟩, ⟨.varchar, 0⟩]
    ∃ tuple, Tuple.ofValues values (Schema.create columns) = some tuple ∧
      (∀ index, tuple.getValue (Schema.create columns) index = values[index]?) ∧
      ∃ keySchema key, (Schema.create columns).copySchema [2, 0] = some keySchema ∧
        tuple.keyFromTuple (Schema.create columns) keySchema [2, 0] = some key := by
  intro values columns
  obtain ⟨tuple, htuple, hvalues, -, hkeys⟩ :=
    Tuple.round_trip columns values (by decide) (by decide)
  obtain ⟨keySchema, key, hschema, hkey, -⟩ := hkeys [2, 0] _ rfl (by decide)
  exact ⟨tuple, htuple, hvalues, keySchema, key, hschema, hkey⟩

end BusTub
