import BusTub.Library.ByteMemory
import BusTub.Storage.BPlusTreePage
import BusTub.Common.Config
import Mathlib.Data.List.TakeWhile

/-!
# The bytes of the header page

The model of `storage/page/header_page.cpp` on bytes: a counter, and behind it the records of 36
bytes, each a name of at most 31 bytes with its terminator and a root page id.  The names are
compared by `strcmp`.  Nothing checks that a new record still fits in the page; writing past the
page is a fault here.

The records are those of the header page that the trees see: `Encodes` relates the bytes to a
`HeaderPage`, and as long as the page has room, `InsertRecord` and `UpdateRecord` do the same on
both.
-/

namespace BusTub

open ByteMemory Memory

abbrev HeaderData := Memory

def recordOffset (index : ℕ) : ℕ := 4 + index * 36

def maxRecords : ℕ := 113

namespace HeaderData

/-- `strcmp(...) == 0`, of the string at an address with one that has no zero bytes. -/
def strcmpEq (data : HeaderData) (address : ℕ) : List UInt8 → Bool
  | [] => data address == 0
  | byte :: rest => data address == byte && strcmpEq data (address + 1) rest

/-- `GetRecordCount`. -/
def getRecordCount (data : HeaderData) : ℤ := data.loadInt 4 0

/-- `SetRecordCount`. -/
def setRecordCount (data : HeaderData) (count : ℤ) : HeaderData := data.storeInt 4 0 count

/-- The name of a record, by `strcmp`. -/
def isNamed (data : HeaderData) (index : ℕ) (name : IndexName) : Bool :=
  strcmpEq data (recordOffset index) name.cStr

def rootAt (data : HeaderData) (index : ℕ) : PageId := data.loadInt 4 (recordOffset index + 32)

def recordAt (data : HeaderData) (index : ℕ) : List UInt8 := data.read (recordOffset index) 36

/-- `FindRecord`. -/
def findRecord (data : HeaderData) (name : IndexName) : Option ℕ :=
  (List.range data.getRecordCount.toNat).find? fun index => data.isNamed index name

/-- `InsertRecord`; `none` if an assertion fails or the record does not fit in the page. -/
def insertRecord (data : HeaderData) (name : IndexName) (rootId : PageId) :
    Option (Bool × HeaderData) :=
  if name.length < 32 ∧ invalidPageId < rootId then
    let recordNum := data.getRecordCount
    match data.findRecord name with
    | some _ => some (false, data)
    | none =>
      if 0 ≤ recordNum ∧ recordOffset (recordNum.toNat + 1) ≤ bustubPageSize then
        let offset := recordOffset recordNum.toNat
        let data : HeaderData := data.write offset (name ++ [0])
        let data : HeaderData := data.storeInt 4 (offset + 32) rootId
        some (true, data.setRecordCount (recordNum + 1))
      else none
  else none

/-- `DeleteRecord`; `none` if its assertion fails. -/
def deleteRecord (data : HeaderData) (name : IndexName) : Option (Bool × HeaderData) :=
  let recordNum := data.getRecordCount
  if 0 < recordNum then
    match data.findRecord name with
    | none => some (false, data)
    | some index =>
      let offset := recordOffset index
      let data : HeaderData :=
        data.move offset (offset + 36) ((recordNum.toNat - index - 1) * 36)
      some (true, data.setRecordCount (recordNum - 1))
  else none

/-- `UpdateRecord`; `none` if its assertion fails. -/
def updateRecord (data : HeaderData) (name : IndexName) (rootId : PageId) :
    Option (Bool × HeaderData) :=
  if name.length < 32 then
    match data.findRecord name with
    | none => some (false, data)
    | some index => some (true, data.storeInt 4 (recordOffset index + 32) rootId)
  else none

/-- `GetRootId`; `none` if its assertion fails. -/
def getRootId (data : HeaderData) (name : IndexName) : Option (Option PageId) :=
  if name.length < 32 then
    match data.findRecord name with
    | none => some none
    | some index => some (some (data.loadInt 4 ((index + 1) * 36)))
  else none

end HeaderData

/-- `InsertRecord` does not write past the page, or it does not return. -/
theorem HeaderData.insertRecord_outside {data data' : HeaderData} {name : IndexName}
    {rootId : PageId} {inserted : Bool}
    (h : data.insertRecord name rootId = some (inserted, data')) :
    ∀ cell, bustubPageSize ≤ cell → data' cell = data cell := by
  intro cell hcell
  rw [HeaderData.insertRecord] at h
  split_ifs at h with hasserts
  cases hfind : data.findRecord name with
  | some index =>
    simp only [hfind] at h
    cases h
    rfl
  | none =>
    simp only [hfind] at h
    split_ifs at h with hroom
    cases h
    have hend : recordOffset data.getRecordCount.toNat + 36 ≤ cell := by
      have hfits := hroom.2
      simp only [recordOffset] at hfits ⊢
      omega
    have hlength : (name ++ [0]).length ≤ 32 := by
      rw [List.length_append, List.length_singleton]
      omega
    let named : HeaderData := data.write (recordOffset data.getRecordCount.toNat) (name ++ [0])
    let rooted : HeaderData :=
      named.storeInt 4 (recordOffset data.getRecordCount.toNat + 32) rootId
    calc rooted.setRecordCount (data.getRecordCount + 1) cell = rooted cell :=
          store_apply_outside (by omega)
      _ = named cell := store_apply_outside (by omega)
      _ = data cell := write_apply_outside (by omega)

/-! ## Names -/

/-- `strcmp` on a stored name: it sees the bytes in front of the first zero. -/
theorem HeaderData.strcmpEq_iff {data : HeaderData} {address : ℕ} {name string : List UInt8}
    (hread : data.read address (name.length + 1) = name ++ [0]) (hstring : 0 ∉ string) :
    data.strcmpEq address string = true ↔ IndexName.cStr name = string := by
  induction name generalizing address string with
  | nil =>
    have hzero : data address = 0 := (List.cons.inj hread).1
    cases string with
    | nil => simp [strcmpEq, hzero, IndexName.cStr]
    | cons byte rest =>
      have hbyte : (0 : UInt8) ≠ byte := fun h => hstring (h ▸ List.mem_cons_self)
      simp [strcmpEq, hzero, IndexName.cStr, hbyte]
  | cons first name ih =>
    obtain ⟨hfirst, hread⟩ := List.cons.inj hread
    cases string with
    | nil => simp [strcmpEq, hfirst, IndexName.cStr, List.takeWhile_cons]
    | cons byte rest =>
      obtain ⟨hbyte, hrest⟩ := List.ne_and_not_mem_of_not_mem_cons hstring
      have ih := ih hread hrest
      by_cases hzero : first = 0
      · simp [strcmpEq, hfirst, IndexName.cStr, hzero, hbyte]
      · simp [strcmpEq, hfirst, IndexName.cStr, hzero, ih]

theorem HeaderData.strcmpEq_congr {data data' : HeaderData} {address : ℕ} {string : List UInt8}
    (h : ∀ offset ≤ string.length, data' (address + offset) = data (address + offset)) :
    data'.strcmpEq address string = data.strcmpEq address string := by
  have hfirst : data' address = data address := h 0 (Nat.zero_le _)
  induction string generalizing address with
  | nil => rw [strcmpEq, strcmpEq, hfirst]
  | cons byte rest ih =>
    have hrest : ∀ offset ≤ rest.length,
        data' (address + 1 + offset) = data (address + 1 + offset) := by
      intro offset hoffset
      rw [Nat.add_assoc, Nat.add_comm 1 offset]
      exact h (offset + 1) (Nat.succ_le_succ hoffset)
    rw [strcmpEq, strcmpEq, hfirst, ih hrest (hrest 0 (Nat.zero_le _))]

theorem HeaderData.isNamed_congr {data data' : HeaderData} {index : ℕ} {name : IndexName}
    (hshort : name.length < 32) (h : data'.recordAt index = data.recordAt index) :
    data'.isNamed index name = data.isNamed index name := by
  apply HeaderData.strcmpEq_congr
  intro offset hoffset
  have hlength : name.cStr.length ≤ name.length := (List.takeWhile_sublist _).length_le
  have hin : offset < 36 := by omega
  rw [← getD_read data' (recordOffset index) hin,
    ← getD_read data (recordOffset index) hin]
  exact congrArg (fun bytes => bytes.getD offset 0) h

theorem IndexName.zero_notMem_cStr (name : IndexName) : 0 ∉ name.cStr := by
  intro hmem
  have hnonzero := List.mem_takeWhile_imp hmem
  simp at hnonzero

/-! ## Pages and their bytes -/

structure HeaderData.Stores (data : HeaderData) (index : ℕ) (record : IndexName × PageId) :
    Prop where
  short : record.1.length < 32
  name : data.read (recordOffset index) (record.1.length + 1) = record.1 ++ [0]
  root : data.rootAt index = record.2

/-- The bytes of a header page. -/
structure Encodes (data : HeaderData) (page : HeaderPage) : Prop where
  count : data.getRecordCount = page.records.length
  fits : page.records.length ≤ maxRecords
  stored : ∀ {index : ℕ} {record}, page.records[index]? = some record → data.Stores index record

theorem HeaderData.Stores.copy {data data' : HeaderData} {source target : ℕ}
    {record : IndexName × PageId} (h : data.Stores source record)
    (hcells : ∀ offset < 36,
      data' (recordOffset target + offset) = data (recordOffset source + offset)) :
    data'.Stores target record where
  short := h.short
  name := by
    have hshort := h.short
    rw [← h.name]
    exact read_congr fun offset hoffset => hcells offset (by omega)
  root := by
    rw [← h.root]
    refine loadInt_congr fun offset hoffset => ?_
    rw [Nat.add_assoc, Nat.add_assoc]
    exact hcells (32 + offset) (by omega)

theorem HeaderData.Stores.congr {data data' : HeaderData} {index : ℕ}
    {record : IndexName × PageId} (h : data.Stores index record)
    (hcells : ∀ cell, recordOffset index ≤ cell → cell < recordOffset index + 36 →
      data' cell = data cell) : data'.Stores index record :=
  h.copy fun offset hoffset => hcells _ (by omega) (by omega)

theorem HeaderData.stores_written (data : HeaderData) (index : ℕ) {name : IndexName}
    {rootId : PageId} (hshort : name.length < 32) (hroot : -2 ^ 31 ≤ rootId)
    (hroot' : rootId < 2 ^ 31) :
    HeaderData.Stores (storeInt (data.write (recordOffset index) (name ++ [0])) 4
      (recordOffset index + 32) rootId) index (name, rootId) := by
  have hlower : (-2 ^ 31 : ℤ) ≤ rootId := hroot
  have hupper : (2 ^ 31 : ℤ) > rootId := hroot'
  refine ⟨hshort, ?_, ?_⟩
  · have hname := read_write_same data (recordOffset index) (name ++ [0])
    rw [List.length_append, List.length_singleton] at hname
    exact (read_store_of_disjoint (by dsimp only; omega)).trans hname
  · exact loadInt_storeInt_same _ 4 _ (by push_cast; omega) (by push_cast; omega)

theorem encodes_zero : Encodes (fun _ => 0) ⟨[]⟩ where
  count := by decide
  fits := Nat.zero_le _
  stored h := (nomatch h)

namespace Encodes

variable {data : HeaderData} {page : HeaderPage} {name : IndexName} {rootId : PageId}

variable (h : Encodes data page)
include h

theorem toNat_count :
    data.getRecordCount.toNat = page.records.length := by
  rw [h.count, Int.toNat_natCast]

theorem isNamed_iff {index : ℕ} {record : IndexName × PageId}
    (hrecord : page.records[index]? = some record) :
    data.isNamed index name = true ↔ IndexName.cStr record.1 = name.cStr :=
  HeaderData.strcmpEq_iff (h.stored hrecord).name name.zero_notMem_cStr

theorem findRecord (name : IndexName) :
    data.findRecord name = page.findRecord name := by
  have hiff : ∀ index (hindex : index < page.records.length), data.isNamed index name =
      decide (IndexName.cStr (page.records[index]).1 = name.cStr) := by
    intro index hindex
    rw [Bool.eq_iff_iff, decide_eq_true_iff]
    exact h.isNamed_iff (List.getElem?_eq_getElem hindex)
  apply Option.ext
  intro index
  rw [HeaderData.findRecord, h.toNat_count, List.find?_range_eq_some, HeaderPage.findRecord,
    List.findIdx?_eq_some_iff_getElem]
  constructor
  · intro ⟨hnamed, hindex, hbefore⟩
    have hindex := List.mem_range.mp hindex
    refine ⟨hindex, by rw [← hiff index hindex]; exact hnamed, fun other hother => ?_⟩
    have hnot := hbefore other hother
    rw [hiff other (hother.trans hindex)] at hnot
    simpa using hnot
  · intro ⟨hindex, hnamed, hbefore⟩
    refine ⟨by rw [hiff index hindex]; exact hnamed, List.mem_range.mpr hindex,
      fun other hother => ?_⟩
    rw [hiff other (hother.trans hindex)]
    simpa using hbefore other hother

/-! ## The operations -/

theorem insertRecord_of_present (hshort : name.length < 32)
    (hroot : invalidPageId < rootId) (hpresent : (page.findRecord name).isSome) :
    data.insertRecord name rootId = some (false, data) := by
  obtain ⟨index, hfind⟩ := Option.isSome_iff_exists.mp hpresent
  rw [HeaderData.insertRecord, if_pos ⟨hshort, hroot⟩, h.findRecord, hfind]

theorem insertRecord_of_absent (hshort : name.length < 32)
    (hroot : invalidPageId < rootId) (hroot' : rootId < 2 ^ 31)
    (habsent : page.findRecord name = none) (hroom : page.records.length < maxRecords) :
    ∃ data', data.insertRecord name rootId = some (true, data') ∧
      Encodes data' ⟨page.records ++ [(name, rootId)]⟩ ∧
      ∀ index < page.records.length, data'.recordAt index = data.recordAt index := by
  have hlower : (-1 : ℤ) < rootId := hroot
  have hfits : recordOffset (page.records.length + 1) ≤ bustubPageSize := by
    simp only [recordOffset, bustubPageSize, maxRecords] at hroom ⊢
    omega
  -- the three writes of the source, in their order: the name, the root page id and the count
  let named : HeaderData := data.write (recordOffset page.records.length) (name ++ [0])
  let rooted : HeaderData := named.storeInt 4 (recordOffset page.records.length + 32) rootId
  let data' : HeaderData := rooted.setRecordCount (page.records.length + 1)
  have hcells : ∀ index < page.records.length, ∀ cell, recordOffset index ≤ cell →
      cell < recordOffset index + 36 → data' cell = data cell := by
    intro index hindex cell hlower hupper
    simp only [recordOffset] at hlower hupper
    calc data' cell = rooted cell := store_apply_outside (by omega)
      _ = named cell := store_apply_outside (by simp only [recordOffset]; omega)
      _ = data cell := write_apply_outside (by simp only [recordOffset]; omega)
  have hstored : data'.Stores page.records.length (name, rootId) := by
    refine (data.stores_written page.records.length hshort
      (show (-2 ^ 31 : ℤ) ≤ rootId by omega) hroot').congr ?_
    intro cell hcell _
    simp only [recordOffset] at hcell
    exact store_apply_outside (by omega)
  refine ⟨data', ?_, ⟨?_, ?_, ?_⟩, fun index hindex => ?_⟩
  · simp only [HeaderData.insertRecord, hshort, hroot, and_self, if_true, h.findRecord, habsent,
      h.toNat_count, hfits, and_true]
    rw [if_pos (by rw [h.count]; exact Int.natCast_nonneg _), h.count]
  · rw [List.length_append, List.length_singleton, Nat.cast_add, Nat.cast_one]
    have hfit := h.fits
    simp only [maxRecords] at hfit
    exact loadInt_storeInt_same rooted 4 0 (by push_cast; omega) (by push_cast; omega)
  · rw [List.length_append, List.length_singleton]
    exact hroom
  · intro index record hrecord
    by_cases hindex : index < page.records.length
    · rw [List.getElem?_append_left hindex] at hrecord
      exact (h.stored hrecord).congr (hcells index hindex)
    · rw [List.getElem?_append_right (by omega), List.getElem?_singleton] at hrecord
      split_ifs at hrecord with hlast
      cases hrecord
      obtain rfl : index = page.records.length := by omega
      exact hstored
  · exact read_congr fun offset hoffset => hcells index hindex _ (by omega) (by omega)

theorem insertRecord_of_full (habsent : page.findRecord name = none)
    (hfull : ¬ page.records.length < maxRecords) : data.insertRecord name rootId = none := by
  have hlarge : ¬ recordOffset (page.records.length + 1) ≤ bustubPageSize := by
    simp only [recordOffset, bustubPageSize, maxRecords] at hfull ⊢
    omega
  simp [HeaderData.insertRecord, h.findRecord, habsent, h.toNat_count, hlarge]

/-- `UpdateRecord` does not write past the page. -/
theorem updateRecord_outside {updated : Bool} {data' : HeaderData}
    (hupdate : data.updateRecord name rootId = some (updated, data')) :
    ∀ cell, bustubPageSize ≤ cell → data' cell = data cell := by
  intro cell hcell
  rw [HeaderData.updateRecord] at hupdate
  split_ifs at hupdate
  cases hfind : data.findRecord name with
  | none =>
    rw [hfind] at hupdate
    cases hupdate
    rfl
  | some index =>
    rw [h.findRecord] at hfind
    have hlt := (List.findIdx?_eq_some_iff_getElem.mp hfind).1
    have hfits := h.fits
    simp only [h.findRecord, hfind] at hupdate
    cases hupdate
    simp only [bustubPageSize, maxRecords] at hcell hfits
    exact store_apply_outside (by simp only [recordOffset]; omega)

theorem updateRecord_of_present (hshort : name.length < 32)
    (hroot : -2 ^ 31 ≤ rootId) (hroot' : rootId < 2 ^ 31) {found : ℕ}
    (hfind : page.findRecord name = some found) :
    ∃ data', data.updateRecord name rootId = some (true, data') ∧
      Encodes data' ⟨page.records.modify found fun record => (record.1, rootId)⟩ ∧
      ∀ index, index ≠ found → data'.recordAt index = data.recordAt index := by
  have hlower : (-2 ^ 31 : ℤ) ≤ rootId := hroot
  have hupper : (2 ^ 31 : ℤ) > rootId := hroot'
  -- the only write goes to the last four bytes of the record
  let data' : HeaderData := data.storeInt 4 (recordOffset found + 32) rootId
  have hcells : ∀ index, index ≠ found → ∀ cell, recordOffset index ≤ cell →
      cell < recordOffset index + 36 → data' cell = data cell := by
    intro index hindex cell hlower hupper
    simp only [recordOffset] at hlower hupper
    exact store_apply_outside (by simp only [recordOffset]; omega)
  refine ⟨data', ?_, ⟨?_, ?_, ?_⟩, fun index hindex => ?_⟩
  · rw [HeaderData.updateRecord, if_pos hshort, h.findRecord, hfind]
  · rw [List.length_modify, ← h.count]
    exact loadInt_storeInt_of_disjoint (Or.inl (by simp only [recordOffset]; omega))
  · rw [List.length_modify]
    exact h.fits
  · intro index record hrecord
    rw [List.getElem?_modify] at hrecord
    obtain ⟨old, hold, hnew⟩ := Option.map_eq_some_iff.mp hrecord
    by_cases hindex : found = index
    · rw [if_pos hindex] at hnew
      subst hnew hindex
      have hstored := h.stored hold
      refine ⟨hstored.short, ?_, ?_⟩
      · have hshort' : old.1.length < 32 := hstored.short
        exact (read_store_of_disjoint (show _ + (old.1.length + 1) ≤ _ ∨ _ by omega)).trans
          hstored.name
      · exact loadInt_storeInt_same data 4 _ (by push_cast; omega) (by push_cast; omega)
    · rw [if_neg hindex] at hnew
      subst hnew
      exact (h.stored hold).congr (hcells index (Ne.symm hindex))
  · exact read_congr fun offset hoffset => hcells index hindex _ (by omega) (by omega)

theorem deleteRecord_of_present {found : ℕ}
    (hfind : page.findRecord name = some found) :
    ∃ data', data.deleteRecord name = some (true, data') ∧
      Encodes data' ⟨page.records.eraseIdx found⟩ ∧
      ∀ cell, recordOffset page.records.length ≤ cell → data' cell = data cell := by
  have hfound : found < page.records.length := (List.findIdx?_eq_some_iff_getElem.mp hfind).1
  have hfits := h.fits
  let length := (page.records.length - found - 1) * 36
  let moved : HeaderData := data.move (recordOffset found) (recordOffset found + 36) length
  let data' : HeaderData := moved.setRecordCount (page.records.length - 1)
  have hlength : (page.records.eraseIdx found).length = page.records.length - 1 :=
    List.length_eraseIdx_of_lt hfound
  have hcells : ∀ cell, 4 ≤ cell → data' cell = moved cell := fun cell hcell =>
    store_apply_outside (by omega)
  refine ⟨data', ?_, ⟨?_, ?_, ?_⟩, fun cell hcell => ?_⟩
  · have hpos : 0 < data.getRecordCount := by
      rw [h.count]
      omega
    simp only [HeaderData.deleteRecord, hpos, if_true, h.findRecord, hfind, h.toNat_count]
    rw [h.count]
  · have hcast : ((page.records.length - 1 : ℕ) : ℤ) = page.records.length - 1 := by omega
    rw [hlength, hcast]
    simp only [maxRecords] at hfits
    exact loadInt_storeInt_same moved 4 0 (by push_cast; omega) (by push_cast; omega)
  · rw [hlength]
    omega
  · intro index record hrecord
    rw [List.getElem?_eraseIdx] at hrecord
    split_ifs at hrecord with hindex
    · -- a record in front of the deleted one
      refine (h.stored hrecord).congr fun cell hlower hupper => ?_
      simp only [recordOffset] at hlower hupper
      calc data' cell = moved cell := hcells cell (by omega)
        _ = data cell := move_apply_outside (by simp only [recordOffset]; omega)
    · -- a record behind it
      have hbehind : index + 1 < page.records.length :=
        (List.getElem?_eq_some_iff.mp hrecord).1
      refine (h.stored hrecord).copy fun offset hoffset => ?_
      calc data' (recordOffset index + offset) = moved (recordOffset index + offset) :=
            hcells _ (by simp only [recordOffset]; omega)
        _ = data (recordOffset found + 36 + (recordOffset index + offset - recordOffset found)) :=
            move_apply_inside (by simp only [recordOffset]; omega)
              (by simp only [recordOffset, length]; omega)
        _ = data (recordOffset (index + 1) + offset) :=
            congrArg data (by simp only [recordOffset]; omega)
  · simp only [recordOffset] at hcell
    calc data' cell = moved cell := hcells cell (by omega)
      _ = data cell := move_apply_outside (by simp only [recordOffset, length]; omega)

theorem deleteRecord_of_absent (hnonempty : page.records ≠ [])
    (habsent : page.findRecord name = none) : data.deleteRecord name = some (false, data) := by
  have hpos : 0 < data.getRecordCount := by
    rw [h.count]
    exact_mod_cast List.length_pos_iff.mpr hnonempty
  simp [HeaderData.deleteRecord, hpos, h.findRecord, habsent]

omit h

theorem deleteRecord_of_empty (h : Encodes data ⟨[]⟩) : data.deleteRecord name = none := by
  simp [HeaderData.deleteRecord, h.count]

/-- **The bytes refine the page.**  As long as there is room, inserting a record does the
same to the page and to its bytes. -/
theorem insertRecord (h : Encodes data page) (name : IndexName) (hroot : rootId < 2 ^ 31)
    (hroom : page.records.length < maxRecords) :
    match page.insertRecord name rootId with
    | none => data.insertRecord name rootId = none
    | some (inserted, page') =>
      ∃ data', data.insertRecord name rootId = some (inserted, data') ∧ Encodes data' page' := by
  rw [HeaderPage.insertRecord]
  by_cases hasserts : name.length < 32 ∧ invalidPageId < rootId
  · rw [if_pos hasserts]
    cases hfind : page.findRecord name with
    | none =>
      obtain ⟨data', hinsert, hencodes, -⟩ :=
        h.insertRecord_of_absent hasserts.1 hasserts.2 hroot hfind hroom
      exact ⟨data', hinsert, hencodes⟩
    | some found =>
      exact ⟨data, h.insertRecord_of_present hasserts.1 hasserts.2 (by rw [hfind]; rfl), h⟩
  · rw [if_neg hasserts]
    exact if_neg hasserts

theorem updateRecord (h : Encodes data page) (name : IndexName) (hroot : invalidPageId < rootId)
    (hroot' : rootId < 2 ^ 31) :
    match page.updateRecord name rootId with
    | none => data.updateRecord name rootId = none
    | some (updated, page') =>
      ∃ data', data.updateRecord name rootId = some (updated, data') ∧ Encodes data' page' := by
  rw [HeaderPage.updateRecord]
  by_cases hshort : name.length < 32
  · rw [if_pos hshort]
    cases hfind : page.findRecord name with
    | none =>
      refine ⟨data, ?_, h⟩
      rw [HeaderData.updateRecord, if_pos hshort, h.findRecord, hfind]
    | some found =>
      have hlower : (-1 : ℤ) < rootId := hroot
      obtain ⟨data', hupdate, hencodes, -⟩ :=
        h.updateRecord_of_present hshort (show (-2 ^ 31 : ℤ) ≤ rootId by omega) hroot' hfind
      exact ⟨data', hupdate, hencodes⟩
  · rw [if_neg hshort]
    exact if_neg hshort

end Encodes

end BusTub
