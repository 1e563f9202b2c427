import BusTub.Buffer.BufferPool
import BusTub.Library.ByteMemory
import Mathlib.Data.List.OfFn

/-!
# The disk manager

`WritePage` computes the offset of a page in 64 bits.  `ReadPage` computes it in an `int`, and
compares it with the size of the file in an `int`.  Page 524287 is the first one with which the
file gets too large for that.  Below it, the file is the disk of the buffer pool.
-/

namespace BusTub

open ByteMemory

abbrev PageBytes := { data : List UInt8 // data.length = bustubPageSize }

def filled (byte : UInt8) : PageBytes :=
  ⟨List.replicate bustubPageSize byte, List.length_replicate⟩

/-- What an `int` makes of a size or an offset. -/
def asInt (number : ℕ) : ℤ := (number + 2 ^ 31) % 2 ^ 32 - 2 ^ 31

theorem asInt_of_lt {number : ℕ} (h : number < 2 ^ 31) : asInt number = number := by
  rw [asInt]
  omega

/-- The database file.  Behind its end stand the zeros that fill a gap or a short read. -/
structure DbFile where
  bytes : Memory
  size : ℕ
  zero_behind : ∀ cell, size ≤ cell → bytes cell = 0

namespace DbFile

def empty : DbFile := ⟨fun _ => 0, 0, fun _ _ => rfl⟩

/-- `WritePage`, of a page id below `2 ^ 31`. -/
def writePage (file : DbFile) (pageId : ℕ) (data : PageBytes) : DbFile where
  bytes := file.bytes.write (pageId * bustubPageSize) data.val
  size := max file.size (pageId * bustubPageSize + bustubPageSize)
  zero_behind cell hcell := by
    rw [Memory.write_apply_outside (.inr (by rw [data.prop]; omega))]
    exact file.zero_behind cell (by omega)

/-- `GetFileSize`. -/
def getFileSize (file : DbFile) : ℤ := asInt file.size

/-- `ReadPage`, into a buffer.  A seek to a negative offset fails, and nothing is read. -/
def readPage (file : DbFile) (pageId : ℕ) (buffer : PageBytes) : PageBytes :=
  let offset := asInt (pageId * bustubPageSize)
  if file.getFileSize < offset then buffer
  else if offset < 0 then filled 0
  else ⟨file.bytes.read offset.toNat bustubPageSize, Memory.length_read _ _ _⟩

end DbFile

/-- The calls, a read with its buffer. -/
inductive DiskCall
  | write (pageId : ℕ) (data : PageBytes)
  | read (pageId : ℕ) (buffer : PageBytes)

def DiskCall.pageId : DiskCall → ℕ
  | .write pageId _ => pageId
  | .read pageId _ => pageId

def DbFile.apply (file : DbFile) : DiskCall → DbFile
  | .write pageId data => file.writePage pageId data
  | .read _ _ => file

def recordWrite (last : ℕ → Option PageBytes) : DiskCall → ℕ → Option PageBytes
  | .write pageId data => Function.update last pageId (some data)
  | .read _ _ => last

/-- Behind all calls on pages of a set, a page that was written is read as it was written
last, and a write to another page changes nothing about a page that the file reaches. -/
def Delivers (pages : Set ℕ) : Prop :=
  ∀ calls : List DiskCall, (∀ call ∈ calls, call.pageId ∈ pages) →
    let file := calls.foldl DbFile.apply .empty
    ∀ pageId ∈ pages, ∀ buffer,
      (∀ data, calls.foldl recordWrite (fun _ => none) pageId = some data →
        file.readPage pageId buffer = data) ∧
      (pageId * bustubPageSize ≤ file.size → ∀ other ∈ pages, other ≠ pageId → ∀ data,
        (file.writePage other data).readPage pageId buffer = file.readPage pageId buffer)

/-- The file is small enough for an `int`, and holds what was written last. -/
structure Stores (file : DbFile) (last : ℕ → Option PageBytes) : Prop where
  small : file.size < 2 ^ 31
  data : ∀ pageId data, last pageId = some data →
    pageId * bustubPageSize ≤ file.size ∧
      file.bytes.read (pageId * bustubPageSize) bustubPageSize = data.val

variable {file : DbFile} {last : ℕ → Option PageBytes} {pageId : ℕ}

theorem size_writePage_lt (hsmall : file.size < 2 ^ 31) (hpage : pageId + 1 < 2 ^ 19)
    (data : PageBytes) : (file.writePage pageId data).size < 2 ^ 31 := by
  simp only [DbFile.writePage, bustubPageSize]
  omega

theorem read_writePage_of_ne {other : ℕ} (hne : other ≠ pageId) (data : PageBytes) :
    (file.writePage other data).bytes.read (pageId * bustubPageSize) bustubPageSize =
      file.bytes.read (pageId * bustubPageSize) bustubPageSize := by
  apply Memory.read_write_of_disjoint
  rw [data.prop]
  simp only [bustubPageSize]
  omega

theorem read_writePage_self (file : DbFile) (pageId : ℕ) (data : PageBytes) :
    (file.writePage pageId data).bytes.read (pageId * bustubPageSize) bustubPageSize =
      data.val := by
  have hread := Memory.read_write_same file.bytes (pageId * bustubPageSize) data.val
  rwa [data.prop] at hread

theorem Stores.apply (h : Stores file last) {call : DiskCall} (hcall : call.pageId + 1 < 2 ^ 19) :
    Stores (file.apply call) (recordWrite last call) := by
  cases call with
  | read pageId buffer => exact h
  | write pageId written =>
    refine ⟨size_writePage_lt h.small hcall written, fun other data hlast => ?_⟩
    by_cases hsame : other = pageId
    · subst hsame
      rw [recordWrite, Function.update_self] at hlast
      cases hlast
      exact ⟨le_max_of_le_right (Nat.le_add_right _ _), read_writePage_self file other written⟩
    · rw [recordWrite, Function.update_of_ne hsame] at hlast
      obtain ⟨hle, hdata⟩ := h.data other data hlast
      exact ⟨le_max_of_le_left hle, (read_writePage_of_ne (Ne.symm hsame) written).trans hdata⟩

theorem Stores.foldl (h : Stores file last) {calls : List DiskCall}
    (hcalls : ∀ call ∈ calls, call.pageId + 1 < 2 ^ 19) :
    Stores (calls.foldl DbFile.apply file) (calls.foldl recordWrite last) := by
  induction calls generalizing file last with
  | nil => exact h
  | cons call rest ih =>
    obtain ⟨hcall, hrest⟩ := List.forall_mem_cons.mp hcalls
    exact ih (h.apply hcall) hrest

theorem readPage_of_small (hsmall : file.size < 2 ^ 31)
    (hle : pageId * bustubPageSize ≤ file.size) (buffer : PageBytes) :
    (file.readPage pageId buffer).val =
      file.bytes.read (pageId * bustubPageSize) bustubPageSize := by
  have hoffset := asInt_of_lt (lt_of_le_of_lt hle hsmall)
  have hsize : file.getFileSize = file.size := asInt_of_lt hsmall
  simp only [DbFile.readPage, hoffset, hsize]
  rw [if_neg (not_lt.mpr (Int.ofNat_le.mpr hle)), if_neg (not_lt.mpr (Int.natCast_nonneg _))]
  rfl

theorem read_empty (address length : ℕ) :
    DbFile.empty.bytes.read address length = List.replicate length 0 := by
  induction length generalizing address with
  | zero => rfl
  | succ length ih => exact congrArg (List.cons 0) (ih (address + 1))

/-- A page that makes the file too large is not read: the offset is behind the size, below
zero, or that of a page before it. -/
theorem readPage_of_large (hlarge : 2 ^ 19 ≤ pageId + 1) (data : PageBytes) :
    (DbFile.empty.writePage pageId data).readPage pageId (filled 0) = filled 0 := by
  rw [DbFile.readPage]
  split_ifs with hrefused hnegative
  · rfl
  · rfl
  · apply Subtype.ext
    have hbefore : (asInt (pageId * bustubPageSize)).toNat + bustubPageSize ≤
        pageId * bustubPageSize := by
      simp only [DbFile.getFileSize, DbFile.writePage, DbFile.empty, bustubPageSize, asInt] at *
      omega
    exact (Memory.read_write_of_disjoint (.inl hbefore)).trans (read_empty _ _)

/-- **Pages on disk.**  Reads deliver what was written, whatever the order of the calls, if and
only if no page id reaches 524287. -/
theorem delivers_iff (pages : Set ℕ) : Delivers pages ↔ ∀ pageId ∈ pages, pageId + 1 < 2 ^ 19 := by
  constructor
  · intro h pageId hpage
    by_contra hlarge
    have hread := (h [.write pageId (filled 1)] (List.forall_mem_singleton.mpr hpage) pageId hpage
      (filled 0)).1 (filled 1) (by simp [recordWrite])
    have hzeros := readPage_of_large (not_lt.mp hlarge) (filled 1)
    have hfilled := congrArg (·.val[0]?) (hzeros.symm.trans hread)
    rw [filled, filled, List.getElem?_replicate_of_lt (by decide),
      List.getElem?_replicate_of_lt (by decide)] at hfilled
    cases hfilled
  · intro h calls hcalls file pageId hpage buffer
    have hstores : Stores file (calls.foldl recordWrite fun _ => none) :=
      Stores.foldl ⟨by decide, fun _ _ hnone => by cases hnone⟩
        fun call hcall => h _ (hcalls call hcall)
    refine ⟨fun data hlast => Subtype.ext ?_, fun hle other hother hne data => Subtype.ext ?_⟩
    · obtain ⟨hle, hdata⟩ := hstores.data pageId data hlast
      rw [readPage_of_small hstores.small hle, hdata]
    · have hsmall := size_writePage_lt hstores.small (h other hother) data
      rw [readPage_of_small hsmall (le_max_of_le_left hle), readPage_of_small hstores.small hle,
        read_writePage_of_ne hne]

/-- Page 524287, written with ones, is not read back: the buffer keeps its zeros. -/
theorem readPage_524287 :
    (DbFile.empty.writePage 524287 (filled 1)).readPage 524287 (filled 0) = filled 0 :=
  readPage_of_large (by decide) (filled 1)

/-! ## The disk of the buffer pool -/

def bytesOf (data : PageData) : PageBytes := ⟨List.ofFn data, List.length_ofFn⟩

theorem bytesOf_val (data : PageData) : (bytesOf data).val = List.ofFn data := by rw [bytesOf]

theorem ofFn_zeroData : List.ofFn zeroData = List.replicate bustubPageSize 0 :=
  List.ofFn_const bustubPageSize 0

def writeFile (file : DbFile) (write : ℕ × PageData) : DbFile :=
  file.writePage write.1 (bytesOf write.2)

def writeDisk (disk : Disk) (write : ℕ × PageData) : Disk := disk.writePage write.1 write.2

/-- The pages of the file are those of the disk.  A page that was never written is zero, also if
it is behind the end of the file. -/
structure HoldsDisk (file : DbFile) (disk : Disk) : Prop where
  small : file.size < 2 ^ 31
  read_eq : ∀ pageId : ℕ, file.bytes.read (pageId * bustubPageSize) bustubPageSize =
    List.ofFn (disk pageId)

namespace HoldsDisk

variable {disk : Disk}

theorem empty : HoldsDisk .empty fun _ => zeroData :=
  ⟨by decide, fun _ => (read_empty _ _).trans ofFn_zeroData.symm⟩

theorem writePage (h : HoldsDisk file disk) (hpage : pageId + 1 < 2 ^ 19) (data : PageData) :
    HoldsDisk (file.writePage pageId (bytesOf data)) (disk.writePage pageId data) := by
  refine ⟨size_writePage_lt h.small hpage _, fun other => ?_⟩
  by_cases hsame : other = pageId
  · rw [hsame, read_writePage_self, bytesOf_val, Disk.writePage, Function.update_self]
  · rw [read_writePage_of_ne (Ne.symm hsame), h.read_eq, Disk.writePage,
      Function.update_of_ne (Int.ofNat_inj.not.mpr hsame)]

theorem readPage (h : HoldsDisk file disk) (hpage : pageId + 1 < 2 ^ 19) :
    file.readPage pageId (filled 0) = bytesOf (disk.readPage pageId) := by
  apply Subtype.ext
  rw [Disk.readPage, bytesOf_val, ← h.read_eq]
  by_cases hle : pageId * bustubPageSize ≤ file.size
  · exact readPage_of_small h.small hle _
  · -- the read is refused, and the buffer keeps the zeros that are behind the end
    have hrefused : file.getFileSize < asInt (pageId * bustubPageSize) := by
      simp only [DbFile.getFileSize, asInt, bustubPageSize] at *
      have hsmall := h.small
      omega
    rw [DbFile.readPage, if_pos hrefused]
    exact ((Memory.read_congr fun index _ => file.zero_behind _ (by omega)).trans
      (read_empty (pageId * bustubPageSize) _)).symm

theorem foldl (h : HoldsDisk file disk) {writes : List (ℕ × PageData)}
    (hwrites : ∀ write ∈ writes, write.1 + 1 < 2 ^ 19) :
    HoldsDisk (writes.foldl writeFile file) (writes.foldl writeDisk disk) := by
  induction writes generalizing file disk with
  | nil => exact h
  | cons write rest ih =>
    obtain ⟨hwrite, hrest⟩ := List.forall_mem_cons.mp hwrites
    exact ih (h.writePage hwrite write.2) hrest

end HoldsDisk

/-- **The disk of the buffer pool** is the file: into a buffer of zeros, `ReadPage` reads what the
pool takes for the content of the page, whatever was written to pages below 524287. -/
theorem readPage_eq_disk (writes : List (ℕ × PageData))
    (hwrites : ∀ write ∈ writes, write.1 + 1 < 2 ^ 19) (pageId : ℕ) (hpage : pageId + 1 < 2 ^ 19) :
    (writes.foldl writeFile .empty).readPage pageId (filled 0) =
      bytesOf ((writes.foldl writeDisk fun _ => zeroData).readPage pageId) :=
  (HoldsDisk.empty.foldl hwrites).readPage hpage

theorem readPage_eq_disk_one :
    (DbFile.empty.writePage 1 (bytesOf fun _ => 1)).readPage 1 (filled 0) =
      bytesOf (Disk.readPage (Disk.writePage (fun _ => zeroData) 1 fun _ => 1) 1) :=
  readPage_eq_disk [(1, fun _ => 1)] (by decide) 1 (by decide)

end BusTub
