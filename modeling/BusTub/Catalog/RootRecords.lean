import BusTub.Catalog.Catalog
import BusTub.Library.Machine
import BusTub.Storage.TreeMap
import Mathlib.Data.List.Nodup

/-!
# The root records of the indexes

The indexes of the catalog share the header page: each of them keeps its root page id in the
record of its name.  The catalog refuses a name only if the same table has an index of that name,
while the records are found by the name alone, so two indexes can meet in one record.

The invariant `Recorded` says that the records of the page are those of the indexes that are not
empty, whose names differ as `strcmp` sees them.  A new root of an index that has a record keeps
it; the first root of an index keeps it exactly when the name is short, new and finds room.
-/

namespace BusTub

open Machines ByteMemory IndexInfo

/-! ## Whose record it is -/

def live (indexes : List IndexInfo) : List IndexInfo := indexes.filter fun info => !info.isEmpty

def IndexInfo.record (info : IndexInfo) : IndexName × PageId := (info.name, info.rootPageId)

/-- Every index with a root has one record, which gives its root and is the record of no
other index. -/
def RecordsOwned (header : HeaderData) (indexes : List IndexInfo) : Prop :=
  ∀ (position : ℕ) info, indexes[position]? = some info → info.isEmpty = false →
    ∃ slot : ℕ, (slot : ℤ) < header.getRecordCount ∧ header.isNamed slot info.name = true ∧
      header.rootAt slot = info.rootPageId ∧
      (∀ slot' : ℕ, (slot' : ℤ) < header.getRecordCount →
        header.isNamed slot' info.name = true → slot' = slot) ∧
      ∀ (position' : ℕ) info', indexes[position']? = some info' → info'.isEmpty = false →
        position' ≠ position → header.isNamed slot info'.name = false

/-- The names of the indexes with a root differ, as `strcmp` sees them. -/
def NamesDiffer (indexes : List IndexInfo) : Prop :=
  indexes.Pairwise fun first second =>
    first.isEmpty = false → second.isEmpty = false → first.name.cStr ≠ second.name.cStr

/-- The invariant: the page holds the records of the indexes with a root. -/
structure Recorded (header : HeaderData) (indexes : List IndexInfo) : Prop where
  page : ∃ page, Encodes header page ∧ page.records.Perm ((live indexes).map record)
  names : NamesDiffer indexes

/-- The first root of an index gets a record of its own. -/
def MayInsert (indexes : List IndexInfo) (name : IndexName) : Prop :=
  name.length < 32 ∧ (∀ other ∈ live indexes, other.name.cStr ≠ name.cStr) ∧
    (live indexes).length < maxRecords

section Records

variable {header : HeaderData} {page : HeaderPage} {indexes front back : List IndexInfo}
  {info other : IndexInfo} {rootId : PageId}

theorem mem_live : info ∈ live indexes ↔ info ∈ indexes ∧ info.isEmpty = false := by
  rw [live, List.mem_filter, Bool.not_eq_true']

theorem live_append_of_empty (h : info.isEmpty = true) :
    live (front ++ info :: back) = live front ++ live back := by
  rw [live, List.filter_append, List.filter_cons_of_neg (by simp [h])]
  rfl

theorem live_append_of_root (h : info.isEmpty = false) :
    live (front ++ info :: back) = live front ++ info :: live back := by
  rw [live, List.filter_append, List.filter_cons_of_pos (by simp [h])]
  rfl

theorem namesDiffer_middle :
    NamesDiffer (front ++ info :: back) ↔ NamesDiffer (front ++ back) ∧
      ∀ other ∈ live (front ++ back), info.isEmpty = false → other.name.cStr ≠ info.name.cStr := by
  rw [NamesDiffer, List.pairwise_middle, List.pairwise_cons, and_comm]
  · refine and_congr_right fun _ =>
      ⟨fun h other hother hroot => ?_, fun h other hmem hroot hother => ?_⟩
    · obtain ⟨hmem, hother⟩ := mem_live.mp hother
      exact (h other hmem hroot hother).symm
    · exact (h other (mem_live.mpr ⟨hmem, hother⟩) hroot).symm
  · intro first second h hsecond hfirst
    exact (h hfirst hsecond).symm

theorem NamesDiffer.position_eq (h : NamesDiffer indexes) {first second : ℕ}
    (hinfo : indexes[first]? = some info) (hother : indexes[second]? = some other)
    (hroot : info.isEmpty = false) (hroot' : other.isEmpty = false)
    (hname : info.name.cStr = other.name.cStr) : first = second := by
  obtain ⟨hfirst, rfl⟩ := List.getElem?_eq_some_iff.mp hinfo
  obtain ⟨hsecond, rfl⟩ := List.getElem?_eq_some_iff.mp hother
  have hpairs := List.pairwise_iff_getElem.mp h
  rcases Nat.lt_trichotomy first second with hlt | heq | hgt
  · exact absurd hname (hpairs first second hfirst hsecond hlt hroot hroot')
  · exact heq
  · exact absurd hname.symm (hpairs second first hsecond hfirst hgt hroot' hroot)

theorem findRecord_eq_none_iff (hperm : page.records.Perm ((live indexes).map record))
    (name : IndexName) :
    page.findRecord name = none ↔ ∀ other ∈ live indexes, other.name.cStr ≠ name.cStr := by
  rw [HeaderPage.findRecord, List.findIdx?_eq_none_iff]
  constructor
  · intro h other hother
    exact of_decide_eq_false (h other.record (hperm.mem_iff.mpr (List.mem_map_of_mem hother)))
  · intro h record hrecord
    obtain ⟨other, hother, rfl⟩ := List.mem_map.mp (hperm.mem_iff.mp hrecord)
    exact decide_eq_false (h other hother)

theorem Recorded.names_nodup (hperm : page.records.Perm ((live indexes).map record))
    (hnames : NamesDiffer indexes) :
    (page.records.map fun record => IndexName.cStr record.1).Nodup := by
  rw [(hperm.map _).nodup_iff, List.map_map, List.Nodup, List.pairwise_map, live,
    List.pairwise_filter]
  refine hnames.imp fun hdiffer hfirst hsecond => hdiffer ?_ ?_
  · simpa using hfirst
  · simpa using hsecond

theorem Recorded.owned (h : Recorded header indexes) : RecordsOwned header indexes := by
  obtain ⟨page, hencodes, hperm⟩ := h.page
  have hnodup := Recorded.names_nodup hperm h.names
  intro position info hinfo hroot
  have hmem : info.record ∈ page.records := by
    apply hperm.mem_iff.mpr
    exact List.mem_map_of_mem (mem_live.mpr ⟨List.mem_of_getElem? hinfo, hroot⟩)
  obtain ⟨slot, hslot⟩ := List.mem_iff_getElem?.mp hmem
  have hlt := (List.getElem?_eq_some_iff.mp hslot).1
  refine ⟨slot, ?_, (hencodes.isNamed_iff hslot).mpr rfl, (hencodes.stored hslot).root, ?_, ?_⟩
  · rw [hencodes.count]
    exact Nat.cast_lt.mpr hlt
  · intro slot' hslot' hnamed
    rw [hencodes.count, Nat.cast_lt] at hslot'
    have hrecord := List.getElem?_eq_getElem hslot'
    have hname := (hencodes.isNamed_iff hrecord).mp hnamed
    apply (List.getElem?_inj (by rwa [List.length_map]) hnodup).mp
    rw [List.getElem?_map, List.getElem?_map, hrecord, hslot]
    exact congrArg some hname
  · intro position' info' hinfo' hroot' hne
    rw [Bool.eq_false_iff]
    intro hnamed
    have hname := (hencodes.isNamed_iff hslot).mp hnamed
    exact hne (h.names.position_eq hinfo' hinfo hroot' hroot hname.symm)

/-! ## New roots -/

/-- `UpdateRootPageId` does the same to the bytes of the header page as to the page that the
tree sees. -/
theorem updateRootPageId_refines {Key Stored : Type} {tree : BPlusTree Key Stored}
    (hpage : (tree.store.pages headerPageId).page = .header page) (hencodes : Encodes header page)
    (hname : tree.indexName = info.name) (hroot : invalidPageId < tree.rootPageId)
    (hroot' : tree.rootPageId < 2 ^ 31) (hroom : page.records.length < maxRecords) :
    match tree.updateRootPageId info.isEmpty with
    | .error _ => info.updateRootPageId header tree.rootPageId = none
    | .ok next => ∃ header' page',
        info.updateRootPageId header tree.rootPageId =
          some (header', { info with rootPageId := tree.rootPageId }) ∧
        (next.store.pages headerPageId).page = .header page' ∧ Encodes header' page' := by
  have hheader : (tree.store.fetchPage headerPageId).headerAt headerPageId = .ok page := by
    rw [PageStore.headerAt, PageStore.fetchPage_page, hpage]
  simp only [BPlusTree.updateRootPageId, hheader, bind, Except.bind, hname,
    updateRootPageId]
  cases info.isEmpty with
  | true =>
    have hinsert := hencodes.insertRecord info.name hroot' hroom
    cases hresult : page.insertRecord info.name tree.rootPageId with
    | none =>
      rw [hresult] at hinsert
      simp [hinsert]
    | some result =>
      rw [hresult] at hinsert
      obtain ⟨header', hinsert, hencodes'⟩ := hinsert
      exact ⟨header', result.2, by rw [hinsert]; rfl, by simp, hencodes'⟩
  | false =>
    have hupdate := hencodes.updateRecord info.name hroot hroot'
    cases hresult : page.updateRecord info.name tree.rootPageId with
    | none =>
      rw [hresult] at hupdate
      simp [hupdate]
    | some result =>
      rw [hresult] at hupdate
      obtain ⟨header', hupdate, hencodes'⟩ := hupdate
      exact ⟨header', result.2, by rw [hupdate]; rfl, by simp, hencodes'⟩

theorem updateRootPageId_refines_first :
    ∃ header', (IndexInfo.create [] 0 []).updateRootPageId (fun _ => 0) 1 =
      some (header', ⟨[], 0, [], 1⟩) ∧ Encodes header' ⟨[([], 1)]⟩ := by
  have hname : ({ BPlusTree.create [] (fun _ _ => 0) 2 3 with rootPageId := 1 } :
      BPlusTree ℤ ℕ).indexName = (IndexInfo.create [] 0 []).name := rfl
  obtain ⟨header', page', hupdate, hnext, hencodes⟩ := updateRootPageId_refines (by rfl)
    encodes_zero hname (by decide) (by decide) (by decide)
  cases hnext
  exact ⟨header', hupdate, hencodes⟩

theorem Recorded.first_root (h : Recorded header (front ++ info :: back))
    (hempty : info.isEmpty = true) (hmay : MayInsert (front ++ info :: back) info.name)
    (hroot : invalidPageId < rootId) (hroot' : rootId < 2 ^ 31) :
    ∃ header', info.updateRootPageId header rootId =
        some (header', { info with rootPageId := rootId }) ∧
      Recorded header' (front ++ { info with rootPageId := rootId } :: back) ∧
      header.getRecordCount ≤ header'.getRecordCount ∧
      ∀ slot : ℕ, (slot : ℤ) < header.getRecordCount →
        header'.recordAt slot = header.recordAt slot := by
  obtain ⟨page, hencodes, hperm⟩ := h.page
  obtain ⟨hshort, hnew, hroom⟩ := hmay
  have hfind := (findRecord_eq_none_iff hperm info.name).mpr hnew
  have hlength : page.records.length = (live (front ++ info :: back)).length := by
    rw [hperm.length_eq, List.length_map]
  obtain ⟨header', hinsert, hencodes', hkept⟩ :=
    hencodes.insertRecord_of_absent hshort hroot hroot' hfind (hlength ▸ hroom)
  have hlive : ({ info with rootPageId := rootId } : IndexInfo).isEmpty = false :=
    decide_eq_false hroot.ne'
  refine ⟨header', ?_, ⟨⟨_, hencodes', ?_⟩, ?_⟩, ?_, fun slot hslot => ?_⟩
  · rw [updateRootPageId, if_pos hempty, hinsert]
    rfl
  · rw [live_append_of_empty hempty, List.map_append] at hperm
    rw [live_append_of_root hlive, List.map_append, List.map_cons]
    exact (List.perm_append_singleton _ _).trans ((hperm.cons _).trans List.perm_middle.symm)
  · have hnames := namesDiffer_middle.mp h.names
    rw [live_append_of_empty hempty] at hnew
    refine namesDiffer_middle.mpr ⟨hnames.1, fun other hother _ => hnew other ?_⟩
    rwa [live, List.filter_append] at hother
  · rw [hencodes.count, hencodes'.count, List.length_append]
    exact Nat.cast_le.mpr (Nat.le_add_right _ _)
  · rw [hencodes.count, Nat.cast_lt] at hslot
    exact hkept slot hslot

theorem Recorded.record_at (hencodes : Encodes header page)
    (hperm : page.records.Perm ((live indexes).map record)) (hnames : NamesDiffer indexes)
    (hinfo : info ∈ live indexes) :
    ∃ found, page.findRecord info.name = some found ∧ page.records[found]? = some info.record ∧
      ∀ slot : ℕ, (slot : ℤ) < header.getRecordCount →
        (header.isNamed slot info.name = true ↔ slot = found) := by
  have hmem : info.record ∈ page.records := hperm.mem_iff.mpr (List.mem_map_of_mem hinfo)
  obtain ⟨mine, hmine⟩ := List.mem_iff_getElem?.mp hmem
  have hnodup := Recorded.names_nodup hperm hnames
  have hunique : ∀ slot, slot < page.records.length →
      (header.isNamed slot info.name = true ↔ slot = mine) := by
    intro slot hslot
    have hrecord := List.getElem?_eq_getElem hslot
    rw [hencodes.isNamed_iff hrecord, ← List.getElem?_inj (by rwa [List.length_map]) hnodup,
      List.getElem?_map, List.getElem?_map, hrecord, hmine]
    exact (Option.some_inj (a := IndexName.cStr (page.records[slot]).1)).symm
  cases hfind : page.findRecord info.name with
  | none => exact absurd rfl ((findRecord_eq_none_iff hperm info.name).mp hfind info hinfo)
  | some found =>
    obtain ⟨hfound, hnamed, -⟩ := List.findIdx?_eq_some_iff_getElem.mp hfind
    obtain rfl : found = mine := (hunique found hfound).mp
      ((hencodes.isNamed_iff (List.getElem?_eq_getElem hfound)).mpr (of_decide_eq_true hnamed))
    refine ⟨found, rfl, hmine, fun slot hslot => hunique slot ?_⟩
    rwa [hencodes.count, Nat.cast_lt] at hslot

theorem Recorded.next_root (h : Recorded header (front ++ info :: back))
    (hlive : info.isEmpty = false) (hroot : invalidPageId < rootId) (hroot' : rootId < 2 ^ 31) :
    ∃ header', info.updateRootPageId header rootId =
        some (header', { info with rootPageId := rootId }) ∧
      Recorded header' (front ++ { info with rootPageId := rootId } :: back) ∧
      header.getRecordCount ≤ header'.getRecordCount ∧
      ∀ slot : ℕ, (slot : ℤ) < header.getRecordCount → header.isNamed slot info.name = false →
        header'.recordAt slot = header.recordAt slot := by
  obtain ⟨page, hencodes, hperm⟩ := h.page
  have hmem : info ∈ live (front ++ info :: back) :=
    mem_live.mpr ⟨List.mem_append_right _ List.mem_cons_self, hlive⟩
  obtain ⟨found, hfind, hrecord, hnamed⟩ := Recorded.record_at hencodes hperm h.names hmem
  have hshort : info.name.length < 32 := (hencodes.stored hrecord).short
  have hlower : (-1 : ℤ) < rootId := hroot
  obtain ⟨header', hupdate, hencodes', hkept⟩ :=
    hencodes.updateRecord_of_present hshort (show (-2 ^ 31 : ℤ) ≤ rootId by omega) hroot' hfind
  have hlive' : ({ info with rootPageId := rootId } : IndexInfo).isEmpty = false :=
    decide_eq_false hroot.ne'
  refine ⟨header', ?_, ⟨⟨_, hencodes', ?_⟩, ?_⟩, ?_, fun slot hslot hother => ?_⟩
  · rw [updateRootPageId, if_neg (by simp [hlive]), hupdate]
    rfl
  · -- both lists are taken apart at the record that changes
    obtain ⟨hfound, hat⟩ := List.getElem?_eq_some_iff.mp hrecord
    have hsplit : page.records =
        page.records.take found ++ info.record :: page.records.drop (found + 1) := by
      rw [← hat, List.getElem_cons_drop, List.take_append_drop]
    rw [live_append_of_root hlive, List.map_append, List.map_cons, hsplit] at hperm
    rw [live_append_of_root hlive', List.map_append, List.map_cons]
    have hrest := List.perm_middle.symm.trans (hperm.trans List.perm_middle)
    have hmodify : page.records.modify found (fun record => (record.1, rootId)) =
        page.records.take found ++ (info.name, rootId) :: page.records.drop (found + 1) := by
      rw [List.modify_eq_take_cons_drop hfound, hat]
      rfl
    rw [hmodify]
    exact List.perm_middle.trans ((hrest.cons_inv.cons _).trans List.perm_middle.symm)
  · have hnames := namesDiffer_middle.mp h.names
    exact namesDiffer_middle.mpr ⟨hnames.1, fun other hother _ => hnames.2 other hother hlive⟩
  · rw [hencodes'.count, hencodes.count, List.length_modify]
  · refine hkept slot fun heq => ?_
    rw [(hnamed slot hslot).mpr heq] at hother
    cases hother

/-- **A new root.**  The page holds the new root, and the records of the other indexes stay
as they are. -/
theorem Recorded.new_root (h : Recorded header (front ++ info :: back))
    (hmay : info.isEmpty = true → MayInsert (front ++ info :: back) info.name)
    (hroot : invalidPageId < rootId) (hroot' : rootId < 2 ^ 31) :
    ∃ header', info.updateRootPageId header rootId =
        some (header', { info with rootPageId := rootId }) ∧
      Recorded header' (front ++ { info with rootPageId := rootId } :: back) ∧
      header.getRecordCount ≤ header'.getRecordCount ∧
      ∀ other ∈ live (front ++ back), ∀ slot : ℕ, (slot : ℤ) < header.getRecordCount →
        header.isNamed slot other.name = true →
        header'.recordAt slot = header.recordAt slot := by
  cases hempty : info.isEmpty with
  | true =>
    obtain ⟨header', hupdate, hrecorded, hcount, hkept⟩ :=
      h.first_root hempty (hmay hempty) hroot hroot'
    exact ⟨header', hupdate, hrecorded, hcount, fun other _ slot hslot _ => hkept slot hslot⟩
  | false =>
    obtain ⟨header', hupdate, hrecorded, hcount, hkept⟩ := h.next_root hempty hroot hroot'
    refine ⟨header', hupdate, hrecorded, hcount, fun other hother slot hslot hnamed => ?_⟩
    refine hkept slot hslot (Bool.eq_false_iff.mpr fun hnamed' => ?_)
    obtain ⟨page, hencodes, -⟩ := h.page
    rw [hencodes.count, Nat.cast_lt] at hslot
    have hrecord := List.getElem?_eq_getElem hslot
    have hsame := (hencodes.isNamed_iff hrecord).mp hnamed
    have hsame' := (hencodes.isNamed_iff hrecord).mp hnamed'
    exact (namesDiffer_middle.mp h.names).2 other hother hempty (hsame.symm.trans hsame')

theorem newPageId_valid (root : NewPageId) :
    invalidPageId < (root.val : ℤ) ∧ ((root.val : ℤ) : PageId) < 2 ^ 31 :=
  ⟨Int.lt_of_lt_of_le (by decide) (Int.natCast_nonneg _), by exact_mod_cast root.isLt⟩

theorem updateRoots_info {header' : HeaderData} {info' : IndexInfo} {roots : List NewPageId}
    (h : info.updateRoots header roots = some (header', info')) :
    info'.name = info.name ∧ info'.indexOid = info.indexOid ∧ info'.tableName = info.tableName ∧
      (roots ≠ [] ∨ info.isEmpty = false → info'.isEmpty = false) := by
  induction roots generalizing info header with
  | nil =>
    cases h
    exact ⟨rfl, rfl, rfl, fun hroot => hroot.resolve_left (fun hne => hne rfl)⟩
  | cons root roots ih =>
    rw [updateRoots] at h
    cases hupdate : info.updateRootPageId header (root.val : ℤ) with
    | none => simp only [hupdate, reduceCtorEq] at h
    | some result =>
      simp only [hupdate] at h
      obtain ⟨hname, hoid, htable, hroot⟩ := ih h
      obtain ⟨answer, -, hresult⟩ := Option.map_eq_some_iff.mp hupdate
      cases hresult
      exact ⟨hname, hoid, htable, fun _ =>
        hroot (Or.inr (decide_eq_false (newPageId_valid root).1.ne'))⟩

theorem Recorded.short (h : Recorded header indexes) (hinfo : info ∈ live indexes) :
    info.name.length < 32 := by
  obtain ⟨page, hencodes, hperm⟩ := h.page
  have hmem : info.record ∈ page.records := hperm.mem_iff.mpr (List.mem_map_of_mem hinfo)
  obtain ⟨slot, hslot⟩ := List.mem_iff_getElem?.mp hmem
  exact (hencodes.stored hslot).short

/-- **A sequence of roots** of one index, whose first root gets a record of its own. -/
theorem Recorded.new_roots (h : Recorded header (front ++ info :: back)) (roots : List NewPageId)
    (hmay : roots ≠ [] → info.isEmpty = true → MayInsert (front ++ info :: back) info.name) :
    ∃ header' info', info.updateRoots header roots = some (header', info') ∧
      Recorded header' (front ++ info' :: back) ∧
      ∀ other ∈ live (front ++ back), ∀ slot : ℕ, (slot : ℤ) < header.getRecordCount →
        header.isNamed slot other.name = true →
        header'.recordAt slot = header.recordAt slot := by
  induction roots generalizing info header with
  | nil => exact ⟨header, info, rfl, h, fun _ _ _ _ _ => rfl⟩
  | cons root roots ih =>
    obtain ⟨hvalid, hvalid'⟩ := newPageId_valid root
    obtain ⟨header₁, hupdate, hrecorded, hcount, hkept⟩ :=
      h.new_root (hmay (List.cons_ne_nil _ _)) hvalid hvalid'
    have hlive : ({ info with rootPageId := (root.val : ℤ) } : IndexInfo).isEmpty = false :=
      decide_eq_false hvalid.ne'
    obtain ⟨header', info', hrest, hrecorded', hkept'⟩ := ih hrecorded
      fun _ hempty => absurd hempty (by rw [hlive]; exact Bool.false_ne_true)
    refine ⟨header', info', ?_, hrecorded', fun other hother slot hslot hnamed => ?_⟩
    · simp [updateRoots, hupdate, hrest]
    · have hsame := hkept other hother slot hslot hnamed
      have hshort : other.name.length < 32 := by
        obtain ⟨hmem, hroot⟩ := mem_live.mp hother
        refine h.short (mem_live.mpr ⟨?_, hroot⟩)
        exact List.mem_append.mpr ((List.mem_append.mp hmem).imp_right (List.mem_cons_of_mem _))
      have hnamed' : header₁.isNamed slot other.name = true := by
        rw [HeaderData.isNamed_congr hshort hsame]
        exact hnamed
      rw [hkept' other hother slot (hslot.trans_le hcount) hnamed', hsame]

theorem not_recordsOwned {first second : ℕ} (hinfo : indexes[first]? = some info)
    (hother : indexes[second]? = some other) (hroot : info.isEmpty = false)
    (hroot' : other.isEmpty = false) (hne : second ≠ first)
    (hname : other.name.cStr = info.name.cStr) : ¬ RecordsOwned header indexes := by
  intro h
  obtain ⟨slot, -, hnamed, -, -, hothers⟩ := h first info hinfo hroot
  have hnot := hothers second other hother hroot' hne
  rw [HeaderData.isNamed, hname] at hnot
  rw [HeaderData.isNamed, hnot] at hnamed
  cases hnamed

theorem exists_position (hother : other ∈ front ++ back) (info : IndexInfo) :
    ∃ position, position ≠ front.length ∧ (front ++ info :: back)[position]? = some other := by
  cases List.mem_append.mp hother with
  | inl hfront =>
    obtain ⟨position, hposition⟩ := List.mem_iff_getElem?.mp hfront
    have hlt := (List.getElem?_eq_some_iff.mp hposition).1
    exact ⟨position, hlt.ne, (List.getElem?_append_left hlt).trans hposition⟩
  | inr hback =>
    obtain ⟨position, hposition⟩ := List.mem_iff_getElem?.mp hback
    refine ⟨front.length + (position + 1), by omega, ?_⟩
    rw [List.getElem?_append_right (by omega), Nat.add_sub_cancel_left, List.getElem?_cons_succ]
    exact hposition

/-- If the first root gets no record of its own, it stops at the header page or leaves an
index without a record. -/
theorem Recorded.shared (h : Recorded header (front ++ info :: back)) {roots : List NewPageId}
    (hroots : roots ≠ []) (hempty : info.isEmpty = true)
    (hmay : ¬ MayInsert (front ++ info :: back) info.name) {header' : HeaderData}
    {info' : IndexInfo} (hupdates : info.updateRoots header roots = some (header', info')) :
    ¬ RecordsOwned header' (front ++ info' :: back) := by
  obtain ⟨page, hencodes, hperm⟩ := h.page
  obtain ⟨root, roots, rfl⟩ := List.exists_cons_of_ne_nil hroots
  have hinsert : header.insertRecord info.name (root.val : ℤ) ≠ none := by
    intro hnone
    simp only [updateRoots, updateRootPageId, hempty, if_true, hnone,
      Option.map_none, reduceCtorEq] at hupdates
  have hshort : info.name.length < 32 := by
    by_contra hlong
    exact hinsert (if_neg fun hasserts => hlong hasserts.1)
  have hfound : page.findRecord info.name ≠ none := by
    intro hfind
    have hnew := (findRecord_eq_none_iff hperm info.name).mp hfind
    have hfull : ¬ page.records.length < maxRecords := by
      rw [hperm.length_eq, List.length_map]
      exact fun hroom => hmay ⟨hshort, hnew, hroom⟩
    exact hinsert (hencodes.insertRecord_of_full hfind hfull)
  rw [Ne, findRecord_eq_none_iff hperm info.name] at hfound
  obtain ⟨other, hother⟩ := not_forall.mp hfound
  obtain ⟨hother, hname⟩ := Classical.not_imp.mp hother
  rw [live_append_of_empty hempty, live, live, ← List.filter_append] at hother
  obtain ⟨hmem, hroot⟩ := mem_live.mp hother
  obtain ⟨position, hne, hposition⟩ := exists_position hmem info'
  obtain ⟨hname', -, -, hroot'⟩ := updateRoots_info hupdates
  have hlast : (front ++ info' :: back)[front.length]? = some info' := by
    rw [List.getElem?_append_right le_rfl, Nat.sub_self, List.getElem?_cons_zero]
  apply not_recordsOwned hlast hposition
    (hroot' (Or.inl (List.cons_ne_nil _ _))) hroot hne
  rw [hname']
  exact not_not.mp hname

end Records

/-! ## The calls of the catalog -/

/-- The catalog and the header page that its indexes share. -/
structure Indexed where
  catalog : Catalog
  header : HeaderData

/-- A call of the catalog, or a new root of an index.  A table comes with its heap.  An
index comes with the roots that its tree gets while the tuples of the table are put in. -/
inductive CatalogCall
  | createTable (tableName : TableName) (table : Option PageId)
  | createIndex (indexName : IndexName) (tableName : TableName) (roots : List NewPageId)
  | changeRoot (indexOid : ℕ) (root : NewPageId)

namespace Indexed

def infos (state : Indexed) : List IndexInfo := state.catalog.indexes.map Prod.snd

/-- The empty catalog, with a zeroed page for the records. -/
def start : Indexed := ⟨.empty, fun _ => 0⟩

/-- The answer is the oid of the table or the index, or `none` if it is refused. -/
def step (state : Indexed) : CatalogCall → Except CatalogFault (Option ℕ × Indexed)
  | .createTable tableName table =>
    if (state.catalog.tableNames.lookup tableName).isSome then .ok (none, state)
    else
      .ok (some state.catalog.nextTableOid,
        { state with catalog := state.catalog.addTable tableName table })
  | .createIndex indexName tableName roots =>
    match state.catalog.indexedHeap indexName tableName with
    | .error fault => .error fault
    | .ok none => .ok (none, state)
    | .ok (some _) =>
      let info := create indexName state.catalog.nextIndexOid tableName
      match info.updateRoots state.header roots with
      | none => .error .headerPage
      | some (header, info) =>
        .ok (some state.catalog.nextIndexOid, ⟨state.catalog.addIndex info, header⟩)
  | .changeRoot indexOid root =>
    match state.catalog.indexes.lookup indexOid with
    | none => .error .noIndex
    | some info =>
      match info.updateRoots state.header [root] with
      | none => .error .headerPage
      | some (header, info) =>
        .ok (some indexOid, ⟨{ state.catalog with
          indexes := assign state.catalog.indexes indexOid info }, header⟩)

end Indexed

def catalogMachine : Machine Indexed CatalogCall (Option ℕ) CatalogFault := ⟨Indexed.step⟩

/-- The index whose root the call changes, if it was there before. -/
def CatalogCall.target : CatalogCall → Option ℕ
  | .changeRoot indexOid _ => some indexOid
  | _ => none

/-- The call does not fail at the header page; behind it, every index with a root owns a
record, and the records of the other indexes are what they were. -/
def RecordsKept (state : Indexed) (call : CatalogCall) : Prop :=
  state.step call ≠ .error .headerPage ∧
    ∀ answer next, state.step call = .ok (answer, next) →
      RecordsOwned next.header next.infos ∧
      ∀ entry ∈ state.catalog.indexes, call.target ≠ some entry.1 → entry.2.isEmpty = false →
        ∀ slot : ℕ, (slot : ℤ) < state.header.getRecordCount →
          state.header.isNamed slot entry.2.name = true →
          next.header.recordAt slot = state.header.recordAt slot

/-- The first root of an index meets a short name that no other index with a root has, and
room in the page. -/
def RootAllowed (state : Indexed) : CatalogCall → Prop
  | .createTable _ _ => True
  | .createIndex indexName tableName roots =>
    roots ≠ [] →
      ∀ heap, state.catalog.indexedHeap indexName tableName = .ok (some heap) →
        MayInsert state.infos indexName
  | .changeRoot indexOid _ =>
    ∀ info, state.catalog.indexes.lookup indexOid = some info → info.isEmpty = true →
      MayInsert state.infos info.name

structure Indexed.Valid (state : Indexed) : Prop where
  recorded : Recorded state.header state.infos
  oids : ∀ entry ∈ state.catalog.indexes, entry.1 < state.catalog.nextIndexOid


theorem Indexed.start_valid : Indexed.start.Valid where
  recorded := ⟨⟨⟨[]⟩, encodes_zero, List.Perm.refl _⟩, List.Pairwise.nil⟩
  oids := fun _ hmem => (nomatch hmem)

variable {state : Indexed}

theorem Indexed.Valid.with_empty (h : state.Valid) (indexName : IndexName)
    (tableName : TableName) :
    Recorded state.header
        (state.infos ++ [create indexName state.catalog.nextIndexOid tableName]) ∧
      live (state.infos ++ [create indexName state.catalog.nextIndexOid tableName]) =
        live state.infos := by
  have hlive : live (state.infos ++
      [create indexName state.catalog.nextIndexOid tableName]) = live state.infos := by
    rw [live_append_of_empty (decide_eq_true rfl)]
    exact List.append_nil _
  refine ⟨⟨?_, ?_⟩, hlive⟩
  · rw [hlive]
    exact h.recorded.page
  · refine namesDiffer_middle.mpr ⟨?_, fun other _ hroot => ?_⟩
    · rw [List.append_nil]
      exact h.recorded.names
    · exact absurd hroot (by simp [create, isEmpty])

theorem Indexed.Valid.addIndex_indexes (h : state.Valid) {info : IndexInfo}
    (hoid : info.indexOid = state.catalog.nextIndexOid) :
    (state.catalog.addIndex info).indexes = state.catalog.indexes ++ [(info.indexOid, info)] := by
  apply emplace_of_new
  intro entry hentry
  rw [hoid]
  exact (h.oids entry hentry).ne

/-- `CreateIndex` with roots that are allowed. -/
theorem Indexed.Valid.createIndex {state : Indexed} (h : state.Valid) {indexName : IndexName}
    {tableName : TableName} {roots : List NewPageId}
    (hallowed : RootAllowed state (.createIndex indexName tableName roots)) :
    state.step (.createIndex indexName tableName roots) ≠ .error .headerPage ∧
      ∀ answer next, state.step (.createIndex indexName tableName roots) = .ok (answer, next) →
        next.Valid ∧ ∀ entry ∈ state.catalog.indexes, entry.2.isEmpty = false →
          ∀ slot : ℕ, (slot : ℤ) < state.header.getRecordCount →
            state.header.isNamed slot entry.2.name = true →
            next.header.recordAt slot = state.header.recordAt slot := by
  have hindexed := state.catalog.indexedHeap_ne_headerPage indexName tableName
  simp only [Indexed.step]
  split
  case h_1 fault heq =>
    rw [heq] at hindexed
    exact ⟨fun hfault => hindexed (congrArg Except.error (Except.error.inj hfault)),
      fun _ _ hok => (nomatch hok)⟩
  case h_2 =>
    refine ⟨fun hfault => (nomatch hfault), fun answer next hok => ?_⟩
    cases hok
    exact ⟨h, fun _ _ _ _ _ _ => rfl⟩
  case h_3 heap heq =>
    obtain ⟨hrecorded, hlive⟩ := h.with_empty indexName tableName
    obtain ⟨header', info', hupdates, hrecorded', hkept⟩ :=
      hrecorded.new_roots roots fun hroots _ => by
        have hmay := hallowed hroots heap heq
        rw [MayInsert, ← hlive] at hmay
        exact hmay
    obtain ⟨-, hoid, -, -⟩ := updateRoots_info hupdates
    have hindexes := h.addIndex_indexes hoid
    rw [hupdates]
    refine ⟨fun hfault => (nomatch hfault), fun answer next hok => ?_⟩
    cases hok
    refine ⟨⟨?_, fun entry hentry => ?_⟩, fun entry hentry hroot slot hslot hnamed => ?_⟩
    · rw [Indexed.infos, hindexes, List.map_append]
      exact hrecorded'
    · rw [hindexes] at hentry
      cases List.mem_append.mp hentry with
      | inl hold =>
        refine (h.oids entry hold).trans ?_
        show state.catalog.nextIndexOid < info'.indexOid + 1
        rw [hoid]
        exact Nat.lt_succ_self _
      | inr hnew =>
        rw [List.mem_singleton.mp hnew]
        exact Nat.lt_succ_self _
    · refine hkept entry.2 (mem_live.mpr ⟨?_, hroot⟩) slot hslot hnamed
      rw [List.append_nil]
      exact List.mem_map_of_mem hentry

/-- `CreateIndex` with a first root that is not allowed. -/
theorem Indexed.Valid.createIndex_shared (h : state.Valid)
    {indexName : IndexName} {tableName : TableName} {roots : List NewPageId} {heap : PageId}
    (hheap : state.catalog.indexedHeap indexName tableName = .ok (some heap)) (hroots : roots ≠ [])
    (hmay : ¬ MayInsert state.infos indexName) :
    ¬ RecordsKept state (.createIndex indexName tableName roots) := by
  intro ⟨hheader, hnext⟩
  obtain ⟨hrecorded, hlive⟩ := h.with_empty indexName tableName
  simp only [Indexed.step, hheap] at hheader hnext
  cases hupdates : (create indexName state.catalog.nextIndexOid tableName).updateRoots
      state.header roots with
  | none => simp only [hupdates, ne_eq, not_true_eq_false] at hheader
  | some result =>
    simp only [hupdates] at hnext
    have howned := (hnext _ _ rfl).1
    refine hrecorded.shared hroots (decide_eq_true rfl) ?_ hupdates ?_
    · rw [MayInsert, hlive]
      exact hmay
    · obtain ⟨-, hoid, -, -⟩ := updateRoots_info hupdates
      rw [Indexed.infos, h.addIndex_indexes hoid, List.map_append] at howned
      exact howned

theorem Indexed.Valid.changeRoot {state : Indexed} (h : state.Valid) {indexOid : ℕ}
    {root : NewPageId} (hallowed : RootAllowed state (.changeRoot indexOid root)) :
    state.step (.changeRoot indexOid root) ≠ .error .headerPage ∧
      ∀ answer next, state.step (.changeRoot indexOid root) = .ok (answer, next) →
        next.Valid ∧ ∀ entry ∈ state.catalog.indexes, entry.1 ≠ indexOid →
          entry.2.isEmpty = false → ∀ slot : ℕ, (slot : ℤ) < state.header.getRecordCount →
            state.header.isNamed slot entry.2.name = true →
            next.header.recordAt slot = state.header.recordAt slot := by
  simp only [Indexed.step]
  cases hlookup : state.catalog.indexes.lookup indexOid with
  | none => exact ⟨fun hfault => (nomatch hfault), fun _ _ hok => (nomatch hok)⟩
  | some info =>
    obtain ⟨front, back, hsplit, -, hassign⟩ := exists_split_of_lookup hlookup
    have hinfos : state.infos = front.map Prod.snd ++ info :: back.map Prod.snd := by
      rw [Indexed.infos, hsplit, List.map_append, List.map_cons]
    have hrecorded := h.recorded
    rw [hinfos] at hrecorded
    obtain ⟨header', info', hupdates, hrecorded', hkept⟩ := hrecorded.new_roots [root]
      fun _ hempty => hinfos ▸ hallowed info hlookup hempty
    simp only [hupdates]
    refine ⟨fun hfault => (nomatch hfault), fun answer next hok => ?_⟩
    cases hok
    refine ⟨⟨?_, fun entry hentry => ?_⟩, fun entry hentry hne hroot slot hslot hnamed => ?_⟩
    · rw [Indexed.infos, hassign, List.map_append, List.map_cons]
      exact hrecorded'
    · have hkey := List.mem_map_of_mem (f := Prod.fst) hentry
      rw [assign_keys] at hkey
      obtain ⟨old, hold, holdOid⟩ := List.mem_map.mp hkey
      exact holdOid ▸ h.oids old hold
    · refine hkept entry.2 (mem_live.mpr ⟨?_, hroot⟩) slot hslot hnamed
      rw [hsplit] at hentry
      have hothers : entry ∈ front ++ back := by
        simp only [List.mem_append, List.mem_cons] at hentry ⊢
        exact hentry.imp_right (Or.resolve_left · fun heq => hne (congrArg Prod.fst heq))
      rw [← List.map_append]
      exact List.mem_map_of_mem hothers

theorem Indexed.Valid.changeRoot_shared (h : state.Valid) {indexOid : ℕ}
    {root : NewPageId} {info : IndexInfo}
    (hlookup : state.catalog.indexes.lookup indexOid = some info) (hempty : info.isEmpty = true)
    (hmay : ¬ MayInsert state.infos info.name) :
    ¬ RecordsKept state (.changeRoot indexOid root) := by
  intro ⟨hheader, hnext⟩
  obtain ⟨front, back, hsplit, -, hassign⟩ := exists_split_of_lookup hlookup
  have hinfos : state.infos = front.map Prod.snd ++ info :: back.map Prod.snd := by
    rw [Indexed.infos, hsplit, List.map_append, List.map_cons]
  have hrecorded := h.recorded
  rw [hinfos] at hrecorded hmay
  simp only [Indexed.step, hlookup] at hheader hnext
  cases hupdates : info.updateRoots state.header [root] with
  | none => simp only [hupdates, ne_eq, not_true_eq_false] at hheader
  | some result =>
    simp only [hupdates] at hnext
    have howned := (hnext _ _ rfl).1
    rw [Indexed.infos, hassign, List.map_append, List.map_cons] at howned
    exact hrecorded.shared (List.cons_ne_nil _ _) hempty hmay hupdates howned

theorem Indexed.Valid.createTable {state : Indexed} (h : state.Valid) (tableName : TableName)
    (table : Option PageId) :
    ∃ answer next, state.step (.createTable tableName table) = .ok (answer, next) ∧ next.Valid ∧
      next.header = state.header := by
  rw [Indexed.step]
  split_ifs
  · exact ⟨_, _, rfl, h, rfl⟩
  · exact ⟨_, _, rfl, ⟨h.recorded, h.oids⟩, rfl⟩

/-- A call keeps the records exactly if its first root is allowed, and then it keeps the
invariant. -/
theorem Indexed.Valid.recordsKept_iff (h : state.Valid) (call : CatalogCall) :
    RecordsKept state call ↔ RootAllowed state call := by
  cases call with
  | createTable tableName table =>
    refine iff_of_true ?_ trivial
    obtain ⟨answer', next', hstep, hvalid, hheader⟩ := h.createTable tableName table
    refine ⟨fun hfault => ?_, fun answer next hok => ?_⟩
    · rw [hstep] at hfault
      cases hfault
    · rw [hstep] at hok
      cases hok
      exact ⟨hvalid.recorded.owned, fun _ _ _ _ _ _ _ => by rw [hheader]⟩
  | createIndex indexName tableName roots =>
    constructor
    · intro hkept hroots heap hheap
      by_contra hmay
      exact h.createIndex_shared hheap hroots hmay hkept
    · intro hallowed
      obtain ⟨hheader, hnext⟩ := h.createIndex hallowed
      refine ⟨hheader, fun answer next hok => ?_⟩
      obtain ⟨hvalid, hothers⟩ := hnext answer next hok
      exact ⟨hvalid.recorded.owned, fun entry hentry _ => hothers entry hentry⟩
  | changeRoot indexOid root =>
    constructor
    · intro hkept info hlookup hempty
      by_contra hmay
      exact h.changeRoot_shared hlookup hempty hmay hkept
    · intro hallowed
      obtain ⟨hheader, hnext⟩ := h.changeRoot hallowed
      refine ⟨hheader, fun answer next hok => ?_⟩
      obtain ⟨hvalid, hothers⟩ := hnext answer next hok
      refine ⟨hvalid.recorded.owned, fun entry hentry htarget => hothers entry hentry ?_⟩
      exact fun heq => htarget (congrArg some heq.symm)

theorem Indexed.Valid.step {state next : Indexed} (h : state.Valid) {call : CatalogCall}
    {answer : Option ℕ} (hallowed : RootAllowed state call)
    (hstep : state.step call = .ok (answer, next)) : next.Valid := by
  cases call with
  | createTable tableName table =>
    obtain ⟨answer', next', hstep', hvalid, -⟩ := h.createTable tableName table
    rw [hstep] at hstep'
    cases hstep'
    exact hvalid
  | createIndex indexName tableName roots => exact ((h.createIndex hallowed).2 answer next hstep).1
  | changeRoot indexOid root => exact ((h.changeRoot hallowed).2 answer next hstep).1

/-- **The records of the indexes.**  In a run from the empty catalog, every call leaves each
index with a root its own record with that root, and leaves the records of the other
indexes alone, exactly if each first root of an index meets a short name that no other
index with a root has, and room in the page. -/
theorem recordsKept_along_iff (calls : List CatalogCall) :
    catalogMachine.Along RecordsKept Indexed.start calls ↔
      catalogMachine.Along RootAllowed Indexed.start calls :=
  Machine.along_iff_along (fun _ call h => Indexed.Valid.recordsKept_iff h call)
    (fun _ _ _ _ h hallowed hstep => Indexed.Valid.step h hallowed hstep) Indexed.start_valid

/-- Two tables with an index of one name each: the catalog accepts both, and they meet in
one record.  A new root of the second then goes into the record of the first. -/
theorem same_name_shares_record :
    let calls : List CatalogCall := [.createTable [116] (some 1), .createTable [117] (some 2),
      .createIndex [97] [116] [3], .createIndex [97] [117] [4]]
    (∃ final, catalogMachine.run Indexed.start calls =
        .ok ([some 0, some 1, some 0, some 1], final) ∧
      final.header.getRecordCount = 1 ∧ ¬ RecordsOwned final.header final.infos) ∧
    ∃ final, catalogMachine.run Indexed.start (calls ++ [.changeRoot 1 5]) =
        .ok ([some 0, some 1, some 0, some 1, some 1], final) ∧
      final.header.isNamed 0 [97] = true ∧ final.header.rootAt 0 = 5 ∧
      final.infos[0]?.map rootPageId = some 3 := by
  intro calls
  constructor
  · have hcheck : (catalogMachine.run Indexed.start calls).toOption.any (fun result =>
        result.1 = [some 0, some 1, some 0, some 1] ∧ result.2.header.getRecordCount = 1 ∧
          result.2.infos = [⟨[97], 0, [116], 3⟩, ⟨[97], 1, [117], 4⟩]) = true := by
      decide +kernel
    obtain ⟨⟨answers, final⟩, hrun, hfinal⟩ := Machine.exists_ok_of_check hcheck
    obtain ⟨rfl, hcount, hinfos⟩ := of_decide_eq_true hfinal
    refine ⟨final, hrun, hcount, ?_⟩
    rw [hinfos]
    exact @not_recordsOwned _ _ _ _ 0 1 rfl rfl rfl rfl (by decide) rfl
  · have hcheck : (catalogMachine.run Indexed.start (calls ++ [.changeRoot 1 5])).toOption.any
        (fun result => result.1 = [some 0, some 1, some 0, some 1, some 1] ∧
          result.2.header.isNamed 0 [97] = true ∧ result.2.header.rootAt 0 = 5 ∧
          result.2.infos[0]?.map rootPageId = some 3) = true := by
      decide +kernel
    obtain ⟨⟨answers, final⟩, hrun, hfinal⟩ := Machine.exists_ok_of_check hcheck
    obtain ⟨rfl, hshared⟩ := of_decide_eq_true hfinal
    exact ⟨final, hrun, hshared⟩

end BusTub
