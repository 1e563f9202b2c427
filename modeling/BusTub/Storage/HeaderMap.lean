import BusTub.Storage.HeaderRecords
import BusTub.Library.ListedMap
import BusTub.Library.Machine

/-!
# The header page as a map

A run of `InsertRecord`, `UpdateRecord`, `DeleteRecord` and `GetRootId` on a zeroed page, with
names of less than 32 bytes and without zero bytes.  The page is 4096 bytes of a memory, and what
is behind it belongs to others.

The records are packed, and a deleted record is closed up, so the page lists a finite map from
names to root ids in the order of its records.  The page has room for 113 of them, which nothing
checks: the next record is written past the end of the page.  Two assertions are in the way as
well, for root ids that are not valid and for a deletion from an empty page.  All other runs
answer like the map and stay in the page.
-/

namespace BusTub

open ByteMemory ListedMap Machines

/-! ## Calls -/

abbrev RecordName := { name : IndexName // name.length < 32 ∧ 0 ∉ name }

/-- A `page_id_t`. -/
abbrev RootId := { rootId : PageId // -2 ^ 31 ≤ rootId ∧ rootId < 2 ^ 31 }

inductive HeaderCall
  | insertRecord (name : RecordName) (rootId : RootId)
  | updateRecord (name : RecordName) (rootId : RootId)
  | deleteRecord (name : RecordName)
  | getRootId (name : RecordName)

/-- What a call returns: whether it was successful, or the root id. -/
inductive HeaderAnswer
  | success (success : Bool)
  | root (rootId : Option PageId)
deriving DecidableEq

/-- An assertion fails, or the page is left. -/
inductive HeaderFault
  | stopped
deriving DecidableEq

def headerChange : Option (Bool × HeaderData) → Except HeaderFault (HeaderAnswer × HeaderData)
  | none => .error .stopped
  | some (success, data) => .ok (.success success, data)

def headerStep (data : HeaderData) : HeaderCall → Except HeaderFault (HeaderAnswer × HeaderData)
  | .insertRecord name rootId => headerChange (data.insertRecord name.1 rootId.1)
  | .updateRecord name rootId => headerChange (data.updateRecord name.1 rootId.1)
  | .deleteRecord name => headerChange (data.deleteRecord name.1)
  | .getRootId name =>
    match data.getRootId name.1 with
    | none => .error .stopped
    | some rootId => .ok (.root rootId, data)

def headerMachine : Machine HeaderData HeaderCall HeaderAnswer HeaderFault := ⟨headerStep⟩

@[simp] theorem headerMachine_step (data : HeaderData) (call : HeaderCall) :
    headerMachine.step data call = headerStep data call := rfl

abbrev RecordMap := Finmap fun _ : RecordName => RootId

/-- The calls, on the map: a name that is there is not inserted, nor one that has no room. -/
def headerSpec (map : RecordMap) : HeaderCall → HeaderAnswer × RecordMap
  | .insertRecord name rootId =>
    if name ∈ map ∨ maxRecords ≤ map.keys.card then (.success false, map)
    else (.success true, map.insert name rootId)
  | .updateRecord name rootId =>
    if name ∈ map then (.success true, map.insert name rootId) else (.success false, map)
  | .deleteRecord name =>
    if name ∈ map then (.success true, map.erase name) else (.success false, map)
  | .getRootId name => (.root ((map.lookup name).map Subtype.val), map)

def zeroedPage (outside : Memory) : HeaderData := fun cell =>
  if cell < bustubPageSize then 0 else outside cell

/-- All lookups in the page are those in the map, and the memory behind the page is as it was. -/
structure HoldsMap (outside : Memory) (data : HeaderData) (map : RecordMap) : Prop where
  lookups : ∀ name : RecordName, data.getRootId name.1 = some ((map.lookup name).map Subtype.val)
  outside : ∀ cell, bustubPageSize ≤ cell → data cell = outside cell

/-- The call meets the assertions, and there is room for what it inserts. -/
def Admitted (map : RecordMap) : HeaderCall → Prop
  | .insertRecord name rootId =>
    invalidPageId < rootId.1 ∧ (name ∈ map ∨ map.keys.card < maxRecords)
  | .deleteRecord _ => 0 < map.keys.card
  | .updateRecord _ _ | .getRootId _ => True

/-! ## The records of the page -/

def pageOf (entries : List (RecordName × RootId)) : HeaderPage :=
  ⟨entries.map fun entry => (entry.1.1, entry.2.1)⟩

/-- The page lists the map. -/
structure HeaderInvariant (outside : Memory) (data : HeaderData) (map : RecordMap) : Prop where
  listed : ∃ entries, Encodes data (pageOf entries) ∧ Lists entries map
  outside : ∀ cell, bustubPageSize ≤ cell → data cell = outside cell

theorem RecordName.cStr_eq (name : RecordName) : IndexName.cStr name.1 = name.1 := by
  rw [IndexName.cStr, List.takeWhile_eq_self_iff]
  intro byte hbyte
  exact decide_eq_true fun hzero => name.2.2 (hzero ▸ hbyte)

theorem findRecord_pageOf (entries : List (RecordName × RootId)) (name : RecordName) :
    (name ∉ entries.map Prod.fst ∧ (pageOf entries).findRecord name.1 = none) ∨
      ∃ front old back, entries = front ++ (name, old) :: back ∧
        (pageOf entries).findRecord name.1 = some front.length := by
  induction entries with
  | nil => exact .inl ⟨List.not_mem_nil, rfl⟩
  | cons entry rest ih =>
    have hfind : (pageOf (entry :: rest)).findRecord name.1 =
        if entry.1 = name then some 0 else ((pageOf rest).findRecord name.1).map (· + 1) := by
      have hname : IndexName.cStr entry.1.1 = IndexName.cStr name.1 ↔ entry.1 = name := by
        rw [RecordName.cStr_eq, RecordName.cStr_eq, Subtype.ext_iff]
      rw [HeaderPage.findRecord, pageOf, List.map_cons, List.findIdx?_cons]
      simp only [hname, decide_eq_true_eq]
      rfl
    by_cases hentry : entry.1 = name
    · obtain ⟨first, old⟩ := entry
      obtain rfl : first = name := hentry
      refine .inr ⟨[], old, rest, rfl, ?_⟩
      rw [hfind, if_pos rfl, List.length_nil]
    · rw [hfind, if_neg hentry]
      rcases ih with ⟨hnotMem, hnone⟩ | ⟨front, old, back, rfl, hsome⟩
      · refine .inl ⟨?_, by rw [hnone, Option.map_none]⟩
        rw [List.map_cons, List.mem_cons]
        exact not_or.mpr ⟨Ne.symm hentry, hnotMem⟩
      · exact .inr ⟨entry :: front, old, back, rfl, by rw [hsome, Option.map_some]; rfl⟩

theorem getRootId_eq (data : HeaderData) (name : RecordName) : data.getRootId name.1 =
    some ((data.findRecord name.1).map data.rootAt) := by
  rw [HeaderData.getRootId, if_pos name.2.1]
  cases data.findRecord name.1 with
  | none => rfl
  | some index =>
    have hoffset : (index + 1) * 36 = recordOffset index + 32 := by
      simp only [recordOffset]
      omega
    simp only [hoffset]
    rfl

namespace HeaderInvariant

variable {outside : Memory} {data : HeaderData} {map : RecordMap} {name : RecordName}
  {rootId : RootId}

theorem zeroed (outside : Memory) : HeaderInvariant outside (zeroedPage outside) ∅ := by
  refine ⟨⟨[], ⟨?_, Nat.zero_le _, fun h => by cases h⟩, lists_nil⟩, fun cell hcell => ?_⟩
  · have hload : (zeroedPage outside).getRecordCount = HeaderData.getRecordCount fun _ => 0 :=
      Memory.loadInt_congr fun index hindex => if_pos (by rw [bustubPageSize]; omega)
    exact encodes_zero.count
  · exact if_neg (Nat.not_lt.mpr hcell)

theorem cases_record (h : HeaderInvariant outside data map) (name : RecordName) :
    (name ∉ map ∧ data.findRecord name.1 = none ∧
      ∃ entries, Encodes data (pageOf entries) ∧ Lists entries map ∧
        (pageOf entries).findRecord name.1 = none) ∨
    (name ∈ map ∧ ∃ front old back, Encodes data (pageOf (front ++ (name, old) :: back)) ∧
      Lists (front ++ (name, old) :: back) map ∧
        (pageOf (front ++ (name, old) :: back)).findRecord name.1 = some front.length) := by
  obtain ⟨entries, hencodes, hlists⟩ := h.listed
  rcases findRecord_pageOf entries name with ⟨hnotMem, hfind⟩ | ⟨front, old, back, rfl, hfind⟩
  · refine .inl ⟨fun hmem => hnotMem (hlists.mem_map_iff.mp hmem), ?_, entries, hencodes, hlists,
      hfind⟩
    rw [hencodes.findRecord, hfind]
  · refine .inr ⟨hlists.mem_map_iff.mpr ?_, front, old, back, hencodes, hlists, hfind⟩
    rw [List.map_append, List.map_cons]
    exact List.mem_append_right _ List.mem_cons_self

theorem holdsMap (h : HeaderInvariant outside data map) : HoldsMap outside data map := by
  refine ⟨fun name => ?_, h.outside⟩
  rw [getRootId_eq]
  rcases h.cases_record name with ⟨hnotMem, hnone, -⟩ |
    ⟨hmem, front, old, back, hencodes, hlists, hfind⟩
  · rw [hnone, Finmap.lookup_eq_none.mpr hnotMem]
    rfl
  · have hlookup : map.lookup name = some old :=
      (hlists.mem_iff name old).mp (List.mem_append_right _ List.mem_cons_self)
    have hrecord : (pageOf (front ++ (name, old) :: back)).records[front.length]? =
        some (name.1, old.1) := by
      simp [pageOf]
    rw [hencodes.findRecord, hfind, hlookup, Option.map_some, (hencodes.stored hrecord).root]
    rfl

/-! ## The calls -/

theorem card_eq {entries : List (RecordName × RootId)} (hlists : Lists entries map) :
    (pageOf entries).records.length = map.keys.card := by
  rw [hlists.card_keys, pageOf, List.length_map]

variable (h : HeaderInvariant outside data map)
include h

theorem insertRecord_absent (hnew : name ∉ map)
    (hroot : invalidPageId < rootId.1) (hroom : map.keys.card < maxRecords) :
    ∃ next, data.insertRecord name.1 rootId.1 = some (true, next) ∧
      HeaderInvariant outside next (map.insert name rootId) := by
  rcases h.cases_record name with ⟨-, -, entries, hencodes, hlists, hfind⟩ | ⟨hmem, -⟩
  · obtain ⟨next, hinsert, hnext, -⟩ := hencodes.insertRecord_of_absent name.2.1 hroot rootId.2.2
      hfind (by rwa [card_eq hlists])
    refine ⟨next, hinsert, ⟨entries ++ [(name, rootId)], ?_, hlists.append hnew⟩,
      fun cell hcell => ?_⟩
    · rw [pageOf, List.map_append]
      exact hnext
    · rw [HeaderData.insertRecord_outside hinsert cell hcell, h.outside cell hcell]
  · exact absurd hmem hnew

theorem insertRecord_present (hmem : name ∈ map)
    (hroot : invalidPageId < rootId.1) :
    data.insertRecord name.1 rootId.1 = some (false, data) := by
  rcases h.cases_record name with ⟨hnew, -⟩ | ⟨-, front, old, back, hencodes, -, hfind⟩
  · exact absurd hmem hnew
  · exact hencodes.insertRecord_of_present name.2.1 hroot (by rw [hfind]; rfl)

theorem insertRecord_stops
    (hnot : ¬ Admitted map (.insertRecord name rootId)) :
    data.insertRecord name.1 rootId.1 = none := by
  by_cases hroot : invalidPageId < rootId.1
  · have hfull : name ∉ map ∧ ¬ map.keys.card < maxRecords :=
      not_or.mp fun hadmitted => hnot ⟨hroot, hadmitted⟩
    rcases h.cases_record name with ⟨-, -, entries, hencodes, hlists, hfind⟩ | ⟨hmem, -⟩
    · exact hencodes.insertRecord_of_full hfind (by rw [card_eq hlists]; exact hfull.2)
    · exact absurd hmem hfull.1
  · exact if_neg fun hasserts => hroot hasserts.2

theorem updateRecord_present (rootId : RootId)
    (hmem : name ∈ map) :
    ∃ next, data.updateRecord name.1 rootId.1 = some (true, next) ∧
      HeaderInvariant outside next (map.insert name rootId) := by
  rcases h.cases_record name with ⟨hnew, -⟩ | ⟨-, front, old, back, hencodes, hlists, hfind⟩
  · exact absurd hmem hnew
  · obtain ⟨next, hupdate, hnext, -⟩ :=
      hencodes.updateRecord_of_present name.2.1 rootId.2.1 rootId.2.2 hfind
    refine ⟨next, hupdate, ⟨front ++ (name, rootId) :: back, ?_, hlists.replace⟩,
      fun cell hcell => ?_⟩
    · have hmodify : (pageOf (front ++ (name, old) :: back)).records.modify front.length
          (fun record => (record.1, rootId.1)) =
            (pageOf (front ++ (name, rootId) :: back)).records := by
        simp only [pageOf, List.map_append, List.map_cons]
        rw [← List.length_map fun entry : RecordName × RootId => (entry.1.1, entry.2.1),
          List.modify_eq_take_cons_drop (by simp)]
        simp [← List.drop_drop]
      rwa [hmodify] at hnext
    · rw [hencodes.updateRecord_outside hupdate cell hcell, h.outside cell hcell]

theorem updateRecord_absent (hnew : name ∉ map) :
    data.updateRecord name.1 rootId.1 = some (false, data) := by
  rcases h.cases_record name with ⟨-, hnone, -⟩ | ⟨hmem, -⟩
  · rw [HeaderData.updateRecord, if_pos name.2.1, hnone]
  · exact absurd hmem hnew

theorem deleteRecord_present (hmem : name ∈ map) :
    ∃ next, data.deleteRecord name.1 = some (true, next) ∧
      HeaderInvariant outside next (map.erase name) := by
  rcases h.cases_record name with ⟨hnew, -⟩ | ⟨-, front, old, back, hencodes, hlists, hfind⟩
  · exact absurd hmem hnew
  · obtain ⟨next, hdelete, hnext, hcells⟩ := hencodes.deleteRecord_of_present hfind
    refine ⟨next, hdelete, ⟨front ++ back, ?_, hlists.erase⟩, fun cell hcell => ?_⟩
    · have herase : (pageOf (front ++ (name, old) :: back)).records.eraseIdx front.length =
          (pageOf (front ++ back)).records := by
        simp [pageOf, List.eraseIdx_append]
      rwa [herase] at hnext
    · have hend : recordOffset (pageOf (front ++ (name, old) :: back)).records.length ≤ cell := by
        have hfits := hencodes.fits
        simp only [recordOffset, maxRecords, bustubPageSize] at hfits hcell ⊢
        omega
      rw [hcells cell hend, h.outside cell hcell]

theorem deleteRecord_absent (hnew : name ∉ map)
    (hpos : 0 < map.keys.card) : data.deleteRecord name.1 = some (false, data) := by
  rcases h.cases_record name with ⟨-, -, entries, hencodes, hlists, hfind⟩ | ⟨hmem, -⟩
  · refine hencodes.deleteRecord_of_absent ?_ hfind
    rw [← List.length_pos_iff, card_eq hlists]
    exact hpos
  · exact absurd hmem hnew

theorem deleteRecord_stops (hempty : map.keys.card = 0) :
    data.deleteRecord name.1 = none := by
  obtain ⟨entries, hencodes, hlists⟩ := h.listed
  rw [hlists.card_keys, List.length_eq_zero_iff] at hempty
  subst hempty
  exact hencodes.deleteRecord_of_empty

/-- **One call** that is admitted answers like the map. -/
theorem keeps {call : HeaderCall}
    (hadmitted : Admitted map call) :
    ∃ next, headerMachine.step data call = .ok ((headerSpec map call).1, next) ∧
      HeaderInvariant outside next (headerSpec map call).2 := by
  cases call with
  | insertRecord name rootId =>
    obtain ⟨hroot, hroom⟩ := hadmitted
    rw [headerMachine_step, headerStep]
    by_cases hmem : name ∈ map
    · rw [headerSpec, if_pos (.inl hmem), h.insertRecord_present hmem hroot]
      exact ⟨data, rfl, h⟩
    · -- a new name needs room, a name that is refused does not
      have hroom : map.keys.card < maxRecords := hroom.resolve_left hmem
      obtain ⟨next, hinsert, hnext⟩ := h.insertRecord_absent hmem hroot hroom
      rw [headerSpec, if_neg (not_or.mpr ⟨hmem, Nat.not_le.mpr hroom⟩), hinsert]
      exact ⟨next, rfl, hnext⟩
  | updateRecord name rootId =>
    rw [headerMachine_step, headerStep]
    by_cases hmem : name ∈ map
    · obtain ⟨next, hupdate, hnext⟩ := h.updateRecord_present rootId hmem
      rw [headerSpec, if_pos hmem, hupdate]
      exact ⟨next, rfl, hnext⟩
    · rw [headerSpec, if_neg hmem, h.updateRecord_absent hmem]
      exact ⟨data, rfl, h⟩
  | deleteRecord name =>
    rw [headerMachine_step, headerStep]
    by_cases hmem : name ∈ map
    · obtain ⟨next, hdelete, hnext⟩ := h.deleteRecord_present hmem
      rw [headerSpec, if_pos hmem, hdelete]
      exact ⟨next, rfl, hnext⟩
    · rw [headerSpec, if_neg hmem, h.deleteRecord_absent hmem hadmitted]
      exact ⟨data, rfl, h⟩
  | getRootId name =>
    refine ⟨data, ?_, h⟩
    rw [headerMachine_step, headerStep, h.holdsMap.lookups name, headerSpec]

theorem stops {call : HeaderCall}
    (hnot : ¬ Admitted map call) : headerMachine.step data call = .error .stopped := by
  cases call with
  | insertRecord name rootId =>
    rw [headerMachine_step, headerStep, h.insertRecord_stops hnot, headerChange]
  | deleteRecord name =>
    have hempty : map.keys.card = 0 := Nat.eq_zero_of_not_pos hnot
    rw [headerMachine_step, headerStep, h.deleteRecord_stops hempty, headerChange]
  | updateRecord name rootId => exact absurd trivial hnot
  | getRootId name => exact absurd trivial hnot

/-- The runs that are those of the map, from any page that lists one. -/
theorem conforms_iff (calls : List HeaderCall) :
    headerMachine.Conforms (HoldsMap outside) headerSpec data map calls ↔
      Machine.SpecAlong headerSpec Admitted map calls := by
  have hkeeps : ∀ data map call, HeaderInvariant outside data map → Admitted map call →
      ∃ next, headerMachine.step data call = .ok ((headerSpec map call).1, next) ∧
        HeaderInvariant outside next (headerSpec map call).2 :=
    fun _ _ _ h hadmitted => h.keeps hadmitted
  refine Machine.conforms_iff_specAlong (fun _ _ => holdsMap) hkeeps ?_ h calls
  intro data map call next h hnot hstep
  rw [h.stops hnot] at hstep
  cases hstep

omit h

end HeaderInvariant

/-- **The header page is a map** from names to root ids, exactly along the runs that meet the
assertions and never insert a record for which there is no room. -/
theorem headerPage_conforms_iff (outside : Memory) (calls : List HeaderCall) :
    headerMachine.Conforms (HoldsMap outside) headerSpec (zeroedPage outside) ∅ calls ↔
      Machine.SpecAlong headerSpec Admitted ∅ calls :=
  (HeaderInvariant.zeroed outside).conforms_iff calls

/-! ## A full page -/

theorem card_add_length_le {names : List RecordName} {rootId : RootId} {map : RecordMap}
    (hnew : ∀ name ∈ names, name ∉ map) (hnodup : names.Nodup)
    (hcard : map.keys.card ≤ maxRecords)
    (h : Machine.SpecAlong headerSpec Admitted map
      (names.map fun name => .insertRecord name rootId)) :
    map.keys.card + names.length ≤ maxRecords := by
  induction names generalizing map with
  | nil => exact hcard
  | cons name rest ih =>
    obtain ⟨hadmitted, hrest⟩ := h
    obtain ⟨hname, hnodup⟩ := List.nodup_cons.mp hnodup
    have hnot : name ∉ map := hnew name List.mem_cons_self
    have hroom : map.keys.card < maxRecords := hadmitted.2.resolve_left hnot
    rw [headerSpec, if_neg (not_or.mpr ⟨hnot, Nat.not_le.mpr hroom⟩)] at hrest
    have hkeys : (map.insert name rootId).keys = insert name map.keys := by
      ext other
      rw [Finmap.mem_keys, Finmap.mem_insert, Finset.mem_insert, Finmap.mem_keys]
    have hcard' : (map.insert name rootId).keys.card = map.keys.card + 1 := by
      rw [hkeys, Finset.card_insert_of_notMem (fun hmem => hnot (Finmap.mem_keys.mp hmem))]
    have hnew' : ∀ other ∈ rest, other ∉ map.insert name rootId := by
      intro other hother hmem
      rcases Finmap.mem_insert.mp hmem with rfl | hmem
      · exact hname hother
      · exact hnew other (List.mem_cons_of_mem _ hother) hmem
    have hle := ih hnew' hnodup (by omega) hrest
    rw [List.length_cons]
    omega

def byteName (index : Fin 114) : RecordName :=
  ⟨[UInt8.ofNat (index + 1)], by decide +revert⟩

theorem byteName_injective : Function.Injective byteName := by
  intro first second h
  have hbyte : UInt8.ofNat (first + 1) = UInt8.ofNat (second + 1) :=
    (List.cons.inj (congrArg Subtype.val h)).1
  have hnat := congrArg UInt8.toNat hbyte
  rw [UInt8.toNat_ofNat', UInt8.toNat_ofNat'] at hnat
  ext
  omega

def manyInserts : List HeaderCall :=
  ((List.finRange 114).map byteName).map fun name => .insertRecord name ⟨0, by decide⟩

/-- The record of the last of them is written past the end of the page. -/
theorem manyInserts_not_conforms : ¬ headerMachine.Conforms (HoldsMap fun _ => 0) headerSpec
    (zeroedPage fun _ => 0) ∅ manyInserts := by
  intro hconforms
  have halong := ((HeaderInvariant.zeroed fun _ => 0).conforms_iff manyInserts).mp hconforms
  have hnodup : ((List.finRange 114).map byteName).Nodup :=
    (List.nodup_finRange 114).map byteName_injective
  have hlength := card_add_length_le (fun _ _ => Finmap.notMem_empty) hnodup (Nat.zero_le _) halong
  rw [List.length_map, List.length_finRange, maxRecords] at hlength
  omega

end BusTub
