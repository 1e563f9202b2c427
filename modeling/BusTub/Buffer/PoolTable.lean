import BusTub.Buffer.BufferPool
import BusTub.Container.HashRefinement

/-!
# The pool over its hash table

The results about the pool are proved with a map from pages to frames as its page
table.  This file shows that the pool with the extendible hash table of the source is
the same machine: seen through `BufferPool.view`, which reads the table as a map, every
call on it is the call on the map pool, answer for answer and fault for fault.

The one thing that could come between them is a directory that cannot be doubled any
more.  The table hashes a page id to itself and its buckets hold four pairs, so that
would take five ids that agree on their low thirty bits.  There are only four of them
among the values of `page_id_t`.
-/

namespace BusTub

open Machines ExtendibleHashTable

/-- The page table of the source. -/
abbrev HashPageTable := ExtendibleHashTable PageId FrameId

/-- A value of `page_id_t`, which is an `int32_t`. -/
def FitsPageId (pageId : PageId) : Prop := -2 ^ 31 ≤ pageId ∧ pageId < 2 ^ 31

/-! ## Page ids in a table -/

theorem pageHash_mod (pageId : ℤ) : ((pageHash pageId % 2 ^ 30 : ℕ) : ℤ) = pageId % 2 ^ 30 := by
  unfold pageHash
  omega

/-- The values of `page_id_t` with given low bits. -/
def congruentIds (low : ℤ) : Finset PageId := {low - 2 ^ 31, low - 2 ^ 30, low, low + 2 ^ 30}

theorem mem_congruentIds {pageId : ℤ} (h : FitsPageId pageId) :
    pageId ∈ congruentIds (pageId % 2 ^ 30) := by
  have hmin : (-2147483648 : ℤ) ≤ pageId := h.1
  have hmax : pageId < (2147483648 : ℤ) := h.2
  simp only [congruentIds, Finset.mem_insert, Finset.mem_singleton]
  omega

/-- With buckets of four pairs or more, keys that are 32-bit integers are never crowded. -/
theorem not_crowded_of_fits {K V : Type*} [DecidableEq K] {number : K → ℤ} {hash : K → ℕ}
    {table : ExtendibleHashTable K V} {key : K} (hinjective : Function.Injective number)
    (hhash : ∀ key, hash key = pageHash (number key)) (hsize : 4 ≤ table.bucketSize)
    (hkey : FitsPageId (number key))
    (hstored : ∀ other, (table.find hash other).isSome → FitsPageId (number other)) :
    ¬ Crowded hash table key := by
  rintro ⟨others, hnodup, habsent, hlength, hcrowd⟩
  have hsubset : ((key :: others).map number).toFinset ⊆ congruentIds (number key % 2 ^ 30) := by
    intro other hother
    rw [List.mem_toFinset, List.map_cons, List.mem_cons, List.mem_map] at hother
    rcases hother with rfl | ⟨other, hother, rfl⟩
    · exact mem_congruentIds hkey
    · obtain ⟨hfound, hmod⟩ := hcrowd other hother
      have hlow : number other % 2 ^ 30 = number key % 2 ^ 30 := by
        rw [hhash, hhash] at hmod
        rw [← pageHash_mod, ← pageHash_mod]
        exact congrArg Int.ofNat hmod
      exact hlow ▸ mem_congruentIds (hstored other hfound)
  -- more than four numbers in a set of four
  have hdistinct : ((key :: others).map number).Nodup :=
    (List.nodup_cons.mpr ⟨habsent, hnodup⟩).map hinjective
  have hcard := Finset.card_le_card hsubset
  rw [List.toFinset_card_of_nodup hdistinct, List.length_map, List.length_cons, hlength] at hcard
  have hfour : (congruentIds (number key % 2 ^ 30)).card ≤ 4 := Finset.card_le_four
  omega

structure ValidTable (table : HashPageTable) : Prop where
  wellFormed : WellFormed pageHash table
  bucketSize_eq : table.bucketSize = 4
  fits : ∀ pageId, (table.find pageHash pageId).isSome → FitsPageId pageId

namespace ValidTable

variable {table : HashPageTable} {pageId : PageId}

theorem not_crowded (h : ValidTable table) (hfits : FitsPageId pageId) :
    ¬ Crowded pageHash table pageId :=
  not_crowded_of_fits Function.injective_id (fun _ => rfl) h.bucketSize_eq.ge hfits h.fits

theorem create : ValidTable (.create 4) :=
  ⟨wellFormed_create pageHash 4, rfl, fun pageId hstored => by simp [find_create] at hstored⟩

theorem insert (h : ValidTable table) (hfits : FitsPageId pageId) (frameId : FrameId) :
    ∃ next, table.insert pageHash pageId frameId = .ok next ∧ ValidTable next ∧
      next.find pageHash = Function.update (table.find pageHash) pageId (some frameId) := by
  have hinserts := insert_inserts h.wellFormed pageId frameId
  cases hinsert : table.insert pageHash pageId frameId with
  | error fault =>
    rw [hinsert] at hinserts
    exact absurd hinserts.2 (h.not_crowded hfits)
  | ok next =>
    rw [hinsert] at hinserts
    obtain ⟨hwell, hsize, hfind⟩ := hinserts
    refine ⟨next, rfl, ⟨hwell, hsize.trans h.bucketSize_eq, fun query hquery => ?_⟩, ?_⟩
    · rw [hfind] at hquery
      by_cases hsame : query = pageId
      · exact hsame ▸ hfits
      · rw [if_neg hsame] at hquery
        exact h.fits query hquery
    · funext query
      rw [hfind, Function.update_apply]

theorem remove (h : ValidTable table) (pageId : PageId) :
    ValidTable (table.remove pageHash pageId).2 ∧
      (table.remove pageHash pageId).2.find pageHash =
        Function.update (table.find pageHash) pageId none := by
  have hfind : (table.remove pageHash pageId).2.find pageHash =
      Function.update (table.find pageHash) pageId none := by
    funext query
    rw [find_remove h.wellFormed, Function.update_apply]
  refine ⟨⟨h.wellFormed.remove pageId, h.bucketSize_eq, fun query hquery => ?_⟩, hfind⟩
  rw [hfind] at hquery
  by_cases hsame : query = pageId
  · simp [hsame] at hquery
  · rw [Function.update_of_ne hsame] at hquery
    exact h.fits query hquery

end ValidTable

/-! ## Any table with 32-bit keys -/

/-- `std::hash<int>`, the identity: the key converted to `size_t`. -/
def int32Hash (key : Int32) : ℕ := pageHash key.toInt

theorem fitsPageId_toInt (key : Int32) : FitsPageId key.toInt :=
  ⟨Int32.le_toInt key, Int32.toInt_lt key⟩

theorem int32_step {V : Type*} {table : ExtendibleHashTable Int32 V}
    (h : WellFormed int32Hash table) (hsize : 4 ≤ table.bucketSize) (call : HashCall Int32 V) :
    ∃ answer next, (hashMachine int32Hash).step table call = .ok (answer, next) ∧
      WellFormed int32Hash next ∧ 4 ≤ next.bucketSize := by
  have hrepresents : ExtendibleHashTable.Represents int32Hash table.bucketSize table
      (table.find int32Hash) :=
    ⟨h, rfl, fun _ => rfl⟩
  cases hstep : (hashMachine int32Hash).step table call with
  | ok result =>
    obtain ⟨hwell, hnext, -⟩ := (hashMachine_step hrepresents hstep).2
    exact ⟨result.1, result.2, rfl, hwell, hnext ▸ hsize⟩
  | error fault =>
    cases call with
    | find key => cases hstep
    | remove key => cases hstep
    | insert key value =>
      -- only a crowded table would fault
      have hinserts := insert_inserts h key value
      simp only [hashMachine] at hstep
      cases hinsert : table.insert int32Hash key value with
      | ok next => simp [hinsert] at hstep
      | error stop =>
        rw [hinsert] at hinserts
        exact absurd hinserts.2 (not_crowded_of_fits (fun _ _ => Int32.toInt_inj.mp)
          (fun _ => rfl) hsize (fitsPageId_toInt key) fun other _ => fitsPageId_toInt other)

/-- **The directory does not overflow.**  With 32-bit keys and buckets of four pairs or more, every
call of every sequence returns, and the global depth is at most 30 throughout. -/
theorem int32_globalDepth_le {V : Type*} {bucketSize : ℕ} (hsize : 4 ≤ bucketSize)
    (calls : List (HashCall Int32 V)) :
    (hashMachine int32Hash).Always (fun table => table.globalDepth ≤ 30)
      (create bucketSize : ExtendibleHashTable Int32 V) calls := by
  have hstart : WellFormed int32Hash (create bucketSize : ExtendibleHashTable Int32 V) ∧
      4 ≤ bucketSize := ⟨wellFormed_create int32Hash bucketSize, hsize⟩
  have hany : (hashMachine int32Hash).Along (fun _ _ => True)
      (create bucketSize : ExtendibleHashTable Int32 V) calls :=
    Machine.along_of_forall_mem (fun _ _ => trivial) _
  exact Machine.always_of_invariant (fun table h => Nat.le_of_lt_succ h.1.globalDepth_lt)
    (fun table call h _ => int32_step h.1 h.2 call) hstart hany

/-- Five keys with one index up to depth 30, in buckets of four: the fifth one splits. -/
theorem int32_globalDepth_le_five :
    (hashMachine int32Hash).Always (fun table => table.globalDepth ≤ 30)
      (create 4 : ExtendibleHashTable Int32 ℕ)
      [.insert 0 0, .insert 1073741824 1, .insert (-1073741824) 2, .insert (-2147483648) 3,
        .insert 1 4] :=
  int32_globalDepth_le (by decide) _

/-! ## The map pool that a pool is -/

namespace BufferPool

variable {pool : BufferPool HashPageTable} {frameId : FrameId} {pageId : PageId}

def view (pool : BufferPool HashPageTable) : BufferPool PageMap where
  poolSize := pool.poolSize
  nextPageId := pool.nextPageId
  pages := pool.pages
  pageTable := pool.pageTable.find pageHash
  replacer := pool.replacer
  freeList := pool.freeList
  disk := pool.disk

@[simp] theorem view_find (pool : BufferPool HashPageTable) (pageId : PageId) :
    PageTable.find pool.view.pageTable pageId = PageTable.find pool.pageTable pageId := rfl

theorem view_create (poolSize k : ℕ) : view (create poolSize k) = create poolSize k := rfl

/-- A call on the map pool that is a call on the pool, seen through `view`. -/
def Mirrors {Answer : Type} (concrete : Except PoolFault (Answer × BufferPool HashPageTable))
    (abstract : Except PoolFault (Answer × BufferPool PageMap)) : Prop :=
  abstract = concrete.map (Prod.map id view) ∧
    ∀ answer next, concrete = .ok (answer, next) → ValidTable next.pageTable

theorem Mirrors.ok {Answer : Type} (h : ValidTable pool.pageTable) (answer : Answer) :
    Mirrors (.ok (answer, pool)) (.ok (answer, pool.view)) := by
  refine ⟨rfl, fun _ next hnext => ?_⟩
  cases hnext
  exact h

theorem Mirrors.error {Answer : Type} (fault : PoolFault) :
    Mirrors (.error fault : Except PoolFault (Answer × BufferPool HashPageTable)) (.error fault) :=
  ⟨rfl, fun _ _ hnext => by cases hnext⟩

theorem Mirrors.map {Answer Other : Type}
    {concrete : Except PoolFault (Answer × BufferPool HashPageTable)}
    {abstract : Except PoolFault (Answer × BufferPool PageMap)} (h : Mirrors concrete abstract)
    (f : Answer → Other) :
    Mirrors
      (do
        let (answer, next) ← concrete
        return (f answer, next))
      (do
        let (answer, next) ← abstract
        return (f answer, next)) := by
  obtain ⟨rfl, hvalid⟩ := h
  cases concrete with
  | error fault => exact .error fault
  | ok result => exact .ok (hvalid result.1 result.2 rfl) (f result.1)

/-! ### Operations that do not use the table -/

theorem view_takeFrame (pool : BufferPool HashPageTable) :
    pool.view.takeFrame = pool.takeFrame.map (Prod.map id view) := by
  unfold takeFrame
  cases hfree : pool.freeList with
  | cons frameId rest => simp only [view, hfree]; rfl
  | nil =>
    simp only [view, hfree]
    cases pool.replacer.evict with
    | error fault => rfl
    | ok result => rfl

theorem takeFrame_keeps {taken : Option FrameId} {next : BufferPool HashPageTable}
    (htake : pool.takeFrame = .ok (taken, next)) :
    next.pageTable = pool.pageTable ∧ next.nextPageId = pool.nextPageId := by
  unfold takeFrame at htake
  split at htake
  · cases htake
    exact ⟨rfl, rfl⟩
  · split at htake
    · simp at htake
    · cases htake
      exact ⟨rfl, rfl⟩

theorem view_writeBack (pool : BufferPool HashPageTable) (frameId : FrameId) :
    (pool.writeBack frameId).view = pool.view.writeBack frameId := by
  unfold writeBack
  cases hdirty : (pool.pages frameId).isDirty with
  | true => simp only [view, hdirty]; rfl
  | false => simp only [view, hdirty]; rfl

theorem writeBack_pageTable (pool : BufferPool HashPageTable) (frameId : FrameId) :
    (pool.writeBack frameId).pageTable = pool.pageTable := by
  by_cases hdirty : (pool.pages frameId).isDirty = true
  · simp only [writeBack, hdirty, if_true]
    rfl
  · simp only [writeBack, hdirty]
    rfl

theorem view_recordPin (pool : BufferPool HashPageTable) (frameId : FrameId) :
    pool.view.recordPin frameId = (pool.recordPin frameId).map view := by
  unfold recordPin
  simp only [view]
  rcases pool.replacer.recordAccess frameId with fault | ⟨_ | _, replacer⟩
  · rfl
  · rfl
  · rfl

theorem recordPin_pageTable {next : BufferPool HashPageTable}
    (hpin : pool.recordPin frameId = .ok next) : next.pageTable = pool.pageTable := by
  unfold recordPin at hpin
  split at hpin
  · simp at hpin
  · simp at hpin
  · cases hpin
    rfl

/-! ### Operations that do -/

theorem view_installPage (h : ValidTable pool.pageTable) (hfits : FitsPageId pageId)
    (frameId : FrameId) (data : PageData) :
    pool.view.installPage frameId pageId data =
        (pool.installPage frameId pageId data).map view ∧
      ∀ next, pool.installPage frameId pageId data = .ok next → ValidTable next.pageTable := by
  obtain ⟨hremoved, hremove⟩ := h.remove (pool.pages frameId).pageId
  obtain ⟨table, hinsert, htable, hfind⟩ := hremoved.insert hfits frameId
  have hconcrete : PageTable.insert (PageTable.remove pool.pageTable (pool.pages frameId).pageId)
      pageId frameId = .ok table := hinsert
  have habstract : PageTable.insert
      (PageTable.remove pool.view.pageTable (pool.view.pages frameId).pageId) pageId frameId =
      .ok (table.find pageHash) := by
    rw [hfind, hremove]
    rfl
  constructor
  · simp only [installPage, hconcrete, habstract]
    exact view_recordPin { pool.setFrame frameId { (pool.pages frameId).resetMemory with
      data := data, pageId := pageId, pinCount := 1 } with pageTable := table } frameId
  · intro next hnext
    simp only [installPage, hconcrete] at hnext
    rw [recordPin_pageTable hnext]
    exact htable

theorem Mirrors.installPage {Answer : Type} (h : ValidTable pool.pageTable)
    (hfits : FitsPageId pageId) (frameId : FrameId) (data : PageData) (answer : Answer) :
    Mirrors
      (do
        let next ← pool.installPage frameId pageId data
        return (answer, next))
      (do
        let next ← pool.view.installPage frameId pageId data
        return (answer, next)) := by
  obtain ⟨hview, hvalid⟩ := view_installPage h hfits frameId data
  rw [hview]
  cases hinstall : pool.installPage frameId pageId data with
  | error fault => exact .error fault
  | ok next => exact .ok (hvalid next hinstall) answer

theorem mirrors_newPg (h : ValidTable pool.pageTable) (hfits : FitsPageId pool.nextPageId) :
    Mirrors pool.newPg pool.view.newPg := by
  unfold newPg
  rw [view_takeFrame]
  cases htake : pool.takeFrame with
  | error fault => exact .error fault
  | ok result =>
    obtain ⟨_ | frameId, taken⟩ := result
    · obtain ⟨htable, _⟩ := takeFrame_keeps htake
      exact .ok (htable ▸ h) none
    · obtain ⟨htable, hnext⟩ := takeFrame_keeps htake
      have hvalid : ValidTable (taken.allocatePage.2.writeBack frameId).pageTable := by
        rw [writeBack_pageTable]
        exact htable ▸ h
      have hinstall := Mirrors.installPage hvalid (hnext ▸ hfits : FitsPageId taken.nextPageId)
        frameId zeroData (some (taken.nextPageId, frameId))
      rw [view_writeBack] at hinstall
      exact hinstall

theorem mirrors_fetchPg (h : ValidTable pool.pageTable) (hfits : FitsPageId pageId) :
    Mirrors (pool.fetchPg pageId) (pool.view.fetchPg pageId) := by
  unfold fetchPg
  rw [view_find]
  cases PageTable.find pool.pageTable pageId with
  | some frameId =>
    simp only [view_recordPin]
    cases hpin : pool.recordPin frameId with
    | error fault => exact .error fault
    | ok next =>
      have hvalid : ValidTable (next.setFrame frameId { next.pages frameId with
          pinCount := (next.pages frameId).pinCount + 1 }).pageTable :=
        recordPin_pageTable hpin ▸ h
      exact .ok hvalid (some frameId)
  | none =>
    simp only [view_takeFrame]
    cases htake : pool.takeFrame with
    | error fault => exact .error fault
    | ok result =>
      obtain ⟨_ | frameId, taken⟩ := result
      · obtain ⟨htable, _⟩ := takeFrame_keeps htake
        exact .ok (htable ▸ h) none
      · obtain ⟨htable, _⟩ := takeFrame_keeps htake
        have hvalid : ValidTable (taken.writeBack frameId).pageTable := by
          rw [writeBack_pageTable]
          exact htable ▸ h
        have hinstall := Mirrors.installPage hvalid hfits frameId
          ((taken.writeBack frameId).disk.readPage pageId) (some frameId)
        -- the two pools read the page from the same disk
        have hdisk : (taken.view.writeBack frameId).disk = (taken.writeBack frameId).disk := by
          rw [← view_writeBack]
          rfl
        rw [view_writeBack] at hinstall
        change Mirrors _ (do
          let next ← (taken.view.writeBack frameId).installPage frameId pageId
            ((taken.view.writeBack frameId).disk.readPage pageId)
          return (some frameId, next))
        rw [hdisk]
        exact hinstall

theorem view_unpinPg (pool : BufferPool HashPageTable) (pageId : PageId) (isDirty : Bool) :
    pool.view.unpinPg pageId isDirty =
        ((pool.unpinPg pageId isDirty).1, (pool.unpinPg pageId isDirty).2.view) ∧
      (pool.unpinPg pageId isDirty).2.pageTable = pool.pageTable := by
  unfold unpinPg
  rw [view_find]
  by_cases hinvalid : pageId = invalidPageId
  · simp [hinvalid]
  · simp only [hinvalid, if_false]
    cases PageTable.find pool.pageTable pageId with
    | none => exact ⟨rfl, rfl⟩
    | some frameId =>
      by_cases hpinned : (pool.pages frameId).pinCount = 0
      · simp [view, hpinned]
      · simp only [view, hpinned, if_false]
        exact ⟨rfl, rfl⟩

theorem view_flushPg (pool : BufferPool HashPageTable) (pageId : PageId) :
    pool.view.flushPg pageId = ((pool.flushPg pageId).1, (pool.flushPg pageId).2.view) ∧
      (pool.flushPg pageId).2.pageTable = pool.pageTable := by
  unfold flushPg
  rw [view_find]
  by_cases hinvalid : pageId = invalidPageId
  · simp [hinvalid]
  · simp only [hinvalid, if_false]
    cases PageTable.find pool.pageTable pageId with
    | none => exact ⟨rfl, rfl⟩
    | some frameId => exact ⟨rfl, rfl⟩

theorem view_flushAllPgs (pool : BufferPool HashPageTable) :
    pool.view.flushAllPgs = pool.flushAllPgs.view ∧
      pool.flushAllPgs.pageTable = pool.pageTable := by
  unfold flushAllPgs
  change (List.range pool.poolSize).foldl _ pool.view = _ ∧ _
  -- induction on the frames still to flush; the pools agree at every round
  induction List.range pool.poolSize generalizing pool with
  | nil => exact ⟨rfl, rfl⟩
  | cons i rest ih =>
    obtain ⟨hview, htable⟩ := view_flushPg pool (pool.pages i).pageId
    obtain ⟨hrest, hrestTable⟩ := ih (pool.flushPg (pool.pages i).pageId).2
    constructor
    · rw [List.foldl_cons, List.foldl_cons, ← hrest]
      exact congrArg (fun next => rest.foldl _ next) (congrArg Prod.snd hview)
    · rw [List.foldl_cons, hrestTable, htable]

theorem mirrors_deletePg (h : ValidTable pool.pageTable) (pageId : PageId) :
    Mirrors (pool.deletePg pageId) (pool.view.deletePg pageId) := by
  unfold deletePg
  rw [view_find]
  by_cases hinvalid : pageId = invalidPageId
  · simp only [hinvalid, if_true]
    exact .ok h true
  · simp only [hinvalid, if_false]
    cases PageTable.find pool.pageTable pageId with
    | none => exact .ok h true
    | some frameId =>
      by_cases hpinned : (pool.pages frameId).pinCount > 0
      · simp only [view, hpinned, if_true]
        exact .ok h false
      · simp only [view, hpinned, if_false]
        rcases pool.replacer.remove frameId with fault | ⟨_ | _, replacer⟩
        · exact .error _
        · exact .error _
        · obtain ⟨hvalid, hfind⟩ := h.remove pageId
          have hmirrors := Mirrors.ok (show ValidTable
            { pool.setFrame frameId (pool.pages frameId).resetMemory with
              replacer := replacer
              pageTable := (pool.pageTable.remove pageHash pageId).2
              freeList := pool.freeList ++ [frameId] }.pageTable from hvalid) true
          simp only [view, hfind] at hmirrors
          exact hmirrors

end BufferPool

/-! ## Runs -/

/-- The page ids that a call brings into the table are values of `page_id_t`. -/
def PoolCall.IdsFit (pool : BufferPool HashPageTable) : PoolCall → Prop
  | .newPage => FitsPageId pool.nextPageId
  | .fetchPage pageId => FitsPageId pageId
  | _ => True

open BufferPool in
theorem mirrors_step {pool : BufferPool HashPageTable} (h : ValidTable pool.pageTable)
    {call : PoolCall} (hfits : call.IdsFit pool) :
    Mirrors ((poolMachine HashPageTable).step pool call)
      ((poolMachine PageMap).step pool.view call) := by
  cases call with
  | newPage => exact (mirrors_newPg h hfits).map PoolAnswer.created
  | fetchPage pageId => exact (mirrors_fetchPg h hfits).map PoolAnswer.fetched
  | unpinPage pageId isDirty =>
    obtain ⟨hview, htable⟩ := view_unpinPg pool pageId isDirty
    simp only [poolMachine, hview]
    exact .ok (htable ▸ h) _
  | flushPage pageId =>
    obtain ⟨hview, htable⟩ := view_flushPg pool pageId
    simp only [poolMachine, hview]
    exact .ok (htable ▸ h) _
  | flushAllPages =>
    obtain ⟨hview, htable⟩ := view_flushAllPgs pool
    simp only [poolMachine, hview]
    exact .ok (htable ▸ h) _
  | deletePage pageId => exact (mirrors_deletePg h pageId).map PoolAnswer.returned
  | store frameId data => exact .ok (show ValidTable (pool.store frameId data).pageTable from h) _

/-- **The pool is the map pool.**  As long as page ids are values of `page_id_t`, a run of
the pool with the hash table is the run with the map: the same answers, the same faults,
and the same pool at the end, seen through its table. -/
theorem hashPool_run_eq (poolSize k : ℕ) {calls : List PoolCall}
    (hfits : (poolMachine HashPageTable).Along (fun pool call => call.IdsFit pool)
      (.create poolSize k) calls) :
    (poolMachine PageMap).run (.create poolSize k) calls =
      ((poolMachine HashPageTable).run (.create poolSize k) calls).map
        (Prod.map id BufferPool.view) := by
  exact Machine.run_view (fun pool call h hfits => (mirrors_step h hfits).1)
    (fun pool call answer next h hfits hstep => (mirrors_step h hfits).2 answer next hstep)
    (show ValidTable (BufferPool.create poolSize k : BufferPool HashPageTable).pageTable from
      ValidTable.create) hfits

/-- The first page, in a pool of one frame. -/
theorem hashPool_run_eq_one :
    (poolMachine PageMap).run (.create 1 2) [.newPage] =
      ((poolMachine HashPageTable).run (.create 1 2) [.newPage]).map
        (Prod.map id BufferPool.view) :=
  hashPool_run_eq 1 2 ⟨⟨by decide, by decide⟩, fun _ _ _ => trivial⟩

end BusTub
