import BusTub.Buffer.ReplacerLists
import BusTub.Buffer.ReplacerOrder
import Mathlib.Data.Int.Interval

/-!
# The bookkeeping of the replacer

`Represents` ties a replacer to the access log: its pointers form the two lists
the log prescribes, `mp_` holds the frames of the log, and the two counters count
them.  Every call on frames of the pool returns and keeps `Represents`, so every
history of calls does.
-/

namespace BusTub

open Function LinkedHeap Machines

/-! ## The representation -/

/-- The frame the code keeps for an entry: only the last `k` timestamps, oldest first. -/
def Entry.toFrame (k : ℕ) (entry : Entry) : Frame where
  timestamps := (entry.accesses.take k).reverse
  recordCnt := entry.accesses.length
  evictable := entry.evictable

theorem pushTimestamp_take {k : ℕ} (hk : 1 ≤ k) (accesses : List ℕ) (time : ℕ) :
    LRUKReplacer.pushTimestamp k (accesses.take k).reverse time =
      ((time :: accesses).take k).reverse := by
  obtain ⟨m, rfl⟩ := Nat.exists_eq_add_of_le' hk
  unfold LRUKReplacer.pushTimestamp
  rw [List.take_succ_cons, List.reverse_cons, List.length_reverse, List.length_take]
  by_cases hfull : m < accesses.length
  · rw [if_pos (by omega), List.tail_reverse, List.take_succ_eq_append_getElem hfull,
      List.dropLast_concat]
  · rw [if_neg (by omega), List.take_of_length_le (by omega), List.take_of_length_le (by omega)]

/-- The replacer of `numFrames` frames keeps the books of the log. -/
structure Represents (numFrames k : ℕ) (replacer : LRUKReplacer) (log : AccessLog)
    (history lru : List FrameId) : Prop where
  replacerSize : replacer.replacerSize = numFrames
  k_eq : replacer.k = k
  clock : replacer.currentTimestamp = log.clock
  lists : TwoLists replacer.links history lru
  placed : Placed k log history lru
  mp : replacer.mp = fun frameId => (log.entries frameId).map (Entry.toFrame k)
  inRange : log.trackedFrames ⊆ Set.Ico 0 (numFrames : ℤ)
  totSize : replacer.totSize = log.trackedFrames.ncard
  currSize : replacer.currSize = log.evictableFrames.ncard

namespace Represents

variable {numFrames k : ℕ} {replacer : LRUKReplacer} {log : AccessLog}
  {history lru : List FrameId} {frameId : FrameId}

theorem create (numFrames : ℕ) {k : ℕ} (hk : 1 ≤ k) :
    Represents numFrames k (.create numFrames k) .empty [] [] where
  replacerSize := rfl
  k_eq := rfl
  clock := rfl
  lists := TwoLists.create
  placed := Placed.empty hk
  mp := rfl
  inRange := by simp [AccessLog.trackedFrames, AccessLog.empty]
  totSize := by simp [LRUKReplacer.create, AccessLog.trackedFrames, AccessLog.empty]
  currSize := by
    simp [LRUKReplacer.create, AccessLog.evictableFrames, AccessLog.Evictable, AccessLog.empty]

variable (h : Represents numFrames k replacer log history lru)
include h

theorem tracked_finite :
    log.trackedFrames.Finite :=
  (Set.finite_Ico _ _).subset h.inRange

theorem evictable_finite :
    log.evictableFrames.Finite :=
  h.tracked_finite.subset log.evictableFrames_subset

theorem length_lists (hk : 1 ≤ k) :
    (history ++ lru).length = replacer.totSize := by
  have hset : log.trackedFrames = ((history ++ lru).toFinset : Set FrameId) := by
    ext frameId
    rw [List.coe_toFinset, Set.mem_ofPred_eq, h.placed.mem_append_iff hk]
  rw [h.totSize, hset, Set.ncard_coe_finset, List.toFinset_card_of_nodup h.lists.nodup]

theorem totSize_le :
    replacer.totSize ≤ numFrames := by
  calc replacer.totSize = log.trackedFrames.ncard := h.totSize
    _ ≤ (Set.Ico 0 (numFrames : ℤ)).ncard := Set.ncard_le_ncard h.inRange (Set.finite_Ico _ _)
    _ = numFrames := by simp [Set.ncard_eq_toFinset_card']

/-- There is room for a frame that is not tracked: this is why `RecordAccess` does
not reach its call of `Evict`. -/
theorem totSize_lt
    (hrange : frameId ∈ Set.Ico 0 (numFrames : ℤ)) (hnew : frameId ∉ log.trackedFrames) :
    replacer.totSize < numFrames := by
  have hproper : log.trackedFrames ⊂ Set.Ico 0 (numFrames : ℤ) :=
    ⟨h.inRange, fun hsubset => hnew (hsubset hrange)⟩
  calc replacer.totSize = log.trackedFrames.ncard := h.totSize
    _ < (Set.Ico 0 (numFrames : ℤ)).ncard := Set.ncard_lt_ncard hproper (Set.finite_Ico _ _)
    _ = numFrames := by simp [Set.ncard_eq_toFinset_card']

/-! ## `RecordAccess` -/

theorem accessedFrame_eq (hk : 1 ≤ k)
    (frameId : FrameId) :
    replacer.accessedFrame frameId (replacer.currentTimestamp + 1) =
      (log.touched frameId).toFrame k := by
  have hmp : replacer.mp frameId = (log.entries frameId).map (Entry.toFrame k) :=
    congrFun h.mp frameId
  unfold LRUKReplacer.accessedFrame AccessLog.touched
  rw [hmp, h.k_eq, h.clock]
  cases log.entries frameId with
  | none =>
    obtain ⟨m, rfl⟩ := Nat.exists_eq_add_of_le' hk
    simp [Entry.toFrame, Entry.accesses, LRUKReplacer.pushTimestamp]
  | some entry =>
    simp only [Option.map_some, Option.getD_some, Entry.toFrame, pushTimestamp_take hk]
    rfl

/-- What remains to be shown of an access once the frame is on the right list. -/
theorem of_record (hk : 1 ≤ k)
    (hrange : frameId ∈ Set.Ico 0 (numFrames : ℤ)) {links : Links NodePtr} {added : ℕ}
    {history' lru' : List FrameId}
    (hlists : TwoLists links history' lru') (hplaced : Placed k (log.record frameId) history' lru')
    (hadded : frameId ∈ log.trackedFrames ∧ added = 0 ∨ log.entries frameId = none ∧ added = 1) :
    Represents numFrames k
      { replacer with
        currentTimestamp := replacer.currentTimestamp + 1
        mp := update replacer.mp frameId
          (some (replacer.accessedFrame frameId (replacer.currentTimestamp + 1)))
        links := links
        currSize := replacer.currSize + added
        totSize := replacer.totSize + added } (log.record frameId) history' lru' where
  replacerSize := h.replacerSize
  k_eq := h.k_eq
  clock := by rw [h.clock]; rfl
  lists := hlists
  placed := hplaced
  mp := by
    rw [h.accessedFrame_eq hk, h.mp]
    exact (Function.comp_update (Option.map (Entry.toFrame k)) log.entries frameId
      (some (log.touched frameId))).symm
  inRange := by
    rw [AccessLog.record_trackedFrames]
    exact Set.insert_subset hrange h.inRange
  totSize := by
    rw [AccessLog.record_trackedFrames, h.totSize]
    rcases hadded with ⟨htracked, rfl⟩ | ⟨hnew, rfl⟩
    · rw [Set.insert_eq_of_mem htracked]
      rfl
    · exact (Set.ncard_insert_of_notMem (by simp [AccessLog.trackedFrames, hnew])
        h.tracked_finite).symm
  currSize := by
    rw [h.currSize]
    rcases hadded with ⟨htracked, rfl⟩ | ⟨hnew, rfl⟩
    · rw [AccessLog.record_evictableFrames_of_tracked htracked]
      rfl
    · rw [AccessLog.record_evictableFrames_of_new hnew]
      exact (Set.ncard_insert_of_notMem
        (by simp [AccessLog.evictableFrames, AccessLog.Evictable, hnew]) h.evictable_finite).symm

theorem place_new (hk : 1 ≤ k)
    (hrange : frameId ∈ Set.Ico 0 (numFrames : ℤ)) (hnew : log.entries frameId = none) :
    ∃ links₁ links₂ history' lru',
      replacer.admitFrame (replacer.nodeLinks frameId) frameId 1 = .ok (links₁, 1) ∧
      LRUKReplacer.promoteFrame k links₁ frameId 1 = .ok links₂ ∧
      TwoLists links₂ history' lru' ∧ Placed k (log.record frameId) history' lru' := by
  have huntracked : frameId ∉ log.trackedFrames := by simp [AccessLog.trackedFrames, hnew]
  have hnot : frameId ∉ history ++ lru := by rwa [h.placed.mem_append_iff hk]
  have hroom : replacer.totSize ≠ replacer.replacerSize := by
    rw [h.replacerSize]
    exact (h.totSize_lt hrange huntracked).ne
  obtain ⟨links₁, links₂, hadmit, hpromote, hlists₂⟩ :=
    h.lists.placeNew hnot (by simp [h.mp, hnew]) hroom
  rw [h.k_eq] at hpromote hlists₂
  refine ⟨links₁, links₂, _, _, hadmit, hpromote, hlists₂, ?_⟩
  by_cases hone : k ≤ 1
  · have hplaced : Placed k (log.record frameId) (history.erase frameId)
        (frameId :: lru.erase frameId) := h.placed.promote h.lists.nodup (by omega)
    rw [List.mem_append, not_or] at hnot
    rw [if_pos hone, if_pos hone]
    rwa [List.erase_of_not_mem hnot.1, List.erase_of_not_mem hnot.2] at hplaced
  · rw [if_neg hone, if_neg hone]
    exact h.placed.insert (by omega) hnew

theorem place_old (hk : 1 ≤ k)
    (htracked : frameId ∈ log.trackedFrames) {count : ℕ}
    (hcount : count = log.accessCount frameId + 1) :
    ∃ links history' lru',
      replacer.admitFrame (replacer.nodeLinks frameId) frameId count = .ok (replacer.links, 0) ∧
      LRUKReplacer.promoteFrame k replacer.links frameId count = .ok links ∧
      TwoLists links history' lru' ∧ Placed k (log.record frameId) history' lru' := by
  have hpos := AccessLog.accessCount_pos_iff.mpr htracked
  obtain ⟨entry, hentry⟩ := Option.isSome_iff_exists.mp htracked
  have hadmit : replacer.admitFrame (replacer.nodeLinks frameId) frameId count =
      .ok (replacer.links, 0) := by
    simp only [LRUKReplacer.admitFrame, if_neg (show count ≠ 1 by omega),
      LRUKReplacer.nodeLinks, h.mp, hentry]
    rfl
  by_cases hreach : k ≤ count
  · obtain ⟨links, hpromote, hlists⟩ :=
      h.lists.promote ((h.placed.mem_append_iff hk frameId).mpr htracked) hreach
    exact ⟨links, _, _, hadmit, hpromote, hlists, h.placed.promote h.lists.nodup (hcount ▸ hreach)⟩
  · refine ⟨replacer.links, _, _, hadmit, ?_, h.lists, h.placed.stay htracked (by omega)⟩
    simp [LRUKReplacer.promoteFrame, if_neg hreach]

/-- **`RecordAccess`** of a frame in range returns and records the access. -/
theorem recordAccess (hk : 1 ≤ k)
    (hrange : frameId ∈ Set.Ico 0 (numFrames : ℤ)) :
    ∃ next history' lru', replacer.recordAccess frameId = .ok (true, next) ∧
      Represents numFrames k next (log.record frameId) history' lru' := by
  have hguard : ¬ frameId > replacer.replacerSize := by
    rw [h.replacerSize]
    exact not_lt.mpr (le_of_lt hrange.2)
  have hcount : (replacer.accessedFrame frameId (replacer.currentTimestamp + 1)).recordCnt =
      log.accessCount frameId + 1 := by
    rw [h.accessedFrame_eq hk]
    exact AccessLog.touched_accesses_length
  -- the first access since the frame came in, or a later one
  cases hentry : log.entries frameId with
  | none =>
    have hzero : log.accessCount frameId = 0 := by simp [AccessLog.accessCount, hentry]
    obtain ⟨links₁, links₂, history', lru', hadmit, hpromote, hlists, hplaced⟩ :=
      h.place_new hk hrange hentry
    refine ⟨_, history', lru', ?_, h.of_record hk hrange hlists hplaced (.inr ⟨hentry, rfl⟩)⟩
    simp only [LRUKReplacer.recordAccess, if_neg hguard, hcount, hzero, hadmit, h.k_eq]
    simp only [bind, Except.bind, hpromote]
    rfl
  | some entry =>
    have htracked : frameId ∈ log.trackedFrames := Option.isSome_iff_exists.mpr ⟨entry, hentry⟩
    obtain ⟨links, history', lru', hadmit, hpromote, hlists, hplaced⟩ :=
      h.place_old hk htracked rfl
    refine ⟨_, history', lru', ?_, h.of_record hk hrange hlists hplaced (.inl ⟨htracked, rfl⟩)⟩
    simp only [LRUKReplacer.recordAccess, if_neg hguard, hcount, hadmit, h.k_eq]
    simp only [bind, Except.bind, hpromote]
    rfl

/-! ## `SetEvictable`, `Remove` and `Evict` -/

theorem evictableFlag_eq
    (frameId : FrameId) :
    replacer.evictableFlag frameId = (log.entries frameId).map Entry.evictable := by
  unfold LRUKReplacer.evictableFlag
  rw [h.mp, Option.map_map]
  rfl

theorem isEvictable_iff
    (frameId : FrameId) :
    replacer.isEvictable (.frame frameId) = true ↔ log.Evictable frameId := by
  unfold LRUKReplacer.isEvictable AccessLog.Evictable
  simp only [h.mp]
  cases log.entries frameId with
  | none => simp
  | some entry => simp [Entry.toFrame]

/-- `SetEvictable` with a flag that differs from the frame's. -/
theorem setEvictable_of_ne {flag : Bool}
    {entry : Entry} (hentry : log.entries frameId = some entry) (hne : entry.evictable ≠ flag) :
    Represents numFrames k
      { replacer with
        currSize := if flag then replacer.currSize + 1 else replacer.currSize - 1
        mp := update replacer.mp frameId
          (some { entry.toFrame k with evictable := flag }) }
      (log.setEvictable frameId flag) history lru := by
  have htracked : frameId ∈ log.trackedFrames := Option.isSome_iff_exists.mpr ⟨entry, hentry⟩
  have hmem : frameId ∈ log.evictableFrames ↔ entry.evictable = true := by
    simp [AccessLog.evictableFrames, AccessLog.Evictable, hentry]
  constructor
  · exact h.replacerSize
  · exact h.k_eq
  · exact h.clock
  · exact h.lists
  · exact h.placed.setEvictable flag
  · show update replacer.mp frameId _ = _
    rw [h.mp]
    refine .trans ?_ (Function.comp_update (Option.map (Entry.toFrame k)) log.entries frameId
      ((log.entries frameId).map fun entry => { entry with evictable := flag })).symm
    rw [hentry]
    rfl
  · rw [AccessLog.setEvictable_trackedFrames]
    exact h.inRange
  · rw [AccessLog.setEvictable_trackedFrames]
    exact h.totSize
  · -- the flag changes, so the frame enters or leaves the evictable ones
    rw [AccessLog.setEvictable_evictableFrames htracked, h.currSize]
    cases flag with
    | true =>
      have hnot : frameId ∉ log.evictableFrames := fun hin => hne (hmem.mp hin)
      simp [Set.ncard_insert_of_notMem hnot h.evictable_finite]
    | false =>
      have hin : frameId ∈ log.evictableFrames := hmem.mpr (by simpa using hne)
      simp [Set.ncard_sdiff_singleton_of_mem hin]

/-- **`SetEvictable`** of any frame. -/
theorem setEvictable (frameId : FrameId)
    (flag : Bool) :
    Represents numFrames k (replacer.setEvictable frameId flag) (log.setEvictable frameId flag)
      history lru := by
  have hmp : replacer.mp frameId = (log.entries frameId).map (Entry.toFrame k) :=
    congrFun h.mp frameId
  unfold LRUKReplacer.setEvictable
  cases hentry : log.entries frameId with
  | none =>
    rw [hmp, hentry, AccessLog.setEvictable_eq_self (by simp [hentry])]
    exact h
  | some entry =>
    rw [hmp, hentry]
    by_cases hflag : entry.evictable = flag
    · rw [AccessLog.setEvictable_eq_self (by simp [hentry, hflag])]
      simpa only [Option.map_some, Entry.toFrame, if_pos hflag] using h
    · simpa only [Option.map_some, Entry.toFrame, if_neg hflag] using
        h.setEvictable_of_ne hentry hflag

/-- Erasing a frame that may be evicted: what `Remove` and `Evict` share. -/
theorem eraseFrame (hk : 1 ≤ k)
    (hevictable : log.Evictable frameId) :
    ∃ next, replacer.eraseFrame frameId = .ok next ∧
      Represents numFrames k next (log.forget frameId) (history.erase frameId)
        (lru.erase frameId) := by
  have htracked : frameId ∈ log.trackedFrames := log.evictableFrames_subset hevictable
  obtain ⟨links, hremove, hlists⟩ :=
    h.lists.removeFromList ((h.placed.mem_append_iff hk frameId).mpr htracked)
  refine ⟨_, by simp only [LRUKReplacer.eraseFrame, hremove]; rfl, ?_⟩
  constructor
  · exact h.replacerSize
  · exact h.k_eq
  · exact h.clock
  · exact hlists
  · exact h.placed.forget hk h.lists.nodup
  · show update replacer.mp frameId none = _
    rw [h.mp]
    exact (Function.comp_update (Option.map (Entry.toFrame k)) log.entries frameId none).symm
  · rw [AccessLog.forget_trackedFrames]
    exact Set.sdiff_subset.trans h.inRange
  · show replacer.totSize - 1 = _
    rw [AccessLog.forget_trackedFrames, Set.ncard_sdiff_singleton_of_mem htracked, h.totSize]
  · show replacer.currSize - 1 = _
    have hmem : frameId ∈ log.evictableFrames := hevictable
    rw [AccessLog.forget_evictableFrames, Set.ncard_sdiff_singleton_of_mem hmem, h.currSize]

/-- **`Remove`** throws on a frame that may not be evicted, and otherwise the frame
is no longer tracked. -/
theorem remove (hk : 1 ≤ k)
    (frameId : FrameId) :
    replacer.evictableFlag frameId = some false ∧
        replacer.remove frameId = .ok (false, replacer) ∨
      replacer.evictableFlag frameId ≠ some false ∧
        ∃ next history' lru', replacer.remove frameId = .ok (true, next) ∧
          Represents numFrames k next (log.forget frameId) history' lru' := by
  have hmp : replacer.mp frameId = (log.entries frameId).map (Entry.toFrame k) :=
    congrFun h.mp frameId
  rw [h.evictableFlag_eq]
  unfold LRUKReplacer.remove
  rw [hmp]
  cases hentry : log.entries frameId with
  | none =>
    refine .inr ⟨by simp, replacer, history, lru, rfl, ?_⟩
    rwa [AccessLog.forget_eq_self hentry]
  | some entry =>
    cases hflag : entry.evictable with
    | false => exact .inl ⟨by simp [hflag], by simp [Entry.toFrame, hflag]⟩
    | true =>
      obtain ⟨next, herase, hnext⟩ := h.eraseFrame hk ⟨entry, hentry, hflag⟩
      refine .inr ⟨by simp [hflag], next, _, _, ?_, hnext⟩
      simp only [Option.map_some, Entry.toFrame, hflag, herase]
      rfl

omit h

/-- The frame `Evict` takes: the first evictable one from the back of the history
list, then from the back of the LRU list. -/
def candidate (replacer : LRUKReplacer) (history lru : List FrameId) : Option FrameId :=
  (history.reverse ++ lru.reverse).find? fun frameId => replacer.isEvictable (.frame frameId)

variable (h : Represents numFrames k replacer log history lru)
include h

theorem candidate_eq_none_iff
    (hk : 1 ≤ k) : candidate replacer history lru = none ↔ log.evictableFrames = ∅ := by
  rw [candidate, List.find?_eq_none, Set.eq_empty_iff_forall_notMem]
  constructor
  · intro hnone frameId hevictable
    have hmem := (h.placed.mem_append_iff hk frameId).mpr (log.evictableFrames_subset hevictable)
    refine hnone frameId ?_ ((h.isEvictable_iff frameId).mpr hevictable)
    simpa using hmem
  · intro hempty frameId _ hevictable
    exact hempty frameId ((h.isEvictable_iff frameId).mp hevictable)

theorem eraseFound (hk : 1 ≤ k)
    {frames : List FrameId}
    (hfind : (frames.find? fun id => replacer.isEvictable (.frame id)) = some frameId) :
    ∃ next, replacer.eraseFrame frameId = .ok next ∧ log.Evictable frameId ∧
      Represents numFrames k next (log.forget frameId) (history.erase frameId)
        (lru.erase frameId) := by
  have hfound := List.find?_some hfind
  have hevictable := (h.isEvictable_iff frameId).mp hfound
  obtain ⟨next, herase, hnext⟩ := h.eraseFrame hk hevictable
  exact ⟨next, herase, hevictable, hnext⟩

/-- **`Evict`** takes the candidate, if there is one. -/
theorem evict (hk : 1 ≤ k) :
    candidate replacer history lru = none ∧ replacer.evict = .ok (none, replacer) ∨
      ∃ frameId next, candidate replacer history lru = some frameId ∧
        replacer.evict = .ok (some frameId, next) ∧ log.Evictable frameId ∧
        Represents numFrames k next (log.forget frameId) (history.erase frameId)
          (lru.erase frameId) := by
  -- `tot_size_` is the length of both lists together, so neither walk runs out of steps
  have hlength := h.length_lists hk
  rw [List.length_append] at hlength
  have hhistory := TwoLists.searchEvictable_eq h.lists.historyList (by simp) (by omega)
  have hlru := TwoLists.searchEvictable_eq h.lists.lruList (by simp) (by omega)
  by_cases hsize : replacer.size = 0
  · -- no frame is evictable, so the walks the code skips would find nothing
    have hempty : log.evictableFrames = ∅ := by
      rw [← Set.ncard_eq_zero h.evictable_finite, ← h.currSize]
      exact hsize
    exact .inl ⟨(h.candidate_eq_none_iff hk).mpr hempty,
      by simp only [LRUKReplacer.evict, if_pos hsize]⟩
  · unfold LRUKReplacer.evict
    rw [if_neg hsize, hhistory, hlru]
    unfold candidate
    rw [List.find?_append]
    cases hfirst : history.reverse.find? fun id => replacer.isEvictable (.frame id) with
    | some frameId =>
      obtain ⟨next, herase, hevictable, hnext⟩ := h.eraseFound hk hfirst
      refine .inr ⟨frameId, next, rfl, ?_, hevictable, hnext⟩
      simp only [Option.map_some, herase]
      rfl
    | none =>
      cases hsecond : lru.reverse.find? fun id => replacer.isEvictable (.frame id) with
      | some frameId =>
        obtain ⟨next, herase, hevictable, hnext⟩ := h.eraseFound hk hsecond
        refine .inr ⟨frameId, next, rfl, ?_, hevictable, hnext⟩
        simp only [Option.map_some, Option.map_none, herase]
        rfl
      | none => exact .inl ⟨rfl, rfl⟩

omit h

end Represents

/-! ## Every history of calls -/

def ReplacerCall.InRange (numFrames : ℕ) : ReplacerCall → Prop
  | .recordAccess frameId => frameId ∈ Set.Ico 0 (numFrames : ℤ)
  | .setEvictable frameId _ => frameId ∈ Set.Ico 0 (numFrames : ℤ)
  | .remove frameId => frameId ∈ Set.Ico 0 (numFrames : ℤ)
  | .evict => True

/-- The replacer represents what an observer has seen, with some two lists. -/
def KeepsBooks (numFrames k : ℕ) (state : LRUKReplacer × AccessLog) : Prop :=
  ∃ history lru, Represents numFrames k state.1 state.2 history lru

/-- **One call** returns and keeps the books. -/
theorem KeepsBooks.step {numFrames k : ℕ} (hk : 1 ≤ k) {state : LRUKReplacer × AccessLog}
    {call : ReplacerCall} (h : KeepsBooks numFrames k state) (hrange : call.InRange numFrames) :
    ∃ answer next, (replacerMachine.withGhost AccessLog.after).step state call =
      .ok (answer, next) ∧ KeepsBooks numFrames k next := by
  obtain ⟨replacer, log⟩ := state
  obtain ⟨history, lru, h⟩ := h
  cases call with
  | recordAccess frameId =>
    obtain ⟨next, history', lru', hstep, hnext⟩ := h.recordAccess hk hrange
    have hcall : replacerMachine.step replacer (.recordAccess frameId) = .ok (.done, next) := by
      simp only [replacerMachine, hstep]
      rfl
    exact ⟨_, _, Machine.withGhost_step_of_ok hcall log, history', lru', hnext⟩
  | setEvictable frameId flag =>
    exact ⟨_, _, Machine.withGhost_step_of_ok rfl log, history, lru, h.setEvictable frameId flag⟩
  | remove frameId =>
    rcases h.remove hk frameId with ⟨_, hstep⟩ | ⟨_, next, history', lru', hstep, hnext⟩
    · have hcall : replacerMachine.step replacer (.remove frameId) = .ok (.threw, replacer) := by
        simp only [replacerMachine, hstep]
        rfl
      exact ⟨_, _, Machine.withGhost_step_of_ok hcall log, history, lru, h⟩
    · have hcall : replacerMachine.step replacer (.remove frameId) = .ok (.done, next) := by
        simp only [replacerMachine, hstep]
        rfl
      exact ⟨_, _, Machine.withGhost_step_of_ok hcall log, history', lru', hnext⟩
  | evict =>
    rcases h.evict hk with ⟨_, hstep⟩ | ⟨frameId, next, _, hstep, _, hnext⟩
    · have hcall : replacerMachine.step replacer .evict = .ok (.evicted none, replacer) := by
        simp only [replacerMachine, hstep]
        rfl
      exact ⟨_, _, Machine.withGhost_step_of_ok hcall log, history, lru, h⟩
    · have hcall : replacerMachine.step replacer .evict =
          .ok (.evicted (some frameId), next) := by
        simp only [replacerMachine, hstep]
        rfl
      exact ⟨_, _, Machine.withGhost_step_of_ok hcall log, _, _, hnext⟩

/-- **Every history of calls** on a fresh replacer returns and keeps the books. -/
theorem keepsBooks_run {numFrames k : ℕ} (hk : 1 ≤ k) {calls : List ReplacerCall}
    (hrange : ∀ call ∈ calls, call.InRange numFrames) :
    ∃ answers state, (replacerMachine.withGhost AccessLog.after).run
      (.create numFrames k, .empty) calls = .ok (answers, state) ∧
      KeepsBooks numFrames k state :=
  Machine.run_of_invariant (fun _ _ h hcall => h.step hk hcall)
    ⟨[], [], Represents.create numFrames hk⟩ (Machine.along_of_forall_mem hrange _)

/-- The bookkeeping of the replacer, read off its own data.  The log only says how
often a frame has been accessed since it was inserted. -/
structure Bookkeeping (numFrames k : ℕ) (replacer : LRUKReplacer) (log : AccessLog) : Prop where
  /-- The lists are well linked, without duplicates and disjoint, they hold the
  tracked frames, and the LRU list those with at least `k` accesses. -/
  lists : ∃ history lru, TwoLists replacer.links history lru ∧
    (∀ frameId, frameId ∈ history ++ lru ↔ replacer.Tracked frameId) ∧
    ∀ frameId, frameId ∈ lru ↔ k ≤ log.accessCount frameId
  totSize : replacer.totSize = {frameId | replacer.Tracked frameId}.ncard
  totSize_le : replacer.totSize ≤ numFrames
  currSize : replacer.currSize = {frameId | replacer.evictableFlag frameId = some true}.ncard
  /-- `Evict` succeeds exactly when some tracked frame is evictable, and then stops
  tracking the frame it returns and no other. -/
  evict : ∃ victim next, replacer.evict = .ok (victim, next) ∧
    (victim.isSome ↔ ∃ frameId, replacer.evictableFlag frameId = some true) ∧
    (∀ frameId, victim = some frameId → replacer.evictableFlag frameId = some true ∧
      next.mp = Function.update replacer.mp frameId none) ∧
    (victim = none → next = replacer)
  /-- `Remove` of a frame that is not evictable throws and changes nothing. -/
  remove : ∀ frameId, replacer.evictableFlag frameId = some false →
    replacer.remove frameId = .ok (false, replacer)

namespace Represents

variable {numFrames k : ℕ} {replacer : LRUKReplacer} {log : AccessLog}
  {history lru : List FrameId}

variable (h : Represents numFrames k replacer log history lru)
include h

theorem tracked_iff (frameId : FrameId) :
    replacer.Tracked frameId ↔ frameId ∈ log.trackedFrames := by
  unfold LRUKReplacer.Tracked AccessLog.trackedFrames
  simp [h.mp]

theorem evictableFlag_iff
    (frameId : FrameId) :
    replacer.evictableFlag frameId = some true ↔ frameId ∈ log.evictableFrames := by
  rw [h.evictableFlag_eq, Option.map_eq_some_iff]
  rfl

theorem evict_bookkeeping (hk : 1 ≤ k) :
    ∃ victim next, replacer.evict = .ok (victim, next) ∧
      (victim.isSome ↔ ∃ frameId, replacer.evictableFlag frameId = some true) ∧
      (∀ frameId, victim = some frameId → replacer.evictableFlag frameId = some true ∧
        next.mp = update replacer.mp frameId none) ∧
      (victim = none → next = replacer) := by
  rcases h.evict hk with ⟨hnone, hstep⟩ | ⟨frameId, next, _, hstep, hevictable, hnext⟩
  · have hempty := (h.candidate_eq_none_iff hk).mp hnone
    refine ⟨none, replacer, hstep, ?_, by simp, fun _ => rfl⟩
    simp [h.evictableFlag_iff, hempty]
  · have hflag := (h.evictableFlag_iff frameId).mpr hevictable
    refine ⟨some frameId, next, hstep, ⟨fun _ => ⟨frameId, hflag⟩, fun _ => rfl⟩, ?_, by simp⟩
    rintro _ ⟨⟩
    refine ⟨hflag, ?_⟩
    rw [hnext.mp, h.mp]
    exact Function.comp_update (Option.map (Entry.toFrame k)) log.entries frameId none

theorem bookkeeping (hk : 1 ≤ k) :
    Bookkeeping numFrames k replacer log where
  lists := by
    refine ⟨history, lru, h.lists, fun frameId => ?_, h.placed.mem_lru⟩
    rw [h.placed.mem_append_iff hk, h.tracked_iff]
  totSize := by
    simp only [h.tracked_iff]
    exact h.totSize
  totSize_le := h.totSize_le
  currSize := by
    simp only [h.evictableFlag_iff]
    exact h.currSize
  evict := h.evict_bookkeeping hk
  remove := by
    intro frameId hflag
    rcases h.remove hk frameId with ⟨_, hstep⟩ | ⟨hne, _⟩
    · exact hstep
    · exact absurd hflag hne

omit h

end Represents

def Booked (numFrames k : ℕ) (replacer : LRUKReplacer) : Prop :=
  ∃ log history lru, Represents numFrames k replacer log history lru

namespace Booked

variable {numFrames k : ℕ} {replacer : LRUKReplacer} {frameId : FrameId}

theorem create (numFrames : ℕ) {k : ℕ} (hk : 1 ≤ k) :
    Booked numFrames k (.create numFrames k) :=
  ⟨_, _, _, Represents.create numFrames hk⟩

theorem recordAccess (h : Booked numFrames k replacer) (hk : 1 ≤ k)
    (hrange : frameId ∈ Set.Ico 0 (numFrames : ℤ)) :
    ∃ next, replacer.recordAccess frameId = .ok (true, next) ∧ Booked numFrames k next ∧
      next.evictableFlag = update replacer.evictableFlag frameId
        (some ((replacer.evictableFlag frameId).getD true)) := by
  obtain ⟨log, history, lru, h⟩ := h
  obtain ⟨next, history', lru', hstep, hnext⟩ := h.recordAccess hk hrange
  refine ⟨next, hstep, ⟨_, _, _, hnext⟩, ?_⟩
  funext other
  rw [hnext.evictableFlag_eq, h.evictableFlag_eq]
  by_cases heq : other = frameId
  · subst heq
    cases hentry : log.entries other <;>
      simp [AccessLog.record, AccessLog.touched, hentry, Entry.touch]
  · simp [AccessLog.record, heq, h.evictableFlag_eq]

theorem setEvictable (h : Booked numFrames k replacer) (frameId : FrameId) (flag : Bool) :
    Booked numFrames k (replacer.setEvictable frameId flag) ∧
      (replacer.setEvictable frameId flag).evictableFlag =
        update replacer.evictableFlag frameId
          ((replacer.evictableFlag frameId).map fun _ => flag) := by
  obtain ⟨log, history, lru, h⟩ := h
  have hnext := h.setEvictable frameId flag
  refine ⟨⟨_, _, _, hnext⟩, ?_⟩
  funext other
  rw [hnext.evictableFlag_eq, h.evictableFlag_eq]
  by_cases heq : other = frameId
  · subst heq
    cases hentry : log.entries other <;> simp [AccessLog.setEvictable, hentry]
  · simp [AccessLog.setEvictable, heq, h.evictableFlag_eq]

theorem forget_flag {log : AccessLog} {next : LRUKReplacer}
    {history lru history' lru' : List FrameId}
    (h : Represents numFrames k replacer log history lru)
    (hnext : Represents numFrames k next (log.forget frameId) history' lru') :
    next.evictableFlag = update replacer.evictableFlag frameId none := by
  funext other
  rw [hnext.evictableFlag_eq]
  by_cases heq : other = frameId <;> simp [AccessLog.forget, heq, h.evictableFlag_eq]

theorem remove (h : Booked numFrames k replacer) (hk : 1 ≤ k)
    (hflag : replacer.evictableFlag frameId = some true) :
    ∃ next, replacer.remove frameId = .ok (true, next) ∧ Booked numFrames k next ∧
      next.evictableFlag = update replacer.evictableFlag frameId none := by
  obtain ⟨log, history, lru, h⟩ := h
  rcases h.remove hk frameId with ⟨hfalse, _⟩ | ⟨_, next, history', lru', hstep, hnext⟩
  · simp [hflag] at hfalse
  · exact ⟨next, hstep, ⟨_, _, _, hnext⟩, forget_flag h hnext⟩

theorem evict (h : Booked numFrames k replacer) (hk : 1 ≤ k) :
    replacer.evict = .ok (none, replacer) ∧
        (∀ frameId, replacer.evictableFlag frameId ≠ some true) ∨
      ∃ frameId next, replacer.evict = .ok (some frameId, next) ∧
        replacer.evictableFlag frameId = some true ∧ Booked numFrames k next ∧
        next.evictableFlag = update replacer.evictableFlag frameId none := by
  obtain ⟨log, history, lru, h⟩ := h
  rcases h.evict hk with ⟨hnone, hstep⟩ | ⟨frameId, next, _, hstep, hevictable, hnext⟩
  · refine .inl ⟨hstep, fun frameId hflag => ?_⟩
    have hmem := (h.evictableFlag_iff frameId).mp hflag
    rw [(h.candidate_eq_none_iff hk).mp hnone] at hmem
    exact hmem
  · exact .inr ⟨frameId, next, hstep, (h.evictableFlag_iff frameId).mpr hevictable,
      ⟨_, _, _, hnext⟩, forget_flag h hnext⟩

end Booked

end BusTub
