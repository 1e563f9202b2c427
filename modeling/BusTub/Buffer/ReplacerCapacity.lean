import BusTub.Buffer.ReplacerLists
import Mathlib.Data.Set.Card

/-!
# How many frames the replacer tracks

`RecordAccess` of a new frame makes room by calling `Evict` if the replacer is full.  That call
would lock the latch which `RecordAccess` holds, so it must never be reached.  Whether it is
reached is a matter of counting: the replacer has room for `replacer_size_` frames, so it is never
full for a new frame if no more different ids than that are in use.

But the guard of `RecordAccess` lets more pass.  It refuses the ids above `replacer_size_`, while
the id `replacer_size_` itself and all negative ones are accepted.  With more ids than frames,
accessing them one after the other ends in the nested call.
-/

namespace BusTub

open LinkedHeap Machines

/-- The guard of `RecordAccess` lets the frame id pass. -/
def PassesGuard (numFrames : ℕ) (frameId : FrameId) : Prop := ¬ frameId > numFrames

def ReplacerCall.AccessesIn (frames : Set FrameId) : ReplacerCall → Prop
  | .recordAccess frameId => frameId ∈ frames
  | .setEvictable _ _ | .remove _ | .evict => True

namespace LRUKReplacer

variable {replacer next : LRUKReplacer} {frameId : FrameId}

def trackedSet (replacer : LRUKReplacer) : Set FrameId := {frameId | replacer.Tracked frameId}

/-- After these calls on a new replacer no call has reached the nested `Evict`, and no more than
`numFrames` frames are tracked. -/
def StaysWithin (numFrames k : ℕ) (calls : List ReplacerCall) : Prop :=
  replacerMachine.run (.create numFrames k) calls ≠ .error .deadlock ∧
    ∀ answers replacer, replacerMachine.run (.create numFrames k) calls = .ok (answers, replacer) →
      replacer.trackedSet.encard ≤ numFrames

/-! ## What the calls do to the counter -/

theorem removeFromList_ne_deadlock (links : Links NodePtr) (node : NodePtr) :
    removeFromList links node ≠ .error .deadlock := by
  unfold removeFromList
  split <;> simp

theorem insertToListHead_ne_deadlock (links : Links NodePtr) (node head : NodePtr) :
    insertToListHead links node head ≠ .error .deadlock := by
  unfold insertToListHead
  split <;> simp

theorem promoteFrame_ne_deadlock (k : ℕ) (links : Links NodePtr) (frameId : FrameId) (count : ℕ) :
    promoteFrame k links frameId count ≠ .error .deadlock := by
  unfold promoteFrame
  split
  · cases hremove : removeFromList links (.frame frameId) with
    | error fault =>
      have hne := removeFromList_ne_deadlock links (.frame frameId)
      rw [hremove] at hne
      exact hne
    | ok links => exact insertToListHead_ne_deadlock links _ _
  · simp

/-- A frame is added if it is accessed for the first time; this is stuck if the replacer is full. -/
theorem admitFrame_spec (replacer : LRUKReplacer) (links : Links NodePtr) (frameId : FrameId)
    (count : ℕ) :
    match replacer.admitFrame links frameId count with
    | .ok (_, added) => added = if count = 1 then 1 else 0
    | .error .deadlock => count = 1 ∧ replacer.totSize = replacer.replacerSize
    | .error .badPointer => True := by
  unfold admitFrame
  by_cases hcount : count = 1
  · rw [if_pos hcount]
    by_cases hfull : replacer.totSize = replacer.replacerSize
    · rw [if_pos hfull]
      exact ⟨hcount, hfull⟩
    · rw [if_neg hfull]
      have hne := insertToListHead_ne_deadlock links (.frame frameId) .historyHead
      cases hinsert : insertToListHead links (.frame frameId) .historyHead with
      | ok links => exact (if_pos hcount).symm
      | error fault =>
        cases fault with
        | badPointer => trivial
        | deadlock => exact absurd hinsert hne
  · rw [if_neg hcount]
    exact (if_neg hcount).symm

/-- A frame is stored in `mp_`, and counted by `tot_size_` if it was not accessed before. -/
structure Stores (replacer : LRUKReplacer) (frameId : FrameId) (next : LRUKReplacer) : Prop where
  replacerSize_eq : next.replacerSize = replacer.replacerSize
  mp_eq : ∃ frame : Frame, next.mp = Function.update replacer.mp frameId (some frame) ∧
    1 ≤ frame.recordCnt
  totSize_eq : next.totSize = replacer.totSize +
    if ((replacer.mp frameId).getD {}).recordCnt = 0 then 1 else 0

/-- `RecordAccess`: it throws, or returns, or is stuck because the frame is new and the replacer
full. -/
theorem recordAccess_spec (replacer : LRUKReplacer) (frameId : FrameId) :
    match replacer.recordAccess frameId with
    | .ok (true, next) => Stores replacer frameId next
    | .ok (false, next) => next = replacer
    | .error .deadlock => ((replacer.mp frameId).getD {}).recordCnt = 0 ∧
        replacer.totSize = replacer.replacerSize
    | .error .badPointer => True := by
  unfold recordAccess
  by_cases hguard : frameId > replacer.replacerSize
  · rw [if_pos hguard]
  · rw [if_neg hguard]
    have hcount : (replacer.accessedFrame frameId (replacer.currentTimestamp + 1)).recordCnt =
        ((replacer.mp frameId).getD {}).recordCnt + 1 := rfl
    -- the frame is put on a list first, and may then be promoted; only the former can get stuck
    have hadmit := replacer.admitFrame_spec (replacer.nodeLinks frameId) frameId
      (replacer.accessedFrame frameId (replacer.currentTimestamp + 1)).recordCnt
    simp only [bind, Except.bind]
    cases hadmitted : replacer.admitFrame (replacer.nodeLinks frameId) frameId
        (replacer.accessedFrame frameId (replacer.currentTimestamp + 1)).recordCnt with
    | error fault =>
      rw [hadmitted] at hadmit
      cases fault with
      | badPointer => trivial
      | deadlock => exact ⟨by omega, hadmit.2⟩
    | ok result =>
      obtain ⟨links, added⟩ := result
      rw [hadmitted, hcount] at hadmit
      have hne := promoteFrame_ne_deadlock replacer.k links frameId
        (replacer.accessedFrame frameId (replacer.currentTimestamp + 1)).recordCnt
      dsimp only
      cases hpromote : promoteFrame replacer.k links frameId
          (replacer.accessedFrame frameId (replacer.currentTimestamp + 1)).recordCnt with
      | error fault =>
        cases fault with
        | badPointer => trivial
        | deadlock => exact absurd hpromote hne
      | ok links =>
        refine ⟨rfl, ⟨_, rfl, by omega⟩, ?_⟩
        simp only [Nat.add_eq_right] at hadmit
        rw [← hadmit]

/-- The counter is right: it says how many frames are tracked, and each of them has been
accessed. -/
structure Counted (frames : Set FrameId) (numFrames : ℕ) (replacer : LRUKReplacer) : Prop where
  replacerSize_eq : replacer.replacerSize = numFrames
  tracked_subset : replacer.trackedSet ⊆ frames
  totSize_eq : replacer.totSize = replacer.trackedSet.ncard
  accessed : ∀ frameId frame, replacer.mp frameId = some frame → 1 ≤ frame.recordCnt

variable {frames : Set FrameId} {numFrames : ℕ}

theorem counted_create (frames : Set FrameId) (numFrames k : ℕ) :
    Counted frames numFrames (create numFrames k) := by
  have hempty : (create numFrames k).trackedSet = ∅ := by
    ext frameId
    simp [trackedSet, Tracked, create]
  refine ⟨rfl, ?_, ?_, fun frameId frame h => by cases h⟩
  · rw [hempty]
    exact Set.empty_subset _
  · rw [hempty, Set.ncard_empty]
    rfl

variable (h : Counted frames numFrames replacer)
include h

theorem Counted.recordCnt_eq_zero_iff (frameId : FrameId) :
    ((replacer.mp frameId).getD {}).recordCnt = 0 ↔ frameId ∉ replacer.trackedSet := by
  cases hframe : replacer.mp frameId with
  | none => simp [trackedSet, Tracked, hframe]
  | some frame =>
    have hpos := h.accessed frameId frame hframe
    have htracked : frameId ∈ replacer.trackedSet := by simp [trackedSet, Tracked, hframe]
    simp only [Option.getD_some, htracked, not_true_eq_false, iff_false]
    omega

theorem Counted.totSize_lt
    (hfew : frames.encard ≤ numFrames) (hmem : frameId ∈ frames)
    (hnew : frameId ∉ replacer.trackedSet) : replacer.totSize < numFrames := by
  obtain ⟨hfinite, count, hcount, hle⟩ := Set.encard_le_coe_iff.mp hfew
  have hproper : replacer.trackedSet ⊂ frames :=
    ⟨h.tracked_subset, fun hsubset => hnew (hsubset hmem)⟩
  calc replacer.totSize = replacer.trackedSet.ncard := h.totSize_eq
    _ < frames.ncard := Set.ncard_lt_ncard hproper hfinite
    _ = count := by rw [Set.ncard_def, hcount, ENat.toNat_natCast]
    _ ≤ numFrames := hle

theorem Counted.stores (hfinite : frames.Finite)
    (hmem : frameId ∈ frames) (hnext : Stores replacer frameId next) :
    Counted frames numFrames next := by
  obtain ⟨frame, hmp, hpos⟩ := hnext.mp_eq
  have hset : next.trackedSet = insert frameId replacer.trackedSet := by
    ext other
    by_cases heq : other = frameId <;> simp [trackedSet, Tracked, hmp, heq]
  refine ⟨hnext.replacerSize_eq.trans h.replacerSize_eq, ?_, ?_, ?_⟩
  · rw [hset]
    exact Set.insert_subset hmem h.tracked_subset
  · rw [hset, hnext.totSize_eq, h.totSize_eq]
    by_cases hnew : frameId ∈ replacer.trackedSet
    · rw [if_neg (mt (h.recordCnt_eq_zero_iff frameId).mp (not_not_intro hnew)),
        Set.insert_eq_of_mem hnew, Nat.add_zero]
    · rw [if_pos ((h.recordCnt_eq_zero_iff frameId).mpr hnew),
        Set.ncard_insert_of_notMem hnew (hfinite.subset h.tracked_subset)]
  · intro other frame' hother
    rw [hmp, Function.update_apply] at hother
    split_ifs at hother with heq
    · cases hother
      exact hpos
    · exact h.accessed other frame' hother

theorem Counted.setEvictable (hfinite : frames.Finite)
    (frameId : FrameId) (flag : Bool) :
    Counted frames numFrames (replacer.setEvictable frameId flag) := by
  unfold LRUKReplacer.setEvictable
  cases hframe : replacer.mp frameId with
  | none => exact h
  | some frame =>
    have hpos := h.accessed frameId frame hframe
    have hmem : frameId ∈ replacer.trackedSet := by simp [trackedSet, Tracked, hframe]
    by_cases hsame : frame.evictable = flag
    · simp only [if_pos hsame]
      exact h
    · simp only [if_neg hsame]
      refine h.stores hfinite (h.tracked_subset hmem) ⟨rfl, ⟨_, rfl, hpos⟩, ?_⟩
      rw [hframe, Option.getD_some, if_neg (Nat.ne_of_gt hpos)]
      rfl

theorem Counted.eraseFrame
    (hmem : frameId ∈ replacer.trackedSet) (hnext : replacer.eraseFrame frameId = .ok next) :
    Counted frames numFrames next := by
  unfold LRUKReplacer.eraseFrame at hnext
  cases hremove : removeFromList replacer.links (.frame frameId) with
  | error fault =>
    rw [hremove] at hnext
    cases hnext
  | ok links =>
    rw [hremove] at hnext
    cases hnext
    -- the set loses the one frame, and the counter one
    have hset : trackedSet { replacer with
        links := links
        mp := Function.update replacer.mp frameId none
        totSize := replacer.totSize - 1
        currSize := replacer.currSize - 1 } = replacer.trackedSet \ {frameId} := by
      ext other
      by_cases heq : other = frameId <;> simp [trackedSet, Tracked, heq]
    refine ⟨h.replacerSize_eq, ?_, ?_, ?_⟩
    · rw [hset]
      exact Set.sdiff_subset.trans h.tracked_subset
    · rw [hset, Set.ncard_sdiff_singleton_of_mem hmem, ← h.totSize_eq]
    · intro other frame hother
      simp only [Function.update_apply] at hother
      split_ifs at hother
      exact h.accessed other frame hother

omit h

theorem eraseFrame_ne_deadlock (replacer : LRUKReplacer) (frameId : FrameId) :
    replacer.eraseFrame frameId ≠ .error .deadlock := by
  have hne := removeFromList_ne_deadlock replacer.links (.frame frameId)
  unfold LRUKReplacer.eraseFrame
  cases hremove : removeFromList replacer.links (.frame frameId) with
  | error fault =>
    rw [hremove] at hne
    simpa [bind, Except.bind] using hne
  | ok links => simp [bind, Except.bind, pure, Except.pure]

theorem tracked_of_searchEvictable {head tail : NodePtr}
    (h : replacer.searchEvictable head tail = some (some (.frame frameId))) :
    frameId ∈ replacer.trackedSet := by
  have htest : replacer.isEvictable (.frame frameId) = true := Links.searchBack_test h
  rw [isEvictable] at htest
  cases hframe : replacer.mp frameId with
  | none => simp [hframe] at htest
  | some frame => simp [trackedSet, Tracked, hframe]

/-! ## Few ids -/

/-- A call that returns leaves the count right, and a call does not get stuck. -/
def KeepsCount {Answer : Type} (frames : Set FrameId) (numFrames : ℕ)
    (outcome : Except ReplacerFault (Answer × LRUKReplacer)) : Prop :=
  match outcome with
  | .ok (_, next) => Counted frames numFrames next
  | .error fault => fault ≠ .deadlock

theorem KeepsCount.map {Answer Other : Type}
    {outcome : Except ReplacerFault (Answer × LRUKReplacer)}
    (h : KeepsCount frames numFrames outcome) (f : Answer → Other) :
    KeepsCount frames numFrames (do
      let (answer, next) ← outcome
      return (f answer, next)) := by
  cases outcome with
  | error fault => exact h
  | ok result => exact h

variable (h : Counted frames numFrames replacer)
include h

theorem Counted.keepsCount_recordAccess
    (hfew : frames.encard ≤ numFrames) (hmem : frameId ∈ frames) :
    KeepsCount frames numFrames (replacer.recordAccess frameId) := by
  have hfinite : frames.Finite := (Set.encard_le_coe_iff.mp hfew).1
  have hspec := replacer.recordAccess_spec frameId
  cases hrecord : replacer.recordAccess frameId with
  | ok result =>
    obtain ⟨returned, next⟩ := result
    rw [hrecord] at hspec
    cases returned with
    | true => exact h.stores hfinite hmem hspec
    | false =>
      obtain rfl : next = replacer := hspec
      exact h
  | error fault =>
    -- stuck would mean a new frame, and no room for it
    rintro rfl
    rw [hrecord] at hspec
    have hroom := h.totSize_lt hfew hmem ((h.recordCnt_eq_zero_iff frameId).mp hspec.1)
    rw [← h.replacerSize_eq, hspec.2] at hroom
    exact Nat.lt_irrefl _ hroom

theorem Counted.keepsCount_erase {Answer : Type}
    (hmem : frameId ∈ replacer.trackedSet) (answer : Answer) :
    KeepsCount frames numFrames (do return (answer, ← replacer.eraseFrame frameId)) := by
  have hne := replacer.eraseFrame_ne_deadlock frameId
  cases herase : replacer.eraseFrame frameId with
  | error fault =>
    rw [herase] at hne
    exact fun heq => hne (congrArg Except.error heq)
  | ok next => exact h.eraseFrame hmem herase

theorem Counted.keepsCount_remove (frameId : FrameId) :
    KeepsCount frames numFrames (replacer.remove frameId) := by
  unfold LRUKReplacer.remove
  cases hframe : replacer.mp frameId with
  | none => exact h
  | some frame =>
    have hmem : frameId ∈ replacer.trackedSet := by simp [trackedSet, Tracked, hframe]
    by_cases hevictable : frame.evictable = false
    · simp only [if_pos hevictable]
      exact h
    · simp only [if_neg hevictable]
      exact h.keepsCount_erase hmem true

theorem Counted.keepsCount_evict :
    KeepsCount frames numFrames replacer.evict := by
  have hbad : ReplacerFault.badPointer ≠ .deadlock := by decide
  unfold evict
  split_ifs
  · exact h
  · split
    · rename_i frameId hfound
      exact h.keepsCount_erase (tracked_of_searchEvictable hfound) (some frameId)
    · split
      · rename_i frameId hfound
        exact h.keepsCount_erase (tracked_of_searchEvictable hfound) (some frameId)
      · exact h
      · exact hbad
    · exact hbad

theorem Counted.keepsCount_step
    (hfew : frames.encard ≤ numFrames) {call : ReplacerCall} (hcall : call.AccessesIn frames) :
    KeepsCount frames numFrames (replacerMachine.step replacer call) := by
  cases call with
  | recordAccess frameId =>
    exact (h.keepsCount_recordAccess hfew hcall).map ReplacerAnswer.ofReturned
  | setEvictable frameId flag =>
    exact h.setEvictable (Set.encard_le_coe_iff.mp hfew).1 frameId flag
  | remove frameId => exact (h.keepsCount_remove frameId).map ReplacerAnswer.ofReturned
  | evict => exact h.keepsCount_evict.map ReplacerAnswer.evicted

theorem Counted.encard_le
    (hfew : frames.encard ≤ numFrames) : replacer.trackedSet.encard ≤ numFrames :=
  (Set.encard_le_encard h.tracked_subset).trans hfew

omit h

theorem staysWithin_of_few (k : ℕ) (hfew : frames.encard ≤ numFrames) {calls : List ReplacerCall}
    (hcalls : ∀ call ∈ calls, call.AccessesIn frames) : StaysWithin numFrames k calls := by
  have hkeeps : ∀ replacer call, Counted frames numFrames replacer → call.AccessesIn frames →
      KeepsCount frames numFrames (replacerMachine.step replacer call) :=
    fun replacer call h hcall => h.keepsCount_step hfew hcall
  have hok : ∀ replacer call answer next, Counted frames numFrames replacer →
      call.AccessesIn frames → replacerMachine.step replacer call = .ok (answer, next) →
      Counted frames numFrames next := by
    intro replacer call answer next h hcall hstep
    have hnext := hkeeps replacer call h hcall
    rwa [hstep] at hnext
  have hfault : ∀ replacer call fault, Counted frames numFrames replacer →
      call.AccessesIn frames → replacerMachine.step replacer call = .error fault →
      fault ≠ .deadlock := by
    intro replacer call fault h hcall hstep
    have hnext := hkeeps replacer call h hcall
    rwa [hstep] at hnext
  obtain ⟨hreturns, hstops⟩ := Machine.run_keeps hok hfault
    (counted_create frames numFrames k) (Machine.along_of_forall_mem hcalls _)
  exact ⟨fun hrun => hstops _ hrun rfl,
    fun answers replacer hrun => (hreturns answers replacer hrun).encard_le hfew⟩

/-! ## Many ids -/

/-- The pointers form two lists, which hold the tracked frames. -/
def Listed (replacer : LRUKReplacer) : Prop :=
  ∃ history lru, TwoLists replacer.links history lru ∧
    ∀ frameId, frameId ∈ history ++ lru ↔ replacer.Tracked frameId

theorem listed_create (numFrames k : ℕ) : Listed (create numFrames k) :=
  ⟨[], [], TwoLists.create, fun frameId => by simp [Tracked, create]⟩

theorem Listed.recordAccess_new (h : replacer.Listed) (hnew : ¬ replacer.Tracked frameId)
    (hguard : PassesGuard replacer.replacerSize frameId)
    (hroom : replacer.totSize ≠ replacer.replacerSize) :
    ∃ next, replacer.recordAccess frameId = .ok (true, next) ∧ next.Listed := by
  obtain ⟨history, lru, hlists, hmem⟩ := h
  have hnot : frameId ∉ history ++ lru := mt (hmem frameId).mp hnew
  have hnone : replacer.mp frameId = none := Option.not_isSome_iff_eq_none.mp hnew
  have hcount : (replacer.accessedFrame frameId (replacer.currentTimestamp + 1)).recordCnt = 1 := by
    simp [accessedFrame, hnone]
  obtain ⟨links₁, links₂, hadmit, hpromote, hlists₂⟩ := hlists.placeNew hnot hnone hroom
  have hrecord : replacer.recordAccess frameId = .ok (true, { replacer with
      currentTimestamp := replacer.currentTimestamp + 1
      mp := Function.update replacer.mp frameId
        (some (replacer.accessedFrame frameId (replacer.currentTimestamp + 1)))
      links := links₂
      currSize := replacer.currSize + 1
      totSize := replacer.totSize + 1 }) := by
    simp only [LRUKReplacer.recordAccess, if_neg hguard, hcount, hadmit, bind, Except.bind,
      hpromote]
    rfl
  refine ⟨_, hrecord, _, _, hlists₂, fun id => ?_⟩
  -- with `k = 1` the first access already moves the frame to the second list
  have hlisted : id ∈ (if replacer.k ≤ 1 then history else frameId :: history) ++
      (if replacer.k ≤ 1 then frameId :: lru else lru) ↔ id = frameId ∨ id ∈ history ++ lru := by
    split_ifs
    · simp only [List.mem_append, List.mem_cons]
      tauto
    · rw [List.cons_append, List.mem_cons]
  rw [hlisted, hmem]
  by_cases heq : id = frameId <;> simp [Tracked, heq]

theorem recordAccess_full (hnew : ¬ replacer.Tracked frameId)
    (hguard : PassesGuard replacer.replacerSize frameId)
    (hfull : replacer.totSize = replacer.replacerSize) :
    replacer.recordAccess frameId = .error .deadlock := by
  have hnone : replacer.mp frameId = none := Option.not_isSome_iff_eq_none.mp hnew
  have hcount : (replacer.accessedFrame frameId (replacer.currentTimestamp + 1)).recordCnt = 1 := by
    simp [accessedFrame, hnone]
  simp only [LRUKReplacer.recordAccess, if_neg hguard, hcount, admitFrame, if_true, if_pos hfull]
  rfl

/-- Accessing more new frames than there is room for ends in the nested call. -/
theorem Listed.run_deadlock {ids : List FrameId} (h : replacer.Listed) (hnodup : ids.Nodup)
    (hle : replacer.totSize ≤ replacer.replacerSize)
    (hids : ∀ id ∈ ids, ¬ replacer.Tracked id ∧ PassesGuard replacer.replacerSize id)
    (hmany : replacer.replacerSize < replacer.totSize + ids.length) :
    replacerMachine.run replacer (ids.map .recordAccess) = .error .deadlock := by
  induction ids generalizing replacer with
  | nil =>
    rw [List.length_nil] at hmany
    omega
  | cons id rest ih =>
    rw [List.nodup_cons] at hnodup
    rw [List.forall_mem_cons] at hids
    rw [List.length_cons] at hmany
    by_cases hfull : replacer.totSize = replacer.replacerSize
    · have hstuck := recordAccess_full hids.1.1 hids.1.2 hfull
      simp only [List.map_cons, Machine.run, replacerMachine, hstuck]
      rfl
    · obtain ⟨next, hrecord, hnext⟩ := h.recordAccess_new hids.1.1 hids.1.2 hfull
      -- the frame takes one place, and the others stay new
      have hspec := replacer.recordAccess_spec id
      rw [hrecord] at hspec
      obtain ⟨hsize, ⟨frame, hmp, -⟩, htot⟩ := hspec
      have hnone : replacer.mp id = none := Option.not_isSome_iff_eq_none.mp hids.1.1
      rw [hnone] at htot
      have hstep : replacerMachine.step replacer (.recordAccess id) = .ok (.done, next) := by
        simp only [replacerMachine, hrecord]
        rfl
      have hrest := ih hnext hnodup.2 (by rw [htot, hsize]; simp; omega) ?_
        (by rw [htot, hsize]; simp; omega)
      · rw [List.map_cons, Machine.run_cons_of_step hstep, hrest]
      · intro other hother
        have hne : other ≠ id := fun heq => hnodup.1 (heq ▸ hother)
        rw [Tracked, hmp, Function.update_of_ne hne, hsize]
        exact hids.2 other hother

/-- **The nested `Evict`.**  Over all sequences of calls that access only the given frames, which
the guard accepts, the nested call is never reached and at most `numFrames` frames are tracked,
if and only if there are at most `numFrames` such frames. -/
theorem staysWithin_iff (numFrames k : ℕ) (hguard : ∀ frameId ∈ frames,
    PassesGuard numFrames frameId) :
    (∀ calls : List ReplacerCall, (∀ call ∈ calls, call.AccessesIn frames) →
      StaysWithin numFrames k calls) ↔ frames.encard ≤ numFrames := by
  refine ⟨fun hall => ?_, fun hfew calls hcalls => staysWithin_of_few k hfew hcalls⟩
  by_contra hmany
  rw [not_le, ← ENat.add_one_le_iff (ENat.natCast_ne_top numFrames)] at hmany
  -- one frame more than there is room for, each accessed once
  obtain ⟨chosen, hsubset, hcard⟩ := Set.exists_subset_encard_eq hmany
  have hfinite : chosen.Finite := Set.finite_of_encard_eq_coe (k := numFrames + 1) hcard
  have hlength : hfinite.toFinset.toList.length = numFrames + 1 := by
    rw [Finset.length_toList]
    rw [hfinite.encard_eq_coe_toFinset_card] at hcard
    exact_mod_cast hcard
  have hmem : ∀ id ∈ hfinite.toFinset.toList, id ∈ frames := by
    intro id hid
    rw [Finset.mem_toList, Set.Finite.mem_toFinset] at hid
    exact hsubset hid
  have hstuck := (listed_create numFrames k).run_deadlock hfinite.toFinset.nodup_toList
    (Nat.zero_le _) (fun id hid => ⟨by simp [Tracked, create], hguard id (hmem id hid)⟩)
    (by rw [hlength]; exact Nat.lt_add_left _ (Nat.lt_succ_self _))
  refine (hall (hfinite.toFinset.toList.map .recordAccess) ?_).1 hstuck
  intro call hcall
  obtain ⟨id, hid, rfl⟩ := List.mem_map.mp hcall
  exact hmem id hid

/-- With two frames the ids 0 and 1 are fine. -/
theorem staysWithin_two :
    StaysWithin 2 2 [.recordAccess 0, .recordAccess 1, .setEvictable 0 false, .evict,
      .recordAccess 1] := by
  have hfew : ({0, 1} : Set FrameId).encard ≤ (2 : ℕ) := by
    rw [Set.encard_pair (by decide)]
    exact le_rfl
  have hguard : ∀ frameId ∈ ({0, 1} : Set FrameId), PassesGuard 2 frameId := by
    simp [PassesGuard]
  refine (staysWithin_iff 2 2 hguard).mpr hfew _ ?_
  simp [ReplacerCall.AccessesIn]

/-- With one frame the guard accepts the ids 0 and 1, and accessing both is stuck. -/
theorem not_staysWithin_one :
    PassesGuard 1 0 ∧ PassesGuard 1 1 ∧ ¬ StaysWithin 1 2 [.recordAccess 0, .recordAccess 1] := by
  refine ⟨by simp [PassesGuard], by simp [PassesGuard], fun h => h.1 ?_⟩
  rfl

end LRUKReplacer

end BusTub
