import BusTub.Buffer.LRUKReplacer
import Mathlib.Data.ENat.Basic
import Mathlib.Data.Set.Card

/-!
# What the replacer is told

An `AccessLog` is the record an observer keeps of the calls on a replacer and of
their answers: for each tracked frame the times of all its accesses since it was
last inserted, and its evictable flag.  It knows nothing of lists, counters or of
the `k` timestamps the code keeps, and it is the ground on which the replacer's
bookkeeping and its eviction policy are stated.
-/

namespace BusTub

open Function Machines

/-- What is known of a tracked frame.  There is always a latest access, so the
record of a frame that was never accessed cannot be built. -/
structure Entry where
  latest : ℕ
  earlier : List ℕ
  evictable : Bool

namespace Entry

def accesses (entry : Entry) : List ℕ := entry.latest :: entry.earlier

def first (entry : Entry) : ℕ := entry.accesses.getLast (List.cons_ne_nil _ _)

def touch (entry : Entry) (time : ℕ) : Entry where
  latest := time
  earlier := entry.accesses
  evictable := entry.evictable

theorem first_mem (entry : Entry) : entry.first ∈ entry.accesses :=
  List.getLast_mem _

@[simp] theorem touch_first (entry : Entry) (time : ℕ) : (entry.touch time).first = entry.first :=
  List.getLast_cons _

end Entry

structure AccessLog where
  clock : ℕ
  entries : FrameId → Option Entry
  /-- No access is in the future. -/
  stamped : ∀ frameId entry, entries frameId = some entry → ∀ time ∈ entry.accesses, time ≤ clock

namespace AccessLog

/-- The record before the first call. -/
def empty : AccessLog where
  clock := 0
  entries := fun _ => none
  stamped := by simp

/-- The entry of a frame accessed at time `clock + 1`.  A frame is evictable when
it is inserted. -/
def touched (log : AccessLog) (frameId : FrameId) : Entry :=
  match log.entries frameId with
  | none => ⟨log.clock + 1, [], true⟩
  | some entry => entry.touch (log.clock + 1)

def record (log : AccessLog) (frameId : FrameId) : AccessLog where
  clock := log.clock + 1
  entries := Function.update log.entries frameId (some (log.touched frameId))
  stamped := by
    intro other entry hentry time htime
    by_cases heq : other = frameId
    · subst heq
      simp only [Function.update_self, Option.some.injEq] at hentry
      subst hentry
      unfold touched at htime
      split at htime
      · simp_all [Entry.accesses]
      · rename_i old hold
        rcases List.mem_cons.mp htime with rfl | htime
        · exact le_refl _
        · exact (log.stamped other old hold time htime).trans (Nat.le_succ _)
    · rw [Function.update_of_ne heq] at hentry
      exact (log.stamped other entry hentry time htime).trans (Nat.le_succ _)

def setEvictable (log : AccessLog) (frameId : FrameId) (flag : Bool) : AccessLog where
  clock := log.clock
  entries := Function.update log.entries frameId
    ((log.entries frameId).map fun entry => { entry with evictable := flag })
  stamped := by
    intro other entry hentry time htime
    by_cases heq : other = frameId
    · subst heq
      rw [Function.update_self, Option.map_eq_some_iff] at hentry
      obtain ⟨old, hold, rfl⟩ := hentry
      exact log.stamped other old hold time htime
    · rw [Function.update_of_ne heq] at hentry
      exact log.stamped other entry hentry time htime

/-- The record after a frame is no longer tracked. -/
def forget (log : AccessLog) (frameId : FrameId) : AccessLog where
  clock := log.clock
  entries := Function.update log.entries frameId none
  stamped := by
    intro other entry hentry
    by_cases heq : other = frameId
    · simp [heq] at hentry
    · rw [Function.update_of_ne heq] at hentry
      exact log.stamped other entry hentry

def after (log : AccessLog) : ReplacerCall → ReplacerAnswer → AccessLog
  | .recordAccess frameId, .done => log.record frameId
  | .setEvictable frameId flag, _ => log.setEvictable frameId flag
  | .remove frameId, .done => log.forget frameId
  | .evict, .evicted (some frameId) => log.forget frameId
  | _, _ => log

/-! ## Reading the record -/

def accessCount (log : AccessLog) (frameId : FrameId) : ℕ :=
  (log.entries frameId).elim 0 fun entry => entry.accesses.length

def Evictable (log : AccessLog) (frameId : FrameId) : Prop :=
  ∃ entry, log.entries frameId = some entry ∧ entry.evictable = true

def firstAccess (log : AccessLog) (frameId : FrameId) : ℕ :=
  (log.entries frameId).elim 0 Entry.first

def lastAccess (log : AccessLog) (frameId : FrameId) : ℕ :=
  (log.entries frameId).elim 0 Entry.latest

/-- The `k`-th most recent access of a frame, if it has had that many. -/
def kthAccess (log : AccessLog) (k : ℕ) (frameId : FrameId) : Option ℕ :=
  (log.entries frameId).bind fun entry => entry.accesses[k - 1]?

def trackedFrames (log : AccessLog) : Set FrameId := {frameId | (log.entries frameId).isSome}

def evictableFrames (log : AccessLog) : Set FrameId := {frameId | log.Evictable frameId}

theorem evictableFrames_subset (log : AccessLog) : log.evictableFrames ⊆ log.trackedFrames := by
  rintro frameId ⟨entry, hentry, _⟩
  exact Option.isSome_iff_exists.mpr ⟨entry, hentry⟩

theorem firstAccess_le_clock (log : AccessLog) (frameId : FrameId) :
    log.firstAccess frameId ≤ log.clock := by
  unfold firstAccess
  cases hentry : log.entries frameId with
  | none => exact Nat.zero_le _
  | some entry => exact log.stamped frameId entry hentry _ entry.first_mem

theorem lastAccess_le_clock (log : AccessLog) (frameId : FrameId) :
    log.lastAccess frameId ≤ log.clock := by
  unfold lastAccess
  cases hentry : log.entries frameId with
  | none => exact Nat.zero_le _
  | some entry => exact log.stamped frameId entry hentry _ List.mem_cons_self

/-! ## The policy -/

/-- The backward `k`-distance of a frame: the time since its `k`-th most recent
access, or infinity when it has had fewer than `k` accesses. -/
def distance (log : AccessLog) (k : ℕ) (frameId : FrameId) : ℕ∞ :=
  (log.kthAccess k frameId).elim ⊤ fun time => ((log.clock - time : ℕ) : ℕ∞)

/-- The frame the LRU-K policy evicts: no evictable frame has a larger backward
`k`-distance, and among those at infinity its first access is the oldest. -/
structure IsVictim (log : AccessLog) (k : ℕ) (frameId : FrameId) : Prop where
  evictable : log.Evictable frameId
  farthest : ∀ other, log.Evictable other → log.distance k other ≤ log.distance k frameId
  oldest : ∀ other, log.Evictable other → log.distance k other = ⊤ →
    log.distance k frameId = ⊤ → log.firstAccess frameId ≤ log.firstAccess other

variable {log : AccessLog}

theorem kthAccess_isSome_iff {k : ℕ} (hk : 1 ≤ k) (frameId : FrameId) :
    (log.kthAccess k frameId).isSome ↔ k ≤ log.accessCount frameId := by
  unfold kthAccess accessCount
  cases log.entries frameId with
  | none => simp; omega
  | some entry => simp; omega

theorem distance_eq_top_iff {k : ℕ} (hk : 1 ≤ k) (frameId : FrameId) :
    log.distance k frameId = ⊤ ↔ log.accessCount frameId < k := by
  rw [← not_le, ← kthAccess_isSome_iff hk]
  unfold distance
  cases log.kthAccess k frameId with
  | none => simp
  | some time => simp

theorem kthAccess_le_clock {k time : ℕ} {frameId : FrameId}
    (h : log.kthAccess k frameId = some time) : time ≤ log.clock := by
  obtain ⟨entry, hentry, htime⟩ := Option.bind_eq_some_iff.mp h
  exact log.stamped frameId entry hentry time (List.mem_of_getElem? htime)

/-- Between frames with `k` accesses, the larger distance is the older `k`-th access. -/
theorem distance_le_distance_iff {k time time' : ℕ} {frameId other : FrameId}
    (h : log.kthAccess k frameId = some time) (h' : log.kthAccess k other = some time') :
    log.distance k other ≤ log.distance k frameId ↔ time ≤ time' := by
  have hle := kthAccess_le_clock h
  unfold distance
  rw [h, h']
  simp only [Option.elim_some, Nat.cast_le]
  omega

/-! ## The log after a call -/

variable {log : AccessLog} {frameId other : FrameId}

theorem accessCount_pos_iff : 0 < log.accessCount frameId ↔ frameId ∈ log.trackedFrames := by
  unfold accessCount trackedFrames
  cases hentry : log.entries frameId with
  | none => simp [hentry]
  | some entry => simp [hentry, Entry.accesses]

theorem read_update (read : Entry → ℕ) (entries : FrameId → Option Entry) (frameId : FrameId)
    (entry : Option Entry) :
    (fun other => (update entries frameId entry other).elim 0 read) =
      update (fun other => (entries other).elim 0 read) frameId (entry.elim 0 read) :=
  Function.comp_update (fun entry : Option Entry => entry.elim 0 read) entries frameId entry

theorem touched_accesses_length :
    (log.touched frameId).accesses.length = log.accessCount frameId + 1 := by
  unfold touched accessCount
  cases log.entries frameId with
  | none => rfl
  | some entry => rfl

theorem touched_latest (frameId : FrameId) : (log.touched frameId).latest = log.clock + 1 := by
  unfold touched
  cases log.entries frameId with
  | none => rfl
  | some entry => rfl

theorem record_accessCount :
    (log.record frameId).accessCount =
      update log.accessCount frameId (log.accessCount frameId + 1) := by
  rw [← touched_accesses_length]
  exact read_update _ _ _ _

theorem record_lastAccess :
    (log.record frameId).lastAccess =
      update log.lastAccess frameId (log.clock + 1) := by
  rw [← touched_latest frameId]
  exact read_update _ _ _ _

theorem record_firstAccess_of_ne (hne : other ≠ frameId) :
    (log.record frameId).firstAccess other = log.firstAccess other := by
  simp [firstAccess, record, update_of_ne hne]

theorem record_firstAccess_of_tracked (htracked : frameId ∈ log.trackedFrames) :
    (log.record frameId).firstAccess frameId = log.firstAccess frameId := by
  obtain ⟨entry, hentry⟩ := Option.isSome_iff_exists.mp htracked
  simp [firstAccess, record, touched, hentry]

theorem record_firstAccess_of_new (hnew : log.entries frameId = none) :
    (log.record frameId).firstAccess frameId = log.clock + 1 := by
  simp [firstAccess, record, touched, hnew, Entry.first, Entry.accesses]

theorem record_trackedFrames :
    (log.record frameId).trackedFrames = insert frameId log.trackedFrames := by
  ext other
  by_cases heq : other = frameId <;> simp [trackedFrames, record, heq]

theorem record_evictableFrames_of_tracked (htracked : frameId ∈ log.trackedFrames) :
    (log.record frameId).evictableFrames = log.evictableFrames := by
  obtain ⟨entry, hentry⟩ := Option.isSome_iff_exists.mp htracked
  ext other
  by_cases heq : other = frameId
  · simp [evictableFrames, Evictable, record, touched, heq, hentry, Entry.touch]
  · simp [evictableFrames, Evictable, record, heq]

theorem record_evictableFrames_of_new (hnew : log.entries frameId = none) :
    (log.record frameId).evictableFrames = insert frameId log.evictableFrames := by
  ext other
  by_cases heq : other = frameId <;>
    simp [evictableFrames, Evictable, record, touched, heq, hnew]

variable (flag : Bool)

theorem setEvictable_read {read : Entry → ℕ}
    (hread : ∀ entry : Entry, read { entry with evictable := flag } = read entry) :
    (fun other => ((log.setEvictable frameId flag).entries other).elim 0 read) =
      fun other => (log.entries other).elim 0 read := by
  funext other
  by_cases heq : other = frameId
  · subst heq
    cases hentry : log.entries other <;> simp [setEvictable, hentry, hread]
  · simp [setEvictable, update_of_ne heq]

theorem setEvictable_eq_self {flag : Bool}
    (hsame : ∀ entry, log.entries frameId = some entry → entry.evictable = flag) :
    log.setEvictable frameId flag = log := by
  have hmap : ((log.entries frameId).map fun entry => { entry with evictable := flag }) =
      log.entries frameId := by
    cases hentry : log.entries frameId with
    | none => rfl
    | some entry => rw [← hsame entry hentry]; rfl
  unfold setEvictable
  simp [hmap]

theorem setEvictable_accessCount :
    (log.setEvictable frameId flag).accessCount = log.accessCount :=
  setEvictable_read flag fun _ => rfl

theorem setEvictable_firstAccess :
    (log.setEvictable frameId flag).firstAccess = log.firstAccess :=
  setEvictable_read flag fun _ => rfl

theorem setEvictable_lastAccess :
    (log.setEvictable frameId flag).lastAccess = log.lastAccess :=
  setEvictable_read flag fun _ => rfl

theorem setEvictable_trackedFrames :
    (log.setEvictable frameId flag).trackedFrames = log.trackedFrames := by
  ext other
  rw [← accessCount_pos_iff, ← accessCount_pos_iff, setEvictable_accessCount]

theorem setEvictable_evictableFrames (htracked : frameId ∈ log.trackedFrames) (flag : Bool) :
    (log.setEvictable frameId flag).evictableFrames =
      if flag then insert frameId log.evictableFrames
      else log.evictableFrames \ {frameId} := by
  obtain ⟨entry, hentry⟩ := Option.isSome_iff_exists.mp htracked
  ext other
  by_cases heq : other = frameId <;> cases flag <;>
    simp [evictableFrames, Evictable, setEvictable, heq, hentry]

theorem forget_eq_self (hnew : log.entries frameId = none) : log.forget frameId = log := by
  unfold forget
  simp [← hnew]

theorem forget_accessCount :
    (log.forget frameId).accessCount = update log.accessCount frameId 0 :=
  read_update _ _ _ _

theorem forget_firstAccess_of_ne (hne : other ≠ frameId) :
    (log.forget frameId).firstAccess other = log.firstAccess other := by
  simp [firstAccess, forget, update_of_ne hne]

theorem forget_lastAccess_of_ne (hne : other ≠ frameId) :
    (log.forget frameId).lastAccess other = log.lastAccess other := by
  simp [lastAccess, forget, update_of_ne hne]

theorem forget_trackedFrames :
    (log.forget frameId).trackedFrames = log.trackedFrames \ {frameId} := by
  ext other
  by_cases heq : other = frameId <;> simp [trackedFrames, forget, heq]

theorem forget_evictableFrames :
    (log.forget frameId).evictableFrames = log.evictableFrames \ {frameId} := by
  ext other
  by_cases heq : other = frameId <;> simp [evictableFrames, Evictable, forget, heq]

end AccessLog

end BusTub
