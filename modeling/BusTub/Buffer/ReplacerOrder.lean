import BusTub.Buffer.AccessLog
import Mathlib.Data.List.Nodup

/-!
# The order of the replacer's lists

`Placed` says on which list a frame of the access log belongs and in which order
the lists are, without a word about pointers.  A call erases the frame it names
from the lists, puts it in front of one, or does both, and there is one lemma for
each of these moves.
-/

namespace BusTub

open Function

/-- Where the frames of the log belong: those with fewer than `k` accesses on the
history list, the one inserted last in front; the others on the LRU list, the one
accessed last in front. -/
structure Placed (k : ℕ) (log : AccessLog) (history lru : List FrameId) : Prop where
  mem_history : ∀ frameId,
    frameId ∈ history ↔ 0 < log.accessCount frameId ∧ log.accessCount frameId < k
  mem_lru : ∀ frameId, frameId ∈ lru ↔ k ≤ log.accessCount frameId
  history_order : history.Pairwise fun newer older => log.firstAccess older < log.firstAccess newer
  lru_order : lru.Pairwise fun newer older => log.lastAccess older < log.lastAccess newer

namespace Placed

variable {k : ℕ} {log : AccessLog} {history lru : List FrameId} {frameId : FrameId}

theorem empty (hk : 1 ≤ k) : Placed k .empty [] [] where
  mem_history := by simp [AccessLog.accessCount, AccessLog.empty]
  mem_lru := by simp [AccessLog.accessCount, AccessLog.empty]; omega
  history_order := .nil
  lru_order := .nil

theorem mem_append_iff (h : Placed k log history lru) (hk : 1 ≤ k) (frameId : FrameId) :
    frameId ∈ history ++ lru ↔ frameId ∈ log.trackedFrames := by
  rw [List.mem_append, h.mem_history, h.mem_lru, ← AccessLog.accessCount_pos_iff]
  omega

theorem insert (h : Placed k log history lru) (hk : 1 < k) (hnew : log.entries frameId = none) :
    Placed k (log.record frameId) (frameId :: history) lru := by
  have hcount : log.accessCount frameId = 0 := by simp [AccessLog.accessCount, hnew]
  have hhistory : frameId ∉ history := by rw [h.mem_history]; omega
  have hlru : frameId ∉ lru := by rw [h.mem_lru]; omega
  have hne : ∀ {frames : List FrameId}, frameId ∉ frames → ∀ other ∈ frames, other ≠ frameId :=
    fun hnot other hmem heq => hnot (heq ▸ hmem)
  constructor
  · intro other
    rw [AccessLog.record_accessCount, List.mem_cons, h.mem_history, update_apply]
    split <;> rename_i heq <;> simp [heq]
    omega
  · intro other
    rw [AccessLog.record_accessCount, h.mem_lru, update_apply]
    split <;> rename_i heq
    · subst heq
      omega
    · rfl
  · refine List.pairwise_cons.mpr ⟨fun other hmem => ?_, ?_⟩
    · rw [AccessLog.record_firstAccess_of_ne (hne hhistory other hmem),
        AccessLog.record_firstAccess_of_new hnew]
      exact Nat.lt_succ_of_le (log.firstAccess_le_clock other)
    · refine h.history_order.imp_of_mem fun hnewer holder hlt => ?_
      rwa [AccessLog.record_firstAccess_of_ne (hne hhistory _ hnewer),
        AccessLog.record_firstAccess_of_ne (hne hhistory _ holder)]
  · refine h.lru_order.imp_of_mem fun hnewer holder hlt => ?_
    rwa [AccessLog.record_lastAccess, update_of_ne (hne hlru _ hnewer),
      update_of_ne (hne hlru _ holder)]

/-- An access that does not reach `k` leaves the lists alone: the history list is
in order of insertion. -/
theorem stay (h : Placed k log history lru) (htracked : frameId ∈ log.trackedFrames)
    (hcount : log.accessCount frameId + 1 < k) : Placed k (log.record frameId) history lru := by
  have hpos := AccessLog.accessCount_pos_iff.mpr htracked
  have hlru : ∀ other ∈ lru, other ≠ frameId := by
    rintro other hmem rfl
    have := (h.mem_lru other).mp hmem
    omega
  have hfirst : (log.record frameId).firstAccess = log.firstAccess := by
    funext other
    by_cases heq : other = frameId
    · subst heq
      exact AccessLog.record_firstAccess_of_tracked htracked
    · exact AccessLog.record_firstAccess_of_ne heq
  constructor
  · intro other
    rw [AccessLog.record_accessCount, h.mem_history, update_apply]
    split <;> rename_i heq
    · subst heq
      omega
    · rfl
  · intro other
    rw [AccessLog.record_accessCount, h.mem_lru, update_apply]
    split <;> rename_i heq
    · subst heq
      omega
    · rfl
  · rw [hfirst]
    exact h.history_order
  · refine h.lru_order.imp_of_mem fun hnewer holder hlt => ?_
    rwa [AccessLog.record_lastAccess, update_of_ne (hlru _ hnewer),
      update_of_ne (hlru _ holder)]

theorem promote (h : Placed k log history lru) (hnodup : (history ++ lru).Nodup)
    (hcount : k ≤ log.accessCount frameId + 1) :
    Placed k (log.record frameId) (history.erase frameId) (frameId :: lru.erase frameId) := by
  have hhistory : history.Nodup := (List.nodup_append.mp hnodup).1
  have hlru : lru.Nodup := (List.nodup_append.mp hnodup).2.1
  constructor
  · intro other
    rw [AccessLog.record_accessCount, hhistory.mem_erase_iff, h.mem_history, update_apply]
    split <;> rename_i heq <;> simp [heq]
    omega
  · intro other
    rw [AccessLog.record_accessCount, List.mem_cons, hlru.mem_erase_iff, h.mem_lru,
      update_apply]
    split <;> rename_i heq <;> simp [heq]
    omega
  · refine (h.history_order.sublist List.erase_sublist).imp_of_mem fun hnewer holder hlt => ?_
    rwa [AccessLog.record_firstAccess_of_ne (hhistory.mem_erase_iff.mp hnewer).1,
      AccessLog.record_firstAccess_of_ne (hhistory.mem_erase_iff.mp holder).1]
  · rw [AccessLog.record_lastAccess]
    refine List.pairwise_cons.mpr ⟨fun other hmem => ?_, ?_⟩
    · rw [update_self, update_of_ne (hlru.mem_erase_iff.mp hmem).1]
      exact Nat.lt_succ_of_le (log.lastAccess_le_clock other)
    · refine (h.lru_order.sublist List.erase_sublist).imp_of_mem fun hnewer holder hlt => ?_
      rwa [update_of_ne (hlru.mem_erase_iff.mp hnewer).1,
        update_of_ne (hlru.mem_erase_iff.mp holder).1]

theorem setEvictable (h : Placed k log history lru) (flag : Bool) :
    Placed k (log.setEvictable frameId flag) history lru := by
  constructor
  · rw [AccessLog.setEvictable_accessCount]
    exact h.mem_history
  · rw [AccessLog.setEvictable_accessCount]
    exact h.mem_lru
  · rw [AccessLog.setEvictable_firstAccess]
    exact h.history_order
  · rw [AccessLog.setEvictable_lastAccess]
    exact h.lru_order

theorem forget (h : Placed k log history lru) (hk : 1 ≤ k) (hnodup : (history ++ lru).Nodup) :
    Placed k (log.forget frameId) (history.erase frameId) (lru.erase frameId) := by
  have hhistory : history.Nodup := (List.nodup_append.mp hnodup).1
  have hlru : lru.Nodup := (List.nodup_append.mp hnodup).2.1
  constructor
  · intro other
    rw [AccessLog.forget_accessCount, hhistory.mem_erase_iff, h.mem_history, update_apply]
    split <;> rename_i heq <;> simp [heq]
  · intro other
    rw [AccessLog.forget_accessCount, hlru.mem_erase_iff, h.mem_lru, update_apply]
    split <;> rename_i heq <;> simp [heq]
    omega
  · refine (h.history_order.sublist List.erase_sublist).imp_of_mem fun hnewer holder hlt => ?_
    rwa [AccessLog.forget_firstAccess_of_ne (hhistory.mem_erase_iff.mp hnewer).1,
      AccessLog.forget_firstAccess_of_ne (hhistory.mem_erase_iff.mp holder).1]
  · refine (h.lru_order.sublist List.erase_sublist).imp_of_mem fun hnewer holder hlt => ?_
    rwa [AccessLog.forget_lastAccess_of_ne (hlru.mem_erase_iff.mp hnewer).1,
      AccessLog.forget_lastAccess_of_ne (hlru.mem_erase_iff.mp holder).1]

end Placed

end BusTub
