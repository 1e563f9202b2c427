import BusTub.Buffer.ReplacerInvariant

/-!
# The eviction policy of the replacer

`Evict` takes the first evictable frame from the back of the history list, and from the back of
the LRU list when the history list has none.  By the order of the lists this is the frame with the
oldest first access among those with fewer than `k` accesses, and otherwise the one with the
oldest latest access.  The LRU-K policy asks for the oldest `k`-th most recent access there, so
the two agree only in the states described by `OrdersAgree`.
-/

namespace BusTub

open Machines AccessLog

theorem rel_of_find?_reverse {α : Type*} {r : α → α → Prop} {test : α → Bool} {xs : List α}
    {found other : α} (hsorted : xs.Pairwise r) (hfound : xs.reverse.find? test = some found)
    (hmem : other ∈ xs) (hother : test other = true) (hne : other ≠ found) : r other found := by
  obtain ⟨_, missed, rest, hsplit, hmissed⟩ := List.find?_eq_some_iff_append.mp hfound
  have hrest : other ∈ rest := by
    have hmem' : other ∈ missed ++ found :: rest := by rwa [← hsplit, List.mem_reverse]
    rcases List.mem_append.mp hmem' with hmem' | hmem'
    · simpa [hother] using hmissed other hmem'
    · exact (List.mem_cons.mp hmem').resolve_left hne
  have hreverse := List.pairwise_reverse.mpr hsorted
  rw [hsplit] at hreverse
  exact (List.pairwise_cons.mp (List.pairwise_append.mp hreverse).2.1).1 other hrest

namespace AccessLog

/-- Some evictable frame has had fewer than `k` accesses, or one evictable frame has
both the oldest latest access and the oldest `k`-th most recent access. -/
def OrdersAgree (log : AccessLog) (k : ℕ) : Prop :=
  (∃ frameId, log.Evictable frameId ∧ log.accessCount frameId < k) ∨
    ∃ frameId, log.Evictable frameId ∧ ∀ other, log.Evictable other →
      log.lastAccess frameId ≤ log.lastAccess other ∧
        ∀ time ∈ log.kthAccess k frameId, ∀ time' ∈ log.kthAccess k other, time ≤ time'

end AccessLog

namespace Represents

variable {numFrames k : ℕ} {replacer : LRUKReplacer} {log : AccessLog}
  {history lru : List FrameId} {frameId other : FrameId}

/-- A candidate with fewer than `k` accesses is the policy's victim: the history list
is first in, first out. -/
theorem candidate_history (h : Represents numFrames k replacer log history lru) (hk : 1 ≤ k)
    (hfound : history.reverse.find? (fun id => replacer.isEvictable (.frame id)) = some frameId) :
    log.IsVictim k frameId ∧ log.accessCount frameId < k := by
  have hmem : frameId ∈ history := by simpa using List.mem_of_find?_eq_some hfound
  have hcount := (h.placed.mem_history frameId).mp hmem
  have hflag := List.find?_some hfound
  have htop := (distance_eq_top_iff hk frameId).mpr hcount.2
  refine ⟨⟨(h.isEvictable_iff frameId).mp hflag, fun other _ => htop ▸ le_top, ?_⟩, hcount.2⟩
  intro other hother hinfinite _
  by_cases hne : other = frameId
  · rw [hne]
  · have htracked := accessCount_pos_iff.mpr (log.evictableFrames_subset hother)
    have hhistory : other ∈ history := (h.placed.mem_history other).mpr
      ⟨htracked, (distance_eq_top_iff hk other).mp hinfinite⟩
    exact (rel_of_find?_reverse h.placed.history_order hfound hhistory
      ((h.isEvictable_iff other).mpr hother) hne).le

/-- Without a candidate on the history list every evictable frame has `k` accesses. -/
theorem le_accessCount_of_find?_none (h : Represents numFrames k replacer log history lru)
    (hnone : history.reverse.find? (fun id => replacer.isEvictable (.frame id)) = none)
    (hother : log.Evictable other) : k ≤ log.accessCount other := by
  by_contra hlt
  have htracked := accessCount_pos_iff.mpr (log.evictableFrames_subset hother)
  have hmem : other ∈ history := (h.placed.mem_history other).mpr ⟨htracked, not_le.mp hlt⟩
  exact List.find?_eq_none.mp hnone other (List.mem_reverse.mpr hmem)
    ((h.isEvictable_iff other).mpr hother)

theorem candidate_lru (h : Represents numFrames k replacer log history lru)
    (hall : ∀ other, log.Evictable other → k ≤ log.accessCount other)
    (hfound : lru.reverse.find? (fun id => replacer.isEvictable (.frame id)) = some frameId)
    (hother : log.Evictable other) (hne : other ≠ frameId) :
    log.lastAccess frameId < log.lastAccess other := by
  have hmem : other ∈ lru := (h.placed.mem_lru other).mpr (hall other hother)
  have hrel := rel_of_find?_reverse h.placed.lru_order hfound hmem
    ((h.isEvictable_iff other).mpr hother) hne
  exact hrel

theorem isVictim_iff_of_accessed (hk : 1 ≤ k) (hevictable : log.Evictable frameId)
    (hall : ∀ other, log.Evictable other → k ≤ log.accessCount other) :
    log.IsVictim k frameId ↔ ∀ other, log.Evictable other →
      ∀ time ∈ log.kthAccess k frameId, ∀ time' ∈ log.kthAccess k other, time ≤ time' := by
  constructor
  · intro hvictim other hother time htime time' htime'
    exact (distance_le_distance_iff htime htime').mp (hvictim.farthest other hother)
  · intro holdest
    refine ⟨hevictable, fun other hother => ?_, fun other hother hinfinite => ?_⟩
    · obtain ⟨time, htime⟩ := Option.isSome_iff_exists.mp
        ((kthAccess_isSome_iff hk frameId).mpr (hall frameId hevictable))
      obtain ⟨time', htime'⟩ := Option.isSome_iff_exists.mp
        ((kthAccess_isSome_iff hk other).mpr (hall other hother))
      exact (distance_le_distance_iff htime htime').mpr
        (holdest other hother time htime time' htime')
    · have hlt := (distance_eq_top_iff hk other).mp hinfinite
      exact absurd (hall other hother) (not_le.mpr hlt)

/-- **The candidate is the policy's victim exactly when the orders agree.** -/
theorem isVictim_candidate_iff (h : Represents numFrames k replacer log history lru) (hk : 1 ≤ k)
    (hcandidate : candidate replacer history lru = some frameId) :
    log.IsVictim k frameId ↔ log.OrdersAgree k := by
  rw [candidate, List.find?_append] at hcandidate
  cases hfirst : history.reverse.find? fun id => replacer.isEvictable (.frame id) with
  | some found =>
    rw [hfirst, Option.some_or, Option.some.injEq] at hcandidate
    subst hcandidate
    obtain ⟨hvictim, hcount⟩ := h.candidate_history hk hfirst
    exact ⟨fun _ => .inl ⟨found, hvictim.evictable, hcount⟩, fun _ => hvictim⟩
  | none =>
    rw [hfirst, Option.none_or] at hcandidate
    have hflag := List.find?_some hcandidate
    have hevictable := (h.isEvictable_iff frameId).mp hflag
    have hall : ∀ other, log.Evictable other → k ≤ log.accessCount other :=
      fun _ => h.le_accessCount_of_find?_none hfirst
    rw [isVictim_iff_of_accessed hk hevictable hall]
    constructor
    · intro holdest
      refine .inr ⟨frameId, hevictable, fun other hother => ⟨?_, holdest other hother⟩⟩
      by_cases hne : other = frameId
      · rw [hne]
      · exact (h.candidate_lru hall hcandidate hother hne).le
    · rintro (⟨few, hfew, hlt⟩ | ⟨oldest, holdest, hleast⟩)
      · exact absurd (hall few hfew) (not_le.mpr hlt)
      · -- latest accesses differ, so the frame with the oldest one is the candidate
        have heq : oldest = frameId := by
          by_contra hne
          have hlt := h.candidate_lru hall hcandidate holdest hne
          exact absurd (hleast frameId hevictable).1 (not_le.mpr hlt)
        subst heq
        exact fun other hother => (hleast other hother).2

end Represents

/-- **The policy of `Evict`.**  After every history of calls on frames in
`[0, numFrames)`, a frame that `Evict` returns is the one LRU-K evicts exactly when
the order of latest accesses and the order of `k`-th accesses pick the same frame,
or some evictable frame has had fewer than `k` accesses. -/
theorem evict_isVictim_iff {numFrames k : ℕ} (hk : 1 ≤ k) {calls : List ReplacerCall}
    (hrange : ∀ call ∈ calls, call.InRange numFrames) :
    ∃ answers replacer log,
      (replacerMachine.withGhost after).run (.create numFrames k, .empty) calls =
        .ok (answers, replacer, log) ∧
      ∀ frameId next, replacer.evict = .ok (some frameId, next) →
        (log.IsVictim k frameId ↔ log.OrdersAgree k) := by
  obtain ⟨answers, ⟨replacer, log⟩, hrun, history, lru, h⟩ := keepsBooks_run hk hrange
  refine ⟨answers, replacer, log, hrun, fun frameId next hevict => ?_⟩
  rcases h.evict hk with ⟨_, hstep⟩ | ⟨found, _, hcandidate, hstep, _, _⟩
  · simp [hstep] at hevict
  · rw [hstep, Except.ok.injEq, Prod.mk.injEq, Option.some.injEq] at hevict
    exact hevict.1 ▸ h.isVictim_candidate_iff hk hcandidate

theorem evict_isVictim_iff_history :
    ∃ answers replacer log,
      (replacerMachine.withGhost after).run (.create 3 2, .empty)
          [.recordAccess 0, .recordAccess 1, .recordAccess 1] =
        .ok (answers, replacer, log) ∧
      ∀ frameId next, replacer.evict = .ok (some frameId, next) →
        (log.IsVictim 2 frameId ↔ log.OrdersAgree 2) :=
  evict_isVictim_iff (by decide) (by simp [ReplacerCall.InRange])

/-- Frame 0 is accessed at times 1 and 4, frame 1 at times 2 and 3.  The second most
recent access of frame 0 is the oldest, but `Evict` returns frame 1, whose latest
access is the oldest. -/
theorem evict_not_isVictim :
    ∃ answers replacer log next,
      (replacerMachine.withGhost after).run (.create 3 2, .empty)
          [.recordAccess 0, .recordAccess 1, .recordAccess 1, .recordAccess 0] =
        .ok (answers, replacer, log) ∧
      replacer.evict = .ok (some 1, next) ∧ ¬ log.IsVictim 2 1 := by
  refine ⟨_, _, _, _, rfl, rfl, fun hvictim => ?_⟩
  have hfar := hvictim.farthest 0 ⟨_, rfl, rfl⟩
  revert hfar
  decide

end BusTub
