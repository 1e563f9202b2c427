import BusTub.Concurrency.TransactionManager

/-!
# Delete marks and write sets

The table as a map from rids to tuples, the write sets of the transactions and the owners of
the delete marks, without the pages.  The invariant `Owned` says that they agree: entries of
different transactions do not share a rid, except for updates, and each DELETE entry stands
for a mark of its transaction.

Here is what each change of the table does to the invariant: the calls of a transaction, one
entry of `Abort` at a time from the back of the write set, and `Commit`.
-/

namespace BusTub

open Function ByteMemory Machines

/-! ## Marks and write sets -/

def isMarked : Option Stored → Bool
  | some stored => stored.marked
  | none => false

theorem isMarked_of_update {table : Rid → Option Stored} {rid other : Rid} {value : Option Stored}
    (hvalue : isMarked value = false)
    (h : isMarked (update table rid value other) = true) :
    other ≠ rid ∧ isMarked (table other) = true := by
  by_cases hsame : other = rid
  · rw [hsame, update_self, hvalue] at h
    cases h
  · rw [update_of_ne hsame] at h
    exact ⟨hsame, h⟩

/-- The owners after a step of a transaction: a mark that is new is its own. -/
def nextOwner (before after : Rid → Option Stored) (txnId : ℕ) (owner : Rid → Option ℕ)
    (rid : Rid) : Option ℕ :=
  if isMarked (after rid) then (if isMarked (before rid) then owner rid else some txnId)
  else none

def WriteRecord.Claims (record : WriteRecord) : Prop := record.wtype ≠ .update

/-- The write sets agree with the table and with the owners of its marks. -/
structure Owned (table : Rid → Option Stored) (writeSets : ℕ → List WriteRecord)
    (owner : Rid → Option ℕ) : Prop where
  held : ∀ txnId, ∀ record ∈ writeSets txnId, record.wtype = .insert → table record.rid ≠ none
  marked : ∀ txnId, ∀ record ∈ writeSets txnId, record.wtype = .delete →
    isMarked (table record.rid) = true ∧ owner record.rid = some txnId
  owned : ∀ txnId rid, owner rid = some txnId →
    ∃ record ∈ writeSets txnId, record.rid = rid ∧ record.wtype = .delete
  apart : ∀ txnId other, txnId ≠ other → ∀ record ∈ writeSets txnId, ∀ record' ∈ writeSets other,
    record.Claims → record'.Claims → record.rid ≠ record'.rid
  ordered : ∀ txnId, (writeSets txnId).Pairwise fun record record' =>
    record.rid = record'.rid → record.Claims → record'.Claims →
      record.wtype = .insert ∧ record'.wtype = .delete

namespace Owned

variable {table : Rid → Option Stored} {writeSets : ℕ → List WriteRecord}
  {owner : Rid → Option ℕ} {txnId : ℕ} {rid : Rid} {record new : WriteRecord}

theorem claims_cases (h : record.Claims) : record.wtype = .insert ∨ record.wtype = .delete := by
  cases htype : record.wtype with
  | insert => exact .inl rfl
  | delete => exact .inr rfl
  | update => exact absurd htype h

theorem mem_append_record {other : ℕ} :
    record ∈ update writeSets txnId (writeSets txnId ++ [new]) other ↔
      record ∈ writeSets other ∨ other = txnId ∧ record = new := by
  by_cases hother : other = txnId
  · subst hother
    simp only [update_self, List.mem_append, List.mem_singleton, true_and]
  · simp only [update_of_ne hother, hother, false_and, or_false]

variable (h : Owned table writeSets owner)
include h

theorem append {table' : Rid → Option Stored} {owner' : Rid → Option ℕ}
    (hheld : ∀ txnId, ∀ record ∈ writeSets txnId, record.wtype = .insert →
      table' record.rid ≠ none)
    (hmarked : ∀ txnId, ∀ record ∈ writeSets txnId, record.wtype = .delete →
      isMarked (table' record.rid) = true ∧ owner' record.rid = some txnId)
    (howned : ∀ other rid, owner' rid = some other →
      owner rid = some other ∨ other = txnId ∧ rid = new.rid ∧ new.wtype = .delete)
    (hnewheld : new.wtype = .insert → table' new.rid ≠ none)
    (hnewmarked : new.wtype = .delete →
      isMarked (table' new.rid) = true ∧ owner' new.rid = some txnId)
    (hfresh : new.Claims → ∀ other, ∀ record ∈ writeSets other, record.Claims →
      record.rid = new.rid → other = txnId ∧ record.wtype = .insert ∧ new.wtype = .delete) :
    Owned table' (update writeSets txnId (writeSets txnId ++ [new])) owner' where
  held := by
    intro other record hmem htype
    rcases mem_append_record.mp hmem with hold | ⟨_, rfl⟩
    · exact hheld other record hold htype
    · exact hnewheld htype
  marked := by
    intro other record hmem htype
    rcases mem_append_record.mp hmem with hold | ⟨rfl, rfl⟩
    · exact hmarked other record hold htype
    · exact hnewmarked htype
  owned := by
    intro other rid howner
    rcases howned other rid howner with hold | ⟨rfl, rfl, htype⟩
    · obtain ⟨record, hmem, hrid, htype⟩ := h.owned other rid hold
      exact ⟨record, mem_append_record.mpr (.inl hmem), hrid, htype⟩
    · exact ⟨new, mem_append_record.mpr (.inr ⟨rfl, rfl⟩), rfl, htype⟩
  apart := by
    intro first second hne record hmem record' hmem' hclaims hclaims' hrid
    rcases mem_append_record.mp hmem with hold | ⟨rfl, rfl⟩
    · rcases mem_append_record.mp hmem' with hold' | ⟨rfl, rfl⟩
      · exact h.apart first second hne record hold record' hold' hclaims hclaims' hrid
      · exact hne (hfresh hclaims' first record hold hclaims hrid).1
    · rcases mem_append_record.mp hmem' with hold' | ⟨rfl, rfl⟩
      · exact hne (hfresh hclaims second record' hold' hclaims' hrid.symm).1.symm
      · exact hne rfl
  ordered := by
    intro other
    by_cases hother : other = txnId
    · subst hother
      rw [update_self]
      refine List.pairwise_append.mpr ⟨h.ordered other, List.pairwise_singleton _ _, ?_⟩
      intro record hmem record' hmem' hrid hclaims hclaims'
      rw [List.mem_singleton] at hmem'
      subst hmem'
      exact (hfresh hclaims' other record hmem hclaims hrid).2
    · rw [update_of_ne hother]
      exact h.ordered other

/-! ### The calls -/

theorem rid_ne_of_free (hfree : table rid = none) {other : ℕ}
    (hmem : record ∈ writeSets other) (hclaims : record.Claims) : record.rid ≠ rid := by
  rintro rfl
  rcases claims_cases hclaims with htype | htype
  · exact h.held other record hmem htype hfree
  · have hmarked := (h.marked other record hmem htype).1
    rw [hfree] at hmarked
    cases hmarked

theorem rid_ne_of_unmarked (hrid : isMarked (table rid) = false)
    {other : ℕ} (hmem : record ∈ writeSets other) (htype : record.wtype = .delete) :
    record.rid ≠ rid := by
  rintro rfl
  rw [(h.marked other record hmem htype).1] at hrid
  cases hrid

theorem insert (hfree : table rid = none) (bytes : List UInt8)
    (txnId : ℕ) :
    Owned (update table rid (some ⟨bytes, false⟩))
      (update writeSets txnId (writeSets txnId ++ [⟨rid, .insert, .empty⟩])) owner := by
  apply h.append
  · intro other record hmem htype
    have hne := h.rid_ne_of_free hfree hmem (by rw [WriteRecord.Claims, htype]; decide)
    rw [update_of_ne hne]
    exact h.held other record hmem htype
  · intro other record hmem htype
    have hne := h.rid_ne_of_free hfree hmem (by rw [WriteRecord.Claims, htype]; decide)
    rw [update_of_ne hne]
    exact h.marked other record hmem htype
  · exact fun other rid howner => .inl howner
  · intro _
    rw [update_self]
    exact Option.some_ne_none _
  · exact fun htype => (nomatch htype)
  · exact fun _ other record hmem hclaims hrid =>
      absurd hrid (h.rid_ne_of_free hfree hmem hclaims)

theorem held_update (rid : Rid) (stored : Stored) (other : ℕ) :
    ∀ record ∈ writeSets other, record.wtype = .insert →
      update table rid (some stored) record.rid ≠ none := by
  intro record hmem htype
  by_cases hsame : record.rid = rid
  · rw [hsame, update_self]
    exact Option.some_ne_none _
  · rw [update_of_ne hsame]
    exact h.held other record hmem htype

theorem mark {bytes : List UInt8}
    (hrid : table rid = some ⟨bytes, false⟩)
    (hothers : ∀ other, other ≠ txnId → ∀ record ∈ writeSets other, record.wtype = .insert →
      record.rid ≠ rid) :
    Owned (update table rid (some ⟨bytes, true⟩))
      (update writeSets txnId (writeSets txnId ++ [⟨rid, .delete, .empty⟩]))
      (update owner rid (some txnId)) := by
  have hunmarked : isMarked (table rid) = false := by rw [hrid]; rfl
  apply h.append
  · exact h.held_update rid _
  · intro other record hmem htype
    have hne := h.rid_ne_of_unmarked hunmarked hmem htype
    rw [update_of_ne hne, update_of_ne hne]
    exact h.marked other record hmem htype
  · intro other rid' howner
    by_cases hsame : rid' = rid
    · rw [hsame, update_self, Option.some.injEq] at howner
      exact .inr ⟨howner.symm, hsame, rfl⟩
    · rw [update_of_ne hsame] at howner
      exact .inl howner
  · exact fun htype => (nomatch htype)
  · intro _
    rw [update_self, update_self]
    exact ⟨rfl, rfl⟩
  · intro _ other record hmem hclaims hsame
    rcases claims_cases hclaims with htype | htype
    · refine ⟨?_, htype, rfl⟩
      by_contra hne
      exact hothers other hne record hmem htype hsame
    · exact absurd hsame (h.rid_ne_of_unmarked hunmarked hmem htype)

theorem write {old : List UInt8}
    (hrid : table rid = some ⟨old, false⟩) (bytes : List UInt8) :
    Owned (update table rid (some ⟨bytes, false⟩)) writeSets owner where
  held := h.held_update rid _
  marked := by
    intro other record hmem htype
    have hne := h.rid_ne_of_unmarked (by rw [hrid]; rfl) hmem htype
    rw [update_of_ne hne]
    exact h.marked other record hmem htype
  owned := h.owned
  apart := h.apart
  ordered := h.ordered

theorem append_update (htype : new.wtype = .update)
    (txnId : ℕ) :
    Owned table (update writeSets txnId (writeSets txnId ++ [new])) owner := by
  refine h.append h.held h.marked (fun other rid howner => .inl howner) ?_ ?_ ?_
  · exact fun hinsert => absurd (htype.symm.trans hinsert) (by decide)
  · exact fun hdelete => absurd (htype.symm.trans hdelete) (by decide)
  · exact fun hclaims => absurd htype hclaims

omit h

/-- The observed owners are the owners of the invariant, if these are right about the marks
that are there after the step. -/
theorem nextOwner_eq {before : Rid → Option Stored} {owner' : Rid → Option ℕ}
    (h : Owned table writeSets owner')
    (hmarks : ∀ rid, isMarked (table rid) = true →
      owner' rid = if isMarked (before rid) then owner rid else some txnId) :
    nextOwner before table txnId owner = owner' := by
  funext rid
  unfold nextOwner
  cases hmarked : isMarked (table rid) with
  | true =>
    exact (hmarks rid hmarked).symm
  | false =>
    cases howner : owner' rid with
    | none => rfl
    | some other =>
      obtain ⟨record, hmem, hrid, htype⟩ := h.owned other rid howner
      exact absurd hrid (h.rid_ne_of_unmarked hmarked hmem htype)

theorem nextOwner_of_marks {before : Rid → Option Stored}
    (h : Owned table writeSets owner)
    (hmarks : ∀ rid, isMarked (table rid) = true → isMarked (before rid) = true) :
    nextOwner before table txnId owner = owner := by
  apply h.nextOwner_eq
  intro rid hmarked
  rw [if_pos (hmarks rid hmarked)]

/-! ### `Abort`, one entry at a time -/

section Pop

variable {front : List WriteRecord}

theorem mem_of_mem_front (hset : writeSets txnId = front ++ [new]) {other : ℕ}
    (hmem : record ∈ update writeSets txnId front other) : record ∈ writeSets other := by
  by_cases hother : other = txnId
  · subst hother
    rw [update_self] at hmem
    rw [hset]
    exact List.mem_append_left _ hmem
  · rwa [update_of_ne hother] at hmem

variable (h : Owned table writeSets owner)
include h

/-- Entries that stay and claim the rid of the last entry insert what it deletes. -/
theorem of_mem_front (hset : writeSets txnId = front ++ [new])
    {other : ℕ} (hmem : record ∈ update writeSets txnId front other)
    (hclaims : record.Claims) (hnew : new.Claims) (hrid : record.rid = new.rid) :
    record.wtype = .insert ∧ new.wtype = .delete := by
  have hlast : new ∈ writeSets txnId := by
    rw [hset]
    exact List.mem_append_right _ (List.mem_singleton_self _)
  by_cases hother : other = txnId
  · subst hother
    rw [update_self] at hmem
    have hordered := h.ordered other
    rw [hset] at hordered
    exact (List.pairwise_append.mp hordered).2.2 record hmem new (List.mem_singleton_self _) hrid
      hclaims hnew
  · rw [update_of_ne hother] at hmem
    exact absurd hrid (h.apart other txnId hother record hmem new hlast hclaims hnew)

/-- The last entry is dropped; the table and the owners change so that they agree with the
entries that stay. -/
theorem pop {table' : Rid → Option Stored} {owner' : Rid → Option ℕ}
    (hset : writeSets txnId = front ++ [new])
    (hheld : ∀ other, ∀ record ∈ update writeSets txnId front other,
      record.wtype = .insert → table' record.rid ≠ none)
    (hmarked : ∀ other, ∀ record ∈ update writeSets txnId front other,
      record.wtype = .delete →
        isMarked (table' record.rid) = true ∧ owner' record.rid = owner record.rid)
    (howned : ∀ other rid, owner' rid = some other →
      owner rid = some other ∧ (new.wtype = .delete → rid ≠ new.rid)) :
    Owned table' (update writeSets txnId front) owner' where
  held := hheld
  marked := by
    intro other record hmem htype
    obtain ⟨hmark, howner⟩ := hmarked other record hmem htype
    exact ⟨hmark, howner.trans (h.marked other record (mem_of_mem_front hset hmem) htype).2⟩
  owned := by
    intro other rid howner
    obtain ⟨hold, hlast⟩ := howned other rid howner
    obtain ⟨record, hmem, hrid, htype⟩ := h.owned other rid hold
    refine ⟨record, ?_, hrid, htype⟩
    by_cases hother : other = txnId
    · subst hother
      rw [hset, List.mem_append, List.mem_singleton] at hmem
      rw [update_self]
      refine hmem.resolve_right fun heq => ?_
      subst heq
      exact hlast htype hrid.symm
    · rwa [update_of_ne hother]
  apart := by
    intro first second hne record hmem record' hmem'
    exact h.apart first second hne record (mem_of_mem_front hset hmem) record'
      (mem_of_mem_front hset hmem')
  ordered := by
    intro other
    by_cases hother : other = txnId
    · subst hother
      have hordered := h.ordered other
      rw [hset] at hordered
      rw [update_self]
      exact (List.pairwise_append.mp hordered).1
    · rw [update_of_ne hother]
      exact h.ordered other

theorem pop_update (hset : writeSets txnId = front ++ [new])
    (htype : new.wtype = .update) : Owned table (update writeSets txnId front) owner := by
  apply h.pop hset
  · exact fun other record hmem => h.held other record (mem_of_mem_front hset hmem)
  · intro other record hmem hdelete
    exact ⟨(h.marked other record (mem_of_mem_front hset hmem) hdelete).1, rfl⟩
  · exact fun other rid howner =>
      ⟨howner, fun hdelete => absurd (htype.symm.trans hdelete) (by decide)⟩

theorem pop_insert (hset : writeSets txnId = front ++ [new])
    (htype : new.wtype = .insert) :
    Owned (update table new.rid none) (update writeSets txnId front) owner := by
  have hclaims : new.Claims := by rw [WriteRecord.Claims, htype]; decide
  have hne : ∀ other, ∀ record ∈ update writeSets txnId front other, record.Claims →
      record.rid ≠ new.rid := by
    intro other record hmem hrecord hrid
    have hdelete := (h.of_mem_front hset hmem hrecord hclaims hrid).2
    exact absurd (htype.symm.trans hdelete) (by decide)
  apply h.pop hset
  · intro other record hmem hinsert
    rw [update_of_ne (hne other record hmem (by rw [WriteRecord.Claims, hinsert]; decide))]
    exact h.held other record (mem_of_mem_front hset hmem) hinsert
  · intro other record hmem hdelete
    rw [update_of_ne (hne other record hmem (by rw [WriteRecord.Claims, hdelete]; decide))]
    exact ⟨(h.marked other record (mem_of_mem_front hset hmem) hdelete).1, rfl⟩
  · exact fun other rid howner =>
      ⟨howner, fun hdelete => absurd (htype.symm.trans hdelete) (by decide)⟩

theorem pop_delete (hset : writeSets txnId = front ++ [new])
    (htype : new.wtype = .delete) (bytes : List UInt8) :
    Owned (update table new.rid (some ⟨bytes, false⟩))
      (update writeSets txnId front) (update owner new.rid none) := by
  have hclaims : new.Claims := by rw [WriteRecord.Claims, htype]; decide
  apply h.pop hset
  · intro other record hmem hinsert
    by_cases hsame : record.rid = new.rid
    · rw [hsame, update_self]
      exact Option.some_ne_none _
    · rw [update_of_ne hsame]
      exact h.held other record (mem_of_mem_front hset hmem) hinsert
  · intro other record hmem hdelete
    have hne : record.rid ≠ new.rid := by
      intro hrid
      have hinsert := (h.of_mem_front hset hmem (by rw [WriteRecord.Claims, hdelete]; decide)
        hclaims hrid).1
      exact absurd (hdelete.symm.trans hinsert) (by decide)
    rw [update_of_ne hne, update_of_ne hne]
    exact ⟨(h.marked other record (mem_of_mem_front hset hmem) hdelete).1, rfl⟩
  · intro other rid howner
    by_cases hsame : rid = new.rid
    · rw [hsame, update_self] at howner
      cases howner
    · rw [update_of_ne hsame] at howner
      exact ⟨howner, fun _ => hsame⟩

omit h

end Pop

/-! ### `Commit` -/

theorem commit (h : Owned table writeSets owner) (txnId : ℕ) :
    Owned (fun rid => if owner rid = some txnId then none else table rid)
      (update writeSets txnId [])
      (fun rid => if owner rid = some txnId then none else owner rid) := by
  have hmem_other : ∀ other, ∀ record ∈ update writeSets txnId [] other,
      other ≠ txnId ∧ record ∈ writeSets other := by
    intro other record hmem
    by_cases hother : other = txnId
    · subst hother
      rw [update_self] at hmem
      cases hmem
    · rw [update_of_ne hother] at hmem
      exact ⟨hother, hmem⟩
  have hnot_own : ∀ other, ∀ record ∈ update writeSets txnId [] other, record.Claims →
      owner record.rid ≠ some txnId := by
    intro other record hmem hclaims howner
    obtain ⟨hother, hmem'⟩ := hmem_other other record hmem
    obtain ⟨record', hmem'', hrid, htype⟩ := h.owned txnId record.rid howner
    exact h.apart other txnId hother record hmem' record' hmem'' hclaims
      (by rw [WriteRecord.Claims, htype]; decide) hrid.symm
  constructor
  · intro other record hmem htype
    rw [if_neg (hnot_own other record hmem (by rw [WriteRecord.Claims, htype]; decide))]
    exact h.held other record (hmem_other other record hmem).2 htype
  · intro other record hmem htype
    have hother := hnot_own other record hmem (by rw [WriteRecord.Claims, htype]; decide)
    simp only [if_neg hother]
    exact h.marked other record (hmem_other other record hmem).2 htype
  · intro other rid howner
    split_ifs at howner with hown
    obtain ⟨record, hmem, hrid, htype⟩ := h.owned other rid howner
    have hother : other ≠ txnId := fun heq => hown (heq ▸ howner)
    exact ⟨record, by rwa [update_of_ne hother], hrid, htype⟩
  · intro first second hne record hmem record' hmem'
    exact h.apart first second hne record (hmem_other first record hmem).2 record'
      (hmem_other second record' hmem').2
  · intro other
    by_cases hother : other = txnId
    · subst hother
      rw [update_self]
      exact List.Pairwise.nil
    · rw [update_of_ne hother]
      exact h.ordered other

end Owned

end BusTub
