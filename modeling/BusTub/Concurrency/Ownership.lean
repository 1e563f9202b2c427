import BusTub.Concurrency.DeleteMarks

/-!
# Who owns a delete mark

Any number of transactions work on one table heap, each call being one step.  A delete mark
belongs to the transaction whose call placed it.  The system below carries this `owner` along with
the pool and the transactions; no code reads it.

`MarkDelete` of the heap puts a DELETE entry into the write set whether or not the page marked the
tuple, so an entry need not stand for a mark of its transaction.  It does so in every run whose
calls of `MarkDelete` meet a tuple that is not marked and was not inserted by another open
transaction.  The invariant is `Owned`, of the module on delete marks; here the calls and loops of
the code are brought to it.
-/

namespace BusTub

open Function ByteMemory Machines

/-! ## The loops of `Commit` and `Abort` -/

namespace TransactionManager

open TableHeap

variable {firstPageId : PageId} {pool : PagePool} {chain : List PageId} {frames : ℕ → Bool}

/-- The outcome of a loop: it ends well, or a page was not found. -/
def LoopEnds (frames : ℕ → Bool) (result : Except TableFault PagePool)
    (good : PagePool → Prop) : Prop :=
  (∃ pool', result = .ok pool' ∧ good pool') ∨
    result = .error .noPageForRid ∧ ∃ request, frames request = false

theorem LoopEnds.imp {result : Except TableFault PagePool} {good good' : PagePool → Prop}
    (h : LoopEnds frames result good) (himp : ∀ pool, good pool → good' pool) :
    LoopEnds frames result good' :=
  Or.imp_left (fun ⟨pool', hresult, hgood⟩ => ⟨pool', hresult, himp pool' hgood⟩) h

theorem writeSetLoop_cons {act : Bool → PagePool → WriteRecord → Except TableFault PagePool}
    {record : WriteRecord} {rest : List WriteRecord} {good : PagePool → Prop}
    (hends : (∃ after, act (frames rest.length) pool record = .ok after ∧
        LoopEnds frames (writeSetLoop act frames rest after) good) ∨
      act (frames rest.length) pool record = .error .noPageForRid ∧
        frames rest.length = false) :
    LoopEnds frames (writeSetLoop act frames (record :: rest) pool) good := by
  rcases hends with ⟨after, hact, hrest⟩ | ⟨hact, hframe⟩
  · rw [writeSetLoop, hact]
    exact hrest
  · rw [writeSetLoop, hact]
    exact .inr ⟨rfl, _, hframe⟩

theorem editPage_noFrame (edit : TablePage → ℕ → Except TableFault TablePage) (pool : PagePool)
    (rid : Rid) : editPage edit false pool rid = .error .noPageForRid := rfl

/-- **`Commit`** removes the tuples of its DELETE entries, if they are there. -/
theorem commitLoop_ends {records : List WriteRecord} (h : IsHeap firstPageId pool chain)
    (hpresent : ∀ rid, Deletes records rid → contents firstPageId pool rid ≠ none)
    (hdistinct : records.Pairwise fun record record' =>
      record.wtype = .delete → record'.wtype = .delete → record.rid ≠ record'.rid) :
    LoopEnds frames (writeSetLoop commitRecord frames records pool) fun pool' =>
      IsHeap firstPageId pool' chain ∧ ∀ rid,
        (Deletes records rid → contents firstPageId pool' rid = none) ∧
        (¬ Deletes records rid →
          contents firstPageId pool' rid = contents firstPageId pool rid) := by
  induction records generalizing pool with
  | nil =>
    refine .inl ⟨pool, rfl, h, fun rid => ⟨fun hdeletes => ?_, fun _ => rfl⟩⟩
    obtain ⟨record, hmem, _⟩ := hdeletes
    cases hmem
  | cons record rest ih =>
    obtain ⟨hhead, htail⟩ := List.pairwise_cons.mp hdistinct
    simp only [deletes_cons] at hpresent ⊢
    apply writeSetLoop_cons
    by_cases htype : record.wtype = .delete
    · simp only [commitRecord, htype, true_and]
      cases hframe : frames rest.length with
      | false => exact .inr ⟨editPage_noFrame _ pool record.rid, rfl⟩
      | true =>
        obtain ⟨stored, hstored⟩ :=
          Option.ne_none_iff_exists'.mp (hpresent record.rid (.inl ⟨htype, rfl⟩))
        obtain ⟨after, hdelete, hheap, _, hcontents⟩ := applyDelete_contents h hstored
        have hafter : ∀ rid, rid ≠ record.rid →
            contents firstPageId after rid = contents firstPageId pool rid := by
          intro rid hrid
          rw [hcontents, update_of_ne hrid]
        have hne : ∀ rid, Deletes rest rid → rid ≠ record.rid := by
          intro rid ⟨record', hmem, htype', hrid⟩ heq
          exact hhead record' hmem htype htype' (heq.symm.trans hrid.symm)
        have hrest := ih hheap (fun rid hdeletes => by
          rw [hafter rid (hne rid hdeletes)]
          exact hpresent rid (.inr hdeletes)) htail
        refine .inl ⟨after, hdelete, hrest.imp fun pool' hends => ⟨hends.1, fun rid => ?_⟩⟩
        refine ⟨fun hdeletes => ?_, fun hnot => ?_⟩
        · by_cases hlater : Deletes rest rid
          · exact (hends.2 rid).1 hlater
          · obtain rfl := hdeletes.resolve_right hlater
            rw [(hends.2 _).2 hlater, hcontents, update_self]
        · have hrid : rid ≠ record.rid := fun heq => hnot (.inl heq.symm)
          rw [(hends.2 rid).2 fun hlater => hnot (.inr hlater), hafter rid hrid]
    -- other entries are skipped
    · have hskip : commitRecord (frames rest.length) pool record = .ok pool := by
        unfold commitRecord
        cases hcase : record.wtype with
        | delete => exact absurd hcase htype
        | insert => rfl
        | update => rfl
      simp only [htype, false_and, false_or] at hpresent ⊢
      exact .inl ⟨pool, hskip, ih h hpresent htail⟩

/-- The update entries name pages of the heap and tuples that are not empty. -/
def Replayable (chain : List PageId) (records : List WriteRecord) : Prop :=
  ∀ record ∈ records, record.wtype = .update →
    record.rid.pageId ∈ chain ∧ record.tuple.size ≠ 0

section entries

variable {writeSets : ℕ → List WriteRecord} {owner : Rid → Option ℕ} {txnId : ℕ}
  {front : List WriteRecord} {record : WriteRecord}

/-- What undoing an entry leaves: the heap with the other entries, and no mark that is new. -/
structure Undone (firstPageId : PageId) (chain : List PageId) (pool : PagePool)
    (owner : Rid → Option ℕ) (writeSets' : ℕ → List WriteRecord) (after : PagePool)
    (owner' : Rid → Option ℕ) : Prop where
  heap : IsHeap firstPageId after chain
  owned : Owned (contents firstPageId after) writeSets' owner'
  marks : ∀ rid, isMarked (contents firstPageId after rid) = true →
    isMarked (contents firstPageId pool rid) = true ∧ owner' rid = owner rid

theorem undo_delete (h : IsHeap firstPageId pool chain)
    (howned : Owned (contents firstPageId pool) writeSets owner)
    (hset : writeSets txnId = front ++ [record]) (htype : record.wtype = .delete)
    (hmem : record ∈ writeSets txnId) :
    ∃ after, rollbackDelete true pool record.rid = .ok after ∧
      Undone firstPageId chain pool owner (update writeSets txnId front) after
        (update owner record.rid none) := by
  have hmarked := (howned.marked txnId record hmem htype).1
  cases hstored : contents firstPageId pool record.rid with
  | none =>
    rw [hstored] at hmarked
    cases hmarked
  | some stored =>
    obtain ⟨after, hrollback, hheap, _, hcontents⟩ := rollbackDelete_contents h hstored
    refine ⟨after, hrollback, hheap, ?_, fun rid hrid => ?_⟩
    · rw [hcontents]
      exact howned.pop_delete hset htype stored.bytes
    · rw [hcontents] at hrid
      obtain ⟨hne, hbefore⟩ := isMarked_of_update rfl hrid
      exact ⟨hbefore, update_of_ne hne _ _⟩

theorem undo_insert (h : IsHeap firstPageId pool chain)
    (howned : Owned (contents firstPageId pool) writeSets owner)
    (hset : writeSets txnId = front ++ [record]) (htype : record.wtype = .insert)
    (hmem : record ∈ writeSets txnId) :
    ∃ after, applyDelete true pool record.rid = .ok after ∧
      Undone firstPageId chain pool owner (update writeSets txnId front) after owner := by
  obtain ⟨stored, hstored⟩ :=
    Option.ne_none_iff_exists'.mp (howned.held txnId record hmem htype)
  obtain ⟨after, hdelete, hheap, _, hcontents⟩ := applyDelete_contents h hstored
  refine ⟨after, hdelete, hheap, ?_, fun rid hrid => ?_⟩
  · rw [hcontents]
    exact howned.pop_insert hset htype
  · rw [hcontents] at hrid
    exact ⟨(isMarked_of_update rfl hrid).2, rfl⟩

/-- The answer of `UpdateTuple` is not looked at: a page that was not found, or a tuple that is
not there or finds no room, leaves the table as it is. -/
theorem undo_update (h : IsHeap firstPageId pool chain)
    (howned : Owned (contents firstPageId pool) writeSets owner)
    (hset : writeSets txnId = front ++ [record]) (htype : record.wtype = .update)
    (hreplay : Replayable chain [record]) (frame : Bool) :
    ∃ after, abortRecord frame pool record = .ok after ∧
      Undone firstPageId chain pool owner (update writeSets txnId front) after owner := by
  have hpop := howned.pop_update hset htype
  obtain ⟨hpage, hsize⟩ := hreplay record (List.mem_singleton_self _) htype
  rcases updateTuple_outcome h hpage frame ⟨.aborted, []⟩ record.tuple with
    ⟨result, hends, houtcome⟩ | ⟨_, hzero⟩
  · simp only [abortRecord, htype, hends, Except.map]
    refine ⟨result.2.1, rfl, ?_⟩
    obtain ⟨answer, after, txn⟩ := result
    generalize hpair : (after, txn) = pair at houtcome
    cases houtcome with
    | noFrame =>
      cases hpair
      exact ⟨h, hpop, fun rid hrid => ⟨hrid, rfl⟩⟩
    | refused hheap hedited =>
      cases hpair
      have hsame := hedited.contents_of_same h hheap hpage
      exact ⟨hheap, hsame.symm ▸ hpop, fun rid hrid => ⟨hsame ▸ hrid, rfl⟩⟩
    | done hheap hupdate hedited =>
      cases hpair
      obtain ⟨hold, hcontents⟩ := hedited.contents_of_update h hheap hpage hupdate
      refine ⟨hheap, ?_, fun rid hrid => ?_⟩
      · simp only [hcontents]
        exact hpop.write hold record.tuple.data
      · simp only [hcontents] at hrid
        exact ⟨(isMarked_of_update rfl hrid).2, rfl⟩
  · exact absurd hzero hsize

theorem abortRecord_ends (h : IsHeap firstPageId pool chain)
    (howned : Owned (contents firstPageId pool) writeSets owner)
    (hset : writeSets txnId = front ++ [record]) (hreplay : Replayable chain [record])
    (frame : Bool) :
    (∃ after owner', abortRecord frame pool record = .ok after ∧
      Undone firstPageId chain pool owner (update writeSets txnId front) after owner') ∨
      abortRecord frame pool record = .error .noPageForRid ∧ frame = false := by
  have hmem : record ∈ writeSets txnId := by
    rw [hset]
    exact List.mem_append_right _ (List.mem_singleton_self _)
  cases htype : record.wtype with
  | delete =>
    simp only [abortRecord, htype]
    cases frame with
    | false => exact .inr ⟨editPage_noFrame _ pool record.rid, rfl⟩
    | true =>
      obtain ⟨after, hundo, hundone⟩ := undo_delete h howned hset htype hmem
      exact .inl ⟨after, _, hundo, hundone⟩
  | insert =>
    simp only [abortRecord, htype]
    cases frame with
    | false => exact .inr ⟨editPage_noFrame _ pool record.rid, rfl⟩
    | true =>
      obtain ⟨after, hundo, hundone⟩ := undo_insert h howned hset htype hmem
      exact .inl ⟨after, _, hundo, hundone⟩
  | update =>
    obtain ⟨after, hundo, hundone⟩ := undo_update h howned hset htype hreplay frame
    exact .inl ⟨after, _, hundo, hundone⟩

end entries

/-- **`Abort`** undoes one entry after the other, and no assertion fails. -/
theorem abortLoop_ends {records : List WriteRecord} {writeSets : ℕ → List WriteRecord}
    {owner : Rid → Option ℕ} {txnId : ℕ} (h : IsHeap firstPageId pool chain)
    (howned : Owned (contents firstPageId pool) writeSets owner)
    (hset : writeSets txnId = records.reverse) (hreplay : Replayable chain records) :
    LoopEnds frames (writeSetLoop abortRecord frames records pool) fun pool' =>
      IsHeap firstPageId pool' chain ∧ ∃ owner',
        Owned (contents firstPageId pool') (update writeSets txnId []) owner' ∧
        ∀ rid, isMarked (contents firstPageId pool' rid) = true →
          isMarked (contents firstPageId pool rid) = true ∧ owner' rid = owner rid := by
  induction records generalizing pool writeSets owner with
  | nil =>
    refine .inl ⟨pool, rfl, h, owner, ?_, fun rid hrid => ⟨hrid, rfl⟩⟩
    rwa [← List.reverse_nil, ← hset, update_eq_self]
  | cons record rest ih =>
    rw [List.reverse_cons] at hset
    apply writeSetLoop_cons
    have hhead : Replayable chain [record] := by
      intro record' hmem
      rw [List.mem_singleton] at hmem
      exact hreplay record' (hmem ▸ List.mem_cons_self)
    rcases abortRecord_ends h howned hset hhead (frames rest.length) with
      ⟨after, owner₁, hact, hfirst⟩ | hfault
    · have hrest := ih hfirst.heap hfirst.owned (update_self _ _ _)
        fun record' hmem => hreplay record' (List.mem_cons_of_mem _ hmem)
      refine .inl ⟨after, hact, hrest.imp fun pool' ⟨hheap', owner₂, howned₂, hmarks₂⟩ => ?_⟩
      refine ⟨hheap', owner₂, ?_, fun rid hrid => ?_⟩
      · rwa [update_idem] at howned₂
      · obtain ⟨hmarked, howner⟩ := hmarks₂ rid hrid
        obtain ⟨hbefore, howner₁⟩ := hfirst.marks rid hmarked
        exact ⟨hbefore, howner.trans howner₁⟩
    · exact .inr hfault

end TransactionManager

/-! ## The system -/

open TableHeap TransactionManager

/-- The pool, the transactions, and for every delete mark the transaction that placed it. -/
structure System where
  pool : PagePool
  txns : ℕ → Transaction
  owner : Rid → Option ℕ

/-- A step of the transaction with the given number. -/
inductive SystemCall
  | call (txnId : ℕ) (call : TxnCall)
  | commit (txnId : ℕ) (frames : ℕ → Bool)
  | abort (txnId : ℕ) (frames : ℕ → Bool)

namespace System

def writeSets (system : System) (txnId : ℕ) : List WriteRecord := (system.txns txnId).writeSet

def advance (firstPageId : PageId) (system : System) (txnId : ℕ)
    (result : PagePool × Transaction) : Unit × System :=
  ((), ⟨result.1, Function.update system.txns txnId result.2,
    nextOwner (contents firstPageId system.pool) (contents firstPageId result.1) txnId
      system.owner⟩)

end System

def systemMachine (firstPageId : PageId) : Machine System SystemCall Unit TableFault where
  step system
    | .call txnId call =>
      (call.apply firstPageId system.pool (system.txns txnId)).map
        (system.advance firstPageId txnId)
    | .commit txnId frames =>
      (commit frames system.pool (system.txns txnId)).map (system.advance firstPageId txnId)
    | .abort txnId frames =>
      (abort frames system.pool (system.txns txnId)).map (system.advance firstPageId txnId)

/-- The rids of the calls name pages of the heap. -/
def SystemCall.Valid (firstPageId : PageId) (system : System) : SystemCall → Prop
  | .call _ txnCall => txnCall.Valid firstPageId system.pool
  | .commit _ _ => True
  | .abort _ _ => True

/-- A call of `MarkDelete` meets a tuple that is not marked and that no other transaction
has inserted. -/
def SystemCall.Placed (firstPageId : PageId) (system : System) : SystemCall → Prop
  | .call txnId (.mark true rid) =>
    (∃ bytes, contents firstPageId system.pool rid = some ⟨bytes, false⟩) ∧
      ∀ other, other ≠ txnId → ∀ record ∈ (system.txns other).writeSet,
        record.wtype = .insert → record.rid ≠ rid
  | _ => True

/-- The invariant of the system. -/
structure System.Sound (firstPageId : PageId) (system : System) : Prop where
  heap : ∃ chain, IsHeap firstPageId system.pool chain ∧
    ∀ txnId, Replayable chain (system.writeSets txnId)
  owned : Owned (contents firstPageId system.pool) system.writeSets system.owner

namespace System

variable {firstPageId : PageId} {system : System} {txnId : ℕ}

theorem writeSets_advance (system : System) (txnId : ℕ) (result : PagePool × Transaction) :
    (system.advance firstPageId txnId result).2.writeSets =
      update system.writeSets txnId result.2.writeSet := by
  funext other
  by_cases hother : other = txnId
  · subst hother
    simp [writeSets, advance]
  · simp [writeSets, advance, update_of_ne hother]

/-- Replaying needs no more than before if the chain grows and the new write set is sound. -/
theorem replayable_update {writeSets : ℕ → List WriteRecord} {chain chain' : List PageId}
    (h : ∀ txnId, Replayable chain (writeSets txnId)) (hsubset : chain ⊆ chain')
    {records : List WriteRecord} (hrecords : Replayable chain' records) (other : ℕ) :
    Replayable chain' (update writeSets txnId records other) := by
  by_cases hother : other = txnId
  · subst hother
    rwa [update_self]
  · rw [update_of_ne hother]
    intro record hmem htype
    exact ⟨hsubset (h other record hmem htype).1, (h other record hmem htype).2⟩

theorem owned_of_effect {table : Rid → Option Stored} {call : TxnCall} {txn' : Transaction}
    (howned : Owned (contents firstPageId system.pool) system.writeSets system.owner)
    (hplaced : SystemCall.Placed firstPageId system (.call txnId call))
    (heffect : call.Effect (contents firstPageId system.pool) (system.txns txnId) table txn') :
    Owned table (update system.writeSets txnId txn'.writeSet)
      (nextOwner (contents firstPageId system.pool) table txnId system.owner) := by
  cases heffect with
  | nothing hsame =>
    rw [howned.nextOwner_of_marks fun _ hmarked => hmarked, hsame]
    rwa [show (system.txns txnId).writeSet = system.writeSets txnId from rfl,
      update_eq_self]
  | @inserted frames tuple rid hfree =>
    have hnew := howned.insert hfree tuple.data txnId
    rw [hnew.nextOwner_of_marks fun other hmarked => ?_]
    · exact hnew
    · by_cases hsame : other = rid
      · rw [hsame, update_self] at hmarked
        cases hmarked
      · rwa [update_of_ne hsame] at hmarked
  | @marked rid =>
    obtain ⟨⟨bytes, hrid⟩, hothers⟩ := hplaced
    have hnew := howned.mark hrid hothers
    rw [hrid, Option.map_some]
    rw [hnew.nextOwner_eq fun other hmarked => ?_]
    · exact hnew
    · by_cases hsame : other = rid
      · rw [hsame, update_self, hrid]
        rfl
      · rw [update_of_ne hsame] at hmarked ⊢
        rw [if_pos hmarked]
  | @updated frame tuple old rid _ hold htxn =>
    have hwrite := howned.write hold tuple.data
    rw [hwrite.nextOwner_of_marks fun other hmarked => ?_]
    · rcases htxn with rfl | hsame
      · exact hwrite.append_update rfl txnId
      · rw [hsame, show (system.txns txnId).writeSet = system.writeSets txnId from rfl,
          update_eq_self]
        exact hwrite
    · by_cases hsame : other = rid
      · rw [hsame, update_self] at hmarked
        cases hmarked
      · rwa [update_of_ne hsame] at hmarked

theorem replayable_of_effect {table : Rid → Option Stored} {call : TxnCall}
    {txn txn' : Transaction} {chain chain' : List PageId}
    (hheap : IsHeap firstPageId system.pool chain) (hreplay : Replayable chain txn.writeSet)
    (hsubset : chain ⊆ chain')
    (heffect : call.Effect (contents firstPageId system.pool) txn table txn') :
    Replayable chain' txn'.writeSet := by
  have hold : Replayable chain' txn.writeSet := fun record hmem htype =>
    ⟨hsubset (hreplay record hmem htype).1, (hreplay record hmem htype).2⟩
  have happend : ∀ new : WriteRecord, (new.wtype = .update →
      new.rid.pageId ∈ chain' ∧ new.tuple.size ≠ 0) →
      Replayable chain' (txn.writeSet ++ [new]) := by
    intro new hnew record hmem htype
    rcases List.mem_append.mp hmem with hmem | hmem
    · exact hold record hmem htype
    · rw [List.mem_singleton] at hmem
      exact hmem ▸ hnew (hmem ▸ htype)
  cases heffect with
  | nothing hsame => rwa [hsame]
  | inserted hfree => exact happend _ fun htype => (nomatch htype)
  | marked => exact happend _ fun htype => (nomatch htype)
  | updated hcontents htxn =>
    rcases htxn with rfl | hsame
    · refine happend _ fun _ => ?_
      obtain ⟨hmem, _, _, hpos⟩ := hheap.of_contents hcontents
      exact ⟨hsubset hmem, fun hzero => hpos (List.eq_nil_of_length_eq_zero hzero)⟩
    · rwa [hsame]

/-- **A call** keeps the invariant. -/
theorem Sound.call (h : Sound firstPageId system) {call : TxnCall}
    (hvalid : call.Valid firstPageId system.pool)
    (hplaced : SystemCall.Placed firstPageId system (.call txnId call))
    {result : PagePool × Transaction}
    (hcall : call.apply firstPageId system.pool (system.txns txnId) = .ok result) :
    Sound firstPageId (system.advance firstPageId txnId result).2 := by
  obtain ⟨chain, hheap, hreplay⟩ := h.heap
  obtain ⟨chain', hheap', hsubset, heffect⟩ := TxnCall.apply_effect hheap hvalid hcall
  have howned := owned_of_effect h.owned hplaced heffect
  have hnew := replayable_of_effect hheap (hreplay txnId) hsubset heffect
  refine ⟨⟨chain', hheap', fun other => ?_⟩, ?_⟩
  · rw [writeSets_advance]
    exact replayable_update hreplay hsubset hnew other
  · rw [writeSets_advance]
    exact howned

theorem sound_of_empty {chain : List PageId} {pool' : PagePool} {txn' : Transaction}
    {owner' : Rid → Option ℕ} (hheap : IsHeap firstPageId pool' chain)
    (hreplay : ∀ txnId, Replayable chain (system.writeSets txnId)) (hempty : txn'.writeSet = [])
    (hnew : Owned (contents firstPageId pool') (update system.writeSets txnId []) owner')
    (hmarks : ∀ rid, isMarked (contents firstPageId pool' rid) = true →
      isMarked (contents firstPageId system.pool rid) = true ∧ owner' rid = system.owner rid) :
    Sound firstPageId (system.advance firstPageId txnId (pool', txn')).2 := by
  have howner : nextOwner (contents firstPageId system.pool) (contents firstPageId pool') txnId
      system.owner = owner' := by
    apply hnew.nextOwner_eq
    intro rid hmarked
    rw [if_pos (hmarks rid hmarked).1, (hmarks rid hmarked).2]
  have hnone : Replayable chain [] := fun record hmem => (nomatch hmem)
  refine ⟨⟨chain, hheap, fun other => ?_⟩, ?_⟩
  · rw [writeSets_advance, hempty]
    exact replayable_update hreplay (List.Subset.refl _) hnone other
  · rw [writeSets_advance, hempty]
    rw [← howner] at hnew
    exact hnew

theorem deletes_iff
    (howned : Owned (contents firstPageId system.pool) system.writeSets system.owner) (rid : Rid) :
    Deletes (system.txns txnId).writeSet.reverse rid ↔ system.owner rid = some txnId := by
  constructor
  · rintro ⟨record, hmem, htype, rfl⟩
    exact (howned.marked txnId record (List.mem_reverse.mp hmem) htype).2
  · intro howner
    obtain ⟨record, hmem, hrid, htype⟩ := howned.owned txnId rid howner
    exact ⟨record, List.mem_reverse.mpr hmem, htype, hrid⟩

/-- **`Commit`** removes exactly what its transaction has marked. -/
theorem Sound.commitLoop (h : Sound firstPageId system) (txnId : ℕ) (frames : ℕ → Bool) :
    LoopEnds frames
      (writeSetLoop commitRecord frames (system.txns txnId).writeSet.reverse system.pool)
      fun pool' => (∃ chain, IsHeap firstPageId pool' chain ∧
          ∀ txnId, Replayable chain (system.writeSets txnId)) ∧
        contents firstPageId pool' = fun rid =>
          if system.owner rid = some txnId then none else contents firstPageId system.pool rid := by
  obtain ⟨chain, hheap, hreplay⟩ := h.heap
  have hpresent : ∀ rid, Deletes (system.txns txnId).writeSet.reverse rid →
      contents firstPageId system.pool rid ≠ none := by
    rintro rid ⟨record, hmem, htype, rfl⟩ hnone
    have hmarked := (h.owned.marked txnId record (List.mem_reverse.mp hmem) htype).1
    rw [hnone] at hmarked
    cases hmarked
  have hdistinct : (system.txns txnId).writeSet.reverse.Pairwise fun record record' =>
      record.wtype = .delete → record'.wtype = .delete → record.rid ≠ record'.rid := by
    rw [List.pairwise_reverse]
    refine (h.owned.ordered txnId).imp fun hordered htype' htype hrid => ?_
    have hinsert := (hordered hrid.symm (by rw [WriteRecord.Claims, htype]; decide)
      (by rw [WriteRecord.Claims, htype']; decide)).1
    exact absurd (htype.symm.trans hinsert) (by decide)
  rcases commitLoop_ends hheap hpresent hdistinct with ⟨pool', hloop, hheap', hrids⟩ | hfault
  · refine .inl ⟨pool', hloop, ⟨chain, hheap', hreplay⟩, ?_⟩
    funext rid
    split_ifs with howner
    · exact (hrids rid).1 ((deletes_iff h.owned rid).mpr howner)
    · exact (hrids rid).2 fun hdeletes => howner ((deletes_iff h.owned rid).mp hdeletes)
  · exact .inr hfault

/-- **`Commit`** keeps the invariant. -/
theorem Sound.commit (h : Sound firstPageId system) {frames : ℕ → Bool}
    {result : PagePool × Transaction}
    (hcommit : TransactionManager.commit frames system.pool (system.txns txnId) = .ok result) :
    Sound firstPageId (system.advance firstPageId txnId result).2 := by
  unfold TransactionManager.commit at hcommit
  rcases h.commitLoop txnId frames with ⟨pool', hloop, ⟨chain, hheap, hreplay⟩, hcontents⟩ |
    ⟨hfault, _⟩
  · simp only [hloop, Except.map, Except.ok.injEq] at hcommit
    subst hcommit
    have hnew := h.owned.commit txnId
    rw [← hcontents] at hnew
    refine sound_of_empty hheap hreplay rfl hnew fun rid hmarked => ?_
    simp only [hcontents] at hmarked
    by_cases hown : system.owner rid = some txnId
    · rw [if_pos hown] at hmarked
      cases hmarked
    · rw [if_neg hown] at hmarked ⊢
      exact ⟨hmarked, rfl⟩
  · simp only [hfault, Except.map, reduceCtorEq] at hcommit

/-- **`Abort`** ends, if the pages are found. -/
theorem Sound.abortLoop (h : Sound firstPageId system) (txnId : ℕ) (frames : ℕ → Bool) :
    LoopEnds frames
      (writeSetLoop abortRecord frames (system.txns txnId).writeSet.reverse system.pool)
      fun pool' => (∃ chain, IsHeap firstPageId pool' chain ∧
          ∀ txnId, Replayable chain (system.writeSets txnId)) ∧ ∃ owner',
        Owned (contents firstPageId pool') (update system.writeSets txnId []) owner' ∧
        ∀ rid, isMarked (contents firstPageId pool' rid) = true →
          isMarked (contents firstPageId system.pool rid) = true ∧
            owner' rid = system.owner rid := by
  obtain ⟨chain, hheap, hreplay⟩ := h.heap
  have hreverse : Replayable chain (system.txns txnId).writeSet.reverse :=
    fun record hmem => hreplay txnId record (List.mem_reverse.mp hmem)
  have hset : system.writeSets txnId = (system.txns txnId).writeSet.reverse.reverse :=
    (List.reverse_reverse _).symm
  exact (abortLoop_ends hheap h.owned hset hreverse).imp fun pool' ⟨hheap', hrest⟩ =>
    ⟨⟨chain, hheap', hreplay⟩, hrest⟩

/-- **`Abort`** keeps the invariant. -/
theorem Sound.abort (h : Sound firstPageId system) {frames : ℕ → Bool}
    {result : PagePool × Transaction}
    (habort : TransactionManager.abort frames system.pool (system.txns txnId) = .ok result) :
    Sound firstPageId (system.advance firstPageId txnId result).2 := by
  unfold TransactionManager.abort at habort
  rcases h.abortLoop txnId frames with
    ⟨pool', hloop, ⟨chain, hheap, hreplay⟩, owner', hnew, hmarks⟩ | ⟨hfault, _⟩
  · simp only [hloop, Except.map, Except.ok.injEq] at habort
    subst habort
    exact sound_of_empty hheap hreplay rfl hnew hmarks
  · simp only [hfault, Except.map, reduceCtorEq] at habort

/-! ## Every run -/

/-- Only a missing page, an empty tuple or a chain without an end stops a run. -/
def Harmless (fault : TableFault) : Prop :=
  (fault = .endlessChain ∨ fault = .emptyTuple ∨ fault = .nullPage) ∨ fault = .noPageForRid

theorem step_ends {result : Except TableFault (PagePool × Transaction)}
    (hok : ∀ pair, result = .ok pair → Sound firstPageId (system.advance firstPageId txnId pair).2)
    (hfault : ∀ fault, result = .error fault → Harmless fault) :
    (∀ answer next, result.map (system.advance firstPageId txnId) = .ok (answer, next) →
      Sound firstPageId next) ∧
    ∀ fault, result.map (system.advance firstPageId txnId) = .error fault → Harmless fault := by
  cases hresult : result with
  | error fault =>
    refine ⟨fun answer next hstep => (nomatch hstep), fun fault' hstep => ?_⟩
    simp only [Except.map, Except.error.injEq] at hstep
    exact hstep ▸ hfault fault hresult
  | ok pair =>
    refine ⟨fun answer next hstep => ?_, fun fault hstep => (nomatch hstep)⟩
    simp only [Except.map, Except.ok.injEq] at hstep
    have hnext := hok pair hresult
    rwa [hstep] at hnext

theorem loop_fault {frames : ℕ → Bool} {loop : Except TableFault PagePool}
    {good : PagePool → Prop} (hends : LoopEnds frames loop good) {after : Transaction}
    {fault : TableFault} (hfault : loop.map (fun pool => (pool, after)) = .error fault) :
    Harmless fault := by
  rcases hends with ⟨_, hloop, _⟩ | ⟨hloop, _⟩
  · simp only [hloop, Except.map, reduceCtorEq] at hfault
  · simp only [hloop, Except.map, Except.error.injEq] at hfault
    exact .inr hfault.symm

/-- **One step** keeps the invariant and does not fail an assertion about slots. -/
theorem Sound.step (h : Sound firstPageId system) {call : SystemCall}
    (hvalid : call.Valid firstPageId system) (hplaced : call.Placed firstPageId system) :
    (∀ answer next, (systemMachine firstPageId).step system call = .ok (answer, next) →
      Sound firstPageId next) ∧
    ∀ fault, (systemMachine firstPageId).step system call = .error fault → Harmless fault := by
  obtain ⟨chain, hheap, _⟩ := h.heap
  cases call with
  | call txnId txnCall =>
    exact step_ends (fun pair hcall => h.call hvalid hplaced hcall)
      fun fault hcall => .inl (TxnCall.apply_fault hheap hvalid hcall)
  | commit txnId frames =>
    exact step_ends (fun pair hcommit => h.commit hcommit)
      fun fault hcommit => loop_fault (h.commitLoop txnId frames) hcommit
  | abort txnId frames =>
    exact step_ends (fun pair habort => h.abort habort)
      fun fault habort => loop_fault (h.abortLoop txnId frames) habort

/-- The transactions have not begun, and no mark has an owner. -/
def start (pool : PagePool) : System := ⟨pool, fun _ => .fresh, fun _ => none⟩

theorem sound_start {pool : PagePool} (hreachable : Reachable firstPageId pool) :
    Sound firstPageId (start pool) := by
  obtain ⟨chain, hheap⟩ := hreachable.isHeap
  refine ⟨⟨chain, hheap, fun txnId record hmem => (nomatch hmem)⟩, ?_⟩
  constructor
  · exact fun txnId record hmem => (nomatch hmem)
  · exact fun txnId record hmem => (nomatch hmem)
  · exact fun txnId rid howner => (nomatch howner)
  · exact fun txnId other _ record hmem => (nomatch hmem)
  · exact fun txnId => List.Pairwise.nil

/-- Every DELETE entry stands for a mark that its transaction placed and that is still
there.  If the pages are found, `Commit` removes exactly the tuples that its transaction
marked, none of them inserted by another one, and `Commit` and `Abort` return. -/
structure Good (firstPageId : PageId) (system : System) : Prop where
  marks : ∀ txnId, ∀ record ∈ (system.txns txnId).writeSet, record.wtype = .delete →
    isMarked (contents firstPageId system.pool record.rid) = true ∧
      system.owner record.rid = some txnId
  commits : ∀ txnId frames, (∀ request, frames request = true) →
    ∃ pool', TransactionManager.commit frames system.pool (system.txns txnId) =
        .ok (pool', ⟨.committed, []⟩) ∧
      contents firstPageId pool' = fun rid =>
        if system.owner rid = some txnId then none else contents firstPageId system.pool rid
  notInserted : ∀ txnId other, other ≠ txnId → ∀ record ∈ (system.txns other).writeSet,
    record.wtype = .insert → system.owner record.rid ≠ some txnId
  aborts : ∀ txnId frames, (∀ request, frames request = true) →
    ∃ pool', TransactionManager.abort frames system.pool (system.txns txnId) =
      .ok (pool', ⟨.aborted, []⟩)

theorem Sound.good (h : Sound firstPageId system) : Good firstPageId system where
  marks := h.owned.marked
  commits := by
    intro txnId frames hframes
    unfold TransactionManager.commit
    rcases h.commitLoop txnId frames with ⟨pool', hloop, _, hcontents⟩ | ⟨_, request, hframe⟩
    · exact ⟨pool', by rw [hloop]; rfl, hcontents⟩
    · rw [hframes request] at hframe
      cases hframe
  notInserted := by
    intro txnId other hother record hmem htype howner
    obtain ⟨record', hmem', hrid, htype'⟩ := h.owned.owned txnId record.rid howner
    exact h.owned.apart other txnId hother record hmem record' hmem'
      (by rw [WriteRecord.Claims, htype]; decide) (by rw [WriteRecord.Claims, htype']; decide)
      hrid.symm
  aborts := by
    intro txnId frames hframes
    unfold TransactionManager.abort
    rcases h.abortLoop txnId frames with ⟨pool', hloop, _⟩ | ⟨_, request, hframe⟩
    · exact ⟨pool', by rw [hloop]; rfl⟩
    · rw [hframes request] at hframe
      cases hframe

/-- **Ownership.**  In every run in which `MarkDelete` meets only tuples that are not
marked and that no other transaction has inserted, every state that is reached is good,
and no assertion about slots or offsets fails. -/
theorem marks_owned_along (pool : PagePool) (hreachable : Reachable firstPageId pool)
    (calls : List SystemCall)
    (hcalls : (systemMachine firstPageId).Along (fun system call =>
      call.Valid firstPageId system ∧ call.Placed firstPageId system) (start pool) calls) :
    (∀ answers final, (systemMachine firstPageId).run (start pool) calls = .ok (answers, final) →
      Good firstPageId final) ∧
    ∀ fault, (systemMachine firstPageId).run (start pool) calls = .error fault →
      Harmless fault := by
  have hkeeps := Machine.run_keeps
    (fun _ _ answer next hsound hcall hstep =>
      (Sound.step hsound hcall.1 hcall.2).1 answer next hstep)
    (fun _ _ fault hsound hcall hstep => (Sound.step hsound hcall.1 hcall.2).2 fault hstep)
    (sound_start hreachable) hcalls
  exact ⟨fun answers final hrun => (hkeeps.1 answers final hrun).good, hkeeps.2⟩

theorem txns_of_step {call : TxnCall} {answer : Unit} {next : System}
    (hstep : (systemMachine firstPageId).step system (.call txnId call) = .ok (answer, next))
    {other : ℕ} (hother : other ≠ txnId) : next.txns other = system.txns other := by
  simp only [systemMachine] at hstep
  cases hcall : call.apply firstPageId system.pool (system.txns txnId) with
  | error fault => simp only [hcall, Except.map, reduceCtorEq] at hstep
  | ok pair =>
    simp only [hcall, Except.map, Except.ok.injEq, advance, Prod.mk.injEq] at hstep
    rw [← hstep.2]
    exact update_of_ne hother _ _

/-- A transaction inserts a tuple and marks it. -/
theorem marks_owned_along_insert_mark :
    ∃ pool answers final, create freshPool true = .ok (0, pool) ∧
      (systemMachine 0).run (start pool)
        [.call 1 (.insert (fun _ => true) ⟨[7], by decide⟩), .call 1 (.mark true ⟨0, 0⟩)] =
          .ok (answers, final) ∧ Good 0 final := by
  obtain ⟨pool, hcreate, _, hreachable⟩ := create_freshPool
  have hcheck : ((create freshPool true).toOption.all fun created =>
      ((systemMachine 0).run (start created.2) [.call 1 (.insert (fun _ => true) ⟨[7], by decide⟩),
        .call 1 (.mark true ⟨0, 0⟩)]).isOk &&
      ((systemMachine 0).step (start created.2)
        (.call 1 (.insert (fun _ => true) ⟨[7], by decide⟩))).toOption.all fun result =>
          decide (0 ∈ pageIds 0 result.2.pool ∧
            contents 0 result.2.pool ⟨0, 0⟩ = some ⟨[7], false⟩)) = true := by
    decide +kernel
  simp only [hcreate, Except.toOption, Option.all_some, Bool.and_eq_true] at hcheck
  obtain ⟨hok, hstep⟩ := hcheck
  have hgood := marks_owned_along pool hreachable
    [.call 1 (.insert (fun _ => true) ⟨[7], by decide⟩), .call 1 (.mark true ⟨0, 0⟩)] (by
      refine ⟨⟨trivial, trivial⟩, fun answer next hnext => ⟨?_, fun _ _ _ => trivial⟩⟩
      rw [hnext] at hstep
      have hboth : 0 ∈ pageIds 0 next.pool ∧ contents 0 next.pool ⟨0, 0⟩ = some ⟨[7], false⟩ :=
        of_decide_eq_true hstep
      refine ⟨hboth.1, ⟨[7], hboth.2⟩, fun other hother record hmem => ?_⟩
      rw [txns_of_step hnext hother] at hmem
      cases hmem)
  cases hrun : (systemMachine 0).run (start pool)
      [.call 1 (.insert (fun _ => true) ⟨[7], by decide⟩), .call 1 (.mark true ⟨0, 0⟩)] with
  | error fault =>
    rw [hrun] at hok
    cases hok
  | ok result => exact ⟨pool, result.1, result.2, hcreate, hrun, hgood.1 _ _ hrun⟩

/-- Two transactions mark one tuple; both record it, one of them owns the mark.  The first
one that commits removes the tuple, and the second one fails an assertion. -/
theorem markDelete_twice_stops_commit :
    (((create freshPool true).toOption.map fun created =>
      ((systemMachine 0).run (start created.2)
        [.call 0 (.insert (fun _ => true) ⟨[7], by decide⟩), .commit 0 fun _ => true,
          .call 1 (.mark true ⟨0, 0⟩), .call 2 (.mark true ⟨0, 0⟩)]).toOption.map fun result =>
        ((result.2.txns 2).writeSet, result.2.owner ⟨0, 0⟩)) =
      some (some ([⟨⟨0, 0⟩, .delete, .empty⟩], some 1))) ∧
    ((create freshPool true).toOption.map fun created =>
      match (systemMachine 0).run (start created.2)
        [.call 0 (.insert (fun _ => true) ⟨[7], by decide⟩), .commit 0 fun _ => true,
          .call 1 (.mark true ⟨0, 0⟩), .call 2 (.mark true ⟨0, 0⟩), .commit 1 fun _ => true,
          .commit 2 fun _ => true] with
      | .ok _ => none
      | .error fault => some fault) = some (some .freeSpaceBeforeTuples) := by
  constructor <;> decide +kernel

end System

end BusTub
