import BusTub.Buffer.LRUKReplacer
import Mathlib.Data.List.Perm.Basic

/-!
# The two lists of the replacer

`TwoLists links history lru` says that the pointers form the history list and the
LRU list with these frames, first to last, and that no frame is on them twice.
This file lifts the list operations of `LinkedHeap` to the pair of lists: an
operation on one of them leaves the other alone, because the frames and the four
sentinels are all different nodes.
-/

namespace BusTub

open LinkedHeap

/-- The pointers form exactly these two lists. -/
structure TwoLists (links : Links NodePtr) (history lru : List FrameId) : Prop where
  historyList : links.IsList .historyHead (history.map .frame) .historyTail
  lruList : links.IsList .lruHead (lru.map .frame) .lruTail
  nodup : (history ++ lru).Nodup

theorem NodePtr.frame_injective : Function.Injective NodePtr.frame := by
  intro first second heq
  injection heq

namespace TwoLists

variable {links : Links NodePtr} {history lru : List FrameId} {frameId : FrameId}

theorem create : TwoLists LRUKReplacer.initialLinks [] [] :=
  ⟨⟨rfl, rfl⟩, ⟨rfl, rfl⟩, List.nodup_nil⟩

theorem history_nodup (h : TwoLists links history lru) : history.Nodup :=
  (List.nodup_append.mp h.nodup).1

theorem lru_nodup (h : TwoLists links history lru) : lru.Nodup :=
  (List.nodup_append.mp h.nodup).2.1

theorem not_mem_lru (h : TwoLists links history lru) (hmem : frameId ∈ history) :
    frameId ∉ lru := fun hlru =>
  (List.nodup_append.mp h.nodup).2.2 frameId hmem frameId hlru rfl

theorem not_mem_history (h : TwoLists links history lru) (hmem : frameId ∈ lru) :
    frameId ∉ history := fun hhistory => h.not_mem_lru hhistory hmem

/-! ## One list of the two -/

variable {frames : List FrameId}

theorem distinct_map {head tail : NodePtr} (hne : head ≠ tail)
    (hhead : ∀ id, head ≠ .frame id) (htail : ∀ id, tail ≠ .frame id) (hnodup : frames.Nodup) :
    Links.Distinct head (frames.map .frame) tail where
  head_ne_tail := hne
  head_notMem := by
    intro hmem
    obtain ⟨id, _, heq⟩ := List.mem_map.mp hmem
    exact hhead id heq.symm
  tail_notMem := by
    intro hmem
    obtain ⟨id, _, heq⟩ := List.mem_map.mp hmem
    exact htail id heq.symm
  nodup := hnodup.map NodePtr.frame_injective

/-- A list with frames outside `touched` and sentinels of its own is unchanged
when only the pointers of `head`, `tail` and `touched` change. -/
theorem isList_of_untouched {links links' : Links NodePtr} {head tail head' tail' : NodePtr}
    (touched : List FrameId)
    (h : links.IsList head' (frames.map .frame) tail')
    (hsame : ∀ other, other ≠ head → other ≠ tail → other ∉ touched.map .frame →
      links'.pre other = links.pre other ∧ links'.nex other = links.nex other)
    (hhead : head' ≠ head ∧ head' ≠ tail ∧ ∀ id, head' ≠ .frame id)
    (htail : tail' ≠ head ∧ tail' ≠ tail ∧ ∀ id, tail' ≠ .frame id)
    (hframes : ∀ id, head ≠ .frame id ∧ tail ≠ .frame id)
    (hdisjoint : ∀ id ∈ frames, id ∉ touched) :
    links'.IsList head' (frames.map .frame) tail' := by
  have hframe : ∀ node ∈ frames.map NodePtr.frame,
      links'.pre node = links.pre node ∧ links'.nex node = links.nex node := by
    intro node hnode
    obtain ⟨id, hid, rfl⟩ := List.mem_map.mp hnode
    refine hsame _ (hframes id).1.symm (hframes id).2.symm ?_
    rw [List.mem_map_of_injective NodePtr.frame_injective]
    exact hdisjoint id hid
  have hsentinel : ∀ node, (node ≠ head ∧ node ≠ tail ∧ ∀ id, node ≠ .frame id) →
      links'.pre node = links.pre node ∧ links'.nex node = links.nex node := by
    rintro node ⟨hnodeHead, hnodeTail, hnode⟩
    refine hsame node hnodeHead hnodeTail fun hmem => ?_
    obtain ⟨id, _, heq⟩ := List.mem_map.mp hmem
    exact hnode id heq.symm
  apply h.congr
  · intro node hnode
    rcases List.mem_cons.mp hnode with rfl | hnode
    · exact (hsentinel node hhead).2
    · exact (hframe node hnode).2
  · intro node hnode
    rcases List.mem_append.mp hnode with hnode | hnode
    · exact (hframe node hnode).1
    · rw [List.mem_singleton.mp hnode]
      exact (hsentinel tail' htail).1

theorem unlink_map {links : Links NodePtr} {head tail : NodePtr}
    (h : links.IsList head (frames.map .frame) tail)
    (hdistinct : Links.Distinct head (frames.map .frame) tail) (hnodup : frames.Nodup)
    (hmem : frameId ∈ frames) :
    ∃ links', links.unlink (.frame frameId) = some links' ∧
      links'.IsList head ((frames.erase frameId).map .frame) tail ∧
      ∀ other, other ≠ head → other ≠ tail → other ∉ (frames.erase frameId).map .frame →
        links'.pre other = links.pre other ∧ links'.nex other = links.nex other := by
  obtain ⟨front, back, rfl, hnot⟩ := List.eq_append_cons_of_mem hmem
  have herase : (front ++ frameId :: back).erase frameId = front ++ back := by
    rw [List.erase_append_right _ hnot, List.erase_cons_head]
  rw [herase]
  simp only [List.map_append, List.map_cons] at h hdistinct ⊢
  exact h.unlink hdistinct

/-! ## The pair of lists -/

/-- **`RemoveFromList`** takes a frame off the list it is on. -/
theorem removeFromList (h : TwoLists links history lru) (hmem : frameId ∈ history ++ lru) :
    ∃ links', LRUKReplacer.removeFromList links (.frame frameId) = .ok links' ∧
      TwoLists links' (history.erase frameId) (lru.erase frameId) := by
  have hnodup : (history.erase frameId ++ lru.erase frameId).Nodup :=
    (List.Sublist.append List.erase_sublist List.erase_sublist).nodup h.nodup
  rcases List.mem_append.mp hmem with hmem | hmem
  · have hnot := h.not_mem_lru hmem
    obtain ⟨links', hunlink, hlist, hsame⟩ := unlink_map h.historyList
      (distinct_map (by simp) (by simp) (by simp) h.history_nodup) h.history_nodup hmem
    refine ⟨links', by simp only [LRUKReplacer.removeFromList, hunlink], hlist, ?_, hnodup⟩
    rw [List.erase_of_not_mem hnot]
    refine isList_of_untouched _ h.lruList hsame (by simp) (by simp) (by simp) fun id hid => ?_
    exact fun hmem => h.not_mem_lru (List.mem_of_mem_erase hmem) hid
  · have hnot := h.not_mem_history hmem
    obtain ⟨links', hunlink, hlist, hsame⟩ := unlink_map h.lruList
      (distinct_map (by simp) (by simp) (by simp) h.lru_nodup) h.lru_nodup hmem
    refine ⟨links', by simp only [LRUKReplacer.removeFromList, hunlink], ?_, hlist, hnodup⟩
    rw [List.erase_of_not_mem hnot]
    refine isList_of_untouched _ h.historyList hsame (by simp) (by simp) (by simp) fun id hid => ?_
    exact fun hmem => h.not_mem_lru hid (List.mem_of_mem_erase hmem)

/-- **`InsertToListHead`** on the history list. -/
theorem insertToHistory (h : TwoLists links history lru) (hnew : frameId ∉ history ++ lru) :
    ∃ links', LRUKReplacer.insertToListHead links (.frame frameId) .historyHead = .ok links' ∧
      TwoLists links' (frameId :: history) lru := by
  have hnodup : ((frameId :: history) ++ lru).Nodup := List.nodup_cons.mpr ⟨hnew, h.nodup⟩
  rw [List.mem_append, not_or] at hnew
  have hdistinct : Links.Distinct NodePtr.historyHead ((frameId :: history).map .frame)
      .historyTail :=
    distinct_map (by simp) (by simp) (by simp) (List.nodup_cons.mpr ⟨hnew.1, h.history_nodup⟩)
  obtain ⟨links', hlink, hlist, hsame⟩ := h.historyList.linkAfter hdistinct
  refine ⟨links', by simp only [LRUKReplacer.insertToListHead, hlink], hlist, ?_, hnodup⟩
  refine isList_of_untouched (frameId :: history) h.lruList hsame (by simp) (by simp)
    (by simp) fun id hid hmem => ?_
  rcases List.mem_cons.mp hmem with rfl | hmem
  · exact hnew.2 hid
  · exact h.not_mem_lru hmem hid

/-- **`InsertToListHead`** on the LRU list. -/
theorem insertToLru (h : TwoLists links history lru) (hnew : frameId ∉ history ++ lru) :
    ∃ links', LRUKReplacer.insertToListHead links (.frame frameId) .lruHead = .ok links' ∧
      TwoLists links' history (frameId :: lru) := by
  have hnodup : (history ++ (frameId :: lru)).Nodup := by
    rw [List.nodup_middle]
    exact List.nodup_cons.mpr ⟨hnew, h.nodup⟩
  rw [List.mem_append, not_or] at hnew
  have hdistinct : Links.Distinct NodePtr.lruHead ((frameId :: lru).map .frame) .lruTail :=
    distinct_map (by simp) (by simp) (by simp) (List.nodup_cons.mpr ⟨hnew.2, h.lru_nodup⟩)
  obtain ⟨links', hlink, hlist, hsame⟩ := h.lruList.linkAfter hdistinct
  refine ⟨links', by simp only [LRUKReplacer.insertToListHead, hlink], ?_, hlist, hnodup⟩
  refine isList_of_untouched (frameId :: lru) h.historyList hsame (by simp) (by simp)
    (by simp) fun id hid hmem => ?_
  rcases List.mem_cons.mp hmem with rfl | hmem
  · exact hnew.1 hid
  · exact h.not_mem_lru hid hmem

theorem clearNode (h : TwoLists links history lru) (hnew : frameId ∉ history ++ lru) :
    TwoLists ((links.setPre (.frame frameId) none).setNex (.frame frameId) none) history lru := by
  rw [List.mem_append, not_or] at hnew
  have hsame : ∀ other, other ≠ NodePtr.frame frameId →
      ((links.setPre (.frame frameId) none).setNex (.frame frameId) none).pre other =
          links.pre other ∧
        ((links.setPre (.frame frameId) none).setNex (.frame frameId) none).nex other =
          links.nex other := by
    intro other hne
    simp [Function.update_of_ne hne]
  refine ⟨h.historyList.congr ?_ ?_, h.lruList.congr ?_ ?_, h.nodup⟩ <;> intro node hnode
  · exact (hsame node (by rintro rfl; simp [hnew.1] at hnode)).2
  · exact (hsame node (by rintro rfl; simp [hnew.1] at hnode)).1
  · exact (hsame node (by rintro rfl; simp [hnew.2] at hnode)).2
  · exact (hsame node (by rintro rfl; simp [hnew.2] at hnode)).1

/-- **The `record_cnt_ >= k_` branch** takes a frame off its list and puts it at
the head of the LRU list. -/
theorem promote (h : TwoLists links history lru) (hmem : frameId ∈ history ++ lru) {k count : ℕ}
    (hcount : k ≤ count) :
    ∃ links', LRUKReplacer.promoteFrame k links frameId count = .ok links' ∧
      TwoLists links' (history.erase frameId) (frameId :: lru.erase frameId) := by
  obtain ⟨links₁, hremove, h₁⟩ := h.removeFromList hmem
  have hgone : frameId ∉ history.erase frameId ++ lru.erase frameId := by
    rw [List.mem_append, not_or]
    exact ⟨h.history_nodup.not_mem_erase, h.lru_nodup.not_mem_erase⟩
  obtain ⟨links₂, hinsert, h₂⟩ := h₁.insertToLru hgone
  refine ⟨links₂, ?_, h₂⟩
  simp only [LRUKReplacer.promoteFrame, if_pos hcount, hremove]
  exact hinsert

/-- The first access of a frame puts it on the history list, and for `k = 1` moves
it to the LRU list in the same call. -/
theorem placeNew {replacer : LRUKReplacer} (h : TwoLists replacer.links history lru)
    (hnew : frameId ∉ history ++ lru) (hnone : replacer.mp frameId = none)
    (hroom : replacer.totSize ≠ replacer.replacerSize) :
    ∃ links₁ links₂,
      replacer.admitFrame (replacer.nodeLinks frameId) frameId 1 = .ok (links₁, 1) ∧
      LRUKReplacer.promoteFrame replacer.k links₁ frameId 1 = .ok links₂ ∧
      TwoLists links₂ (if replacer.k ≤ 1 then history else frameId :: history)
        (if replacer.k ≤ 1 then frameId :: lru else lru) := by
  have hnode : replacer.nodeLinks frameId =
      (replacer.links.setPre (.frame frameId) none).setNex (.frame frameId) none := by
    simp [LRUKReplacer.nodeLinks, hnone]
  obtain ⟨links₁, hinsert, hlists₁⟩ := (h.clearNode hnew).insertToHistory hnew
  have hadmit : replacer.admitFrame (replacer.nodeLinks frameId) frameId 1 = .ok (links₁, 1) := by
    simp only [LRUKReplacer.admitFrame, if_pos, if_neg hroom, hnode, hinsert]
    rfl
  by_cases hone : replacer.k ≤ 1
  · obtain ⟨links₂, hpromote, hlists₂⟩ := hlists₁.promote (show frameId ∈ _ by simp) hone
    rw [List.mem_append, not_or] at hnew
    rw [List.erase_cons_head, List.erase_of_not_mem hnew.2] at hlists₂
    refine ⟨links₁, links₂, hadmit, hpromote, ?_⟩
    rw [if_pos hone, if_pos hone]
    exact hlists₂
  · refine ⟨links₁, links₁, hadmit, by simp only [LRUKReplacer.promoteFrame, if_neg hone], ?_⟩
    rw [if_neg hone, if_neg hone]
    exact hlists₁

/-! ## Searching the lists -/

theorem searchEvictable_eq {replacer : LRUKReplacer} {head tail : NodePtr}
    (h : replacer.links.IsList head (frames.map .frame) tail)
    (hhead : ∀ id, head ≠ .frame id) (hfuel : frames.length ≤ replacer.totSize) :
    replacer.searchEvictable head tail =
      some ((frames.reverse.find? fun id => replacer.isEvictable (.frame id)).map .frame) := by
  have hnotMem : head ∉ frames.map NodePtr.frame := by
    intro hmem
    obtain ⟨id, _, heq⟩ := List.mem_map.mp hmem
    exact hhead id heq.symm
  rw [LRUKReplacer.searchEvictable, h.searchBack hnotMem replacer.isEvictable
    (by rw [List.length_map]; omega), ← List.map_reverse, List.find?_map]
  rfl

end TwoLists

end BusTub
