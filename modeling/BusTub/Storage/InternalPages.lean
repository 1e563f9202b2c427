import BusTub.Storage.LeafPages
import BusTub.Storage.TreeSteps

/-!
# Insertion into an internal node, and its split

`Insertkv` looks for the old child from index one on.  The first child is not found, and the new
entry goes before it and not behind it.

`Split` of an internal node copies the right part behind the one entry that `Init` has put into
the new page.  That entry is the first child of the new node from then on, and the last child is
lost.
-/

namespace BusTub

namespace InternalPage

variable {Key : Type} {comparator : KeyComparator Key} {page : InternalPage Key}

def entries (page : InternalPage Key) : List (Key × PageId) := usedEntries page.array page.size

theorem entries_eq_cons (hsize : 0 < page.size) :
    page.entries = page.array 0 :: page.entries.tail := by
  obtain ⟨count, hcount⟩ : ∃ count, page.size = count + 1 := ⟨page.size - 1, by omega⟩
  rw [entries, usedEntries, hcount, List.range_succ_eq_map]
  rfl

/-- What `Insertkv` is for: a new entry right behind that of a child, and separators that
still increase. -/
def InsertsAfter (comparator : KeyComparator Key) (page : InternalPage Key) (position : ℕ)
    (newKey : Key) (newValue : PageId) (next : InternalPage Key) : Prop :=
  next.entries = page.entries.take (position + 1) ++
      (newKey, newValue) :: page.entries.drop (position + 1) ∧
    next.size = page.size + 1 ∧ StrictlySorted comparator next.entries.tail

/-- The old child is found, unless it is the first one. -/
theorem insertkv_entries {oldValue : PageId} {position : ℕ} (hposition : position < page.size)
    (hat : page.valueAt position = oldValue)
    (honly : ∀ i < page.size, page.valueAt i = oldValue → i = position) (newKey : Key)
    (newValue : PageId) :
    let index := if position = 0 then 0 else position + 1
    (page.insertkv oldValue newKey newValue).entries =
      page.entries.take index ++ (newKey, newValue) :: page.entries.drop index := by
  have hfind : (List.range' 1 (page.size - 1)).find? (fun i => page.valueAt i = oldValue) =
      if position = 0 then none else some position := by
    cases hfound : (List.range' 1 (page.size - 1)).find? (fun i => page.valueAt i = oldValue) with
    | none =>
      rw [List.find?_eq_none] at hfound
      by_contra hne
      have hpos : position ≠ 0 := fun hzero => hne (if_pos hzero).symm
      exact hfound position (List.mem_range'_1.mpr (by omega)) (decide_eq_true hat)
    | some i =>
      have hrange := List.mem_range'_1.mp (List.mem_of_find?_eq_some hfound)
      have hvalue := List.find?_some hfound
      obtain rfl := honly i (by omega) (of_decide_eq_true hvalue)
      rw [if_neg (by omega)]
  intro index
  have hindex : index ≤ page.size := by
    dsimp only [index]
    split <;> omega
  rw [entries, entries, ← usedEntries_insert hindex]
  by_cases hzero : position = 0 <;> simp [insertkv, hfind, hzero, index]

theorem keyAt_lt (hsorted : StrictlySorted comparator page.entries.tail) {i j : ℕ} (hi : i ≠ 0)
    (hij : i < j) (hj : j < page.size) : comparator (page.keyAt i) (page.keyAt j) < 0 := by
  have h := List.pairwise_iff_getElem.mp hsorted (i - 1) (j - 1)
  simp only [entries, List.length_tail, length_usedEntries, List.getElem_tail,
    getElem_usedEntries, show i - 1 + 1 = i by omega, show j - 1 + 1 = j by omega] at h
  exact h (by omega) (by omega) (by omega)

/-- A key between the separators of a child can go behind them. -/
theorem tail_insert_sorted (horder : comparator.IsOrder)
    (hsorted : StrictlySorted comparator page.entries.tail) {position : ℕ}
    (hposition : position < page.size) {newKey : Key}
    (hlower : position ≠ 0 → comparator (page.keyAt position) newKey < 0)
    (hupper : position + 1 < page.size → comparator newKey (page.keyAt (position + 1)) < 0)
    (newValue : PageId) :
    StrictlySorted comparator (page.entries.take (position + 1) ++
      (newKey, newValue) :: page.entries.drop (position + 1)).tail := by
  rw [entries_eq_cons (Nat.zero_lt_of_lt hposition), List.take_succ_cons, List.drop_succ_cons,
    List.cons_append, List.tail_cons]
  refine StrictlySorted.insert horder newValue ((List.take_append_drop _ _).symm ▸ hsorted)
    (fun entry hentry => ?_) fun entry hentry => ?_
  · obtain ⟨i, hi, rfl⟩ := List.mem_iff_getElem.mp hentry
    simp only [entries, List.length_take, List.length_tail, length_usedEntries] at hi
    simp only [entries, List.getElem_take, List.getElem_tail, getElem_usedEntries]
    rcases Nat.lt_or_ge (i + 1) position with hlt | hge
    · exact horder.lt_of_lt_of_le (keyAt_lt hsorted (by omega) hlt hposition)
        (hlower (by omega)).le
    · rw [show i + 1 = position by omega]
      exact hlower (by omega)
  · obtain ⟨j, hj, rfl⟩ := List.mem_iff_getElem.mp hentry
    simp only [entries, List.length_drop, List.length_tail, length_usedEntries] at hj
    simp only [entries, List.getElem_drop, List.getElem_tail, getElem_usedEntries]
    have hfirst := hupper (by omega)
    rcases Nat.eq_zero_or_pos j with rfl | hpos
    · exact hfirst
    · exact horder.lt_of_lt_of_le hfirst
        (keyAt_lt hsorted (by omega) (by omega) (by omega)).le

/-- With the new key between the separators of the child, `Insertkv` puts the entry behind
that of the child if and only if the child is not the first one, or the entry is the one
that the first child has. -/
theorem insertkv_after_iff (horder : comparator.IsOrder)
    (hsorted : StrictlySorted comparator page.entries.tail) {oldValue : PageId} {position : ℕ}
    (hposition : position < page.size) (hat : page.valueAt position = oldValue)
    (honly : ∀ i < page.size, page.valueAt i = oldValue → i = position) {newKey : Key}
    (hlower : position ≠ 0 → comparator (page.keyAt position) newKey < 0)
    (hupper : position + 1 < page.size → comparator newKey (page.keyAt (position + 1)) < 0)
    (newValue : PageId) :
    page.InsertsAfter comparator position newKey newValue
        (page.insertkv oldValue newKey newValue) ↔
      position ≠ 0 ∨ page.array 0 = (newKey, newValue) := by
  have hentries := insertkv_entries hposition hat honly newKey newValue
  have hcons := entries_eq_cons (Nat.zero_lt_of_lt hposition)
  constructor
  · rintro ⟨hplaced, -, -⟩
    by_cases hzero : position = 0
    · subst hzero
      rw [hentries, hcons] at hplaced
      exact .inr (List.cons.inj hplaced).1.symm
    · exact .inl hzero
  · intro hcase
    have hplaced : (page.insertkv oldValue newKey newValue).entries =
        page.entries.take (position + 1) ++
          (newKey, newValue) :: page.entries.drop (position + 1) := by
      rw [hentries]
      rcases hcase with hne | hsame
      · rw [if_neg hne]
      · by_cases hzero : position = 0
        · rw [if_pos hzero, hzero, hcons, hsame]
          rfl
        · rw [if_neg hzero]
    refine ⟨hplaced, rfl, ?_⟩
    rw [hplaced]
    exact tail_insert_sorted horder hsorted hposition hlower hupper newValue

/-- The children 10 and 20, with the separator 5. -/
def pageOfTwo : InternalPage ℤ where
  size := 2
  maxSize := 3
  parentPageId := invalidPageId
  pageId := 1
  array := fun i => if i = 0 then (0, 10) else (5, 20)

theorem pageOfTwo_sorted : StrictlySorted LeafPage.intComparator pageOfTwo.entries.tail := by
  simp [StrictlySorted, entries, usedEntries, pageOfTwo, List.range_succ]

theorem insertkv_after_iff_pageOfTwo :
    pageOfTwo.InsertsAfter LeafPage.intComparator 1 7 30 (pageOfTwo.insertkv 20 7 30) ↔
      1 ≠ 0 ∨ pageOfTwo.array 0 = (7, 30) :=
  insertkv_after_iff LeafPage.intComparator_isOrder pageOfTwo_sorted (by decide) rfl (by decide)
    (by decide) (by decide) 30

/-- A node that is split off the first child goes before it. -/
theorem insertkv_pageOfTwo :
    (pageOfTwo.insertkv 10 3 30).entries = [(3, 30), (0, 10), (5, 20)] ∧
      ¬ pageOfTwo.InsertsAfter LeafPage.intComparator 0 3 30 (pageOfTwo.insertkv 10 3 30) := by
  refine ⟨by decide, fun h => ?_⟩
  exact absurd h.1 (by decide)

end InternalPage

namespace BPlusTree

variable {Key Value : Type} [Inhabited Key]

/-- What the split of an overfull copy of a page is for: two nodes with the entries of the
copy, the key of the first child on the right for the parent, the left entries in the page,
and the new node as the parent of exactly the children on the right. -/
def SplitsInternal (tree : BPlusTree Key Value) (node page : InternalPage Key) : Prop :=
  ∃ left right next, tree.splitInternal node = .ok (left, right, next) ∧
    left.entries ++ right.entries = node.entries ∧
    right.keyAt 0 = node.keyAt left.size ∧
    (left.writeBack page).entries = left.entries ∧
    ∀ child ∈ node.entries.map Prod.snd, ∀ son, next.store.treePageAt child = .ok son →
      (son.parentPageId = right.pageId ↔ child ∈ right.entries.map Prod.snd)

theorem rightPart_array (tree : BPlusTree Key Value) (node : InternalPage Key) :
    (tree.rightPart node).array 0 = (default, 0) ∧
      ∀ i < node.size - node.getMinSize,
        (tree.rightPart node).array (i + 1) = node.array (node.getMinSize + i) := by
  refine ⟨by simp [rightPart, copyRange], fun i hi => ?_⟩
  simp [rightPart, copyRange, show i + 1 < 1 + (node.size - node.getMinSize) by omega]

/-- The split of an overfull node is never what it is for: entry `start` of the node comes
second in the new node, where entry `start + 1` should be. -/
theorem not_splitsInternal (tree : BPlusTree Key Value) {node : InternalPage Key}
    (hmax : 3 ≤ node.maxSize) (hoverfull : node.size = node.maxSize + 1)
    (hchildren : ∀ i < node.size, ∀ j < node.size, node.valueAt i = node.valueAt j → i = j)
    (page : InternalPage Key) : ¬ tree.SplitsInternal node page := by
  rintro ⟨left, right, next, hsplit, hconcat, -⟩
  obtain ⟨rfl, rfl, -⟩ := splitInternal_eq_ok hsplit
  have hstart : node.getMinSize + 1 ≤ node.maxSize := by
    rw [BPlusTreePage.getMinSize]
    omega
  have hright := (tree.rightPart_array node).2 0 (by omega)
  have hsize : (tree.rightPart node).size = 1 + (node.maxSize - node.getMinSize) := rfl
  have hsame : (tree.rightPart node).array 1 = node.array (node.getMinSize + 1) := by
    have hsecond := congrArg (·[node.getMinSize + 1]?) hconcat
    have hleft : InternalPage.entries { node with size := node.getMinSize } =
        usedEntries node.array node.getMinSize := rfl
    simp only [hleft] at hsecond
    rw [List.getElem?_append_right (by simp), length_usedEntries, Nat.add_sub_cancel_left,
      InternalPage.entries, getElem?_usedEntries (by omega), InternalPage.entries,
      getElem?_usedEntries (by omega)] at hsecond
    exact Option.some.inj hsecond
  have hentry : node.array node.getMinSize = node.array (node.getMinSize + 1) :=
    hright.symm.trans hsame
  have := hchildren node.getMinSize (by omega) (node.getMinSize + 1) (by omega)
    (congrArg Prod.snd hentry)
  omega

/-- An overfull node with four children, and the tree of its children. -/
def overfullNode : InternalPage ℤ := ⟨⟨4, 3, invalidPageId, 1⟩, fun i => (10 * i, 2 + i)⟩

def overfullTree : BPlusTree ℤ ℕ where
  indexName := []
  rootPageId := 1
  store := ⟨fun pageId => ⟨.leaf (.init pageId 1 3), 0, false⟩, 6⟩
  comparator := LeafPage.intComparator
  leafMaxSize := 3
  internalMaxSize := 3

theorem not_splitsInternal_overfullNode :
    ¬ overfullTree.SplitsInternal overfullNode overfullNode :=
  not_splitsInternal overfullTree (by decide) (by decide)
    (by intro i _ j _ h; simpa [overfullNode, InternalPage.valueAt] using h) overfullNode

/-- The child 5 is lost, and page 0 and the key 0 come in. -/
theorem splitInternal_overfullNode :
    ∃ left right next, overfullTree.splitInternal overfullNode = .ok (left, right, next) ∧
      left.entries = [(0, 2), (10, 3)] ∧ right.entries = [(0, 0), (20, 4)] ∧
      right.keyAt 0 = 0 ∧ overfullNode.entries = [(0, 2), (10, 3), (20, 4), (30, 5)] :=
  ⟨_, _, _, rfl, by decide, by decide, by decide, by decide⟩

end BPlusTree

end BusTub
