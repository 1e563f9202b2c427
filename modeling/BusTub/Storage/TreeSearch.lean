import BusTub.Storage.InternalPages
import Mathlib

/-!
# The search for a leaf

`Findleaf` goes from the root to the child whose separators enclose the key, until it is at a
leaf.  On a well-formed tree this is the only leaf whose range has the key, and its pin is the
only one that is left behind.
-/

namespace BusTub

namespace BPlusTree

variable {Key Value : Type}

section Tree

variable (comparator : KeyComparator Key) (store : PageStore Key Value)

/-- A key belongs to a child: it is not below the separator before the child, and below the
one behind it. -/
def ChildRange (node : InternalPage Key) (i : ℕ) (key : Key) : Prop :=
  (i ≠ 0 → comparator (node.keyAt i) key ≤ 0) ∧
    (i + 1 < node.size → comparator key (node.keyAt (i + 1)) < 0)

/-- `leafId` is a leaf below a page, with a range that has the key. -/
inductive LeafFor (key : Key) : PageId → PageId → Prop
  | leaf {pageId : PageId} {leaf : LeafPage Key Value}
      (hpage : (store.pages pageId).page = .leaf leaf) : LeafFor key pageId pageId
  | child {pageId leafId : PageId} {node : InternalPage Key} {i : ℕ}
      (hpage : (store.pages pageId).page = .internal node) (hi : i < node.size)
      (hrange : ChildRange comparator node i key) (hbelow : LeafFor key (node.valueAt i) leafId) :
      LeafFor key pageId leafId

/-- A page and what is below it is a well-formed tree.  `path` is the way to the page, on
which no page comes twice. -/
inductive Subtree : List PageId → PageId → Prop
  | leaf {path : List PageId} {pageId : PageId} {leaf : LeafPage Key Value}
      (hpage : (store.pages pageId).page = .leaf leaf)
      (hid : pageId ∈ Finset.Ico 0 store.nextPageId) (hnew : pageId ∉ path) :
      Subtree path pageId
  | internal {path : List PageId} {pageId : PageId} {node : InternalPage Key}
      (hpage : (store.pages pageId).page = .internal node) (hself : node.pageId = pageId)
      (hid : pageId ∈ Finset.Ico 0 store.nextPageId) (hnew : pageId ∉ path)
      (hsize : 1 ≤ node.size) (hsorted : StrictlySorted comparator node.entries.tail)
      (hchildren : ∀ i < node.size, Subtree (pageId :: path) (node.valueAt i)) :
      Subtree path pageId

end Tree

variable {comparator : KeyComparator Key}

/-- The loop over the separators stops behind the only child that the key belongs to. -/
theorem childIndex_childRange (horder : comparator.IsOrder)
    (hone : ∀ a b, 0 < comparator a b → comparator a b = 1) {node : InternalPage Key}
    (hsize : 1 ≤ node.size) (hsorted : StrictlySorted comparator node.entries.tail) (key : Key)
    (i : ℕ) :
    i < node.size ∧ ChildRange comparator node i key ↔
      i = childIndex comparator node key - 1 := by
  -- the index of the loop: no separator before it is above the key, the one there is
  obtain ⟨stop, hstop, hle, hpos, hbefore, hat⟩ : ∃ stop,
      childIndex comparator node key = stop ∧ stop ≤ node.size ∧ 1 ≤ stop ∧
      (∀ idx, 1 ≤ idx → idx < stop → comparator (node.keyAt idx) key ≤ 0) ∧
      (stop < node.size → comparator key (node.keyAt stop) < 0) := by
    have hsmall : ∀ idx, ¬ comparator (node.keyAt idx) key = 1 →
        comparator (node.keyAt idx) key ≤ 0 :=
      fun idx hne => not_lt.mp fun hlarge => hne (hone _ _ hlarge)
    cases hfind : (List.range' 1 (node.size - 1)).find? fun idx =>
        comparator (node.keyAt idx) key = 1 with
    | none =>
      refine ⟨node.size, by simp [childIndex, hfind, hsize], le_rfl, hsize,
        fun idx hone hlt => hsmall idx ?_, fun hlt => absurd hlt (lt_irrefl _)⟩
      simpa using List.find?_eq_none.mp hfind idx (List.mem_range'_1.mpr (by omega))
    | some idx =>
      obtain ⟨hlarge, hmem, hprev⟩ := List.find?_range'_eq_some.mp hfind
      rw [List.mem_range'_1] at hmem
      refine ⟨idx, by simp [childIndex, hfind], by omega, hmem.1,
        fun i hi hlt => hsmall i (by simpa using hprev i hi hlt), fun _ => ?_⟩
      rw [horder.neg_iff, of_decide_eq_true hlarge]
      decide
  rw [hstop]
  constructor
  · rintro ⟨hi, hlower, hupper⟩
    rcases Nat.lt_trichotomy (i + 1) stop with hlt | heq | hgt
    · have := hbefore (i + 1) (by omega) hlt
      have := (horder.neg_iff _ _).mp (hupper (by omega))
      omega
    · omega
    · -- the separator at `stop` is above the key, so the one of a later child is too
      have habove := hat (by omega)
      have hle : comparator (node.keyAt stop) (node.keyAt i) ≤ 0 := by
        rcases Nat.lt_or_ge stop i with hlt | hge
        · exact (InternalPage.keyAt_lt hsorted (by omega) hlt hi).le
        · rw [show i = stop by omega]
          have := horder.neg_iff (node.keyAt stop) (node.keyAt stop)
          omega
      have := horder.trans _ _ _ hle (hlower (by omega))
      have := (horder.neg_iff _ _).mp habove
      omega
  · rintro rfl
    refine ⟨by omega, fun hne => hbefore _ (by omega) (by omega), fun hlt => ?_⟩
    rw [show stop - 1 + 1 = stop by omega] at hlt ⊢
    exact hat hlt

variable {base : PageStore Key Value} {path : List PageId} {pageId : PageId}

theorem Subtree.not_mem_path (h : Subtree comparator base path pageId) : pageId ∉ path := by
  cases h <;> assumption

theorem Subtree.path_lt (h : Subtree comparator base path pageId) (hnodup : path.Nodup)
    (hpath : ∀ other ∈ path, other ∈ Finset.Ico 0 base.nextPageId) :
    path.length < base.nextPageId.toNat := by
  have hthis : pageId ∈ Finset.Ico 0 base.nextPageId := by cases h <;> assumption
  have hsubset : (pageId :: path).toFinset ⊆ Finset.Ico 0 base.nextPageId := by
    intro other hother
    rcases List.mem_cons.mp (List.mem_toFinset.mp hother) with rfl | hmem
    exacts [hthis, hpath other hmem]
  have hcard := Finset.card_le_card hsubset
  rw [List.toFinset_card_of_nodup (List.nodup_cons.mpr ⟨h.not_mem_path, hnodup⟩), Int.card_Ico,
    List.length_cons, sub_zero] at hcard
  exact hcard

/-- The loop from a page of the tree that is pinned: its pin goes to the leaf. -/
theorem findleafLoop_unique (horder : comparator.IsOrder)
    (hone : ∀ a b, 0 < comparator a b → comparator a b = 1) (key : Key)
    (h : Subtree comparator base path pageId) (hnodup : path.Nodup)
    (hpath : ∀ other ∈ path, other ∈ Finset.Ico 0 base.nextPageId)
    (store : PageStore Key Value)
    (hsame : ∀ other, (store.pages other).page = (base.pages other).page)
    (hpinned : 0 < (store.pages pageId).pinCount) {steps : ℕ}
    (hsteps : base.nextPageId.toNat ≤ steps + path.length) :
    ∃ leafId next, findleafLoop comparator key steps pageId store = .ok (leafId, next) ∧
      (∀ other, LeafFor comparator base key pageId other ↔ other = leafId) ∧
      (∀ other, (next.pages other).page = (base.pages other).page) ∧
      ∀ other, (next.pages other).pinCount + (if other = pageId then 1 else 0) =
        (store.pages other).pinCount + if other = leafId then 1 else 0 := by
  induction h generalizing store steps with
  | @leaf path pageId leaf hpage hid hnew =>
    have hlt := (Subtree.leaf hpage hid hnew : Subtree comparator base _ _).path_lt hnodup hpath
    obtain ⟨steps, rfl⟩ := Nat.exists_eq_add_one_of_ne_zero (show steps ≠ 0 by omega)
    refine ⟨pageId, store, by simp [findleafLoop, hsame, hpage], fun other => ?_, hsame,
      fun other => rfl⟩
    constructor
    · rintro (hleaf | ⟨hnode⟩)
      · rfl
      · rw [hpage] at hnode
        cases hnode
    · rintro rfl
      exact .leaf hpage
  | @internal path pageId node hpage hself hid hnew hsize hsorted hchildren ih =>
    have hlt := (Subtree.internal hpage hself hid hnew hsize hsorted hchildren).path_lt
      hnodup hpath
    obtain ⟨steps, rfl⟩ := Nat.exists_eq_add_one_of_ne_zero (show steps ≠ 0 by omega)
    have hindex := childIndex_childRange horder hone hsize hsorted key
    obtain ⟨hi, hrange⟩ := (hindex _).mpr rfl
    have hchild := hchildren _ hi
    have hbelow := ih _ hi (List.nodup_cons.mpr ⟨hnew, hnodup⟩)
      (List.forall_mem_cons.mpr ⟨hid, hpath⟩) ((store.fetchPage
        (node.valueAt (childIndex comparator node key - 1))).unpinPage pageId false)
    generalize hvalue : node.valueAt (childIndex comparator node key - 1) = child
      at hchild hbelow
    have hne : child ≠ pageId := fun heq => hchild.not_mem_path (heq ▸ List.mem_cons_self)
    obtain ⟨leafId, next, hloop, hunique, hpages, hpins⟩ := hbelow (by simp [hsame])
      (by simp [PageStore.unpinPage_pinCount, PageStore.fetchPage_pinCount, hne])
      (show base.nextPageId.toNat ≤ steps + (path.length + 1) by omega)
    refine ⟨leafId, next, ?_, fun other => ?_, hpages, fun other => ?_⟩
    · simp only [findleafLoop, hsame, hpage, hself, hvalue]
      exact hloop
    · rw [← hunique other]
      constructor
      · rintro (hleaf | @⟨_, _, other, i, hnode, hi', hrange', hbelow⟩)
        · rw [hpage] at hleaf
          cases hleaf
        · rw [hpage] at hnode
          cases hnode
          rwa [(hindex i).mp ⟨hi', hrange'⟩, hvalue] at hbelow
      · exact fun h => .child hpage hi hrange (hvalue ▸ h)
    · have := hpins other
      rw [PageStore.unpinPage_pinCount, PageStore.fetchPage_pinCount] at this
      by_cases hpage' : other = pageId
      · subst hpage'
        simp only [if_true, if_neg hne.symm] at this ⊢
        omega
      · simp only [if_neg hpage'] at this ⊢
        omega

/-- **The search for a leaf.**  On a well-formed tree `Findleaf` returns the only leaf with a
range that has the key, with one more pin on it.  All other pins and all contents are as
before. -/
theorem findleaf_unique_leaf (tree : BPlusTree Key Value) (horder : tree.comparator.IsOrder)
    (hone : ∀ a b, 0 < tree.comparator a b → tree.comparator a b = 1)
    (htree : Subtree tree.comparator tree.store [] tree.rootPageId) (key : Key) :
    ∃ leafId next, tree.findleaf key = .ok (leafId, next) ∧
      (∀ other, LeafFor tree.comparator tree.store key tree.rootPageId other ↔ other = leafId) ∧
      (∀ other, (next.store.pages other).page = (tree.store.pages other).page) ∧
      ∀ other, (next.store.pages other).pinCount =
        (tree.store.pages other).pinCount + if other = leafId then 1 else 0 := by
  obtain ⟨leafId, next, hloop, hunique, hpages, hpins⟩ :=
    findleafLoop_unique horder hone key htree List.nodup_nil (by simp)
      (tree.store.fetchPage tree.rootPageId) (by simp)
      (by simp [PageStore.fetchPage_pinCount]) (Nat.le_add_right _ _)
  refine ⟨leafId, { tree with store := next }, ?_, hunique, hpages, fun other => ?_⟩
  · simp only [findleaf, PageStore.fetchPage_nextPageId, hloop]
    rfl
  · have := hpins other
    rw [PageStore.fetchPage_pinCount] at this
    dsimp only
    omega

/-- The children 10 and 20 of page 1 are leaves. -/
def treeOfLeaves : BPlusTree ℤ ℕ where
  indexName := []
  rootPageId := 1
  store :=
    { pages := fun pageId =>
        ⟨if pageId = 1 then .internal .pageOfTwo else .leaf (.init pageId 1 3), 0, false⟩
      nextPageId := 21 }
  comparator := LeafPage.intComparator
  leafMaxSize := 3
  internalMaxSize := 3

theorem findleaf_unique_leaf_seven :
    ∃ leafId next, treeOfLeaves.findleaf 7 = .ok (leafId, next) ∧
      (next.store.pages leafId).pinCount = 1 := by
  have htree : Subtree treeOfLeaves.comparator treeOfLeaves.store [] treeOfLeaves.rootPageId := by
    refine .internal rfl rfl (by decide) (by simp) (by decide) InternalPage.pageOfTwo_sorted
      fun i hi => ?_
    rcases Nat.le_one_iff_eq_zero_or_eq_one.mp (Nat.le_of_lt_succ hi) with rfl | rfl
    · exact .leaf rfl (by decide) (by decide)
    · exact .leaf rfl (by decide) (by decide)
  obtain ⟨leafId, next, hfind, -, -, hpins⟩ :=
    findleaf_unique_leaf treeOfLeaves LeafPage.intComparator_isOrder
      (fun a b => by simp only [treeOfLeaves, LeafPage.intComparator]; split_ifs <;> simp) htree 7
  exact ⟨leafId, next, hfind, by simp [hpins, treeOfLeaves]⟩

end BPlusTree

end BusTub
