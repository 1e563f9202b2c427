import BusTub.Storage.StorePages

/-!
# The B+ tree as a map

`GetValue` takes the comparator's result as a truth value, so it collects the values
whose keys differ from the key it was asked for.  On the first pair this already turns
every answer around: the key that is there is not found, every other key is, and `Insert`,
which asks `GetValue` first, accepts the key that is there and refuses all others.

The tree therefore never holds more than one pair, and it answers like a map exactly as
long as the map is empty.
-/

namespace BusTub

open Machines LeafPage PageStore

namespace BPlusTree

variable {Key Value : Type} {tree next : BPlusTree Key Value} {key query : Key} {value : Value}

/-! ## What the tree holds -/

/-- The value under an equal key in the leaf that `Findleaf` finds. -/
def lookup (tree : BPlusTree Key Value) (key : Key) : Option Value :=
  if tree.isEmpty then none
  else
    match tree.findleaf key with
    | .error _ => none
    | .ok (leafId, tree) =>
      match tree.store.leafAt leafId with
      | .error _ => none
      | .ok leaf =>
        ((List.range leaf.size).find? fun idx =>
          tree.comparator (leaf.keyAt idx) key = 0).map leaf.valueAt

structure OneLeaf (tree : BPlusTree Key Value) (key : Key) (value : Value) : Prop where
  not_empty : tree.rootPageId ≠ invalidPageId
  allocated : 0 < tree.store.nextPageId
  root : ∃ leaf, (tree.store.pages tree.rootPageId).page = .leaf leaf ∧ leaf.size = 1 ∧
    leaf.maxSize = tree.leafMaxSize ∧ leaf.array 0 = (key, value)

theorem OneLeaf.exists_leaf (h : OneLeaf tree key value) :
    ∃ leaf, (tree.store.fetchPage tree.rootPageId).leafAt tree.rootPageId = .ok leaf ∧
      (tree.store.pages tree.rootPageId).page = .leaf leaf ∧ leaf.size = 1 ∧
      leaf.maxSize = tree.leafMaxSize ∧ leaf.array 0 = (key, value) := by
  obtain ⟨leaf, hpage, hleaf⟩ := h.root
  exact ⟨leaf, by simp only [leafAt, fetchPage_page, hpage], hpage, hleaf⟩

theorem OneLeaf.congr (h : OneLeaf tree key value) (hroot : next.rootPageId = tree.rootPageId)
    (hmax : next.leafMaxSize = tree.leafMaxSize)
    (hnext : next.store.nextPageId = tree.store.nextPageId)
    (hpage : (next.store.pages tree.rootPageId).page = (tree.store.pages tree.rootPageId).page) :
    OneLeaf next key value := by
  refine ⟨hroot ▸ h.not_empty, hnext ▸ h.allocated, ?_⟩
  rw [hroot, hpage, hmax]
  exact h.root

theorem OneLeaf.isEmpty (h : OneLeaf tree key value) : tree.isEmpty = false := by
  simp [BPlusTree.isEmpty, h.not_empty]

/-! ## Search in one leaf -/

theorem OneLeaf.findleaf (h : OneLeaf tree key value) (query : Key) :
    tree.findleaf query =
      .ok (tree.rootPageId, { tree with store := tree.store.fetchPage tree.rootPageId }) := by
  obtain ⟨leaf, hpage, _⟩ := h.root
  obtain ⟨steps, hsteps⟩ : ∃ steps, tree.store.nextPageId.toNat = steps + 1 :=
    Nat.exists_eq_add_one.mpr (Int.lt_toNat.mpr h.allocated)
  unfold BPlusTree.findleaf
  simp only [fetchPage_nextPageId, hsteps, findleafLoop, fetchPage_page, hpage]
  rfl

theorem OneLeaf.getValue (h : OneLeaf tree key value) (query : Key) :
    ∃ next, tree.getValue query [] =
        .ok (decide (tree.comparator key query ≠ 0),
          if tree.comparator key query ≠ 0 then [value] else [], next) ∧
      OneLeaf next key value ∧ next.comparator = tree.comparator ∧
      next.leafMaxSize = tree.leafMaxSize := by
  obtain ⟨leaf, hleaf, _, hsize, _, hpair⟩ := h.exists_leaf
  -- the loop pushes a value where the comparator does not return zero
  have hvalues : matchingValues tree.comparator leaf query =
      if tree.comparator key query ≠ 0 then [value] else [] := by
    by_cases hequal : tree.comparator key query = 0
    · simp [matchingValues, hsize, List.range_succ, keyAt, hpair, hequal]
    · simp [matchingValues, hsize, List.range_succ, keyAt, valueAt, hpair,
        hequal]
  refine ⟨{ tree with store :=
    (tree.store.fetchPage tree.rootPageId).unpinPage leaf.pageId false }, ?_, ?_, rfl, rfl⟩
  · unfold BPlusTree.getValue
    simp only [h.isEmpty, h.findleaf, Bool.false_eq_true, if_false, bind, Except.bind, hleaf,
      List.nil_append, hvalues]
    by_cases hequal : tree.comparator key query = 0
    · simp [hequal, pure, Except.pure]
    · simp [hequal, pure, Except.pure]
  · apply h.congr (by rfl) (by rfl) (by rfl)
    simp

theorem OneLeaf.lookup (h : OneLeaf tree key value) (query : Key) :
    tree.lookup query = if tree.comparator key query = 0 then some value else none := by
  obtain ⟨leaf, hleaf, _, hsize, _, hpair⟩ := h.exists_leaf
  simp only [BPlusTree.lookup, h.isEmpty, h.findleaf, hleaf, hsize, Bool.false_eq_true, if_false]
  by_cases hequal : tree.comparator key query = 0
  · simp [List.range_succ, keyAt, valueAt, hpair, hequal]
  · simp [List.range_succ, keyAt, hpair, hequal]

/-! ## Insertion -/

/-- `InsertKey` leaves a leaf alone that has one pair with an equal key. -/
theorem insertKey_of_equal {leaf : LeafPage Key Value} {comparator : KeyComparator Key}
    (hsize : leaf.size = 1) (hpair : leaf.array 0 = (key, value))
    (hequal : comparator key query = 0) (inserted : Value) :
    leaf.insertKey query inserted comparator = (true, leaf) := by
  have hindex : leaf.keyIndex query comparator = 0 := by
    simp [keyIndex, hsize, lowerBound, keyAt, hpair, hequal]
  simp [insertKey, hindex, hsize, keyAt, hpair, hequal]

section Insertion

variable [Inhabited Key] [Inhabited Value]

theorem insert_of_found {result : List Value}
    (hget : tree.getValue query [] = .ok (true, result, next)) (value : Value) :
    tree.insert query value = .ok (false, next) := by
  simp [BPlusTree.insert, hget, bind, Except.bind, pure, Except.pure]

/-- `Insert` into a tree of one pair changes nothing: it accepts the key of the pair and
refuses every other one. -/
theorem OneLeaf.insert (h : OneLeaf tree key value) (hmax : 2 ≤ tree.leafMaxSize) (query : Key)
    (inserted : Value) :
    ∃ next, tree.insert query inserted = .ok (decide (tree.comparator key query = 0), next) ∧
      OneLeaf next key value ∧ next.comparator = tree.comparator ∧
      next.leafMaxSize = tree.leafMaxSize := by
  obtain ⟨found, hget, hfound, hcomparator, hmaxSize⟩ := h.getValue query
  -- `GetValue` misses the key of the pair, and `InsertKey` then declines to add it;
  -- `GetValue` takes any other key for a duplicate
  by_cases hequal : tree.comparator key query = 0
  · simp only [hequal, ne_eq, not_true_eq_false, decide_false, if_false] at hget
    obtain ⟨leaf, hleaf, hpage, hsize, hleafMax, hpair⟩ := hfound.exists_leaf
    have hroom : leaf.size ≠ leaf.maxSize := by omega
    have hsame := insertKey_of_equal hsize hpair (hcomparator ▸ hequal) inserted
    refine ⟨{ found with store := ((found.store.fetchPage found.rootPageId).write
      found.rootPageId (.leaf leaf)).unpinPage leaf.pageId true }, ?_, ?_, hcomparator, hmaxSize⟩
    · unfold BPlusTree.insert
      simp only [hget, bind, Except.bind, Bool.false_eq_true, if_false, hfound.isEmpty,
        hfound.findleaf, hleaf, hsame, hroom, hequal, decide_true]
      rfl
    · apply hfound.congr (by rfl) (by rfl) (by rfl)
      simp [hpage]
  · simp only [hequal, ne_eq, not_false_eq_true, decide_true, if_true] at hget
    refine ⟨found, ?_, hfound, hcomparator, hmaxSize⟩
    rw [insert_of_found hget]
    simp [hequal]

/-! ## The first insertion -/

omit [Inhabited Key] [Inhabited Value] in
theorem updateRootPageId_of_no_records
    (hheader : (tree.store.pages headerPageId).page = .header ⟨[]⟩)
    (hroot : invalidPageId < tree.rootPageId) :
    tree.updateRootPageId true =
      if tree.indexName.length < 32 then
        .ok { tree with store := ((tree.store.fetchPage headerPageId).write headerPageId
          (.header ⟨[(tree.indexName, tree.rootPageId)]⟩)).unpinPage headerPageId true }
      else .error .assertionFailed := by
  have hpage : (tree.store.fetchPage headerPageId).headerAt headerPageId = .ok ⟨[]⟩ := by
    simp [headerAt, hheader]
  unfold updateRootPageId
  simp only [bind, Except.bind, hpage, if_true, HeaderPage.insertRecord, hroot, and_true]
  by_cases hname : tree.indexName.length < 32
  · simp only [hname, if_true, HeaderPage.findRecord, List.findIdx?_nil, List.nil_append]
    rfl
  · simp [hname]

theorem insertKey_init (pageId parentId : PageId) (maxSize : ℕ) (key : Key) (value : Value)
    (comparator : KeyComparator Key) :
    (init pageId parentId maxSize).insertKey key value comparator =
      (true, { (init pageId parentId maxSize : LeafPage Key Value) with
        array := Function.update (fun _ => default) 0 (key, value)
        size := 1 }) := by
  simp [insertKey, keyIndex, init, lowerBound]

variable (name : IndexName) (comparator : KeyComparator Key) (leafMaxSize internalMaxSize : ℕ)

/-- The tree between the first insertion and its record in the header page. -/
def planted (key : Key) (value : Value) : BPlusTree Key Value :=
  let tree := create name comparator leafMaxSize internalMaxSize
  { tree with
    rootPageId := headerPageId + 1
    store := tree.store.newPage.2.write (headerPageId + 1)
      (.leaf ((init (headerPageId + 1) invalidPageId leafMaxSize).insertKey key value
        comparator).2) }

theorem insert_create (key : Key) (value : Value) :
    (create name comparator leafMaxSize internalMaxSize).insert key value = do
      let tree ←
        (planted name comparator leafMaxSize internalMaxSize key value).updateRootPageId true
      return (true, { tree with store := tree.store.unpinPage tree.rootPageId true }) := by
  have hempty : (create name comparator leafMaxSize internalMaxSize :
      BPlusTree Key Value).isEmpty = true := by simp [isEmpty, create]
  unfold BPlusTree.insert
  rfl

theorem planted_oneLeaf (key : Key) (value : Value) :
    OneLeaf (planted name comparator leafMaxSize internalMaxSize key value) key value where
  not_empty := by
    change headerPageId + 1 ≠ invalidPageId
    decide
  allocated := by
    change 0 < headerPageId + 1 + 1
    decide
  root := by
    refine ⟨_, write_page_same _ _ _, ?_⟩
    rw [insertKey_init]
    exact ⟨rfl, rfl, by simp⟩

theorem planted_updateRootPageId (key : Key) (value : Value) :
    let tree : BPlusTree Key Value := planted name comparator leafMaxSize internalMaxSize key value
    tree.updateRootPageId true =
      if name.length < 32 then
        .ok { tree with store := ((tree.store.fetchPage headerPageId).write headerPageId
          (.header ⟨[(name, headerPageId + 1)]⟩)).unpinPage headerPageId true }
      else .error .assertionFailed := by
  apply updateRootPageId_of_no_records
  · have hfresh : headerPageId ≠ headerPageId + 1 := by decide
    simp only [planted]
    rw [write_page_ne hfresh, newPage_page_ne hfresh]
    simp [create]
  · change invalidPageId < headerPageId + 1
    decide

/-- The first insertion makes a tree of one pair, if the name of the index is short
enough for a record. -/
theorem insert_create_of_short (hname : name.length < 32) (key : Key) (value : Value) :
    ∃ next, (create name comparator leafMaxSize internalMaxSize).insert key value =
        .ok (true, next) ∧
      OneLeaf next key value ∧ next.comparator = comparator ∧ next.leafMaxSize = leafMaxSize := by
  rw [insert_create, planted_updateRootPageId, if_pos hname]
  refine ⟨_, rfl, ?_, rfl, rfl⟩
  apply (planted_oneLeaf name comparator leafMaxSize internalMaxSize key value).congr
    (by rfl) (by rfl) (by rfl)
  -- recording the root touches the header page only
  have hroot : (planted name comparator leafMaxSize internalMaxSize key value).rootPageId ≠
      headerPageId := by
    change headerPageId + 1 ≠ headerPageId
    decide
  rw [unpinPage_page, unpinPage_page, write_page_ne hroot,
    fetchPage_page]

theorem insert_create_of_long (hname : ¬ name.length < 32) (key : Key) (value : Value) :
    (create name comparator leafMaxSize internalMaxSize).insert key value =
      .error .assertionFailed := by
  rw [insert_create, planted_updateRootPageId, if_neg hname]
  rfl

end Insertion

end BPlusTree

/-! ## Runs -/

section Runs

variable {Key Value : Type}

/-- The value that a list of pairs has under an equal key, one that compares as zero. -/
def lookupPair (comparator : KeyComparator Key) (pairs : List (Key × Value)) (key : Key) :
    Option Value :=
  (pairs.find? fun pair => comparator pair.1 key = 0).map Prod.snd

/-- What the calls do on a finite map with unique keys. -/
def treeSpec (comparator : KeyComparator Key) (pairs : List (Key × Value)) :
    TreeCall Key Value → TreeAnswer Value × List (Key × Value)
  | .insert key value =>
    if (lookupPair comparator pairs key).isSome then (.inserted false, pairs)
    else (.inserted true, pairs ++ [(key, value)])
  | .getValue key =>
    (.got (lookupPair comparator pairs key).isSome (lookupPair comparator pairs key).toList,
      pairs)

/-- The tree holds the pairs of the map. -/
def BPlusTree.Holds (tree : BPlusTree Key Value) (pairs : List (Key × Value)) : Prop :=
  ∀ key, tree.lookup key = lookupPair tree.comparator pairs key

/-- The call is made on an empty map, and for an `Insert` the name of the index fits its
record. -/
def OnEmpty (name : IndexName) (pairs : List (Key × Value)) : TreeCall Key Value → Prop
  | .insert _ _ => pairs = [] ∧ name.length < 32
  | .getValue _ => pairs = []

variable {name : IndexName} {comparator : KeyComparator Key} {leafMaxSize internalMaxSize : ℕ}

/-- The trees of a run: the one it starts with, or one with a single pair. -/
inductive TreeInvariant (name : IndexName) (comparator : KeyComparator Key)
    (leafMaxSize internalMaxSize : ℕ) : BPlusTree Key Value → List (Key × Value) → Prop
  | fresh : TreeInvariant name comparator leafMaxSize internalMaxSize
      (.create name comparator leafMaxSize internalMaxSize) []
  | oneLeaf {tree : BPlusTree Key Value} {key : Key} {value : Value}
      (h : tree.OneLeaf key value) (hcomparator : tree.comparator = comparator)
      (hmax : tree.leafMaxSize = leafMaxSize) :
      TreeInvariant name comparator leafMaxSize internalMaxSize tree [(key, value)]

theorem lookupPair_singleton (key query : Key) (value : Value) :
    lookupPair comparator [(key, value)] query =
      if comparator key query = 0 then some value else none := by
  by_cases hequal : comparator key query = 0
  · simp [lookupPair, hequal]
  · simp [lookupPair, hequal]

variable {tree next : BPlusTree Key Value} {pairs : List (Key × Value)}

theorem TreeInvariant.holds
    (h : TreeInvariant name comparator leafMaxSize internalMaxSize tree pairs) :
    tree.Holds pairs := by
  intro query
  cases h with
  | fresh => rfl
  | oneLeaf h hcomparator hmax => rw [h.lookup, lookupPair_singleton]

variable [Inhabited Key] [Inhabited Value]

/-- On the empty map the tree answers like the map. -/
theorem TreeInvariant.keeps
    (h : TreeInvariant name comparator leafMaxSize internalMaxSize tree pairs)
    {call : TreeCall Key Value} (hempty : OnEmpty name pairs call) :
    ∃ next, treeMachine.step tree call = .ok ((treeSpec comparator pairs call).1, next) ∧
      TreeInvariant name comparator leafMaxSize internalMaxSize next
        (treeSpec comparator pairs call).2 := by
  cases h with
  | oneLeaf h hcomparator hmax =>
    cases call with
    | insert key value => exact absurd hempty.1 (List.cons_ne_nil _ _)
    | getValue key => exact absurd hempty (List.cons_ne_nil _ _)
  | fresh =>
    cases call with
    | getValue key =>
      refine ⟨_, ?_, .fresh⟩
      rfl
    | insert key value =>
      obtain ⟨next, hinsert, hnext, hcomparator, hmax⟩ := BPlusTree.insert_create_of_short name
        comparator leafMaxSize internalMaxSize hempty.2 key value
      refine ⟨next, ?_, .oneLeaf hnext hcomparator hmax⟩
      simp only [treeMachine, hinsert]
      rfl

/-- With one pair in the tree, no answer is the map's. -/
theorem TreeInvariant.breaks (hmax : 2 ≤ leafMaxSize)
    (h : TreeInvariant name comparator leafMaxSize internalMaxSize tree pairs)
    {call : TreeCall Key Value} (hempty : ¬ OnEmpty name pairs call) :
    treeMachine.step tree call ≠ .ok ((treeSpec comparator pairs call).1, next) := by
  intro hstep
  cases h with
  | fresh =>
    cases call with
    | getValue key => exact hempty rfl
    | insert key value =>
      have hlong : ¬ name.length < 32 := fun hname => hempty ⟨rfl, hname⟩
      simp only [treeMachine, BPlusTree.insert_create_of_long name comparator leafMaxSize
        internalMaxSize hlong] at hstep
      cases hstep
  | @oneLeaf tree key value h hcomparator hleafMax =>
    cases call with
    | getValue query =>
      -- found where the map has nothing, and not found where it has the value
      obtain ⟨after, hget, _⟩ := h.getValue query
      simp only [treeMachine, hget, hcomparator, treeSpec, lookupPair_singleton] at hstep
      by_cases hequal : comparator key query = 0
      · simp [hequal, bind, Except.bind, pure, Except.pure] at hstep
      · simp [hequal, bind, Except.bind, pure, Except.pure] at hstep
    | insert query inserted =>
      -- accepted where the map has the key, and refused where it does not
      obtain ⟨after, hinsert, _⟩ := h.insert (hleafMax ▸ hmax) query inserted
      simp only [treeMachine, hinsert, hcomparator, treeSpec, lookupPair_singleton] at hstep
      by_cases hequal : comparator key query = 0
      · simp [hequal, bind, Except.bind, pure, Except.pure] at hstep
      · simp [hequal, bind, Except.bind, pure, Except.pure] at hstep

theorem TreeInvariant.step (hname : name.length < 32) (hmax : 2 ≤ leafMaxSize)
    (h : TreeInvariant name comparator leafMaxSize internalMaxSize tree pairs)
    (call : TreeCall Key Value) :
    ∃ answer next, treeMachine.step tree call = .ok (answer, next) ∧
      ∃ after, TreeInvariant name comparator leafMaxSize internalMaxSize next after := by
  cases h with
  | fresh =>
    have hempty : OnEmpty name [] call := by
      cases call with
      | insert key value => exact ⟨rfl, hname⟩
      | getValue key => rfl
    obtain ⟨next, hstep, hnext⟩ := (TreeInvariant.fresh : TreeInvariant name comparator
      leafMaxSize internalMaxSize _ _).keeps hempty
    exact ⟨_, next, hstep, _, hnext⟩
  | @oneLeaf tree key value h hcomparator hleafMax =>
    cases call with
    | getValue query =>
      obtain ⟨next, hget, hnext, hsame, hsameMax⟩ := h.getValue query
      refine ⟨.got (decide (tree.comparator key query ≠ 0))
        (if tree.comparator key query ≠ 0 then [value] else []), next, ?_, [(key, value)], ?_⟩
      · simp only [treeMachine, hget]
        rfl
      · exact .oneLeaf hnext (hsame.trans hcomparator) (hsameMax.trans hleafMax)
    | insert query inserted =>
      obtain ⟨next, hinsert, hnext, hsame, hsameMax⟩ :=
        h.insert (hleafMax ▸ hmax) query inserted
      refine ⟨.inserted (decide (tree.comparator key query = 0)), next, ?_, [(key, value)], ?_⟩
      · simp only [treeMachine, hinsert]
        rfl
      · exact .oneLeaf hnext (hsame.trans hcomparator) (hsameMax.trans hleafMax)

/-- **One pair.**  Every run on a fresh tree returns, and it leaves at most one pair in
the tree. -/
theorem tree_run_at_most_one (hname : name.length < 32) (hmax : 2 ≤ leafMaxSize)
    (calls : List (TreeCall Key Value)) :
    ∃ answers final, treeMachine.run (.create name comparator leafMaxSize internalMaxSize) calls =
        .ok (answers, final) ∧
      ∃ pairs, final.Holds pairs ∧ pairs.length ≤ 1 := by
  have hstep : ∀ (tree : BPlusTree Key Value) (call : TreeCall Key Value),
      (∃ pairs, TreeInvariant name comparator leafMaxSize internalMaxSize tree pairs) → True →
      ∃ answer next, treeMachine.step tree call = .ok (answer, next) ∧
        ∃ pairs, TreeInvariant name comparator leafMaxSize internalMaxSize next pairs := by
    rintro tree call ⟨pairs, h⟩ _
    exact h.step hname hmax call
  obtain ⟨answers, final, hrun, pairs, hfinal⟩ := Machine.run_of_invariant hstep
    ⟨[], TreeInvariant.fresh⟩ (Machine.along_of_forall_mem (fun call _ => trivial) _)
  refine ⟨answers, final, hrun, pairs, hfinal.holds, ?_⟩
  cases hfinal with
  | fresh => exact Nat.zero_le 1
  | oneLeaf _ _ _ => exact Nat.le_refl 1

theorem tree_run_at_most_one_two :
    ∃ answers final, treeMachine.run (.create [] (fun a b => a - b) 2 3 : BPlusTree ℤ ℕ)
        [.insert 1 1, .insert 2 2] = .ok (answers, final) ∧
      ∃ pairs, final.Holds pairs ∧ pairs.length ≤ 1 :=
  tree_run_at_most_one (by decide) le_rfl _

/-- **The tree and the map.**  A run on a fresh tree answers like the map, and holds it
after every call, exactly when every call is made on an empty map. -/
theorem bPlusTree_conforms_iff (name : IndexName) (comparator : KeyComparator Key)
    (leafMaxSize internalMaxSize : ℕ) (hmax : 2 ≤ leafMaxSize) (calls : List (TreeCall Key Value)) :
    treeMachine.Conforms BPlusTree.Holds (treeSpec comparator)
        (.create name comparator leafMaxSize internalMaxSize) [] calls ↔
      Machine.SpecAlong (treeSpec comparator) (OnEmpty name) [] calls :=
  Machine.conforms_iff_specAlong (fun _ _ h => h.holds) (fun _ _ _ h hempty => h.keeps hempty)
    (fun _ _ _ _ h hempty hstep => absurd hstep (h.breaks hmax hempty)) TreeInvariant.fresh calls

end Runs

/-- A lookup and a first insertion are answered as by a map. -/
theorem bPlusTree_conforms_iff_first :
    treeMachine.Conforms BPlusTree.Holds (treeSpec fun a b : ℤ => (a - b).sign)
      (.create [] (fun a b : ℤ => (a - b).sign) 2 3) [] [.getValue 1, .insert 1 (10 : ℤ)] :=
  (bPlusTree_conforms_iff [] (fun a b : ℤ => (a - b).sign) 2 3 (Nat.le_refl 2)
    [.getValue 1, .insert 1 10]).mpr ⟨rfl, ⟨rfl, Nat.zero_lt_succ 31⟩, trivial⟩

/-- The key that was inserted is not found. -/
theorem bPlusTree_not_conforms :
    ¬ treeMachine.Conforms BPlusTree.Holds (treeSpec fun a b : ℤ => (a - b).sign)
      (.create [] (fun a b : ℤ => (a - b).sign) 2 3) [] [.insert 1 (10 : ℤ), .getValue 1] := by
  rintro ⟨_, first, hfirst, _, second, hsecond, _⟩
  cases hfirst
  cases hsecond

end BusTub
