import BusTub.Storage.PageArrays

/-!
# Insertion and deletion in a leaf

`InsertKey` on a strictly sorted leaf: the lower bound of the key splits the entries into
those below the key and those that are not, so the leaf stays strictly sorted, gets the
new pair if no entry compares equal to the key and is left as it is otherwise.

`FindKey` and `DeleteKey` are modelled here.  The loop of `DeleteKey` that should close
the gap counts its index down and not up, from the entry behind the gap to the start of
the array and past it.  It does not run at all if the last entry is the one to go, and
`deleteKey_correct_iff` says that this and the absence of the key are the only cases in
which the function does what it is for.
-/

namespace BusTub

namespace LeafPage

variable {Key Value : Type} {comparator : KeyComparator Key}

def entries (page : LeafPage Key Value) : List (Key × Value) := usedEntries page.array page.size

def Holds (page : LeafPage Key Value) (comparator : KeyComparator Key) (key : Key) : Prop :=
  ∃ index < page.size, comparator (page.keyAt index) key = 0

variable {page : LeafPage Key Value}

theorem keyAt_lt (hsorted : StrictlySorted comparator page.entries)
    {i j : ℕ} (hij : i < j) (hj : j < page.size) :
    comparator (page.keyAt i) (page.keyAt j) < 0 := by
  have h := List.pairwise_iff_getElem.mp hsorted i j
  simp only [entries, length_usedEntries, getElem_usedEntries] at h
  exact h (hij.trans hj) hj hij

/-! ## Insertion -/

/-- In a sorted leaf, the entries before `KeyIndex` are below the key and the others are
not. -/
theorem keyIndex_partitionPoint (horder : comparator.IsOrder)
    (hsorted : StrictlySorted comparator page.entries) (key : Key) :
    PartitionPoint (fun index => comparator (page.keyAt index) key < 0) 0 page.size
      (page.keyIndex key comparator) := by
  have h := lowerBound_partitionPoint (fun index => comparator (page.keyAt index) key < 0) 0
    page.size le_rfl (fun i j _ hij hj hbelow => by
      rw [Nat.zero_add] at hj
      simp only [decide_eq_true_eq] at hbelow ⊢
      rcases hij.eq_or_lt with rfl | hlt
      · exact hbelow
      · exact horder.lt_of_lt_of_le (keyAt_lt hsorted hlt hj) hbelow.le)
  rwa [Nat.zero_add] at h

theorem insertKey_frame (page : LeafPage Key Value) (key : Key) (value : Value)
    (comparator : KeyComparator Key) :
    (page.insertKey key value comparator).2.maxSize = page.maxSize ∧
      (page.insertKey key value comparator).2.nextPageId = page.nextPageId := by
  simp only [insertKey]
  split_ifs <;> exact ⟨rfl, rfl⟩

/-- What `InsertKey` makes of a page. -/
structure Inserted (comparator : KeyComparator Key) (page : LeafPage Key Value) (key : Key)
    (value : Value) (next : LeafPage Key Value) : Prop where
  sorted : StrictlySorted comparator next.entries
  /-- The new pair is the only difference if the key is absent. -/
  added : ¬ page.Holds comparator key →
    (∃ front back, page.entries = front ++ back ∧ next.entries = front ++ (key, value) :: back) ∧
      next = { page with size := page.size + 1, array := next.array }
  unchanged : page.Holds comparator key → next = page

variable {key : Key}

theorem insertKey_of_absent (horder : comparator.IsOrder)
    (hsorted : StrictlySorted comparator page.entries) (value : Value)
    (habsent : ¬ page.Holds comparator key) :
    let next := (page.insertKey key value comparator).2
    let index := page.keyIndex key comparator
    next.entries = page.entries.take index ++ (key, value) :: page.entries.drop index ∧
      next = { page with size := page.size + 1, array := next.array } := by
  have hpoint := keyIndex_partitionPoint horder hsorted key
  by_cases hend : page.keyIndex key comparator = page.size
  · simp only [insertKey, hend, if_true, entries, usedEntries_push, and_true]
    rw [List.take_of_length_le (by simp), List.drop_eq_nil_of_le (by simp)]
  · have hlt : page.keyIndex key comparator < page.size := lt_of_le_of_ne hpoint.le_last hend
    have hne : comparator (page.keyAt (page.keyIndex key comparator)) key ≠ 0 :=
      fun heq => habsent ⟨_, hlt, heq⟩
    simp only [insertKey, if_neg hend, if_neg hne, entries, and_true]
    exact usedEntries_insert hlt.le _

theorem insertKey_of_holds (horder : comparator.IsOrder)
    (hsorted : StrictlySorted comparator page.entries) (value : Value)
    (hholds : page.Holds comparator key) : (page.insertKey key value comparator).2 = page := by
  have hpoint := keyIndex_partitionPoint horder hsorted key
  obtain ⟨i, hi, heq⟩ := hholds
  have hle : page.keyIndex key comparator ≤ i := by
    by_contra hlt
    have hbelow := hpoint.below_before i (Nat.zero_le i) (not_le.mp hlt)
    simp only [decide_eq_true_eq] at hbelow
    omega
  have hat : comparator (page.keyAt (page.keyIndex key comparator)) key = 0 := by
    have hnot := hpoint.not_below_from _ le_rfl (hle.trans_lt hi)
    simp only [decide_eq_false_iff_not, not_lt] at hnot
    rcases hle.eq_or_lt with heq' | hlt
    · rwa [heq']
    · -- an entry before that of the key would be below it
      have hbelow := horder.lt_of_lt_of_le (keyAt_lt hsorted hlt hi) heq.le
      omega
  simp [insertKey, hat, (hle.trans_lt hi).ne]

theorem insertKey_inserted (horder : comparator.IsOrder)
    (hsorted : StrictlySorted comparator page.entries) (key : Key) (value : Value) :
    page.Inserted comparator key value (page.insertKey key value comparator).2 := by
  by_cases hholds : page.Holds comparator key
  · rw [insertKey_of_holds horder hsorted value hholds]
    exact ⟨hsorted, fun h => absurd hholds h, fun _ => rfl⟩
  obtain ⟨hentries, hframe⟩ := insertKey_of_absent horder hsorted value hholds
  refine ⟨?_, fun _ => ⟨⟨_, _, (List.take_append_drop _ _).symm, hentries⟩, hframe⟩,
    fun h => absurd h hholds⟩
  have hpoint := keyIndex_partitionPoint horder hsorted key
  have hbefore : ∀ entry ∈ page.entries.take (page.keyIndex key comparator),
      comparator entry.1 key < 0 := by
    intro entry hentry
    rw [entries, take_usedEntries hpoint.le_last] at hentry
    obtain ⟨i, hi, rfl⟩ := mem_usedEntries.mp hentry
    exact of_decide_eq_true (hpoint.below_before i (Nat.zero_le i) hi)
  have hbehind : ∀ entry ∈ page.entries.drop (page.keyIndex key comparator),
      comparator key entry.1 < 0 := by
    intro entry hentry
    obtain ⟨j, hj, rfl⟩ := List.mem_iff_getElem.mp hentry
    simp only [entries, List.length_drop, length_usedEntries] at hj
    simp only [entries, List.getElem_drop, getElem_usedEntries]
    have hlt : page.keyIndex key comparator + j < page.size := by omega
    have hnot := of_decide_eq_false (hpoint.not_below_from _ (Nat.le_add_right _ j) hlt)
    have hne : comparator (page.keyAt (page.keyIndex key comparator + j)) key ≠ 0 :=
      fun heq => hholds ⟨_, hlt, heq⟩
    exact (horder.neg_iff _ _).mpr (lt_of_le_of_ne (not_lt.mp hnot) hne.symm)
  rw [hentries]
  exact StrictlySorted.insert horder value ((List.take_append_drop _ _).symm ▸ hsorted) hbefore
    hbehind

/-! ## Deletion -/

/-- How an operation of a leaf can fail to return. -/
inductive Fault
  /-- An entry before the first one is accessed. -/
  | beforeFirst
deriving DecidableEq

/-- `FindKey`, which does not look at the value. -/
def findKey (page : LeafPage Key Value) (key : Key) (_value : Value)
    (comparator : KeyComparator Key) : ℕ :=
  ((List.range page.size).find? fun i => comparator (page.keyAt i) key = 0).getD page.size

/-- The `for` loop of `DeleteKey` from an index on.  The index counts down, and the test
`i < GetSize()` does not stop it. -/
def closeGap {Entry : Type} (size : ℕ) : ℕ → (ℕ → Entry) → Except Fault (ℕ → Entry)
  | 0, array => if 0 < size then .error .beforeFirst else .ok array
  | i + 1, array =>
    if i + 1 < size then closeGap size i (Function.update array i (array (i + 1)))
    else .ok array

/-- `DeleteKey`. -/
def deleteKey (page : LeafPage Key Value) (key : Key) (value : Value)
    (comparator : KeyComparator Key) : Except Fault (Bool × LeafPage Key Value) :=
  let pos := page.findKey key value comparator
  if pos = page.size then .ok (false, page)
  else do
    let array ← closeGap page.size (pos + 1) page.array
    return (true, { page with array := array, size := page.size - 1 })

/-- What `DeleteKey` is for. -/
def Deletes (comparator : KeyComparator Key) (page : LeafPage Key Value) (key : Key)
    (value : Value) : Prop :=
  ∃ found next, page.deleteKey key value comparator = .ok (found, next) ∧
    (found = true ↔ page.Holds comparator key) ∧
    (found = true →
      (∃ front entry back, page.entries = front ++ entry :: back ∧ comparator entry.1 key = 0 ∧
        next.entries = front ++ back) ∧
        next = { page with size := page.size - 1, array := next.array }) ∧
    (found = false → next = page)

/-- Once the loop has started it runs past the start of the array. -/
theorem closeGap_of_lt {Entry : Type} {size : ℕ} :
    ∀ {i : ℕ} (array : ℕ → Entry), i < size → closeGap size i array = .error .beforeFirst := by
  intro i
  induction i with
  | zero => intro array h; simp [closeGap, h]
  | succ i ih =>
    intro array h
    rw [closeGap, if_pos h]
    exact ih _ (Nat.lt_of_succ_lt h)

theorem closeGap_of_le {Entry : Type} {size i : ℕ} (array : ℕ → Entry) (h : size ≤ i) :
    closeGap size i array = .ok array := by
  cases i with
  | zero => simp [closeGap, Nat.le_zero.mp h]
  | succ i => rw [closeGap, if_neg (not_lt.mpr h)]

theorem findKey_of_absent (value : Value)
    (habsent : ¬ page.Holds comparator key) :
    page.findKey key value comparator = page.size := by
  have hnone : (List.range page.size).find?
      (fun i => decide (comparator (page.keyAt i) key = 0)) = none := by
    rw [List.find?_eq_none]
    intro i hi heq
    exact habsent ⟨i, List.mem_range.mp hi, of_decide_eq_true heq⟩
  rw [findKey, hnone, Option.getD_none]

/-- `FindKey` returns the place of an entry that compares equal. -/
theorem findKey_of_holds (value : Value)
    (hholds : page.Holds comparator key) :
    page.findKey key value comparator < page.size ∧
      comparator (page.keyAt (page.findKey key value comparator)) key = 0 := by
  obtain ⟨i, hi, heq⟩ := hholds
  obtain ⟨pos, hpos⟩ : ∃ pos, (List.range page.size).find?
      (fun i => decide (comparator (page.keyAt i) key = 0)) = some pos :=
    Option.isSome_iff_exists.mp
      (List.find?_isSome.mpr ⟨i, List.mem_range.mpr hi, decide_eq_true heq⟩)
  have heq' := List.find?_some hpos
  rw [findKey, hpos, Option.getD_some]
  exact ⟨List.mem_range.mp (List.mem_of_find?_eq_some hpos), of_decide_eq_true heq'⟩

/-- With an entry behind the one to go, `DeleteKey` does not return. -/
theorem deleteKey_of_gap {value : Value}
    (hgap : page.findKey key value comparator + 1 < page.size) :
    page.deleteKey key value comparator = .error .beforeFirst := by
  rw [deleteKey, if_neg (Nat.lt_of_succ_lt hgap).ne, closeGap_of_lt page.array hgap]
  rfl

theorem deleteKey_of_no_gap {value : Value}
    (hlast : page.findKey key value comparator + 1 = page.size) :
    page.deleteKey key value comparator = .ok (true, { page with size := page.size - 1 }) := by
  have hne : page.findKey key value comparator ≠ page.size := by omega
  rw [deleteKey, if_neg hne, closeGap_of_le page.array hlast.ge]
  rfl

theorem index_unique (horder : comparator.IsOrder)
    (hsorted : StrictlySorted comparator page.entries) {i j : ℕ} (hi : i < page.size)
    (hj : j < page.size) (hieq : comparator (page.keyAt i) key = 0)
    (hjeq : comparator (page.keyAt j) key = 0) : i = j := by
  rcases Nat.lt_trichotomy i j with hlt | heq | hgt
  · have := horder.lt_of_lt_of_le (keyAt_lt hsorted hlt hj) hjeq.le
    omega
  · exact heq
  · have := horder.lt_of_lt_of_le (keyAt_lt hsorted hgt hi) hieq.le
    omega

theorem deletes_of_absent (value : Value)
    (habsent : ¬ page.Holds comparator key) : page.Deletes comparator key value := by
  refine ⟨false, page, ?_, by simpa using habsent, fun h => absurd h Bool.false_ne_true,
    fun _ => rfl⟩
  simp [deleteKey, findKey_of_absent value habsent]

theorem deletes_of_last (horder : comparator.IsOrder)
    (hsorted : StrictlySorted comparator page.entries) (value : Value)
    (hsize : 0 < page.size) (hlast : comparator (page.keyAt (page.size - 1)) key = 0) :
    page.Deletes comparator key value := by
  have hholds : page.Holds comparator key := ⟨page.size - 1, by omega, hlast⟩
  obtain ⟨hlt, heq⟩ := findKey_of_holds value hholds
  have hpos : page.findKey key value comparator = page.size - 1 :=
    index_unique horder hsorted hlt (by omega) heq hlast
  refine ⟨true, { page with size := page.size - 1 }, deleteKey_of_no_gap (by omega),
    by simpa using hholds, fun _ => ⟨⟨usedEntries page.array (page.size - 1),
      page.array (page.size - 1), [], ?_, hlast, by rw [List.append_nil, entries]⟩, rfl⟩,
    fun h => absurd h.symm Bool.false_ne_true⟩
  obtain ⟨count, hcount⟩ : ∃ count, page.size = count + 1 := ⟨page.size - 1, by omega⟩
  rw [entries, hcount, usedEntries, List.range_succ, List.map_append]
  rfl

/-- On a strictly sorted leaf, `DeleteKey` does its work if and only if the key is absent
or that of the last entry. -/
theorem deleteKey_correct_iff (horder : comparator.IsOrder) (page : LeafPage Key Value)
    (hsorted : StrictlySorted comparator page.entries) (key : Key) (value : Value) :
    page.Deletes comparator key value ↔
      ¬ page.Holds comparator key ∨
        0 < page.size ∧ comparator (page.keyAt (page.size - 1)) key = 0 := by
  constructor
  · rintro ⟨found, next, hdelete, -, -, -⟩
    by_cases hholds : page.Holds comparator key
    · right
      obtain ⟨hlt, heq⟩ := findKey_of_holds value hholds
      -- the loop must not have started
      have hge : page.size ≤ page.findKey key value comparator + 1 := by
        by_contra hgap
        rw [deleteKey_of_gap (not_le.mp hgap)] at hdelete
        cases hdelete
      have hlast : page.findKey key value comparator = page.size - 1 := by omega
      exact ⟨by omega, hlast ▸ heq⟩
    · exact Or.inl hholds
  · rintro (habsent | ⟨hsize, hlast⟩)
    · exact deletes_of_absent value habsent
    · exact deletes_of_last horder hsorted value hsize hlast

def intComparator : KeyComparator ℤ := fun a b => if a < b then -1 else if b < a then 1 else 0

theorem intComparator_isOrder : intComparator.IsOrder where
  neg_iff a b := by unfold intComparator; split_ifs <;> omega
  trans a b c := by unfold intComparator; split_ifs <;> omega

def leafOfTwo : LeafPage ℤ ℕ where
  size := 2
  maxSize := 3
  parentPageId := invalidPageId
  pageId := 1
  nextPageId := invalidPageId
  array := fun i => if i = 0 then (1, 10) else (2, 20)

theorem deleteKey_correct_iff_leafOfTwo :
    leafOfTwo.Deletes intComparator 2 20 ↔
      ¬ leafOfTwo.Holds intComparator 2 ∨
        0 < leafOfTwo.size ∧ intComparator (leafOfTwo.keyAt (leafOfTwo.size - 1)) 2 = 0 :=
  deleteKey_correct_iff intComparator_isOrder leafOfTwo
    (by simp [StrictlySorted, entries, usedEntries, leafOfTwo, intComparator,
      List.range_succ]) 2 20

/-- Deleting the first of two entries runs into the memory before the array. -/
theorem deleteKey_leafOfTwo :
    leafOfTwo.deleteKey 1 10 intComparator = .error .beforeFirst ∧
      leafOfTwo.Holds intComparator 1 ∧ ¬ leafOfTwo.Deletes intComparator 1 10 := by
  have hdelete : leafOfTwo.deleteKey 1 10 intComparator = .error .beforeFirst :=
    deleteKey_of_gap (by decide)
  refine ⟨hdelete, ⟨0, by decide, by decide⟩, ?_⟩
  rintro ⟨found, next, hok, -⟩
  cases hok

end LeafPage

end BusTub
