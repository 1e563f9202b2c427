import BusTub.Storage.BPlusTreePage
import Mathlib.Data.List.Basic
import Mathlib.Tactic.Basic
import Mathlib.Order.Basic

/-!
# The used entries of a page

A page uses the first `size_` entries of its array.  Statements about pages are made
about the list of these entries, and this file says what the array operations of the
pages do to that list: `std::move_backward` with a write behind it is an insertion,
`std::copy` to another array is a suffix, and a smaller size is a prefix.

`std::lower_bound` finds the partition point of a range, provided that the range is
partitioned.  Strictly sorted entries are, for every comparator that is an order.
-/

namespace BusTub

/-! ## Arrays as lists -/

section Arrays

variable {Entry : Type*} {array : ℕ → Entry} {size : ℕ}

def usedEntries (array : ℕ → Entry) (size : ℕ) : List Entry := (List.range size).map array

@[simp] theorem length_usedEntries (array : ℕ → Entry) (size : ℕ) :
    (usedEntries array size).length = size := by simp [usedEntries]

@[simp] theorem getElem_usedEntries (array : ℕ → Entry) (size : ℕ) {i : ℕ}
    (h : i < (usedEntries array size).length) : (usedEntries array size)[i] = array i := by
  simp [usedEntries]

theorem getElem?_usedEntries {i : ℕ} (h : i < size) :
    (usedEntries array size)[i]? = some (array i) := by
  simp [usedEntries, h]

theorem mem_usedEntries {entry : Entry} :
    entry ∈ usedEntries array size ↔ ∃ i < size, array i = entry := by
  simp [usedEntries]

theorem usedEntries_congr {other : ℕ → Entry} (h : ∀ i < size, array i = other i) :
    usedEntries array size = usedEntries other size :=
  List.map_congr_left fun i hi => h i (List.mem_range.mp hi)

theorem take_usedEntries {count : ℕ} (h : count ≤ size) :
    (usedEntries array size).take count = usedEntries array count := by
  apply List.ext_getElem
  · simp [h]
  · intro i _ _
    simp

theorem usedEntries_copyRange (source target : ℕ → Entry) (first last : ℕ) :
    usedEntries (copyRange source first last target 0) (last - first) =
      (usedEntries source last).drop first := by
  apply List.ext_getElem
  · simp
  · intro i hi _
    rw [length_usedEntries] at hi
    simp [copyRange, hi]

theorem usedEntries_insert {index : ℕ} (h : index ≤ size) (entry : Entry) :
    usedEntries (Function.update (moveBackward array index size) index entry) (size + 1) =
      (usedEntries array size).take index ++ entry :: (usedEntries array size).drop index := by
  apply List.ext_getElem
  · simp only [length_usedEntries, List.length_append, List.length_take, List.length_cons,
      List.length_drop]
    omega
  · intro i hi _
    rw [length_usedEntries] at hi
    rw [getElem_usedEntries]
    -- before, at and behind the new entry
    rcases Nat.lt_trichotomy i index with hlt | rfl | hgt
    · rw [Function.update_of_ne hlt.ne, List.getElem_append_left (by simp; omega)]
      simp [moveBackward, hlt.le]
    · rw [Function.update_self, List.getElem_append_right (by simp)]
      simp [h]
    · rw [Function.update_of_ne hgt.ne', List.getElem_append_right (by simp; omega)]
      obtain ⟨j, rfl⟩ : ∃ j, i = index + j + 1 := ⟨i - index - 1, by omega⟩
      have hindex : index + j + 1 - min index size = j + 1 := by omega
      simp only [moveBackward, List.length_take, length_usedEntries, hindex,
        List.getElem_cons_succ, List.getElem_drop, getElem_usedEntries]
      rw [if_pos ⟨hgt, by omega⟩]
      congr 1

theorem usedEntries_push (entry : Entry) :
    usedEntries (Function.update array size entry) (size + 1) =
      usedEntries array size ++ [entry] := by
  rw [usedEntries, List.range_succ, List.map_append]
  congr 1
  · exact usedEntries_congr fun i hi => Function.update_of_ne hi.ne _ _
  · simp

end Arrays

/-! ## Binary search -/

structure PartitionPoint (below : ℕ → Bool) (first last point : ℕ) : Prop where
  first_le : first ≤ point
  le_last : point ≤ last
  below_before : ∀ i, first ≤ i → i < point → below i = true
  not_below_from : ∀ i, point ≤ i → i < last → below i = false

/-- `std::lower_bound` on a range in which everything before a place that is below is
below, too. -/
theorem lowerBound_partitionPoint (below : ℕ → Bool) {rounds : ℕ} :
    ∀ first length : ℕ, length ≤ rounds →
      (∀ i j, first ≤ i → i ≤ j → j < first + length → below j = true → below i = true) →
      PartitionPoint below first (first + length) (lowerBound below rounds first length) := by
  induction rounds with
  | zero =>
    intro first length hlength _
    obtain rfl : length = 0 := by omega
    simp only [lowerBound]
    exact ⟨le_rfl, le_rfl, fun i _ _ => by omega, fun i _ _ => by omega⟩
  | succ rounds ih =>
    intro first length hlength hdown
    simp only [lowerBound]
    split
    · next hzero =>
      exact ⟨le_rfl, by omega, fun i _ _ => by omega, fun i _ _ => by omega⟩
    · next hne =>
      split
      · next hbelow =>
        -- the middle is below: everything up to it is, and the search goes on behind it
        have hrest := ih (first + length / 2 + 1) (length - length / 2 - 1) (by omega)
          fun i j hi hij hj => hdown i j (by omega) hij (by omega)
        have hlast : first + length / 2 + 1 + (length - length / 2 - 1) = first + length := by
          omega
        rw [hlast] at hrest
        refine ⟨by have := hrest.first_le; omega, hrest.le_last, fun i hi hlt => ?_,
          hrest.not_below_from⟩
        rcases Nat.lt_or_ge (first + length / 2) i with hgt | hle
        · exact hrest.below_before i (by omega) hlt
        · exact hdown i _ hi hle (by omega) hbelow
      · next hbelow =>
        -- the middle is not below: neither is anything behind it
        have hrest := ih first (length / 2) (by omega)
          fun i j hi hij hj => hdown i j hi hij (by omega)
        refine ⟨hrest.first_le, by have := hrest.le_last; omega, hrest.below_before,
          fun i hi hlt => ?_⟩
        rcases Nat.lt_or_ge i (first + length / 2) with hlt' | hge
        · exact hrest.not_below_from i hi hlt'
        · by_contra htrue
          rw [Bool.not_eq_false] at htrue
          exact hbelow (hdown _ i (by omega) hge hlt htrue)

/-! ## Comparators -/

/-- The comparator is a total order, up to keys that compare equal. -/
structure KeyComparator.IsOrder {Key : Type} (comparator : KeyComparator Key) : Prop where
  neg_iff : ∀ a b, comparator a b < 0 ↔ 0 < comparator b a
  trans : ∀ a b c, comparator a b ≤ 0 → comparator b c ≤ 0 → comparator a c ≤ 0

namespace KeyComparator.IsOrder

variable {Key : Type} {comparator : KeyComparator Key} {a b c : Key}

theorem nonneg_iff (horder : comparator.IsOrder) : 0 ≤ comparator a b ↔ comparator b a ≤ 0 := by
  have := horder.neg_iff a b
  omega

theorem lt_of_lt_of_le (horder : comparator.IsOrder) (hab : comparator a b < 0)
    (hbc : comparator b c ≤ 0) : comparator a c < 0 := by
  by_contra hac
  have hca : comparator c a ≤ 0 := horder.nonneg_iff.mp (not_lt.mp hac)
  have hba : comparator b a ≤ 0 := horder.trans b c a hbc hca
  exact absurd ((horder.neg_iff a b).mp hab) (not_lt.mpr hba)

end KeyComparator.IsOrder

def StrictlySorted {Key Value : Type} (comparator : KeyComparator Key)
    (entries : List (Key × Value)) : Prop :=
  entries.Pairwise fun entry other => comparator entry.1 other.1 < 0

theorem StrictlySorted.insert {Key Value : Type} {comparator : KeyComparator Key}
    (horder : comparator.IsOrder) {front back : List (Key × Value)} {key : Key} (value : Value)
    (hsorted : StrictlySorted comparator (front ++ back))
    (hfront : ∀ entry ∈ front, comparator entry.1 key < 0)
    (hback : ∀ entry ∈ back, comparator key entry.1 < 0) :
    StrictlySorted comparator (front ++ (key, value) :: back) := by
  obtain ⟨hleft, hright, -⟩ := List.pairwise_append.mp hsorted
  refine List.pairwise_append.mpr ⟨hleft, List.pairwise_cons.mpr ⟨hback, hright⟩, ?_⟩
  intro entry hentry other hother
  rcases List.mem_cons.mp hother with rfl | hother
  · exact hfront entry hentry
  · exact horder.lt_of_lt_of_le (hfront entry hentry) (hback other hother).le

end BusTub
