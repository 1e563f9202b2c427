import Mathlib.Logic.Function.Basic
import Mathlib.Tactic.Common

/-!
# Abstract pages

A page is, for its users, a map from slots to tuples, each marked as deleted or not,
together with a bound on the space.  `SlotMap` is this abstract page with its five
operations.  An operation that the page refuses has no result; the inversion lemmas say
what each operation needs and what it leaves.
-/

namespace BusTub

/-- A tuple in a page: its bytes, and whether it is marked as deleted. -/
structure Stored where
  bytes : List UInt8
  marked : Bool
deriving DecidableEq

/-- An abstract page: what its slots hold, how many slots there are, and where the
tuples start. -/
structure SlotMap where
  pointer : ℕ
  count : ℕ
  contents : ℕ → Option Stored

namespace SlotMap

/-- The page after something is stored in a slot, or after the slot is emptied. -/
def set (page : SlotMap) (slot : ℕ) (stored : Option Stored) : SlotMap :=
  { page with contents := Function.update page.contents slot stored }

def freeSlot (page : SlotMap) : ℕ :=
  ((List.range page.count).find? fun slot => (page.contents slot).isNone).getD page.count

/-- The page with a new tuple and its slot, if the tuple and a new slot have room. -/
def insert (page : SlotMap) (bytes : List UInt8) : Option (ℕ × SlotMap) :=
  if 32 + 8 * page.count + bytes.length ≤ page.pointer then
    some (page.freeSlot, { page.set page.freeSlot (some ⟨bytes, false⟩) with
      pointer := page.pointer - bytes.length
      count := if page.freeSlot = page.count then page.count + 1 else page.count })
  else none

/-- The page with the tuple of a slot marked, if it is there and not marked. -/
def mark (page : SlotMap) (slot : ℕ) : Option SlotMap :=
  match page.contents slot with
  | some ⟨bytes, false⟩ => some (page.set slot (some ⟨bytes, true⟩))
  | _ => none

/-- The page with another tuple in a slot, and the tuple that was there, if there is one
that is not marked and the new one has room. -/
def update (page : SlotMap) (slot : ℕ) (bytes : List UInt8) : Option (List UInt8 × SlotMap) :=
  match page.contents slot with
  | some ⟨old, false⟩ =>
    if 24 + 8 * page.count + bytes.length ≤ page.pointer + old.length then
      some (old, { page.set slot (some ⟨bytes, false⟩) with
        pointer := page.pointer + old.length - bytes.length })
    else none
  | _ => none

def remove (page : SlotMap) (slot : ℕ) : Option SlotMap :=
  match page.contents slot with
  | some stored =>
    some { page.set slot none with pointer := page.pointer + stored.bytes.length }
  | none => none

def unmark (page : SlotMap) (slot : ℕ) : SlotMap :=
  page.set slot ((page.contents slot).map fun stored => { stored with marked := false })

def live (page : SlotMap) (slot : ℕ) : Option (List UInt8) :=
  match page.contents slot with
  | some ⟨bytes, false⟩ => some bytes
  | _ => none

/-! Each operation of an abstract page, by what it needs and what it leaves. -/

section Inversion

variable {page after : SlotMap} {slot : ℕ} {bytes old : List UInt8}

theorem insert_eq_none_iff :
    page.insert bytes = none ↔ page.pointer < 32 + 8 * page.count + bytes.length := by
  unfold insert
  by_cases hroom : 32 + 8 * page.count + bytes.length ≤ page.pointer
  · rw [if_pos hroom]
    exact ⟨fun h => (nomatch h), fun hfull => absurd hroom (by omega)⟩
  · simp only [if_neg hroom, true_iff]
    omega

theorem insert_eq_some_iff :
    page.insert bytes = some (slot, after) ↔
      32 + 8 * page.count + bytes.length ≤ page.pointer ∧ slot = page.freeSlot ∧
        after = { page.set slot (some ⟨bytes, false⟩) with
          pointer := page.pointer - bytes.length
          count := if slot = page.count then page.count + 1 else page.count } := by
  unfold insert
  by_cases hroom : 32 + 8 * page.count + bytes.length ≤ page.pointer
  · rw [if_pos hroom, Option.some.injEq, Prod.mk.injEq]
    constructor
    · rintro ⟨rfl, rfl⟩
      exact ⟨hroom, rfl, rfl⟩
    · rintro ⟨_, rfl, rfl⟩
      exact ⟨rfl, rfl⟩
  · rw [if_neg hroom]
    exact ⟨fun h => (nomatch h), fun h => absurd h.1 hroom⟩

theorem mark_eq_some_iff :
    page.mark slot = some after ↔
      ∃ bytes, page.contents slot = some ⟨bytes, false⟩ ∧
        after = page.set slot (some ⟨bytes, true⟩) := by
  unfold mark
  split
  · next bytes hcontents =>
      simp only [hcontents, Option.some.injEq, Stored.mk.injEq, and_true, exists_eq_left']
      exact eq_comm
  · next hother =>
      simp only [reduceCtorEq, false_iff, not_exists, not_and]
      exact fun bytes hcontents => absurd hcontents (hother bytes)

theorem mark_eq_none_iff :
    page.mark slot = none ↔ ∀ bytes, page.contents slot ≠ some ⟨bytes, false⟩ := by
  rw [← Option.not_isSome_iff_eq_none, Option.isSome_iff_exists]
  simp only [mark_eq_some_iff, not_exists, not_and]
  constructor
  · exact fun h bytes hcontents => h _ bytes hcontents rfl
  · exact fun h _ bytes hcontents => absurd hcontents (h bytes)

theorem update_eq_some_iff :
    page.update slot bytes = some (old, after) ↔
      page.contents slot = some ⟨old, false⟩ ∧
        24 + 8 * page.count + bytes.length ≤ page.pointer + old.length ∧
        after = { page.set slot (some ⟨bytes, false⟩) with
          pointer := page.pointer + old.length - bytes.length } := by
  unfold update
  split
  · next stored hcontents =>
      split_ifs with hroom
      · simp only [hcontents, Option.some.injEq, Prod.mk.injEq, Stored.mk.injEq, and_true]
        constructor
        · rintro ⟨rfl, rfl⟩
          exact ⟨rfl, hroom, rfl⟩
        · rintro ⟨rfl, _, rfl⟩
          exact ⟨rfl, rfl⟩
      · simp only [hcontents, Option.some.injEq, Stored.mk.injEq, and_true, false_iff, not_and]
        rintro rfl hfits
        exact absurd hfits hroom
  · next hother =>
      simp only [reduceCtorEq, false_iff, not_and]
      exact fun hcontents => absurd hcontents (hother old)

theorem update_eq_none_iff :
    page.update slot bytes = none ↔ ∀ old, page.contents slot = some ⟨old, false⟩ →
      page.pointer + old.length < 24 + 8 * page.count + bytes.length := by
  rw [← Option.not_isSome_iff_eq_none, Option.isSome_iff_exists]
  simp only [Prod.exists, update_eq_some_iff, not_exists, not_and]
  constructor
  · intro h old hcontents
    by_contra hroom
    exact h old _ hcontents (by omega) rfl
  · intro h old _ hcontents hroom
    have := h old hcontents
    omega

theorem remove_eq_some_iff :
    page.remove slot = some after ↔
      ∃ stored, page.contents slot = some stored ∧
        after = { page.set slot none with pointer := page.pointer + stored.bytes.length } := by
  unfold remove
  cases hcontents : page.contents slot with
  | none => simp only [reduceCtorEq, false_and, exists_false]
  | some stored =>
    simp only [Option.some.injEq, exists_eq_left']
    exact eq_comm

theorem unmark_eq_self (h : ∀ stored, page.contents slot = some stored → stored.marked = false) :
    page.unmark slot = page := by
  have hsame : ((page.contents slot).map fun stored => { stored with marked := false }) =
      page.contents slot := by
    cases hcontents : page.contents slot with
    | none => rfl
    | some stored =>
      rw [Option.map_some, ← h stored hcontents]
  rw [unmark, set, hsame, Function.update_eq_self]

end Inversion

end SlotMap

end BusTub
