import Mathlib.Logic.Function.Basic
import Mathlib.Tactic.Common

/-!
# Heaps of objects

A heap holds objects at addresses, and `alloc` takes an address that was never used before.
A heap `Extends` another one if every object that was there is still there, unchanged; this is
all that a proof about code which only allocates has to know.

Where objects are freed, an address may be `Freed`: it was handed out once and holds nothing any
more.  It stays so, whatever is done to the heap.
-/

namespace ObjectHeap

/-- Objects at addresses; the addresses from `next` on have not been handed out. -/
structure Heap (Object : Type*) where
  objects : ℕ → Option Object
  next : ℕ
  fresh : ∀ address, next ≤ address → objects address = none

namespace Heap

variable {Object : Type*} {heap first second third : Heap Object} {address other : ℕ}
  {object : Object}

def get? (heap : Heap Object) (address : ℕ) : Option Object := heap.objects address

/-- A heap without objects. -/
def empty : Heap Object := ⟨fun _ => none, 0, fun _ _ => rfl⟩

def alloc (heap : Heap Object) (object : Object) : ℕ × Heap Object :=
  (heap.next,
    { objects := Function.update heap.objects heap.next (some object)
      next := heap.next + 1
      fresh := fun address hle => by
        rw [Function.update_of_ne (by omega)]
        exact heap.fresh address (by omega) })

def modify (heap : Heap Object) (address : ℕ) (change : Object → Object) : Heap Object where
  objects := Function.update heap.objects address ((heap.objects address).map change)
  next := heap.next
  fresh := fun other hle => by
    by_cases hother : other = address
    · subst hother
      rw [Function.update_self, heap.fresh other hle, Option.map_none]
    · rw [Function.update_of_ne hother]
      exact heap.fresh other hle

def free (heap : Heap Object) (address : ℕ) : Heap Object where
  objects := Function.update heap.objects address none
  next := heap.next
  fresh := fun other hle => by
    by_cases hother : other = address
    · rw [hother, Function.update_self]
    · rw [Function.update_of_ne hother]
      exact heap.fresh other hle

theorem lt_next (h : heap.get? address = some object) : address < heap.next := by
  by_contra hge
  rw [get?, heap.fresh address (by omega)] at h
  cases h

@[simp] theorem get?_alloc_self (heap : Heap Object) (object : Object) :
    (heap.alloc object).2.get? (heap.alloc object).1 = some object :=
  Function.update_self ..

theorem get?_alloc_of_ne (hne : address ≠ heap.next) :
    (heap.alloc object).2.get? address = heap.get? address :=
  Function.update_of_ne hne ..

@[simp] theorem get?_modify_self (heap : Heap Object) (address : ℕ) (change : Object → Object) :
    (heap.modify address change).get? address = (heap.get? address).map change :=
  Function.update_self ..

theorem get?_modify_of_ne {change : Object → Object} (hne : other ≠ address) :
    (heap.modify address change).get? other = heap.get? other :=
  Function.update_of_ne hne ..

@[simp] theorem get?_free_self (heap : Heap Object) (address : ℕ) :
    (heap.free address).get? address = none :=
  Function.update_self ..

theorem get?_free_of_ne (hne : other ≠ address) :
    (heap.free address).get? other = heap.get? other :=
  Function.update_of_ne hne ..

/-! ## Freed addresses -/

def Freed (heap : Heap Object) (address : ℕ) : Prop :=
  address < heap.next ∧ heap.get? address = none

theorem freed_free (h : heap.get? address = some object) : (heap.free address).Freed address := by
  have hlt : address < heap.next := lt_next h
  exact ⟨hlt, get?_free_self heap address⟩

namespace Freed

theorem alloc (h : heap.Freed address) (object : Object) : (heap.alloc object).2.Freed address := by
  refine ⟨Nat.lt_succ_of_lt h.1, ?_⟩
  rw [get?_alloc_of_ne (Nat.ne_of_lt h.1), h.2]

theorem modify (h : heap.Freed address) (other : ℕ) (change : Object → Object) :
    (heap.modify other change).Freed address := by
  refine ⟨h.1, ?_⟩
  by_cases hother : address = other
  · rw [← hother, get?_modify_self, h.2, Option.map_none]
  · rw [get?_modify_of_ne hother, h.2]

theorem free (h : heap.Freed address) (other : ℕ) : (heap.free other).Freed address := by
  refine ⟨h.1, ?_⟩
  by_cases hother : address = other
  · rw [hother, get?_free_self]
  · rw [get?_free_of_ne hother, h.2]

end Freed

/-! ## Extensions -/

/-- Every object of the first heap is in the second one, unchanged. -/
def Extends (first second : Heap Object) : Prop :=
  ∀ address object, first.get? address = some object → second.get? address = some object

theorem Extends.refl (heap : Heap Object) : Extends heap heap := fun _ _ h => h

theorem Extends.trans (h : Extends first second) (h' : Extends second third) :
    Extends first third :=
  fun address object hobject => h' address object (h address object hobject)

theorem extends_alloc (heap : Heap Object) (object : Object) :
    Extends heap (heap.alloc object).2 := by
  intro address other hother
  rw [get?_alloc_of_ne (Nat.ne_of_lt (lt_next hother))]
  exact hother

end Heap

end ObjectHeap
