import Mathlib.Data.Int.CardIntervalMod
import Mathlib.Data.Nat.Bitwise
import Mathlib.Algebra.Order.Group.Nat

/-!
# Directories shared by suffix

A directory of `2 ^ g` entries sends an index to a block.  Every block has a depth `d ≤ g`, and
two indices share a block exactly when they agree modulo `2 ^ d`, that is on their low `d` bits.
This is the sharing pattern of extendible hashing, and it is stated here for any type of blocks.

Two operations keep the pattern: doubling the directory and splitting one block on its next bit.
`Shared.card_slot` counts the entries of a block.
-/

namespace SuffixDirectory

variable {Block : Type*} {depth : Block → ℕ} {slot : ℕ → Block} {g : ℕ}

/-- The first `2 ^ g` entries of `slot` are shared by low bits, each block with
its own number of bits. -/
structure Shared (depth : Block → ℕ) (slot : ℕ → Block) (g : ℕ) : Prop where
  depth_le : ∀ i < 2 ^ g, depth (slot i) ≤ g
  slot_eq_iff : ∀ i < 2 ^ g, ∀ j < 2 ^ g,
    slot i = slot j ↔ i % 2 ^ depth (slot i) = j % 2 ^ depth (slot i)

theorem Shared.congr {slot' : ℕ → Block} (h : Shared depth slot g)
    (hslot : ∀ i < 2 ^ g, slot' i = slot i) : Shared depth slot' g := by
  constructor
  · intro i hi
    rw [hslot i hi]
    exact h.depth_le i hi
  · intro i hi j hj
    rw [hslot i hi, hslot j hj]
    exact h.slot_eq_iff i hi j hj

/-! ## One more low bit -/

theorem mod_two_pow_succ_eq_iff {i j d : ℕ} (hlow : i % 2 ^ d = j % 2 ^ d) :
    i % 2 ^ (d + 1) = j % 2 ^ (d + 1) ↔ i.testBit d = j.testBit d := by
  rw [Nat.mod_pow_succ, Nat.mod_pow_succ, hlow, Nat.add_left_cancel_iff,
    Nat.mul_right_inj (Nat.two_pow_pos d).ne', Nat.testBit_eq_decide_div_mod_eq,
    Nat.testBit_eq_decide_div_mod_eq, decide_eq_decide]
  omega

theorem mod_two_pow_eq_of_le {i j d e : ℕ} (hle : d ≤ e) (h : i % 2 ^ e = j % 2 ^ e) :
    i % 2 ^ d = j % 2 ^ d := by
  have hdvd : 2 ^ d ∣ 2 ^ e := pow_dvd_pow 2 hle
  rw [← Nat.mod_mod_of_dvd i hdvd, h, Nat.mod_mod_of_dvd j hdvd]

theorem Shared.slot_mod (h : Shared depth slot g) {i : ℕ} (hi : i < 2 ^ g) :
    slot (i % 2 ^ depth (slot i)) = slot i := by
  have hlt : i % 2 ^ depth (slot i) < 2 ^ g := (Nat.mod_le _ _).trans_lt hi
  exact ((h.slot_eq_iff i hi _ hlt).mpr (Nat.mod_mod _ _).symm).symm

/-! ## Doubling -/

/-- Repeating a directory adds an index bit that no block looks at. -/
theorem Shared.double (h : Shared depth slot g) :
    Shared depth (fun i => slot (i % 2 ^ g)) (g + 1) := by
  have hlt : ∀ i, i % 2 ^ g < 2 ^ g := fun i => Nat.mod_lt _ (Nat.two_pow_pos g)
  constructor
  · intro i _
    exact (h.depth_le _ (hlt i)).trans (Nat.le_succ g)
  · intro i _ j _
    have hdvd : 2 ^ depth (slot (i % 2 ^ g)) ∣ 2 ^ g := pow_dvd_pow 2 (h.depth_le _ (hlt i))
    rw [h.slot_eq_iff _ (hlt i) _ (hlt j), Nat.mod_mod_of_dvd _ hdvd, Nat.mod_mod_of_dvd _ hdvd]

/-! ## Splitting -/

section Split

variable [DecidableEq Block]

/-- The directory after the entries of `old` with bit `d` set go to `new`. -/
def splitSlot (slot : ℕ → Block) (old new : Block) (d i : ℕ) : Block :=
  if slot i = old ∧ i.testBit d then new else slot i

/-- The depths after `old` was split off `new`. -/
def splitDepth (depth : Block → ℕ) (old new : Block) : Block → ℕ :=
  Function.update (Function.update depth old (depth old + 1)) new (depth old + 1)

theorem splitDepth_old {old new : Block} (hne : old ≠ new) :
    splitDepth depth old new old = depth old + 1 := by
  simp [splitDepth, Function.update_of_ne hne]

@[simp] theorem splitDepth_new (old new : Block) :
    splitDepth depth old new new = depth old + 1 := by
  simp [splitDepth]

theorem splitDepth_of_ne {old new block : Block} (hold : block ≠ old) (hnew : block ≠ new) :
    splitDepth depth old new block = depth block := by
  simp [splitDepth, Function.update_of_ne hnew, Function.update_of_ne hold]

theorem splitSlot_of_ne {old new : Block} {d i : ℕ} (h : slot i ≠ old) :
    splitSlot slot old new d i = slot i := by
  simp [splitSlot, h]

theorem splitSlot_of_eq {old new : Block} {d i : ℕ} (h : slot i = old) :
    splitSlot slot old new d i = if i.testBit d then new else old := by
  simp [splitSlot, h]

theorem splitDepth_splitSlot {old new : Block} (hne : old ≠ new) {d i : ℕ} (h : slot i = old) :
    splitDepth depth old new (splitSlot slot old new d i) = depth old + 1 := by
  rw [splitSlot_of_eq h]
  split
  · exact splitDepth_new old new
  · exact splitDepth_old hne

/-- **Splitting keeps the sharing pattern.**  The new block must not be in use,
and the split block must have an index bit left to split on. -/
theorem Shared.split (h : Shared depth slot g) {old new : Block} (hfresh : ∀ i, slot i ≠ new)
    (hdepth : depth old < g) (hold : ∃ i, slot i = old) :
    Shared (splitDepth depth old new) (splitSlot slot old new (depth old)) g := by
  have hne : old ≠ new := by
    obtain ⟨i, rfl⟩ := hold
    exact hfresh i
  constructor
  · intro i hi
    by_cases hslot : slot i = old
    · rw [splitDepth_splitSlot hne hslot]
      exact hdepth
    · rw [splitSlot_of_ne hslot, splitDepth_of_ne hslot (hfresh i)]
      exact h.depth_le i hi
  · intro i hi j hj
    by_cases hsi : slot i = old
    · rw [splitDepth_splitSlot hne hsi]
      by_cases hsj : slot j = old
      · -- both entries were the split block's: its next bit decides
        have hlow : i % 2 ^ depth old = j % 2 ^ depth old := by
          have := (h.slot_eq_iff i hi j hj).mp (hsi.trans hsj.symm)
          rwa [hsi] at this
        rw [mod_two_pow_succ_eq_iff hlow, splitSlot_of_eq hsi, splitSlot_of_eq hsj]
        cases i.testBit (depth old) <;> cases j.testBit (depth old) <;> simp [hne, hne.symm]
      · have hsplit : splitSlot slot old new (depth old) i ≠ slot j := by
          rw [splitSlot_of_eq hsi]
          split
          · exact (hfresh j).symm
          · exact Ne.symm hsj
        have hmod : i % 2 ^ (depth old + 1) ≠ j % 2 ^ (depth old + 1) := by
          intro heq
          have hlow := mod_two_pow_eq_of_le (Nat.le_succ (depth old)) heq
          exact hsj (((h.slot_eq_iff i hi j hj).mpr (by rwa [hsi])).symm.trans hsi)
        rw [splitSlot_of_ne hsj]
        exact iff_of_false hsplit hmod
    · rw [splitSlot_of_ne hsi, splitDepth_of_ne hsi (hfresh i), ← h.slot_eq_iff i hi j hj]
      by_cases hsj : slot j = old
      · rw [splitSlot_of_eq hsj, hsj]
        split
        · exact iff_of_false (hfresh i) hsi
        · rfl
      · rw [splitSlot_of_ne hsj]

/-- After a split, the old block and the new one are both in use, and so is
every block that was. -/
theorem Shared.exists_splitSlot (h : Shared depth slot g) {old new : Block}
    (hdepth : depth old < g) (hold : ∃ i < 2 ^ g, slot i = old) :
    ∀ block, (block = new ∨ ∃ i < 2 ^ g, slot i = block) →
      ∃ i < 2 ^ g, splitSlot slot old new (depth old) i = block := by
  obtain ⟨i, hi, rfl⟩ := hold
  have hlow : i % 2 ^ depth (slot i) < 2 ^ depth (slot i) := Nat.mod_lt _ (Nat.two_pow_pos _)
  have hpow : 2 ^ (depth (slot i) + 1) ≤ 2 ^ g := Nat.pow_le_pow_right (by omega) hdepth
  have hslot := h.slot_mod hi
  have hzero : i % 2 ^ depth (slot i) < 2 ^ g := (Nat.mod_le _ _).trans_lt hi
  rintro block (rfl | ⟨j, hj, rfl⟩)
  · -- the low bits of the old block's indices with the split bit set
    have hone : i % 2 ^ depth (slot i) + 2 ^ depth (slot i) < 2 ^ g := by
      omega
    refine ⟨_, hone, ?_⟩
    have hsame : slot (i % 2 ^ depth (slot i) + 2 ^ depth (slot i)) = slot i := by
      refine ((h.slot_eq_iff i hi _ hone).mpr ?_).symm
      rw [Nat.add_mod_right, Nat.mod_mod]
    rw [splitSlot_of_eq hsame, if_pos]
    rw [Nat.add_comm, Nat.testBit_two_pow_add_eq, Nat.testBit_lt_two_pow hlow]
    rfl
  · by_cases hsj : slot j = slot i
    · refine ⟨_, hzero, ?_⟩
      rw [splitSlot_of_eq hslot, if_neg, hsj]
      rw [Nat.testBit_lt_two_pow hlow]
      exact Bool.false_ne_true
    · exact ⟨j, hj, splitSlot_of_ne hsj⟩

end Split

/-! ## Counting -/

theorem Shared.card_slot [DecidableEq Block] (h : Shared depth slot g) {i : ℕ} (hi : i < 2 ^ g) :
    ((Finset.range (2 ^ g)).filter fun j => slot j = slot i).card = 2 ^ (g - depth (slot i)) := by
  have hcongr : ((Finset.range (2 ^ g)).filter fun j => slot j = slot i) =
      (Finset.range (2 ^ g)).filter fun j => j ≡ i [MOD 2 ^ depth (slot i)] := by
    refine Finset.filter_congr fun j hj => ?_
    rw [eq_comm, h.slot_eq_iff i hi j (Finset.mem_range.mp hj), eq_comm]
    rfl
  have hdvd : 2 ^ g % 2 ^ depth (slot i) = 0 :=
    Nat.mod_eq_zero_of_dvd (pow_dvd_pow 2 (h.depth_le i hi))
  rw [hcongr, ← Nat.count_eq_card_filter_range,
    Nat.count_modEq_card (2 ^ g) (Nat.two_pow_pos _) i, hdvd, if_neg (Nat.not_lt_zero _),
    Nat.add_zero, Nat.pow_div (h.depth_le i hi) (by omega)]

end SuffixDirectory
