import Mathlib.Algebra.Order.Group.Int
import Mathlib.Tactic.Ring
import Mathlib.Tactic.Common

/-!
# Two's complement

A signed machine integer takes `modulus` many values, half of them negative, and
arithmetic on it is arithmetic of integers, cut by `Int.bmod`.  A number `Fits` if it is
not cut.  It is `Proper` if its negative fits as well, that is, if it is not the smallest
number either.

The results of the last sections are the classical tests for an overflow that look at the
result after it was cut: the sign of a sum or difference, and the quotient of a product.
For proper operands each of them answers exactly whether the exact result fits.
-/

namespace TwosComplement

variable {modulus : ℕ} {x y number : ℤ}

def Fits (modulus : ℕ) (number : ℤ) : Prop := -(modulus : ℤ) ≤ number * 2 ∧ number * 2 < modulus

/-- The numbers of a machine integer without the smallest one. -/
def Proper (modulus : ℕ) (number : ℤ) : Prop := -(modulus : ℤ) < number * 2 ∧ number * 2 < modulus

instance : Decidable (Fits modulus number) := inferInstanceAs (Decidable (_ ∧ _))

instance : Decidable (Proper modulus number) := inferInstanceAs (Decidable (_ ∧ _))

/-! ## The range -/

theorem Proper.fits (h : Proper modulus number) : Fits modulus number := ⟨h.1.le, h.2⟩

theorem proper_iff_fits : Proper modulus number ↔ Fits modulus number ∧ number * 2 ≠ -modulus := by
  unfold Proper Fits
  omega

theorem proper_iff_natAbs : Proper modulus number ↔ 2 * number.natAbs < modulus := by
  unfold Proper
  omega

theorem Fits.mono {wider : ℕ} (h : Fits modulus number) (hle : modulus ≤ wider) :
    Fits wider number := by
  unfold Fits at h ⊢
  omega

theorem Proper.mono {wider : ℕ} (h : Proper modulus number) (hle : modulus ≤ wider) :
    Proper wider number := by
  unfold Proper at h ⊢
  omega

theorem Proper.neg (h : Proper modulus number) : Proper modulus (-number) := by
  unfold Proper at h ⊢
  omega

theorem Proper.mul (hx : Proper modulus x) (hy : Proper modulus y) :
    Fits (modulus * modulus) (x * y) := by
  rw [proper_iff_natAbs] at hx hy
  have hmul : (x * y).natAbs * 4 ≤ modulus * modulus :=
    calc (x * y).natAbs * 4 = (2 * x.natAbs) * (2 * y.natAbs) := by rw [Int.natAbs_mul]; ring
      _ ≤ modulus * modulus := Nat.mul_le_mul hx.le hy.le
  have hpos : 0 < modulus * modulus := Nat.mul_pos (by omega) (by omega)
  unfold Fits
  omega

theorem fits_bmod (hpos : 0 < modulus) (number : ℤ) : Fits modulus (Int.bmod number modulus) := by
  have hlower := Int.le_bmod (x := number) hpos
  have hupper := Int.bmod_lt (x := number) hpos
  unfold Fits
  omega

theorem Fits.bmod_eq (h : Fits modulus number) : Int.bmod number modulus = number :=
  Int.bmod_eq_of_le_mul_two h.1 h.2

theorem bmod_eq_self_iff (hpos : 0 < modulus) :
    Int.bmod number modulus = number ↔ Fits modulus number :=
  ⟨fun heq => heq ▸ fits_bmod hpos number, Fits.bmod_eq⟩

theorem bmod_eq_of_dvd (hfits : Fits modulus y) (hdvd : (modulus : ℤ) ∣ x - y) :
    Int.bmod x modulus = y := by
  obtain ⟨count, hcount⟩ := hdvd
  have hx : x = y + modulus * count := by omega
  rw [hx, Int.add_mul_bmod_self_left, hfits.bmod_eq]

/-! ## Sums and differences -/

/-- Proper operands have an overflow exactly if they have one sign and the cut sum has the
other. -/
theorem add_overflows_iff (hx : Proper modulus x) (hy : Proper modulus y) :
    (0 < x ∧ 0 < y ∧ Int.bmod (x + y) modulus < 0) ∨
        (x < 0 ∧ y < 0 ∧ 0 < Int.bmod (x + y) modulus) ↔
      ¬ Fits modulus (x + y) := by
  by_cases hfits : Fits modulus (x + y)
  · rw [hfits.bmod_eq]
    refine iff_of_false ?_ (not_not_intro hfits)
    omega
  · refine iff_of_true ?_ hfits
    unfold Fits at hfits
    unfold Proper at hx hy
    -- the sum of two proper numbers is off by one modulus at most
    by_cases hpos : 0 < x + y
    · have hcut : Int.bmod (x + y) modulus = x + y - modulus :=
        bmod_eq_of_dvd (by unfold Fits; omega) ⟨1, by ring⟩
      omega
    · have hcut : Int.bmod (x + y) modulus = x + y + modulus :=
        bmod_eq_of_dvd (by unfold Fits; omega) ⟨-1, by ring⟩
      omega

theorem sub_overflows_iff (hx : Proper modulus x) (hy : Proper modulus y) :
    (0 < x ∧ y < 0 ∧ Int.bmod (x - y) modulus < 0) ∨
        (x < 0 ∧ 0 < y ∧ 0 < Int.bmod (x - y) modulus) ↔
      ¬ Fits modulus (x - y) := by
  have hadd := add_overflows_iff hx hy.neg
  rw [← Int.sub_eq_add_neg] at hadd
  rw [← hadd, Int.neg_pos, Int.neg_neg_iff_pos]

/-! ## Products and quotients -/

theorem Proper.tdiv (hx : Proper modulus x) (y : ℤ) : Proper modulus (x.tdiv y) := by
  rw [proper_iff_natAbs] at hx ⊢
  have hle := Int.natAbs_tdiv_le_natAbs x y
  omega

theorem Proper.tmod (hx : Proper modulus x) (y : ℤ) : Proper modulus (x.tmod y) := by
  rw [proper_iff_natAbs] at hx ⊢
  have hle : (x.tmod y).natAbs ≤ x.natAbs := by
    rw [Int.natAbs_tmod]
    exact Nat.mod_le _ _
  omega

theorem bmod_tdiv_eq_iff (hx : Proper modulus x) (hnumber : Fits modulus number) :
    Int.bmod (number.tdiv y) modulus = x ↔ number.tdiv y = x := by
  constructor
  · intro heq
    have hdvd : (modulus : ℤ) ∣ x - number.tdiv y := heq ▸ Int.dvd_bmod_sub_self
    have hle := Int.natAbs_tdiv_le_natAbs number y
    unfold Fits at hnumber
    unfold Proper at hx
    have hzero := Int.eq_zero_of_abs_lt_dvd hdvd (by rw [abs_lt]; omega)
    omega
  · rintro rfl
    exact hx.fits.bmod_eq

/-- Proper operands have an overflow exactly if the cut product, divided by one of them, is
not the other; the quotient may be computed in a wider integer. -/
theorem mul_overflows_iff {wider : ℕ} (hx : Proper modulus x) (hy : Proper modulus y)
    (hle : modulus ≤ wider) :
    y ≠ 0 ∧ Int.bmod ((Int.bmod (x * y) modulus).tdiv y) wider ≠ x ↔
      ¬ Fits modulus (x * y) := by
  have hpos : 0 < modulus := by
    unfold Proper at hx
    omega
  by_cases hzero : y = 0
  · subst hzero
    refine iff_of_false (fun h => h.1 rfl) (not_not_intro ?_)
    unfold Fits
    omega
  · simp only [ne_eq, hzero, not_false_eq_true, true_and, not_iff_not]
    rw [bmod_tdiv_eq_iff (hx.mono hle) ((fits_bmod hpos _).mono hle)]
    constructor
    · -- the cut product is off by less than `y`, and by a multiple of the modulus
      intro hdiv
      have hsplit := Int.tmod_add_mul_tdiv (Int.bmod (x * y) modulus) y
      have hrest : ((Int.bmod (x * y) modulus).tmod y).natAbs < y.natAbs := by
        rw [Int.natAbs_tmod]
        exact Nat.mod_lt _ (by omega)
      rw [hdiv, Int.mul_comm y x] at hsplit
      have hdvd : (modulus : ℤ) ∣ Int.bmod (x * y) modulus - x * y := Int.dvd_bmod_sub_self
      rw [proper_iff_natAbs] at hy
      have hexact := Int.eq_zero_of_abs_lt_dvd hdvd (by rw [abs_lt]; omega)
      exact (bmod_eq_self_iff hpos).mp (by omega)
    · intro hfits
      rw [hfits.bmod_eq, Int.mul_tdiv_cancel x hzero]

end TwosComplement
