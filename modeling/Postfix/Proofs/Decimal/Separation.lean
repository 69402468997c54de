import Postfix.Proofs.Binary.Rounding
import Postfix.Proofs.Decimal.Approximants

/-! How near a short decimal can come to the middle between two neighbours of the format of 32 bits.
For each exponent of the format, the points of a decimal grid that is not finer than the spacing are
multiples of the coarsest such grid, and there are fewer than two to the power of twenty-five. None
of them is within one part in two to the power of twenty-nine of half a spacing, unless it lies
exactly there; there is a single exception, for a single exponent. The exponents are gone through
one by one, each with two approximants of the fraction between the two spacings. -/
namespace Postfix

namespace Separation

/-! ### The fraction between the spacings -/

def stepNum (e j : ℤ) : ℕ := 10 ^ j.toNat * 2 ^ (1 - e).toNat

def stepDen (e j : ℤ) : ℕ := 10 ^ (-j).toNat * 2 ^ (e - 1).toNat

theorem stepDen_pos (e j : ℤ) : 0 < stepDen e j :=
  Nat.mul_pos (Nat.pow_pos (by decide)) (Nat.pow_pos (by decide))

theorem step_ratio (e j : ℤ) : (stepNum e j : ℚ) * 2 ^ (e - 1) = 10 ^ j * stepDen e j := by
  have decimal := zpow_toNat (b := 10) (by norm_num) j
  have binary := zpow_toNat (b := 2) (by norm_num) (1 - e)
  have unit : (2 : ℚ) ^ (1 - e) * 2 ^ (e - 1) = 1 := by
    rw [← zpow_add₀ (by norm_num)]
    simp
  rw [neg_sub] at binary
  simp only [stepNum, stepDen]
  push_cast
  rw [decimal, binary]
  linear_combination (10 : ℚ) ^ j * 10 ^ (-j).toNat * 2 ^ (e - 1).toNat * unit

/-! ### Every exponent -/

/-- The exponent of the finest grid that is not finer than `2 ^ e`. -/
def gridExponent (e : ℤ) : ℤ := -(-(e * 30103) / 100000)

def num (e : ℤ) : ℕ := stepNum e (gridExponent e)

def den (e : ℤ) : ℕ := stepDen e (gridExponent e)

def lastPoint (e : ℤ) : ℕ := 2 ^ 25 * den e / num e

def approximants (e : ℤ) : Approximants :=
  .search (fun r => r * 2 ^ 29 ≤ den e) 40 (.start (num e) (den e))

/-- The grid is the finest one, and the approximants tell its points apart. -/
def IsTight (e : ℤ) : Prop :=
  num e * 2 ^ 28 < 10 * den e * (2 ^ 29 - 1) ∧ den e < (approximants e).r * 2 ^ 29 ∧
    lastPoint e * (approximants e).r' * 2 ^ 29 + den e * (approximants e).q' < den e * 2 ^ 29

instance (e : ℤ) : Decidable (IsTight e) := inferInstanceAs (Decidable (_ ∧ _ ∧ _))

/-- The newer approximant is the fraction itself, or no point of the grid is a multiple of it. -/
def IsClear (e : ℤ) : Prop := (approximants e).r' = 0 ∨ lastPoint e < (approximants e).q'

instance (e : ℤ) : Decidable (IsClear e) := inferInstanceAs (Decidable (_ ∨ _))

theorem tight_from : ∀ i < 254, IsTight (-149 + (i : ℕ)) := by decide +kernel

theorem clear_from : ∀ i < 254, i ≠ 42 → IsClear (-149 + (i : ℕ)) := by decide +kernel

theorem tight {e : ℤ} (least : -149 ≤ e) (most : e ≤ 104) : IsTight e := by
  have := tight_from (e + 149).toNat (by omega)
  rwa [show -149 + ((e + 149).toNat : ℤ) = e by omega] at this

theorem clear {e : ℤ} (least : -149 ≤ e) (most : e ≤ 104) (other : e ≠ -107) : IsClear e := by
  have := clear_from (e + 149).toNat (by omega) (by omega)
  rwa [show -149 + ((e + 149).toNat : ℤ) = e by omega] at this

theorem exception : (approximants (-107)).p' = 22841339 ∧
    lastPoint (-107) < 2 * (approximants (-107)).q' := by decide +kernel

/-! ### Points of a grid -/

variable {e j : ℤ} {d m : ℕ}

theorem num_pos (e : ℤ) : 0 < num e :=
  Nat.mul_pos (Nat.pow_pos (by decide)) (Nat.pow_pos (by decide))

theorem grid_ratio (e : ℤ) : (num e : ℚ) * 2 ^ (e - 1) = 10 ^ gridExponent e * den e :=
  step_ratio e (gridExponent e)

theorem gridExponent_le (tight : IsTight e)
    (coarse : (2 : ℚ) ^ e * (2 ^ 29 - 1) ≤ 10 ^ j * 2 ^ 29) : gridExponent e ≤ j := by
  by_contra below
  have finer : (10 : ℚ) ^ j ≤ 10 ^ (gridExponent e - 1) :=
    zpow_le_zpow_right₀ (by norm_num) (by omega)
  have tenth : (10 : ℚ) ^ gridExponent e = 10 * 10 ^ (gridExponent e - 1) := by
    rw [← zpow_one_add₀ (by norm_num)]
    ring_nf
  have twice := two_zpow_pred e
  have ratio := grid_ratio e
  have bound : (num e : ℚ) * 2 ^ 28 < 10 * den e * (2 ^ 29 - 1) := by
    have cast : ((num e * 2 ^ 28 : ℕ) : ℚ) < ((10 * den e * (2 ^ 29 - 1) : ℕ) : ℚ) := by
      exact_mod_cast tight.1
    norm_num at cast ⊢
    exact cast
  have unit := two_zpow_pos (e - 1)
  have scale : (0 : ℚ) < den e := by exact_mod_cast stepDen_pos e (gridExponent e)
  have scaled := mul_lt_mul_of_pos_right bound unit
  rw [tenth] at ratio
  rw [twice] at coarse
  generalize (10 : ℚ) ^ (gridExponent e - 1) = power at *
  have : power * 2 ^ 28 < 2 ^ (e - 1) * (2 ^ 29 - 1) := by
    refine lt_of_mul_lt_mul_right ?_ (show (0 : ℚ) ≤ 10 * den e by linarith)
    linarith
  linarith

theorem exists_grid_point (coarser : gridExponent e ≤ j) (d : ℕ) :
    ∃ k : ℕ, (k : ℚ) * 10 ^ gridExponent e = d * 10 ^ j ∧ (0 < d → 0 < k) := by
  refine ⟨d * 10 ^ (j - gridExponent e).toNat, ?_, fun h => Nat.mul_pos h (Nat.pow_pos (by decide))⟩
  push_cast
  rw [mul_assoc, ← zpow_natCast, ← zpow_add₀ (by norm_num)]
  congr 2
  omega

theorem le_lastPoint (inside : (d : ℚ) * 10 ^ gridExponent e < 2 ^ (24 + e)) : d ≤ lastPoint e := by
  have unit := two_zpow_pos (e - 1)
  have scale : (0 : ℚ) < den e := by exact_mod_cast stepDen_pos e (gridExponent e)
  have binade : (2 : ℚ) ^ (24 + e) = 2 ^ 25 * 2 ^ (e - 1) := by
    rw [show (24 : ℤ) + e = 25 + (e - 1) by ring, zpow_add₀ (by norm_num)]
    norm_num
  rw [lastPoint, Nat.le_div_iff_mul_le (num_pos e)]
  rw [binade] at inside
  have : (d : ℚ) * num e < 2 ^ 25 * den e := by
    refine lt_of_mul_lt_mul_right ?_ unit.le
    calc (d : ℚ) * num e * 2 ^ (e - 1) = d * (num e * 2 ^ (e - 1)) := by ring
      _ = d * 10 ^ gridExponent e * den e := by rw [grid_ratio]; ring
      _ < 2 ^ 25 * 2 ^ (e - 1) * den e := mul_lt_mul_of_pos_right inside scale
      _ = 2 ^ 25 * den e * 2 ^ (e - 1) := by ring
  exact_mod_cast this.le

theorem difference (d m : ℕ) (e : ℤ) : (d * num e - m * den e : ℚ) * 2 ^ (e - 1) =
    (d * 10 ^ gridExponent e - m * 2 ^ (e - 1)) * den e := by
  linear_combination (d : ℚ) * grid_ratio e

theorem distance_le
    (close : |(d : ℚ) * 10 ^ gridExponent e - m * 2 ^ (e - 1)| * 2 ^ 29 ≤ 2 ^ (e - 1)) :
    |(d * num e - m * den e : ℤ)| * (2 ^ 29 : ℕ) ≤ (den e : ℤ) := by
  have unit := two_zpow_pos (e - 1)
  have scale : (0 : ℚ) < den e := by exact_mod_cast stepDen_pos e (gridExponent e)
  have : |(d * num e - m * den e : ℚ)| * 2 ^ 29 ≤ den e := by
    refine le_of_mul_le_mul_right ?_ unit
    calc |(d * num e - m * den e : ℚ)| * 2 ^ 29 * 2 ^ (e - 1)
        = |(d * num e - m * den e : ℚ) * 2 ^ (e - 1)| * 2 ^ 29 := by
          rw [abs_mul, abs_of_pos unit]
          ring
      _ = |(d : ℚ) * 10 ^ gridExponent e - m * 2 ^ (e - 1)| * 2 ^ 29 * den e := by
          rw [difference, abs_mul, abs_of_pos scale]
          ring
      _ ≤ 2 ^ (e - 1) * den e := mul_le_mul_of_nonneg_right close scale.le
      _ = den e * 2 ^ (e - 1) := by ring
  exact_mod_cast this

/-- The finest grid: a point before the end of the binade that is close to a multiple of half the
spacing is that multiple, with one exception. -/
theorem point_eq (least : -149 ≤ e) (most : e ≤ 104) (positive : 0 < d)
    (inside : (d : ℚ) * 10 ^ gridExponent e < 2 ^ (24 + e))
    (close : |(d : ℚ) * 10 ^ gridExponent e - m * 2 ^ (e - 1)| * 2 ^ 29 ≤ 2 ^ (e - 1)) :
    (d : ℚ) * 10 ^ gridExponent e = m * 2 ^ (e - 1) ∨ (e = -107 ∧ m = 22841339) := by
  obtain ⟨_, far, gap⟩ := tight least most
  obtain ⟨side, around⟩ :=
    (Approximants.around_start (num e) (den e)).search (fun r => r * 2 ^ 29 ≤ den e) 40
  change Approximants.Around (num e) (den e) (approximants e) side at around
  have small := le_lastPoint inside
  obtain ⟨v, hd, hm⟩ := around.multiple far gap positive small (distance_le close)
  have some : 1 ≤ v := by
    by_contra none
    rw [hd, show v = 0 by omega, Nat.zero_mul] at positive
    omega
  by_cases special : e = -107
  · subst special
    refine .inr ⟨rfl, ?_⟩
    have one : v < 2 := by
      by_contra two
      have := exception.2
      have := Nat.mul_le_mul_right (approximants (-107)).q' (show 2 ≤ v by omega)
      omega
    rw [hm, show v = 1 by omega, Nat.one_mul, exception.1]
  · left
    rcases clear least most special with exact | beyond
    · have newer := around.newer
      rw [exact] at newer
      have newer : ((approximants e).q' * num e : ℚ) = (approximants e).p' * den e := by
        have : ((approximants e).q' * num e : ℤ) = (approximants e).p' * den e := by
          simpa using newer
        exact_mod_cast this
      have apart := difference d m e
      have zero : (d * num e - m * den e : ℚ) = 0 := by
        rw [hd, hm]
        push_cast
        linear_combination (v : ℚ) * newer
      have scale : (den e : ℚ) ≠ 0 := by
        exact_mod_cast (stepDen_pos e (gridExponent e)).ne'
      rw [zero, zero_mul] at apart
      exact sub_eq_zero.mp ((mul_eq_zero.mp apart.symm).resolve_right scale)
    · have := Nat.mul_le_mul_right (approximants e).q' some
      omega

theorem scaled_eq (least : -149 ≤ e) (most : e ≤ 104) (positive : 0 < d)
    (coarse : (2 : ℚ) ^ e * (2 ^ 29 - 1) ≤ 10 ^ j * 2 ^ 29)
    (inside : (d : ℚ) * 10 ^ j < 2 ^ (24 + e))
    (close : |(d : ℚ) * 10 ^ j - m * 2 ^ (e - 1)| * 2 ^ 29 ≤ 2 ^ (e - 1)) :
    (d : ℚ) * 10 ^ j = m * 2 ^ (e - 1) ∨ (e = -107 ∧ m = 22841339) := by
  obtain ⟨k, point, some⟩ := exists_grid_point (gridExponent_le (tight least most) coarse) d
  rw [← point] at inside close ⊢
  exact point_eq least most (some positive) inside close

end Separation
end Postfix
