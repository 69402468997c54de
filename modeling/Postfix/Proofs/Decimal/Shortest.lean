import Postfix.Proofs.Decimal.Interval

/-! The digits that are chosen for a datum lie in its interval.
A point taken from a grid also is near the datum in units of the grid: either at most half a step
away, or the next point on the other side of the datum is already outside of the interval. That
the digits are the fewest possible is not stated here; nothing that reads them back needs it. -/
namespace Postfix

open Decimal

def Decimal.Scaled.value (d : Scaled) : ℚ := d.coefficient * 10 ^ d.exponent

variable {f : Format} {m : ℕ} {e j : ℤ} {q : ℚ}

theorem identifies_of_lt (below : (lowEnd f m e : ℚ) * 2 ^ (e - 2) < q)
    (above : q < (highEnd m : ℚ) * 2 ^ (e - 2)) : Identifies f m e q :=
  ⟨below.le, above.le, fun _ => ⟨below, above⟩⟩

/-! ### Grids -/

/-- Quarters of the binary spacing and steps of the grid, both scaled up to naturals. -/
structure Scaling (e j : ℤ) (unit step : ℕ) (k : ℚ) : Prop where
  positive : 0 < k
  unit_eq : (unit : ℚ) = 2 ^ (e - 2) * k
  step_eq : (step : ℚ) = 10 ^ j * k

theorem scaling (e j : ℤ) :
    Scaling e j (2 ^ (e - 2).toNat * 10 ^ (-j).toNat) (10 ^ j.toNat * 2 ^ (2 - e).toNat)
      (10 ^ (-j).toNat * 2 ^ (2 - e).toNat) := by
  have binary := zpow_toNat (b := 2) (by norm_num) (e - 2)
  have decimal := zpow_toNat (b := 10) (by norm_num) j
  rw [neg_sub] at binary
  refine ⟨by positivity, ?_, ?_⟩
  · push_cast
    rw [binary]
    ring
  · push_cast
    rw [decimal]
    ring

section
variable {unit step : ℕ} {k : ℚ}

theorem Scaling.le_iff (scaling : Scaling e j unit step k) (a d : ℕ) :
    a * unit ≤ d * step ↔ (a : ℚ) * 2 ^ (e - 2) ≤ d * 10 ^ j := by
  have cast : a * unit ≤ d * step ↔ (a : ℚ) * unit ≤ d * step := by exact_mod_cast Iff.rfl
  rw [cast, scaling.unit_eq, scaling.step_eq, ← mul_assoc, ← mul_assoc]
  exact mul_le_mul_iff_of_pos_right scaling.positive

theorem Scaling.ge_iff (scaling : Scaling e j unit step k) (a d : ℕ) :
    d * step ≤ a * unit ↔ (d : ℚ) * 10 ^ j ≤ a * 2 ^ (e - 2) := by
  have cast : d * step ≤ a * unit ↔ (d : ℚ) * step ≤ a * unit := by exact_mod_cast Iff.rfl
  rw [cast, scaling.unit_eq, scaling.step_eq, ← mul_assoc, ← mul_assoc]
  exact mul_le_mul_iff_of_pos_right scaling.positive

theorem Scaling.inside_iff (scaling : Scaling e j unit step k) (d : ℕ) :
    (if m % 2 = 0 then lowEnd f m e * unit ≤ d * step && d * step ≤ highEnd m * unit
      else lowEnd f m e * unit < d * step && d * step < highEnd m * unit) = true ↔
      Identifies f m e (d * 10 ^ j) := by
  split
  · rename_i even
    rw [Bool.and_eq_true, decide_eq_true_eq, decide_eq_true_eq, scaling.le_iff, scaling.ge_iff]
    constructor
    · rintro ⟨lower, upper⟩
      exact ⟨lower, upper, by omega⟩
    · intro inside
      exact ⟨inside.lower, inside.upper⟩
  · rename_i odd
    rw [Bool.and_eq_true, decide_eq_true_eq, decide_eq_true_eq, ← Nat.not_le, ← Nat.not_le,
      scaling.le_iff, scaling.ge_iff, not_le, not_le]
    constructor
    · rintro ⟨lower, upper⟩
      exact identifies_of_lt lower upper
    · intro inside
      exact inside.strict (by omega)

theorem Scaling.divide (scaling : Scaling e j unit step k) (m : ℕ) :
    (m : ℚ) * 2 ^ e = (4 * m * unit / step : ℕ) * 10 ^ j + (4 * m * unit % step : ℕ) / k := by
  have divided : ((4 * m * unit : ℕ) : ℚ) =
      step * (4 * m * unit / step : ℕ) + (4 * m * unit % step : ℕ) := by
    exact_mod_cast (Nat.div_add_mod (4 * m * unit) step).symm
  generalize 4 * m * unit / step = below at *
  generalize 4 * m * unit % step = gap at *
  have positive := scaling.positive
  push_cast at divided
  rw [scaling.unit_eq, scaling.step_eq] at divided
  rw [two_zpow_quarter e]
  field_simp
  linarith

end

theorem onGrid_cases {d : Scaled} (h : onGrid f m e j = some d) :
    ∃ (below : ℕ) (gap : ℚ), (m : ℚ) * 2 ^ e = below * 10 ^ j + gap ∧ 0 ≤ gap ∧ gap < 10 ^ j ∧
      ((d = ⟨below, j⟩ ∧ Identifies f m e (below * 10 ^ j) ∧
          (2 * gap ≤ 10 ^ j ∨ ¬ Identifies f m e ((below + 1 : ℕ) * 10 ^ j))) ∨
        (d = ⟨below + 1, j⟩ ∧ Identifies f m e ((below + 1 : ℕ) * 10 ^ j) ∧
          (10 ^ j ≤ 2 * gap ∨ ¬ Identifies f m e (below * 10 ^ j)))) := by
  have scaled := scaling e j
  simp only [onGrid] at h
  generalize 2 ^ (e - 2).toNat * 10 ^ (-j).toNat = unit at h scaled
  generalize 10 ^ j.toNat * 2 ^ (2 - e).toNat = step at h scaled
  generalize (10 ^ (-j).toNat * 2 ^ (2 - e).toNat : ℚ) = k at scaled
  have positive := scaled.positive
  have steps : 0 < step := by
    have power : (0 : ℚ) < 10 ^ j := zpow_pos (by norm_num) j
    have : (0 : ℚ) < step := by rw [scaled.step_eq]; exact mul_pos power positive
    exact_mod_cast this
  refine ⟨_, _, scaled.divide m, div_nonneg (by positivity) positive.le, ?_, ?_⟩
  · rw [div_lt_iff₀ positive, ← scaled.step_eq]
    exact_mod_cast Nat.mod_lt _ steps
  rw [← mul_div_assoc, div_le_iff₀ positive, le_div_iff₀ positive, ← scaled.step_eq]
  have inside := scaled.inside_iff (f := f) (m := m)
  -- By which of the two points next to the datum lie in its interval.
  by_cases first : Identifies f m e ((4 * m * unit / step : ℕ) * 10 ^ j)
  · rw [if_pos ((inside _).mpr first)] at h
    by_cases second : Identifies f m e ((4 * m * unit / step + 1 : ℕ) * 10 ^ j)
    · rw [if_pos ((inside _).mpr second)] at h
      split at h
      · rename_i near
        have near : 2 * (4 * m * unit % step) ≤ step := by omega
        cases h
        exact .inl ⟨rfl, first, .inl (by exact_mod_cast near)⟩
      · rename_i far
        have far : step ≤ 2 * (4 * m * unit % step) := by omega
        cases h
        exact .inr ⟨rfl, second, .inl (by exact_mod_cast far)⟩
    · rw [if_neg fun h => second ((inside _).mp h)] at h
      cases h
      exact .inl ⟨rfl, first, .inr second⟩
  · rw [if_neg fun h => first ((inside _).mp h)] at h
    by_cases second : Identifies f m e ((4 * m * unit / step + 1 : ℕ) * 10 ^ j)
    · rw [if_pos ((inside _).mpr second)] at h
      cases h
      exact .inr ⟨rfl, second, .inr first⟩
    · rw [if_neg fun h => second ((inside _).mp h)] at h
      cases h

/-- A chosen point is the nearest of its grid, or the only one of the two next to the datum that
lies in the interval. -/
def Chosen (f : Format) (m : ℕ) (e : ℤ) (d : Scaled) : Prop :=
  2 * |d.value - m * 2 ^ e| ≤ 10 ^ d.exponent ∨
    |d.value - m * 2 ^ e| + (4 * m - lowEnd f m e) * 2 ^ (e - 2) ≤ 10 ^ d.exponent

theorem onGrid_eq_some (positive : 0 < m) {d : Scaled} (h : onGrid f m e j = some d) :
    Identifies f m e d.value ∧ Chosen f m e d := by
  have unit := two_zpow_pos (e - 2)
  have low := lowEnd_ge f positive e
  have high := highEnd_cast m
  have self := identifies_self f positive e
  have quarter := two_zpow_quarter e
  obtain ⟨below, gap, between, gap_ge, gap_lt, ⟨rfl, inside, which⟩ | ⟨rfl, inside, which⟩⟩ :=
    onGrid_cases h
  · refine ⟨inside, ?_⟩
    have distance : |Scaled.value ⟨below, j⟩ - m * 2 ^ e| = gap := by
      rw [between, Scaled.value, sub_add_cancel_left, abs_neg, abs_of_nonneg gap_ge]
    rw [Chosen, distance]
    refine which.imp_right fun outside => ?_
    -- The point above, were it nearer, would lie in the interval as well.
    by_contra far
    refine outside (identifies_of_lt ?_ ?_)
    · push_cast
      nlinarith [inside.lower]
    · push_cast
      nlinarith
  · refine ⟨inside, ?_⟩
    have distance : |Scaled.value ⟨below + 1, j⟩ - m * 2 ^ e| = 10 ^ j - gap := by
      have : Scaled.value ⟨below + 1, j⟩ - (below * 10 ^ j + gap) = 10 ^ j - gap := by
        simp only [Scaled.value]
        push_cast
        ring
      rw [between, this, abs_of_nonneg (by linarith)]
    rw [Chosen, distance]
    refine which.imp (fun far => by linarith) fun outside => ?_
    by_contra far
    refine outside (identifies_of_lt ?_ ?_)
    · push_cast at *
      nlinarith
    · push_cast at *
      nlinarith [inside.upper]

/-! ### All digits -/

theorem exact_value (m : ℕ) (e : ℤ) : (Decimal.exact m e).value = m * 2 ^ e := by
  unfold Decimal.exact
  split
  · rename_i whole
    obtain ⟨n, rfl⟩ := Int.eq_ofNat_of_zero_le whole
    simp [Scaled.value]
  · rename_i fraction
    obtain ⟨n, rfl⟩ : ∃ n : ℕ, e = -n := ⟨(-e).toNat, by omega⟩
    have ten : (10 : ℚ) ^ n = 5 ^ n * 2 ^ n := by rw [← mul_pow]; norm_num
    simp only [Scaled.value, neg_neg, Int.toNat_natCast, zpow_neg, zpow_natCast]
    push_cast
    rw [ten]
    field_simp

theorem shortest_cases (f : Format) (m : ℕ) (e : ℤ) :
    (∃ j, onGrid f m e j = some (shortest f m e)) ∨ shortest f m e = Decimal.exact m e := by
  unfold shortest
  cases found : (List.range 25).findSome? fun (i : ℕ) => onGrid f m e (topExponent m e - i) with
  | none => exact .inr rfl
  | some d =>
    obtain ⟨i, _, point⟩ := List.exists_of_findSome?_eq_some found
    exact .inl ⟨_, point⟩

theorem identifies_shortest (f : Format) (positive : 0 < m) (e : ℤ) :
    Identifies f m e (shortest f m e).value := by
  rcases shortest_cases f m e with ⟨j, point⟩ | all
  · exact (onGrid_eq_some positive point).1
  · rw [all, exact_value]
    exact identifies_self f positive e

end Postfix
