import Mathlib.Algebra.Order.Field.Power
import Mathlib.Tactic.FieldSimp
import Mathlib.Tactic.Linarith
import Mathlib.Tactic.Positivity
import Mathlib.Tactic.Ring
import Postfix.Binary.Basic

/-! What rounding does to a positive rational number.
The number lies in one binade of the format, which fixes the spacing; the significand is the
natural number nearest to it in units of that spacing. Both are stated as relations that have at
most one solution, so a rounding is known as soon as a solution is at hand. Signs are not
involved, and nothing is said about sums or products. -/
namespace Postfix

theorem zpow_toNat {b : ℚ} (nonzero : b ≠ 0) (e : ℤ) :
    b ^ e.toNat = b ^ e * b ^ (-e).toNat := by
  obtain ⟨n, rfl | rfl⟩ := e.eq_nat_or_neg
  · simp
  · simp [nonzero]

theorem two_zpow_pos (e : ℤ) : (0 : ℚ) < 2 ^ e := zpow_pos (by norm_num) e

theorem two_zpow_pred (e : ℤ) : (2 : ℚ) ^ e = 2 * 2 ^ (e - 1) := by
  rw [← zpow_one_add₀ (by norm_num)]
  congr 1
  ring

theorem two_zpow_half (e : ℤ) : (2 : ℚ) ^ (e - 1) = 2 * 2 ^ (e - 2) := by
  rw [two_zpow_pred (e - 1), sub_sub]
  norm_num

/-- The natural number nearest to a rational one; halfway it is even. -/
def Nearest (q : ℚ) (n : ℕ) : Prop :=
  2 * n - 1 ≤ 2 * q ∧ 2 * q ≤ 2 * n + 1 ∧
    (n % 2 = 1 → (2 * n - 1 : ℚ) < 2 * q ∧ 2 * q < 2 * n + 1)

theorem Nearest.le {q : ℚ} {m n : ℕ} (hm : Nearest q m) (hn : Nearest q n) : m ≤ n := by
  by_contra above
  have close : (2 * m - 1 : ℚ) ≤ 2 * n + 1 := le_trans hm.1 hn.2.1
  have next : m = n + 1 := by
    have : 2 * m ≤ 2 * n + 2 := by
      have : (2 * m : ℚ) ≤ 2 * n + 2 := by linarith
      exact_mod_cast this
    omega
  subst next
  have lower := hm.1
  have upper := hn.2.1
  push_cast at lower
  -- Both distances are a half, so both numbers would have to be even.
  rcases Nat.mod_two_eq_zero_or_one n with even | odd
  · have := (hm.2.2 (by omega)).1
    push_cast at this
    linarith
  · have := (hn.2.2 odd).2
    linarith

theorem Nearest.unique {q : ℚ} {m n : ℕ} (hm : Nearest q m) (hn : Nearest q n) : m = n :=
  Nat.le_antisymm (hm.le hn) (hn.le hm)

theorem Nearest.le_of_le {q : ℚ} {k n : ℕ} (nearest : Nearest q n) (below : q ≤ k) : n ≤ k := by
  have : (2 * n : ℚ) ≤ 2 * k + 1 := by linarith [nearest.1]
  have : 2 * n ≤ 2 * k + 1 := by exact_mod_cast this
  omega

theorem Nearest.le_of_ge {q : ℚ} {k n : ℕ} (nearest : Nearest q n) (above : k ≤ q) : k ≤ n := by
  have : (2 * k : ℚ) ≤ 2 * n + 1 := by linarith [nearest.2.1]
  have : 2 * k ≤ 2 * n + 1 := by exact_mod_cast this
  omega

theorem Nearest.distance {q : ℚ} {n : ℕ} {d : ℤ} (nearest : Nearest (q / 2 ^ d) n) :
    |q - n * 2 ^ d| * 2 ≤ 2 ^ d := by
  have unit := two_zpow_pos d
  have scaled : q = q / 2 ^ d * 2 ^ d := by field_simp
  have near : |q / 2 ^ d - n| ≤ 1 / 2 := by
    rw [abs_le]
    exact ⟨by linarith [nearest.1], by linarith [nearest.2.1]⟩
  have moved : |q - n * 2 ^ d| = |q / 2 ^ d - n| * 2 ^ d := by
    rw [← abs_of_pos unit, ← abs_mul, abs_of_pos unit, sub_mul, ← scaled]
  rw [moved]
  have := mul_le_mul_of_nonneg_right near unit.le
  linarith

theorem nearest_nearestEven (num : ℕ) {den : ℕ} (positive : 0 < den) :
    Nearest (num / den) (nearestEven num den) := by
  have scale : (0 : ℚ) < den := by exact_mod_cast positive
  have divided : (num : ℚ) = den * (num / den : ℕ) + (num % den : ℕ) := by
    exact_mod_cast (Nat.div_add_mod num den).symm
  have rest : ((num % den : ℕ) : ℚ) < den := by exact_mod_cast Nat.mod_lt num positive
  simp only [nearestEven, Nearest]
  generalize num / den = k at *
  generalize num % den = r at *
  have quotient : (num : ℚ) / den = k + r / den := by rw [divided]; field_simp
  have small : (r : ℚ) / den < 1 := (div_lt_one scale).mpr rest
  have least : (0 : ℚ) ≤ r / den := by positivity
  have le_half : 2 * r ≤ den ↔ 2 * ((r : ℚ) / den) ≤ 1 := by
    rw [← mul_div_assoc, div_le_one scale]
    exact_mod_cast Iff.rfl
  have ge_half : den ≤ 2 * r ↔ 1 ≤ 2 * ((r : ℚ) / den) := by
    rw [← mul_div_assoc, one_le_div scale]
    exact_mod_cast Iff.rfl
  rw [quotient]
  generalize (r : ℚ) / den = x at *
  split
  · rename_i up
    have half := ge_half.mp (by omega)
    push_cast
    refine ⟨by linarith, by linarith, fun odd => ?_⟩
    have beyond := mt le_half.mpr (by omega)
    exact ⟨by linarith, by linarith⟩
  · rename_i down
    have half := le_half.mp (by omega)
    refine ⟨by linarith, by linarith, fun odd => ?_⟩
    have short := mt ge_half.mpr (by omega)
    exact ⟨by linarith, by linarith⟩

/-! ### Binades -/

theorem log2_bounds {n : ℕ} (positive : 0 < n) :
    (2 : ℚ) ^ (Nat.log2 n : ℤ) ≤ n ∧ (n : ℚ) < 2 ^ ((Nat.log2 n : ℤ) + 1) := by
  constructor
  · rw [zpow_natCast]
    exact_mod_cast Nat.log2_self_le (by omega)
  · have : n < 2 ^ (Nat.log2 n + 1) := Nat.lt_log2_self
    rw [show (Nat.log2 n : ℤ) + 1 = (Nat.log2 n + 1 : ℕ) by simp, zpow_natCast]
    exact_mod_cast this

theorem scaled_le_iff (num den : ℕ) (k : ℤ) :
    den * 2 ^ k.toNat ≤ num * 2 ^ (-k).toNat ↔ (den : ℚ) * 2 ^ k ≤ num := by
  have moved := zpow_toNat (b := 2) (by norm_num) k
  have positive : (0 : ℚ) < 2 ^ (-k).toNat := by positivity
  have cast : den * 2 ^ k.toNat ≤ num * 2 ^ (-k).toNat ↔
      (den : ℚ) * 2 ^ k.toNat ≤ num * 2 ^ (-k).toNat := by exact_mod_cast Iff.rfl
  rw [cast, moved, ← mul_assoc]
  exact mul_le_mul_iff_of_pos_right positive

theorem floorLog_bounds {num den : ℕ} (hnum : 0 < num) (hden : 0 < den) :
    (den : ℚ) * 2 ^ floorLog num den ≤ num ∧ (num : ℚ) < den * 2 ^ (floorLog num den + 1) := by
  obtain ⟨lower, upper⟩ := log2_bounds hnum
  obtain ⟨lower', upper'⟩ := log2_bounds hden
  have two : (2 : ℚ) ≠ 0 := by norm_num
  simp only [floorLog]
  generalize (Nat.log2 num : ℤ) = a at *
  generalize (Nat.log2 den : ℤ) = b at *
  split
  · rename_i fits
    refine ⟨(scaled_le_iff num den (a - b)).mp fits, ?_⟩
    have next : (2 : ℚ) ^ (a + 1) = 2 ^ b * 2 ^ (a - b + 1) := by rw [← zpow_add₀ two]; ring_nf
    have positive := two_zpow_pos (a - b + 1)
    nlinarith
  · rename_i large
    rw [scaled_le_iff, not_le] at large
    refine ⟨?_, by rwa [sub_add_cancel]⟩
    have next : (2 : ℚ) ^ a = 2 ^ (b + 1) * 2 ^ (a - b - 1) := by rw [← zpow_add₀ two]; ring_nf
    have positive := two_zpow_pos (a - b - 1)
    nlinarith

namespace Format

/-- The numbers among which the format has the spacing `2 ^ e`, before the largest exponent is
looked at. -/
def InBinade (f : Format) (q : ℚ) (e : ℤ) : Prop :=
  f.minExp ≤ e ∧ q < 2 ^ (f.precision + e) ∧ (e = f.minExp ∨ 2 ^ (f.precision + e - 1) ≤ q)

variable {f : Format} {q : ℚ} {d e : ℤ}

theorem precision_pos (f : Format) : 1 ≤ f.precision := by cases f <;> decide

theorem InBinade.le (hd : f.InBinade q d) (he : f.InBinade q e) : d ≤ e := by
  rcases hd.2.2 with least | full
  · rw [least]; exact he.1
  · have powers := lt_of_le_of_lt full he.2.1
    rw [zpow_lt_zpow_iff_right₀ (by norm_num)] at powers
    omega

theorem InBinade.unique (hd : f.InBinade q d) (he : f.InBinade q e) : d = e :=
  le_antisymm (hd.le he) (he.le hd)

theorem inBinade_spacing {num den : ℕ} (hnum : 0 < num) (hden : 0 < den) :
    f.InBinade (num / den) (f.spacing num den) := by
  obtain ⟨lower, upper⟩ := floorLog_bounds hnum hden
  have scale : (0 : ℚ) < den := by exact_mod_cast hden
  have least := f.precision_pos
  rw [mul_comm, ← le_div_iff₀ scale] at lower
  rw [mul_comm, ← div_lt_iff₀ scale] at upper
  simp only [InBinade, spacing]
  generalize floorLog num den = k at *
  refine ⟨le_max_right _ _, lt_of_lt_of_le upper ?_, ?_⟩
  · rw [zpow_le_zpow_iff_right₀ (by norm_num)]
    omega
  · by_cases below : k - (f.precision - 1 : ℕ) ≤ f.minExp
    · exact .inl (max_eq_right below)
    · refine .inr (le_trans ?_ lower)
      rw [zpow_le_zpow_iff_right₀ (by norm_num)]
      omega

/-- Rounding picks the nearest significand for the spacing of the binade. -/
theorem round_spec (f : Format) (s : Bool) {num den : ℕ} (hnum : 0 < num) (hden : 0 < den) :
    ∃ e n, f.InBinade (num / den) e ∧ Nearest (num / den / 2 ^ e) n ∧
      f.round s num den = f.settle s n e := by
  refine ⟨f.spacing num den, _, inBinade_spacing hnum hden, ?_, if_neg (by omega)⟩
  generalize f.spacing num den = e
  have moved := zpow_toNat (b := 2) (by norm_num) e
  have positive : 0 < den * 2 ^ e.toNat := by positivity
  have scale : (den : ℚ) ≠ 0 := by positivity
  have value : (num : ℚ) / den / 2 ^ e =
      (num * 2 ^ (-e).toNat : ℕ) / (den * 2 ^ e.toNat : ℕ) := by
    have := two_zpow_pos e
    push_cast
    rw [moved]
    field_simp
  rw [value]
  exact nearest_nearestEven _ positive

theorem round_eq_settle (s : Bool) {num den n : ℕ} (hnum : 0 < num) (hden : 0 < den)
    (binade : f.InBinade (num / den) e) (nearest : Nearest (num / den / 2 ^ e) n) :
    f.round s num den = f.settle s n e := by
  obtain ⟨d, m, binade', nearest', rounded⟩ := f.round_spec s hnum hden
  obtain rfl := binade'.unique binade
  rw [rounded, nearest'.unique nearest]

/-! ### The results of rounding -/

theorem InBinade.lt_units (binade : f.InBinade q e) : q / 2 ^ e < (2 ^ f.precision : ℕ) := by
  rw [div_lt_iff₀ (two_zpow_pos e)]
  push_cast
  rw [← zpow_natCast, ← zpow_add₀ (by norm_num)]
  exact binade.2.1

theorem InBinade.units_ge (binade : f.InBinade q e) :
    e = f.minExp ∨ ((2 ^ (f.precision - 1) : ℕ) : ℚ) ≤ q / 2 ^ e := by
  refine binade.2.2.imp_right fun full => ?_
  have least := f.precision_pos
  rw [le_div_iff₀ (two_zpow_pos e)]
  push_cast
  rw [← zpow_natCast, ← zpow_add₀ (by norm_num)]
  refine le_trans (le_of_eq ?_) full
  congr 1
  omega

/-- A significand that is settled keeps its value, unless its exponent is beyond the format. -/
theorem settle_cases (f : Format) (s : Bool) (n : ℕ) (e : ℤ) :
    (f.settle s n e = .inf s ∧ f.maxExp < e + 1) ∨
      ∃ k x, f.settle s n e = .finite s k x ∧ (k : ℚ) * 2 ^ x = n * 2 ^ e ∧ e ≤ x := by
  unfold settle
  split
  · rename_i full
    split
    · rename_i beyond
      exact .inl ⟨rfl, beyond⟩
    · refine .inr ⟨_, _, rfl, ?_, by omega⟩
      have double : (2 ^ f.precision : ℕ) = 2 * 2 ^ (f.precision - 1) := by cases f <;> decide
      rw [full, double, zpow_add_one₀ (by norm_num)]
      push_cast
      ring
  · split
    · exact .inl ⟨rfl, by omega⟩
    · exact .inr ⟨n, e, rfl, rfl, le_rfl⟩

theorem canonical_zero (f : Format) (s : Bool) : (f.zero s).Canonical f := by
  cases f <;> simp [zero, Binary.Canonical, minExp, maxExp, precision]

theorem canonical_settle (s : Bool) {n : ℕ} (least : f.minExp ≤ e) (fits : n ≤ 2 ^ f.precision)
    (full : e = f.minExp ∨ 2 ^ (f.precision - 1) ≤ n) : (f.settle s n e).Canonical f := by
  have smaller : 2 ^ (f.precision - 1) < 2 ^ f.precision := by cases f <;> decide
  simp only [settle]
  split
  · split
    · trivial
    · exact ⟨by omega, by omega, smaller, .inr le_rfl⟩
  · split
    · trivial
    · exact ⟨least, by omega, by omega, full⟩

theorem canonical_round (f : Format) (s : Bool) (num : ℕ) {den : ℕ} (hden : 0 < den) :
    (f.round s num den).Canonical f := by
  rcases Nat.eq_zero_or_pos num with rfl | hnum
  · exact f.canonical_zero s
  · obtain ⟨e, n, binade, nearest, rounded⟩ := f.round_spec s hnum hden
    rw [rounded]
    exact canonical_settle s binade.1 (nearest.le_of_le binade.lt_units.le)
      (binade.units_ge.imp_right nearest.le_of_ge)

theorem canonical_ofBinary (f : Format) (x : Binary) : (f.ofBinary x).Canonical f := by
  cases x with
  | nan => trivial
  | inf s => trivial
  | finite s m e => exact f.canonical_round s _ (Nat.two_pow_pos _)

end Format
end Postfix
