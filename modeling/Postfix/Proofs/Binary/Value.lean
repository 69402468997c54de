import Postfix.Binary.Arithmetic
import Postfix.Proofs.Binary.Exact

/-! Data by their sign and their value.
What an operation gives is known from the signs and the values of its operands as soon as the format
holds the exact result: it is then the only datum of the format with this sign and this value. -/
namespace Postfix

namespace Binary

def direction (s : Bool) : ℚ := if s then -1 else 1

@[simp] theorem direction_false : direction false = 1 := rfl

@[simp] theorem direction_true : direction true = -1 := rfl

theorem abs_direction_mul (s : Bool) {r : ℚ} (least : 0 ≤ r) : |direction s * r| = r := by
  cases s <;> simp [abs_of_nonneg least]

theorem signed_direction (s : Bool) (n : ℕ) : ((signed s n : ℤ) : ℚ) = direction s * n :=
  signed_cast s n

/-- A finite datum with the sign, which zero has as well, and the value. -/
inductive HasValue (s : Bool) (q : ℚ) : Binary → Prop
  | intro {m : ℕ} {e : ℤ} (value : direction s * (m * 2 ^ e) = q) : HasValue s q (finite s m e)

variable {f : Format} {x y z : Binary} {s t u : Bool} {p q : ℚ}

theorem HasValue.sameDatum (hx : x.HasValue s q) (hy : y.HasValue s q) : SameDatum x y := by
  cases hx with
  | intro first =>
    cases hy with
    | intro second =>
      refine ⟨rfl, ?_⟩
      rw [← second] at first
      apply mul_left_cancel₀ _ first
      cases s <;> simp

theorem SameDatum.hasValue (same : SameDatum x y) (hy : y.HasValue s q) : x.HasValue s q := by
  cases hy with
  | intro value =>
    cases x <;> first | exact same.elim | skip
    obtain ⟨rfl, equal⟩ := same
    rw [← equal] at value
    exact .intro value

theorem Canonical.eq_of_hasValue (first : x.Canonical f) (second : y.Canonical f)
    (hx : x.HasValue s q) (hy : y.HasValue s q) : x = y := by
  rw [← Format.ofBinary_eq_self first, ← Format.ofBinary_eq_self second]
  exact f.ofBinary_congr (hx.sameDatum hy)

theorem HasValue.neg (hx : x.HasValue s q) : x.neg.HasValue (!s) (-q) := by
  cases hx with
  | intro value =>
    refine .intro ?_
    rw [← value]
    cases s <;> simp

theorem HasValue.signed_abs (hx : x.HasValue s q) : direction s * |q| = q := by
  cases hx with
  | @intro m e value =>
    have size : (0 : ℚ) ≤ m * 2 ^ e := mul_nonneg (Nat.cast_nonneg m) (two_zpow_pos e).le
    rw [← value, abs_direction_mul s size]

theorem HasValue.abs (hx : x.HasValue s q) : x.abs.HasValue false |q| := by
  cases hx with
  | @intro m e value =>
    have size : (0 : ℚ) ≤ m * 2 ^ e := mul_nonneg (Nat.cast_nonneg m) (two_zpow_pos e).le
    refine .intro ?_
    rw [← value, abs_direction_mul s size, direction_false, one_mul]

theorem HasValue.sign (hx : x.HasValue s q) (other : q ≠ 0) : s = decide (q < 0) := by
  have size : 0 < |q| := abs_pos.mpr other
  have value := hx.signed_abs
  cases s with
  | false =>
    have above : 0 ≤ q := by
      rw [← value]
      simp
    exact (decide_eq_false (not_lt.mpr above)).symm
  | true =>
    have below : q < 0 := by
      rw [← value]
      simpa using size
    exact (decide_eq_true below).symm

theorem HasValue.copySign (hx : x.HasValue s q) (hy : y.HasValue t p) :
    (x.copySign y).HasValue t (direction t * |q|) := by
  have sign : y.negative = t := by
    cases hy with
    | intro value => rfl
  rw [Binary.copySign, sign]
  cases t with
  | false =>
    rw [direction_false, one_mul]
    exact hx.abs
  | true =>
    rw [direction_true, neg_one_mul]
    exact hx.abs.neg

theorem hasValue_zero (f : Format) (s : Bool) : (f.zero s).HasValue s 0 := .intro (by simp)

theorem hasValue_integer (n e : ℤ) : (finite (n < 0) n.natAbs e).HasValue (n < 0) (n * 2 ^ e) := by
  refine .intro ?_
  rw [← mul_assoc, Nat.cast_natAbs, Int.cast_abs]
  by_cases below : n < 0
  · have : (n : ℚ) < 0 := by exact_mod_cast below
    simp [below, abs_of_neg this]
  · have : (0 : ℚ) ≤ n := by exact_mod_cast not_lt.mp below
    simp [below, abs_of_nonneg this]

theorem aligned (s : Bool) (m : ℕ) {d low : ℤ} (below : low ≤ d) :
    (signed s (m * 2 ^ (d - low).toNat) : ℚ) * 2 ^ low = direction s * (m * 2 ^ d) := by
  have power : (2 : ℚ) ^ (d - low).toNat * 2 ^ low = 2 ^ d := by
    rw [← zpow_natCast, Int.toNat_of_nonneg (by omega), ← zpow_add₀ (by norm_num), sub_add_cancel]
  rw [signed_direction, ← power]
  push_cast
  ring

theorem HasValue.le_iff (hx : x.HasValue s p) (hy : y.HasValue t q) : le x y = true ↔ p ≤ q := by
  cases hx with
  | @intro m d first =>
    cases hy with
    | @intro n e second =>
      have unit := two_zpow_pos (min d e)
      rw [← first, ← second, ← aligned s m (min_le_left d e), ← aligned t n (min_le_right d e),
        mul_le_mul_iff_left₀ unit, Int.cast_le, le, decide_eq_true_eq]

theorem add_exact (hx : x.HasValue s p) (hy : y.HasValue t q) (hz : z.HasValue u (p + q))
    (fits : z.Fits f) (zero : p + q = 0 → u = (s && t)) : (add f x y).HasValue u (p + q) := by
  obtain @⟨m, d, rfl⟩ := hx
  obtain @⟨n, e, rfl⟩ := hy
  have sum := congrArg₂ (· + ·) (aligned s m (min_le_left d e)) (aligned t n (min_le_right d e))
  simp only [← add_mul, ← Int.cast_add] at sum
  rw [← sum] at hz zero ⊢
  simp only [add]
  have unit := two_zpow_pos (min d e)
  generalize signed s (m * 2 ^ (d - min d e).toNat) + signed t (n * 2 ^ (e - min d e).toNat) = total
    at *
  split
  · rename_i none
    subst none
    rw [zero (by simp), Int.cast_zero, zero_mul]
    exact hasValue_zero f _
  · rename_i other
    have sum := hasValue_integer total (min d e)
    have apart : (total : ℚ) * 2 ^ min d e ≠ 0 := mul_ne_zero (by exact_mod_cast other) unit.ne'
    obtain rfl : u = decide (total < 0) := (hz.sign apart).trans (sum.sign apart).symm
    have rounded : f.roundDyadic (total < 0) total.natAbs (min d e) = f.ofBinary z :=
      f.ofBinary_congr (sum.sameDatum hz)
    rw [rounded]
    exact (Format.ofBinary_fits fits).hasValue hz

theorem hasValue_sub_same (hx : x.HasValue s q) (hy : y.HasValue s q) :
    (sub f x y).HasValue false 0 := by
  have none := hasValue_zero f false
  rw [← add_neg_cancel q] at none ⊢
  apply add_exact hx hy.neg none (f.canonical_zero false).fits
  simp

theorem hasValue_half (f : Format) : (f.round false 1 2).HasValue false (1 / 2) := by
  have fits : (finite false 1 (-1)).Fits f := by refine ⟨?_, ?_, ?_⟩ <;> cases f <;> decide
  exact (Format.roundDyadic_fits fits).hasValue (.intro (by norm_num))

theorem hasValue_one (f : Format) : (f.ofInt 1).HasValue false 1 := by
  have small : (1 : ℤ).natAbs < 2 ^ f.precision := by cases f <;> decide
  exact (Format.ofInt_fits small).hasValue (.intro (by norm_num))

end Binary
end Postfix
