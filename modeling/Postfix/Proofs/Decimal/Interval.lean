import Postfix.Decimal.Shortest
import Postfix.Decimal.Literal
import Postfix.Proofs.Binary.Rounding

/-! The interval of a datum: every number in it rounds to the datum.
This is one direction only, and the one that reading needs; that nothing outside of the interval
rounds to the datum is not used. A literal whose value lies in the interval of a datum is read as
that datum, however far its digits are from the scale at which exponents are settled at once. -/
namespace Postfix

open Decimal

/-- The numbers that lie in the interval around `m * 2 ^ e`. -/
structure Identifies (f : Format) (m : ℕ) (e : ℤ) (q : ℚ) : Prop where
  lower : (lowEnd f m e : ℚ) * 2 ^ (e - 2) ≤ q
  upper : q ≤ (highEnd m : ℚ) * 2 ^ (e - 2)
  strict : m % 2 = 1 → (lowEnd f m e : ℚ) * 2 ^ (e - 2) < q ∧ q < (highEnd m : ℚ) * 2 ^ (e - 2)

variable {f : Format} {s : Bool} {m : ℕ} {e : ℤ} {q : ℚ}

theorem lowEnd_ge (f : Format) {m : ℕ} (positive : 0 < m) (e : ℤ) :
    (4 * m - 2 : ℚ) ≤ lowEnd f m e := by
  have : 4 * m ≤ lowEnd f m e + 2 := by
    unfold lowEnd
    split <;> omega
  have : (4 * m : ℚ) ≤ lowEnd f m e + 2 := by exact_mod_cast this
  linarith

theorem highEnd_cast (m : ℕ) : (highEnd m : ℚ) = 4 * m + 2 := by simp [highEnd]

theorem two_zpow_quarter (e : ℤ) : (2 : ℚ) ^ e = 4 * 2 ^ (e - 2) := by
  rw [two_zpow_pred, two_zpow_half]
  ring

theorem Identifies.pos (positive : 0 < m) (inside : Identifies f m e q) : 0 < q := by
  have low := lowEnd_ge f positive e
  have unit := two_zpow_pos (e - 2)
  have one : (1 : ℚ) ≤ m := by exact_mod_cast positive
  nlinarith [inside.lower]

theorem Identifies.lt (full : m < 2 ^ f.precision) (inside : Identifies f m e q) :
    q < 2 ^ (f.precision + e) := by
  have unit := two_zpow_pos (e - 2)
  have top : (m : ℚ) + 1 ≤ 2 ^ f.precision := by exact_mod_cast full
  have upper := inside.upper
  have high := highEnd_cast m
  rw [zpow_add₀ (by norm_num), zpow_natCast, two_zpow_quarter e]
  nlinarith

theorem Identifies.nearest (positive : 0 < m) (inside : Identifies f m e q) :
    Nearest (q / 2 ^ e) m := by
  have unit := two_zpow_pos (e - 2)
  have low := lowEnd_ge f positive e
  have high := highEnd_cast m
  obtain ⟨lower, upper, strict⟩ := inside
  rw [high] at upper strict
  have scaled : q = 4 * (q / 2 ^ e) * 2 ^ (e - 2) := by
    rw [two_zpow_quarter e]
    field_simp
  generalize q / 2 ^ e = x at *
  subst scaled
  have cancel : ∀ {a b : ℚ}, a * 2 ^ (e - 2) ≤ b * 2 ^ (e - 2) → a ≤ b :=
    fun h => le_of_mul_le_mul_right h unit
  have cancel' : ∀ {a b : ℚ}, a * 2 ^ (e - 2) < b * 2 ^ (e - 2) → a < b :=
    fun h => lt_of_mul_lt_mul_right h unit.le
  refine ⟨by linarith [cancel lower], by linarith [cancel upper], fun odd => ?_⟩
  obtain ⟨below, above⟩ := strict odd
  exact ⟨by linarith [cancel' below], by linarith [cancel' above]⟩

theorem two_zpow_binade (f : Format) (e : ℤ) :
    (2 : ℚ) ^ (f.precision + e - 1) = 4 * (2 ^ (f.precision - 1) : ℕ) * 2 ^ (e - 2) := by
  have split : (f.precision : ℤ) + e - 1 = (f.precision - 1 : ℕ) + 2 + (e - 2) := by
    have := f.precision_pos
    omega
  have two : (2 : ℚ) ≠ 0 := by norm_num
  rw [split, zpow_add₀ two, zpow_add₀ two, zpow_natCast, show (2 : ℚ) ^ (2 : ℤ) = 4 by norm_num]
  push_cast
  ring

theorem lowEnd_first (above : f.minExp < e) :
    (lowEnd f (2 ^ (f.precision - 1)) e : ℚ) = 4 * (2 ^ (f.precision - 1) : ℕ) - 1 := by
  have : lowEnd f (2 ^ (f.precision - 1)) e + 1 = 4 * 2 ^ (f.precision - 1) := by
    unfold lowEnd
    rw [if_pos ⟨rfl, above⟩]
    have := Nat.two_pow_pos (f.precision - 1)
    omega
  have : ((lowEnd f (2 ^ (f.precision - 1)) e + 1 : ℕ) : ℚ) = (4 * 2 ^ (f.precision - 1) : ℕ) := by
    rw [this]
  push_cast at this ⊢
  linarith

/-- Only the first significand of a binade has numbers of the binade below in its interval. -/
theorem Identifies.first (full : 2 ^ (f.precision - 1) ≤ m) (inside : Identifies f m e q)
    (below : q < 2 ^ (f.precision + e - 1)) : m = 2 ^ (f.precision - 1) := by
  by_contra other
  have low : 4 * 2 ^ (f.precision - 1) ≤ lowEnd f m e := by
    unfold lowEnd
    rw [if_neg fun h => other h.1]
    omega
  have low : ((4 * 2 ^ (f.precision - 1) : ℕ) : ℚ) ≤ lowEnd f m e := by exact_mod_cast low
  rw [two_zpow_binade] at below
  push_cast at low below
  have unit := two_zpow_pos (e - 2)
  nlinarith [inside.lower]

theorem Identifies.fills (inside : Identifies f (2 ^ (f.precision - 1)) e q)
    (above : f.minExp < e) (below : q < 2 ^ (f.precision + e - 1)) :
    f.InBinade q (e - 1) ∧ Nearest (q / 2 ^ (e - 1)) (2 ^ f.precision) := by
  have unit := two_zpow_pos (e - 2)
  have lower := inside.lower
  have double : ((2 ^ f.precision : ℕ) : ℚ) = 2 * (2 ^ (f.precision - 1) : ℕ) := by
    cases f <;> norm_num [Format.precision]
  have even : 2 ^ f.precision % 2 = 0 := by cases f <;> decide
  have one : (1 : ℚ) ≤ (2 ^ (f.precision - 1) : ℕ) := by
    exact_mod_cast Nat.two_pow_pos (f.precision - 1)
  have step := two_zpow_half e
  have halved : (2 : ℚ) ^ (f.precision + e - 1) = 2 * 2 ^ (f.precision + (e - 1) - 1) := by
    rw [two_zpow_pred, add_sub_assoc]
  rw [lowEnd_first above] at lower
  refine ⟨⟨by omega, by rw [← add_sub_assoc]; exact below, .inr ?_⟩, ?_⟩
  · rw [two_zpow_binade] at halved
    nlinarith
  · rw [two_zpow_binade] at below
    rw [Nearest, double, step]
    have scaled : q = q / (2 * 2 ^ (e - 2)) * (2 * 2 ^ (e - 2)) := by field_simp
    generalize q / (2 * 2 ^ (e - 2)) = x at *
    subst scaled
    exact ⟨by nlinarith, by nlinarith, by omega⟩

theorem Identifies.num_pos (positive : 0 < m) {num den : ℕ}
    (inside : Identifies f m e (num / den)) : 0 < num := by
  have := inside.pos positive
  by_contra zero
  simp [Nat.eq_zero_of_not_pos zero] at this

theorem round_eq_finite (canonical : (Binary.finite s m e).Canonical f) (positive : 0 < m)
    {num den : ℕ} (hden : 0 < den) (inside : Identifies f m e (num / den)) :
    f.round s num den = .finite s m e := by
  have hnum := inside.num_pos positive
  have ⟨least, most, fits, _⟩ := canonical
  by_cases home : e = f.minExp ∨ (2 : ℚ) ^ (f.precision + e - 1) ≤ num / den
  · rw [Format.round_eq_settle s hnum hden ⟨least, inside.lt fits, home⟩ (inside.nearest positive),
      Format.settle, if_neg fits.ne, if_neg (by omega)]
  · rw [not_or, not_le] at home
    have above := lt_of_le_of_ne least (Ne.symm home.1)
    obtain rfl := inside.first (canonical.2.2.2.resolve_left home.1) home.2
    obtain ⟨binade, nearest⟩ := inside.fills above home.2
    rw [Format.round_eq_settle s hnum hden binade nearest, Format.settle, if_pos rfl,
      if_neg (by omega), sub_add_cancel]

/-! ### Data that are already there -/

theorem identifies_self (f : Format) {m : ℕ} (positive : 0 < m) (e : ℤ) :
    Identifies f m e (m * 2 ^ e) := by
  have unit := two_zpow_pos (e - 2)
  have low : (lowEnd f m e : ℚ) < 4 * m := by
    have : lowEnd f m e < 4 * m := by
      unfold lowEnd
      split <;> omega
    exact_mod_cast this
  have high := highEnd_cast m
  rw [two_zpow_quarter e]
  have below : (lowEnd f m e : ℚ) * 2 ^ (e - 2) < m * (4 * 2 ^ (e - 2)) := by nlinarith
  have above : (m : ℚ) * (4 * 2 ^ (e - 2)) < highEnd m * 2 ^ (e - 2) := by nlinarith
  exact ⟨below.le, above.le, fun _ => ⟨below, above⟩⟩

namespace Format

theorem dyadic_value (m : ℕ) (e : ℤ) :
    ((m * 2 ^ e.toNat : ℕ) : ℚ) / (2 ^ (-e).toNat : ℕ) = m * 2 ^ e := by
  have moved := zpow_toNat (b := 2) (by norm_num) e
  push_cast
  rw [moved]
  field_simp

theorem ofBinary_eq_finite (canonical : (Binary.finite s m e).Canonical f) (positive : 0 < m)
    {n : ℕ} {d : ℤ} (inside : Identifies f m e (n * 2 ^ d)) :
    f.ofBinary (.finite s n d) = .finite s m e := by
  refine round_eq_finite canonical positive (Nat.two_pow_pos _) ?_
  rw [dyadic_value]
  exact inside

theorem ofBinary_eq_self {x : Binary} (canonical : x.Canonical f) : f.ofBinary x = x := by
  cases x with
  | nan => rfl
  | inf s => rfl
  | finite s m e =>
    rcases Nat.eq_zero_or_pos m with rfl | positive
    · have least : e = f.minExp := by
        refine canonical.2.2.2.resolve_right fun h => ?_
        have := Nat.two_pow_pos (f.precision - 1)
        omega
      simp [ofBinary, roundDyadic, round, zero, least]
    · exact ofBinary_eq_finite canonical positive (identifies_self f positive e)

theorem limits_le (f : Format) : f.precision + f.maxExp ≤ 1024 ∧ -1074 ≤ f.minExp := by
  cases f <;> decide

end Format

/-! ### Decimal scaling -/

theorem scaled_pos {c : ℕ} {x : ℤ} (positive : (0 : ℚ) < c * 10 ^ x) : 0 < c := by
  by_contra zero
  simp [Nat.eq_zero_of_not_pos zero] at positive

theorem two_zpow_le_ten_zpow (n : ℕ) : (2 : ℚ) ^ (3 * n : ℤ) ≤ 10 ^ (n : ℤ) := by
  rw [zpow_mul, zpow_natCast, zpow_natCast]
  exact pow_le_pow_left₀ (by norm_num) (by norm_num) n

theorem scaled_huge {c : ℕ} {x : ℤ} (positive : 0 < c) (above : 400 < x) :
    (2 : ℚ) ^ (1024 : ℤ) ≤ c * 10 ^ x := by
  have one : (1 : ℚ) ≤ c := by exact_mod_cast positive
  have power : (0 : ℚ) < 10 ^ x := zpow_pos (by norm_num) x
  calc (2 : ℚ) ^ (1024 : ℤ) ≤ 2 ^ (3 * (401 : ℕ) : ℤ) :=
        zpow_le_zpow_right₀ (by norm_num) (by norm_num)
    _ ≤ 10 ^ (401 : ℤ) := two_zpow_le_ten_zpow 401
    _ ≤ 10 ^ x := zpow_le_zpow_right₀ (by norm_num) (by omega)
    _ ≤ c * 10 ^ x := le_mul_of_one_le_left power.le one

theorem scaled_tiny {c : ℕ} {x : ℤ} (below : x < -(401 + Nat.log2 c : ℕ)) :
    (c : ℚ) * 10 ^ x < 2 ^ (-1075 : ℤ) := by
  have coefficient : (c : ℚ) < 2 * 2 ^ Nat.log2 c := by
    have : c < 2 ^ (Nat.log2 c + 1) := Nat.lt_log2_self
    have : c < 2 * 2 ^ Nat.log2 c := by rw [Nat.pow_succ] at this; omega
    exact_mod_cast this
  have tiny : (10 : ℚ) ^ x * 2 ^ Nat.log2 c ≤ 10 ^ (-402 : ℤ) := by
    have scale : (0 : ℚ) < 2 ^ Nat.log2 c := by positivity
    rw [← le_div_iff₀ scale]
    have small : (10 : ℚ) ^ x ≤ 10 ^ (-402 - (Nat.log2 c : ℤ)) :=
      zpow_le_zpow_right₀ (by norm_num) (by omega)
    refine le_trans small ?_
    rw [zpow_sub₀ (by norm_num), zpow_natCast]
    gcongr
    norm_num
  have power : (0 : ℚ) < 10 ^ x := zpow_pos (by norm_num) x
  have gap : (10 : ℚ) ^ (-402 : ℤ) ≤ 2 ^ (-1076 : ℤ) := by
    rw [zpow_neg, zpow_neg]
    refine inv_anti₀ (two_zpow_pos _) ?_
    exact le_trans (zpow_le_zpow_right₀ (by norm_num) (by norm_num)) (two_zpow_le_ten_zpow 402)
  calc (c : ℚ) * 10 ^ x < 2 * 2 ^ Nat.log2 c * 10 ^ x := mul_lt_mul_of_pos_right coefficient power
    _ = 2 * (10 ^ x * 2 ^ Nat.log2 c) := by ring
    _ ≤ 2 * 2 ^ (-1076 : ℤ) := by linarith
    _ = 2 ^ (-1075 : ℤ) := by rw [two_zpow_pred (-1075)]; norm_num

namespace Format

theorem round_huge (f : Format) (s : Bool) {num den : ℕ} (hnum : 0 < num) (hden : 0 < den)
    (huge : (2 : ℚ) ^ (1024 : ℤ) ≤ num / den) : f.round s num den = .inf s := by
  obtain ⟨e, n, binade, _, rounded⟩ := f.round_spec s hnum hden
  have powers := huge.trans_lt binade.2.1
  rw [zpow_lt_zpow_iff_right₀ (by norm_num)] at powers
  have limits := f.limits_le.1
  rw [rounded, settle, if_pos (show f.maxExp < e + 1 by omega),
    if_pos (show f.maxExp < e by omega), ite_self]

theorem round_tiny (f : Format) (s : Bool) {num den : ℕ} (hnum : 0 < num) (hden : 0 < den)
    (tiny : (num / den : ℚ) < 2 ^ (-1075 : ℤ)) : f.round s num den = f.zero s := by
  obtain ⟨e, n, binade, nearest, rounded⟩ := f.round_spec s hnum hden
  have limits := f.limits_le.2
  have least : e = f.minExp := by
    refine binade.2.2.resolve_right fun full => ?_
    have powers := full.trans_lt tiny
    rw [zpow_lt_zpow_iff_right₀ (by norm_num)] at powers
    have := f.precision_pos
    have := binade.1
    omega
  have small : (num / den / 2 ^ e : ℚ) < 1 / 2 := by
    rw [div_lt_iff₀ (two_zpow_pos e)]
    have unit : (2 : ℚ) ^ (-1075 : ℤ) ≤ 2 ^ (e - 1) :=
      zpow_le_zpow_right₀ (by norm_num) (by omega)
    have half := two_zpow_pred e
    linarith
  have none : n = 0 := by
    have : (n : ℚ) < 1 := by linarith [nearest.1]
    have : n < 1 := by exact_mod_cast this
    omega
  have room : ¬ f.maxExp < f.minExp := by cases f <;> decide
  rw [rounded, least, none, settle, if_neg (Nat.two_pow_pos _).ne, if_neg room]
  rfl

end Format

theorem scaled_value (c : ℕ) (x : ℤ) :
    ((c * 10 ^ x.toNat : ℕ) : ℚ) / (10 ^ (-x).toNat : ℕ) = c * 10 ^ x := by
  have moved := zpow_toNat (b := 10) (by norm_num) x
  push_cast
  rw [moved]
  field_simp

/-- What is settled at once is what rounding would give. -/
theorem ofScaled_eq_round (f : Format) (s : Bool) (c : ℕ) (x : ℤ) :
    ofScaled f s c x = f.round s (c * 10 ^ x.toNat) (10 ^ (-x).toNat) := by
  unfold ofScaled
  split
  · rename_i none
    rw [none, Nat.zero_mul, Format.round, if_pos rfl]
  · rename_i some
    have positive : 0 < c := Nat.pos_of_ne_zero some
    have hnum : 0 < c * 10 ^ x.toNat := Nat.mul_pos positive (Nat.pow_pos (by decide))
    have hden : 0 < 10 ^ (-x).toNat := Nat.pow_pos (by decide)
    split
    · rename_i above
      exact (f.round_huge s hnum hden (scaled_value c x ▸ scaled_huge positive above)).symm
    · split
      · rename_i below
        exact (f.round_tiny s hnum hden (scaled_value c x ▸ scaled_tiny below)).symm
      · rfl

theorem ofScaled_eq_finite (canonical : (Binary.finite s m e).Canonical f) (positive : 0 < m)
    {c : ℕ} {x : ℤ} (inside : Identifies f m e (c * 10 ^ x)) :
    ofScaled f s c x = .finite s m e := by
  rw [ofScaled_eq_round]
  refine round_eq_finite canonical positive (Nat.pow_pos (by decide)) ?_
  rw [scaled_value]
  exact inside

end Postfix
