import Postfix.Operand.Numeric
import Postfix.Proofs.Decimal.Interval

/-! Data of different formats that stand for the same value.
A rounding depends on the value alone, so a datum that fits a format keeps its value there, and what
is read off a value is read off alike in every format that the value fits. The sign of zero is part
of the value. -/
namespace Postfix

namespace Binary

/-- The same value, with the sign of zero, whatever the format. -/
def SameDatum : Binary → Binary → Prop
  | nan, nan => True
  | inf s, inf t => s = t
  | finite s m d, finite t n e => s = t ∧ (m * 2 ^ d : ℚ) = n * 2 ^ e
  | _, _ => False

/-- Some representation of the value has a significand of the format and an exponent that the format
has; it need not be full. -/
def Fits (f : Format) : Binary → Prop
  | finite _ m e => m < 2 ^ f.precision ∧ f.minExp ≤ e ∧ e ≤ f.maxExp
  | _ => True

theorem SameDatum.symm {x y : Binary} (same : SameDatum x y) : SameDatum y x := by
  cases x <;> cases y <;> first | exact same.elim | skip
  · trivial
  · exact Eq.symm same
  · exact ⟨same.1.symm, same.2.symm⟩

theorem SameDatum.trans {x y z : Binary} (first : SameDatum x y) (second : SameDatum y z) :
    SameDatum x z := by
  cases x <;> cases y <;> cases z <;> first | exact first.elim | exact second.elim | skip
  · trivial
  · exact Eq.trans first second
  · exact ⟨first.1.trans second.1, first.2.trans second.2⟩

theorem Canonical.fits {f : Format} {x : Binary} (canonical : x.Canonical f) : x.Fits f := by
  cases x with
  | finite s m e => exact ⟨canonical.2.2.1, canonical.1, canonical.2.1⟩
  | _ => trivial

theorem Fits.mono {f g : Format} (wider : f.precision ≤ g.precision) {x : Binary}
    (fits : x.Fits f) : x.Fits g := by
  cases x with
  | finite s m e =>
    have exps : g.minExp ≤ f.minExp ∧ f.maxExp ≤ g.maxExp := by
      revert wider
      cases f <;> cases g <;> decide
    obtain ⟨small, least, most⟩ := fits
    exact ⟨Nat.lt_of_lt_of_le small (Nat.pow_le_pow_right (by decide) wider),
      exps.1.trans least, most.trans exps.2⟩
  | _ => trivial

end Binary

theorem nearest_self (n : ℕ) : Nearest n n :=
  ⟨by linarith, by linarith, fun _ => ⟨by linarith, by linarith⟩⟩

namespace Format

open Binary

variable {f : Format}

theorem round_congr (f : Format) (s : Bool) {a b c d : ℕ} (hb : 0 < b) (hd : 0 < d)
    (same : (a / b : ℚ) = c / d) : f.round s a b = f.round s c d := by
  rcases Nat.eq_zero_or_pos a with rfl | ha
  · have none : c = 0 := by
      have scale : (d : ℚ) ≠ 0 := by positivity
      have zero : (c / d : ℚ) = 0 := by rw [← same]; simp
      rw [div_eq_zero_iff] at zero
      exact_mod_cast zero.resolve_right scale
    rw [none]
    rfl
  · have hc : 0 < c := by
      have positive : (0 : ℚ) < c / d := by rw [← same]; positivity
      by_contra none
      simp [Nat.eq_zero_of_not_pos none] at positive
    obtain ⟨e, n, binade, nearest, rounded⟩ := f.round_spec s ha hb
    rw [same] at binade nearest
    rw [rounded, round_eq_settle s hc hd binade nearest]

theorem ofBinary_congr (f : Format) {x y : Binary} (same : SameDatum x y) :
    f.ofBinary x = f.ofBinary y := by
  cases x <;> cases y <;> first | exact same.elim | skip
  case nan.nan => rfl
  case inf.inf s t =>
    obtain rfl : s = t := same
    rfl
  case finite.finite s m d t n e =>
    obtain ⟨rfl, value⟩ := same
    refine f.round_congr s (Nat.two_pow_pos _) (Nat.two_pow_pos _) ?_
    rw [dyadic_value, dyadic_value, value]

/-- A number with a significand of the format is not rounded. -/
theorem roundDyadic_fits {s : Bool} {m : ℕ} {e : ℤ} (fits : (Binary.finite s m e).Fits f) :
    SameDatum (f.roundDyadic s m e) (.finite s m e) := by
  obtain ⟨small, least, most⟩ := fits
  rcases Nat.eq_zero_or_pos m with rfl | positive
  · rw [roundDyadic, Nat.zero_mul, round, if_pos rfl]
    exact ⟨rfl, by simp⟩
  · have value : (0 : ℚ) < m * 2 ^ e := mul_pos (by exact_mod_cast positive) (two_zpow_pos e)
    have hnum : 0 < m * 2 ^ e.toNat := Nat.mul_pos positive (Nat.two_pow_pos _)
    obtain ⟨d, n, binade, nearest, rounded⟩ := f.round_spec s hnum (Nat.two_pow_pos (-e).toNat)
    rw [dyadic_value] at binade nearest
    -- The spacing around the number is at most that of its own representation.
    have below : d ≤ e := by
      rcases binade.2.2 with home | full
      · omega
      · have top : (m * 2 ^ e : ℚ) < 2 ^ (f.precision + e) := by
          rw [zpow_add₀ (by norm_num), zpow_natCast]
          exact mul_lt_mul_of_pos_right (by exact_mod_cast small) (two_zpow_pos e)
        have powers := lt_of_le_of_lt full top
        rw [zpow_lt_zpow_iff_right₀ (by norm_num)] at powers
        omega
    obtain ⟨k, rfl⟩ : ∃ k : ℕ, e = d + k := ⟨(e - d).toNat, by omega⟩
    have units : (m * 2 ^ (d + k : ℤ) : ℚ) / 2 ^ d = (m * 2 ^ k : ℕ) := by
      have := two_zpow_pos d
      rw [zpow_add₀ (by norm_num), zpow_natCast]
      push_cast
      field_simp
    rw [units] at nearest
    obtain rfl := nearest.unique (nearest_self _)
    have room := binade.lt_units
    rw [units] at room
    have room : m * 2 ^ k < 2 ^ f.precision := by exact_mod_cast room
    rw [roundDyadic, rounded, settle, if_neg room.ne, if_neg (by omega)]
    refine ⟨rfl, ?_⟩
    rw [zpow_add₀ (by norm_num), zpow_natCast]
    push_cast
    ring

theorem ofBinary_fits {x : Binary} (fits : x.Fits f) : SameDatum (f.ofBinary x) x := by
  cases x with
  | nan => trivial
  | inf s => rfl
  | finite s m e => exact roundDyadic_fits fits

end Format

namespace Binary

def whole (n : ℤ) : Binary := .finite (n < 0) n.natAbs 0

end Binary

namespace Format

open Binary

theorem ofInt_eq (f : Format) (n : ℤ) : f.ofInt n = f.ofBinary (whole n) := by
  simp [ofInt, ofBinary, whole, roundDyadic]

theorem fits_whole {f : Format} {n : ℤ} (small : n.natAbs < 2 ^ f.precision) :
    (whole n).Fits f := by
  refine ⟨small, ?_, ?_⟩ <;> cases f <;> decide

theorem ofInt_fits {f : Format} {n : ℤ} (small : n.natAbs < 2 ^ f.precision) :
    SameDatum (f.ofInt n) (whole n) := by
  rw [ofInt_eq]
  exact ofBinary_fits (fits_whole small)

end Format

/-! ### What is read off a value -/

namespace Binary

theorem signed_cast (s : Bool) (n : ℕ) : ((signed s n : ℤ) : ℚ) = (if s then -1 else 1) * n := by
  cases s <;> simp [signed]

end Binary

namespace NumericType

open Binary

theorem wholeBinary_finite {s : Bool} {m : ℕ} {e : ℤ} {k : ℤ} :
    wholeBinary (.finite s m e) = some k ↔ (k : ℚ) = (if s then -1 else 1) * (m * 2 ^ e) := by
  rw [← Format.dyadic_value, wholeBinary]
  generalize m * 2 ^ e.toNat = a
  have positive : 0 < 2 ^ (-e).toNat := Nat.two_pow_pos _
  generalize 2 ^ (-e).toNat = b at *
  have scale : (b : ℚ) ≠ 0 := by positivity
  split
  · rename_i divides
    obtain ⟨c, rfl⟩ := Nat.dvd_of_mod_eq_zero divides
    have quotient : ((b * c : ℕ) : ℚ) / b = c := by
      push_cast
      field_simp
    rw [Nat.mul_div_cancel_left c positive, Option.some.injEq, quotient, ← signed_cast,
      Int.cast_inj, eq_comm]
  · rename_i apart
    constructor
    · intro h; cases h
    · intro value
      have product : (a : ℚ) = (k.natAbs * b : ℕ) := by
        have size : ((k.natAbs : ℕ) : ℚ) = a / b := by
          rw [Nat.cast_natAbs, Int.cast_abs, value]
          have : (0 : ℚ) ≤ a / b := by positivity
          cases s <;> simp [abs_of_nonneg this]
        push_cast
        rw [size]
        field_simp
      have whole : a = k.natAbs * b := by exact_mod_cast product
      rw [whole, Nat.mul_mod_left] at apart
      exact absurd rfl apart

theorem wholeBinary_congr {x y : Binary} (same : SameDatum x y) :
    wholeBinary x = wholeBinary y := by
  cases x <;> cases y <;> first | exact same.elim | skip
  case nan.nan => rfl
  case inf.inf => rfl
  case finite.finite s m d t n e =>
    obtain ⟨rfl, value⟩ := same
    apply Option.ext
    intro k
    rw [wholeBinary_finite, wholeBinary_finite, value]

theorem wholeBinary_whole (n : ℤ) : wholeBinary (whole n) = some n := by
  rw [whole, wholeBinary_finite, zpow_zero, mul_one, Nat.cast_natAbs, Int.cast_abs]
  by_cases below : n < 0
  · have : (n : ℚ) < 0 := by exact_mod_cast below
    simp [below, abs_of_neg this]
  · have : (0 : ℚ) ≤ n := by exact_mod_cast not_lt.mp below
    simp [below, abs_of_nonneg this]

theorem sameDatum_whole {x : Binary} {n : ℤ} (value : wholeBinary x = some n) (other : n ≠ 0) :
    SameDatum x (whole n) := by
  cases x with
  | nan => cases value
  | inf s => cases value
  | finite s m e =>
    rw [wholeBinary_finite] at value
    have size : (0 : ℚ) ≤ m * 2 ^ e := mul_nonneg (Nat.cast_nonneg m) (two_zpow_pos e).le
    have apart : (n : ℚ) ≠ 0 := by exact_mod_cast other
    rw [whole, SameDatum, zpow_zero, mul_one, Nat.cast_natAbs, Int.cast_abs]
    cases s with
    | true =>
      have below : (n : ℚ) < 0 := lt_of_le_of_ne (by rw [value]; simpa using size) apart
      rw [abs_of_neg below, value]
      have : n < 0 := by exact_mod_cast below
      simp [this]
    | false =>
      have above : (0 : ℚ) ≤ n := by rw [value]; simpa using size
      rw [abs_of_nonneg above, value]
      have : ¬ n < 0 := by
        have : 0 ≤ n := by exact_mod_cast above
        omega
      simp [this]

theorem wholeBinary_ofInt {f : Format} {x : Binary} {n : ℤ} (canonical : x.Canonical f)
    (value : wholeBinary x = some n) : wholeBinary (f.ofInt n) = some n := by
  by_cases zero : n = 0
  · have small : n.natAbs < 2 ^ f.precision := by
      rw [zero]
      exact Nat.two_pow_pos _
    rw [wholeBinary_congr (Format.ofInt_fits small), wholeBinary_whole]
  · rw [Format.ofInt_eq, ← Format.ofBinary_congr f (sameDatum_whole value zero),
      Format.ofBinary_eq_self canonical, value]

end NumericType
end Postfix
