import Postfix.Value.Column
import Postfix.Value.Number
import Postfix.Proofs.Binary.Exact

/-! When values are the same number, and which numbers are doubles.
Numbers are compared exactly, whatever they are kept as; NaN is the same as NaN here. -/
namespace Postfix

theorem Exact.same_ratio {a c : ℤ} {b d : ℕ} (hb : 0 < b) (hd : 0 < d) :
    (Exact.ratio a b).same (.ratio c d) ↔ (a / b : ℚ) = c / d := by
  have hb : (b : ℚ) ≠ 0 := by positivity
  have hd : (d : ℚ) ≠ 0 := by positivity
  rw [Exact.same, decide_eq_true_eq, div_eq_div_iff hb hd]
  exact_mod_cast Iff.rfl

theorem Binary.ratio_value (s : Bool) (m : ℕ) (e : ℤ) :
    ((signed s (m * 2 ^ e.toNat) : ℤ) : ℚ) / (2 ^ (-e).toNat : ℕ) =
      (if s then -1 else 1) * (m * 2 ^ e) := by
  rw [signed_cast, mul_div_assoc, Format.dyadic_value]

/-! ### The sizes of words -/

theorem WordType.natAbs_lt {w : WordType} {n : ℤ} (inside : w.holds n) :
    n.natAbs < 2 ^ w.width.bits := by
  simp only [holds, Bool.and_eq_true, decide_eq_true_eq] at inside
  obtain ⟨s, b⟩ := w
  cases s <;> cases b <;>
    simp [WordType.minimum, WordType.maximum, Width.bits] at inside ⊢ <;> omega

theorem Width.bits_le_precision {w : Width} (narrow : w ≠ .w64) : w.bits ≤ w.format.precision := by
  cases w <;> first | decide | exact absurd rfl narrow

/-- Words of less than 64 bits are not rounded in a format that counts them. -/
theorem Format.ofInt_word {w : WordType} {n : ℤ} (inside : w.holds n) (narrow : w.width ≠ .w64)
    {g : Format} (wider : w.width.format.precision ≤ g.precision) :
    Binary.SameDatum (g.ofInt n) (Binary.whole n) := by
  refine g.ofInt_fits (Nat.lt_of_lt_of_le (w.natAbs_lt inside) ?_)
  exact Nat.pow_le_pow_right (by decide) ((Width.bits_le_precision narrow).trans wider)

namespace Value

def SameNumber (v w : Value) : Prop := v.sameNumber w ∨ (v.isNaN ∧ w.isNaN)

def HasDouble (v : Value) : Prop :=
  ∃ x : Binary, x.Canonical .double ∧ (float .double x).SameNumber v

theorem sameNumber_word {f : Format} {x : Binary} {w : WordType} {n : ℤ} :
    (float f x).sameNumber (word w n) ↔ NumericType.wholeBinary x = some n := by
  cases x with
  | nan => simp [sameNumber, number?, Binary.number?, NumericType.wholeBinary]
  | inf s => simp [sameNumber, number?, Binary.number?, Exact.same, NumericType.wholeBinary]
  | finite s m e =>
    simp only [sameNumber, number?, Binary.number?]
    rw [Exact.same_ratio (Nat.two_pow_pos _) Nat.one_pos, Binary.ratio_value,
      NumericType.wholeBinary_finite, Nat.cast_one, div_one, eq_comm]

theorem sameNumber_of_datum {v w : Value} {x y : Binary}
    (hv : v.number? = x.number? ∧ v.isNaN = x.isNaN)
    (hw : w.number? = y.number? ∧ w.isNaN = y.isNaN)
    (same : Binary.SameDatum x y) : v.SameNumber w := by
  unfold SameNumber sameNumber
  rw [hv.1, hv.2, hw.1, hw.2]
  cases x <;> cases y <;> first | exact same.elim | skip
  case nan.nan => exact .inr ⟨rfl, rfl⟩
  case inf.inf s t =>
    obtain rfl : s = t := same
    exact .inl (by simp [Binary.number?, Exact.same])
  case finite.finite s m d t n e =>
    obtain ⟨rfl, value⟩ := same
    refine .inl ?_
    simp only [Binary.number?]
    rw [Exact.same_ratio (Nat.two_pow_pos _) (Nat.two_pow_pos _), Binary.ratio_value,
      Binary.ratio_value, value]

theorem sameNumber_float {f g : Format} {x y : Binary} (same : Binary.SameDatum x y) :
    (float f x).SameNumber (float g y) :=
  sameNumber_of_datum ⟨rfl, rfl⟩ ⟨rfl, rfl⟩ same

/-- The double of an integer is the same number as soon as any double is. -/
theorem hasDouble_word {w : WordType} {n : ℤ} :
    (word w n).HasDouble ↔ NumericType.wholeBinary (Format.double.ofInt n) = some n := by
  constructor
  · rintro ⟨x, canonical, same | ⟨_, nan⟩⟩
    · exact NumericType.wholeBinary_ofInt canonical (sameNumber_word.mp same)
    · cases nan
  · intro held
    exact ⟨_, Format.double.canonical_round _ _ Nat.one_pos, .inl (sameNumber_word.mpr held)⟩

theorem hasDouble_float {f : Format} {x : Binary} (canonical : x.Canonical f) :
    (float f x).HasDouble := by
  have wider : f.precision ≤ Format.double.precision := by cases f <;> decide
  have same := Format.ofBinary_fits ((Binary.Canonical.fits canonical).mono wider)
  exact ⟨_, Format.double.canonical_ofBinary x, sameNumber_float same⟩

end Value
end Postfix
