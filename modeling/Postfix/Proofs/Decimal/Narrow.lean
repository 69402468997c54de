import Postfix.Proofs.Decimal.Literal
import Postfix.Proofs.Decimal.Separation

/-! Reading the text of a datum of 32 bits, which is rounded twice.
The first rounding, to 64 bits, does not leave the interval of the datum, since the ends of the
interval are data of 64 bits themselves; but it may move the number onto an end, and an end belongs
to the interval only if the significand is even. For the digits that are written this happens to a
single magnitude. -/
namespace Postfix

open Decimal

variable {s : Bool} {m : ℕ} {e : ℤ} {q : ℚ}

/-! ### The first rounding -/

theorem inBinade_double_le (canonical : (Binary.finite s m e).Canonical .single)
    (inside : Identifies .single m e q) {d : ℤ} (binade : Format.double.InBinade q d) :
    d ≤ e - 29 := by
  have least : -149 ≤ e := canonical.1
  rcases binade.2.2 with bottom | full
  · have : d = -1074 := bottom
    omega
  · have powers := lt_of_le_of_lt full (inside.lt canonical.2.2.1)
    rw [zpow_lt_zpow_iff_right₀ (by norm_num)] at powers
    simp only [Format.precision] at powers
    omega

theorem exists_units (k : ℕ) {d : ℤ} (finer : d ≤ e - 2) :
    ∃ n : ℕ, (n : ℚ) * 2 ^ d = k * 2 ^ (e - 2) := by
  refine ⟨k * 2 ^ (e - 2 - d).toNat, ?_⟩
  push_cast
  rw [mul_assoc, ← zpow_natCast, ← zpow_add₀ (by norm_num)]
  congr 2
  omega

/-- The first rounding stays in the closed interval, and close to the number. -/
theorem round_double (canonical : (Binary.finite s m e).Canonical .single) (positive : 0 < m)
    {num den : ℕ} (hden : 0 < den) (inside : Identifies .single m e (num / den)) :
    ∃ n d, Format.double.round s num den = .finite s n d ∧
      (lowEnd .single m e : ℚ) * 2 ^ (e - 2) ≤ n * 2 ^ d ∧
      (n : ℚ) * 2 ^ d ≤ highEnd m * 2 ^ (e - 2) ∧
      |(num / den : ℚ) - n * 2 ^ d| * 2 ^ 29 ≤ 2 ^ (e - 1) := by
  have hnum := inside.num_pos positive
  obtain ⟨d, n, binade, nearest, rounded⟩ := Format.double.round_spec s hnum hden
  have finer := inBinade_double_le canonical inside binade
  have most : e ≤ 104 := canonical.2.1
  have top : d + 1 ≤ Format.double.maxExp := by
    simp only [Format.maxExp]
    omega
  obtain ⟨k, x, settled, value, _⟩ :=
    (Format.double.settle_cases s n d).resolve_left (by omega)
  refine ⟨k, x, by rw [rounded, settled], ?_⟩
  rw [value]
  have unit := two_zpow_pos d
  obtain ⟨low, lowValue⟩ := exists_units (lowEnd .single m e) (show d ≤ e - 2 by omega)
  obtain ⟨high, highValue⟩ := exists_units (highEnd m) (show d ≤ e - 2 by omega)
  rw [← lowValue, ← highValue]
  have lower := inside.lower
  have upper := inside.upper
  rw [← lowValue] at lower
  rw [← highValue] at upper
  generalize (num / den : ℚ) = q at *
  have least : low ≤ n := nearest.le_of_ge ((le_div_iff₀ unit).mpr lower)
  have greatest : n ≤ high := nearest.le_of_le ((div_le_iff₀ unit).mpr upper)
  have half := nearest.distance
  have spacing : (2 : ℚ) ^ d * 2 ^ 28 ≤ 2 ^ (e - 1) := by
    rw [← zpow_natCast, ← zpow_add₀ (by norm_num)]
    exact zpow_le_zpow_right₀ (by norm_num) (by push_cast; omega)
  refine ⟨?_, ?_, by linarith⟩
  · exact mul_le_mul_of_nonneg_right (by exact_mod_cast least) unit.le
  · exact mul_le_mul_of_nonneg_right (by exact_mod_cast greatest) unit.le

/-! ### The second rounding -/

/-- The data of the one magnitude whose text is moved onto an end of its interval. -/
def lost (s : Bool) : Binary := .finite s 11420669 (-107)

def found (s : Bool) : Binary := .finite s 11420670 (-107)

/-- The two ends of an interval, in units of half the spacing. -/
def IsEnd (m k : ℕ) : Prop := k = 2 * m + 1 ∨ k + 1 = 2 * m

theorem IsEnd.cast {k : ℕ} (middle : IsEnd m k) : (k : ℚ) = 2 * m + 1 ∨ (k : ℚ) = 2 * m - 1 := by
  rcases middle with rfl | below
  · left
    push_cast
    rfl
  · right
    have : ((k + 1 : ℕ) : ℚ) = (2 * m : ℕ) := by rw [below]
    push_cast at this
    linarith

theorem IsEnd.apart {k : ℕ} (middle : IsEnd m k) (e : ℤ) :
    |(k : ℚ) * 2 ^ (e - 1) - m * 2 ^ e| = 2 ^ (e - 1) := by
  have unit := two_zpow_pos (e - 1)
  rw [two_zpow_pred e]
  rcases middle.cast with high | low
  · rw [high, show (2 * m + 1) * 2 ^ (e - 1) - m * (2 * 2 ^ (e - 1)) = (2 : ℚ) ^ (e - 1) by ring]
    exact abs_of_pos unit
  · rw [low, show (2 * m - 1) * 2 ^ (e - 1) - m * (2 * 2 ^ (e - 1)) = -(2 : ℚ) ^ (e - 1) by ring,
      abs_neg]
    exact abs_of_pos unit

theorem lowEnd_odd (odd : m % 2 = 1) (e : ℤ) : lowEnd .single m e = 4 * m - 2 := by
  unfold lowEnd
  rw [if_neg]
  rintro ⟨rfl, _⟩
  exact absurd odd (by decide)

theorem lowEnd_eq (odd : m % 2 = 1) (e : ℤ) :
    (lowEnd .single m e : ℚ) * 2 ^ (e - 2) = (2 * m - 1 : ℕ) * 2 ^ (e - 1) := by
  rw [lowEnd_odd odd, two_zpow_half, Nat.cast_sub (by omega), Nat.cast_sub (by omega)]
  push_cast
  ring

theorem highEnd_eq (m : ℕ) (e : ℤ) :
    (highEnd m : ℚ) * 2 ^ (e - 2) = (2 * m + 1 : ℕ) * 2 ^ (e - 1) := by
  rw [highEnd_cast, two_zpow_half]
  push_cast
  ring

theorem coarse_of_chosen (odd : m % 2 = 1) {d : Scaled} {k : ℕ} (middle : IsEnd m k)
    (chosen : Chosen .single m e d)
    (close : |d.value - k * 2 ^ (e - 1)| * 2 ^ 29 ≤ 2 ^ (e - 1)) :
    (2 : ℚ) ^ e * (2 ^ 29 - 1) ≤ 10 ^ d.exponent * 2 ^ 29 := by
  have twice := two_zpow_pred e
  have half := two_zpow_half e
  have low : (lowEnd .single m e : ℚ) = 4 * m - 2 := by
    rw [lowEnd_odd odd, Nat.cast_sub (by omega)]
    push_cast
    ring
  have triangle := abs_sub_le ((k : ℚ) * 2 ^ (e - 1)) d.value (m * 2 ^ e)
  rw [middle.apart, abs_sub_comm] at triangle
  have unit := two_zpow_pos (e - 1)
  rcases chosen with nearest | only
  · rw [twice]
    linarith
  · rw [low] at only
    rw [twice]
    linarith

/-- The digits of a datum with an odd significand do not come near the ends of its interval, unless
the datum is a lost one. -/
theorem shortest_apart (canonical : (Binary.finite s m e).Canonical .single) (odd : m % 2 = 1)
    (kept : Binary.finite s m e ≠ lost s) {k : ℕ} (middle : IsEnd m k) :
    ¬ |(shortest .single m e).value - k * 2 ^ (e - 1)| * 2 ^ 29 ≤ 2 ^ (e - 1) := by
  intro close
  have positive : 0 < m := by omega
  have unit := two_zpow_pos (e - 1)
  have inside := identifies_shortest .single positive e
  rcases shortest_cases .single m e with ⟨j, point⟩ | all
  · obtain ⟨_, chosen⟩ := onGrid_eq_some positive point
    have coarse := coarse_of_chosen odd middle chosen close
    have some : 0 < (shortest .single m e).coefficient := scaled_pos (inside.pos positive)
    have least : -149 ≤ e := canonical.1
    have most : e ≤ 104 := canonical.2.1
    have below : (shortest .single m e).value < 2 ^ (24 + e) := inside.lt canonical.2.2.1
    rcases Separation.scaled_eq least most some coarse below close with there | ⟨rfl, rfl⟩
    · -- Then the digits would lie on an end, which does not belong to the interval.
      obtain ⟨lower, upper⟩ := inside.strict odd
      rw [Scaled.value, there] at lower upper
      rcases middle with rfl | low
      · rw [highEnd_eq] at upper
        exact lt_irrefl _ upper
      · rw [lowEnd_eq odd, show 2 * m - 1 = k by omega] at lower
        exact lt_irrefl _ lower
    · refine kept ?_
      have : m = 11420669 := by
        rcases middle with high | low <;> omega
      rw [this, lost]
  · rw [all, exact_value, abs_sub_comm, middle.apart] at close
    linarith

/-- Digits that lie in the interval are read as the datum, if the first rounding does not move them
onto an end. -/
theorem toBinary_single (canonical : (Binary.finite s m e).Canonical .single) (positive : 0 < m)
    {n : Numeral} (digits : n.value = (shortest .single m e).value)
    (kept : Binary.finite s m e ≠ lost s) :
    Format.single.ofBinary (n.toBinary .double s) = .finite s m e := by
  have inside : Identifies .single m e n.value := digits ▸ identifies_shortest .single positive e
  rw [Numeral.toBinary, ofScaled_eq_round]
  rw [Numeral.value, ← scaled_value] at inside
  obtain ⟨k, d, rounded, lower, upper, close⟩ :=
    round_double canonical positive (Nat.pow_pos (by decide)) inside
  rw [scaled_value, ← Numeral.value, digits] at close
  rw [rounded]
  refine Format.ofBinary_eq_finite canonical positive ⟨lower, upper, fun odd => ?_⟩
  have apart : ∀ end_, IsEnd m end_ → (end_ : ℚ) * 2 ^ (e - 1) ≠ k * 2 ^ d := by
    intro end_ middle there
    rw [← there] at close
    exact shortest_apart canonical odd kept middle close
  rw [lowEnd_eq odd, highEnd_eq] at *
  constructor
  · exact lt_of_le_of_ne lower (apart _ (.inr (by omega)))
  · exact lt_of_le_of_ne upper (apart _ (.inl rfl)).symm

theorem toDouble_single {x : Binary} (canonical : x.Canonical .single) (kept : ∀ s, x ≠ lost s)
    {literal : Literal} (denotes : Denotes .single x literal) {y : Binary}
    (number : literal.toDouble = some y) : Format.single.ofBinary y = x := by
  cases x with
  | nan =>
    cases literal with
    | nan => cases number; rfl
    | _ => cases denotes
  | inf s =>
    cases literal with
    | infinite t => cases denotes; cases number; rfl
    | _ => cases denotes
  | finite s m e =>
    cases literal with
    | number t n =>
      obtain ⟨rfl, value⟩ := denotes
      cases number
      rcases Nat.eq_zero_or_pos m with rfl | positive
      · rw [Numeral.toBinary_zero .double s value, canonical_zero_exponent canonical]
        simp [Format.ofBinary, Format.zero, Format.roundDyadic, Format.round]
      · rw [if_neg (by omega)] at value
        exact toBinary_single canonical positive value (kept s)
    | _ => cases denotes

end Postfix
