import Mathlib.Algebra.Order.Ring.Abs
import Mathlib.Tactic.Linarith
import Mathlib.Tactic.LinearCombination
import Mathlib.Tactic.Ring

/-! Which multiples of a fraction come close to an integer.
Two fractions that enclose a given one, and whose denominators and numerators form a basis of all
pairs of integers, are found by division with remainder. Up to a bound, every multiple that is close
to an integer then is a multiple of the newer of the two. Nothing is claimed about how soon the
search finds a pair that is good enough for a bound; this is looked at where it is used. -/
namespace Postfix

/-- Two fractions `p / q` and `p' / q'` next to `a / b`, with the distances of `q * a` from `p * b`
and of `q' * a` from `p' * b`. -/
structure Approximants where
  q : ℕ
  p : ℕ
  r : ℕ
  q' : ℕ
  p' : ℕ
  r' : ℕ

namespace Approximants

def start (a b : ℕ) : Approximants := ⟨0, 1, b, 1, a / b, a % b⟩

def next (s : Approximants) : Approximants :=
  ⟨s.q', s.p', s.r', s.q + s.r / s.r' * s.q', s.p + s.r / s.r' * s.p', s.r % s.r'⟩

def search (near : ℕ → Bool) : ℕ → Approximants → Approximants
  | 0, s => s
  | fuel + 1, s => if near s.r' then s else search near fuel s.next

/-- The two fractions lie on different sides, and no pair of integers is missed. -/
structure Around (a b : ℕ) (s : Approximants) (side : ℤ) : Prop where
  unit : side = 1 ∨ side = -1
  older : (s.q * a : ℤ) = s.p * b + side * s.r
  newer : (s.q' * a : ℤ) = s.p' * b - side * s.r'
  basis : (s.q * s.p' - s.q' * s.p : ℤ) = side

variable {a b : ℕ} {s : Approximants} {side : ℤ}

theorem around_start (a b : ℕ) : Around a b (start a b) (-1) := by
  have divided : (a : ℤ) = b * (a / b : ℕ) + (a % b : ℕ) := by
    exact_mod_cast (Nat.div_add_mod a b).symm
  refine ⟨.inr rfl, ?_, ?_, ?_⟩
  · simp [start]
  · simp only [start]
    push_cast at divided ⊢
    linarith
  · simp [start]

theorem Around.next (around : Around a b s side) : Around a b s.next (-side) := by
  obtain ⟨unit, older, newer, basis⟩ := around
  have divided : (s.r : ℤ) = s.r' * (s.r / s.r' : ℕ) + (s.r % s.r' : ℕ) := by
    exact_mod_cast (Nat.div_add_mod s.r s.r').symm
  simp only [Approximants.next]
  generalize s.r / s.r' = k at *
  generalize s.r % s.r' = rest at *
  refine ⟨by omega, ?_, ?_, ?_⟩
  · linear_combination newer
  · push_cast
    linear_combination older + k * newer + side * divided
  · push_cast
    linear_combination -basis

theorem Around.search (near : ℕ → Bool) (fuel : ℕ) (around : Around a b s side) :
    ∃ side', Around a b (search near fuel s) side' := by
  induction fuel generalizing s side with
  | zero => exact ⟨side, around⟩
  | succ fuel ih =>
    rw [Approximants.search]
    split
    · exact ⟨side, around⟩
    · exact ih around.next

theorem Around.fills (around : Around a b s side) : s.q' * s.r + s.q * s.r' = b := by
  obtain ⟨unit, older, newer, basis⟩ := around
  have : (s.q' * s.r + s.q * s.r' : ℤ) = b := by
    rcases unit with rfl | rfl
    · linear_combination s.q * newer - s.q' * older + b * basis
    · linear_combination s.q' * older - s.q * newer - b * basis
  exact_mod_cast this

theorem Around.side_sq (around : Around a b s side) : side * side = 1 := by
  rcases around.unit with rfl | rfl <;> rfl

/-- The coordinates of a pair of integers with respect to the two fractions, and its distance. -/
theorem Around.coordinates (around : Around a b s side) (d m : ℤ) :
    ∃ u v : ℤ, d = u * s.q + v * s.q' ∧ m = u * s.p + v * s.p' ∧
      |d * a - m * b| = |u * s.r - v * s.r'| := by
  have square := around.side_sq
  obtain ⟨unit, older, newer, basis⟩ := around
  refine ⟨side * (d * s.p' - m * s.q'), side * (m * s.q - d * s.p), ?_, ?_, ?_⟩
  · linear_combination -(side * d) * basis - d * square
  · linear_combination -(side * m) * basis - m * square
  · have distance : (d * s.p' - m * s.q') * s.r - (m * s.q - d * s.p) * s.r' = d * a - m * b := by
      have signed : side * (side * ((d * s.p' - m * s.q') * s.r - (m * s.q - d * s.p) * s.r')) =
          side * (side * (d * a - m * b)) := by
        linear_combination -(side * (d * s.p' - m * s.q')) * older
          - side * (m * s.q - d * s.p) * newer + side * (d * a - m * b) * basis
      rwa [← mul_assoc, ← mul_assoc, square, one_mul, one_mul] at signed
    rw [← distance, mul_assoc, mul_assoc, ← mul_sub, abs_mul]
    rcases unit with rfl | rfl <;> simp

theorem distance_ge {u v r r' : ℤ} (hr : 0 ≤ r) (hr' : 0 ≤ r') (hu : 1 ≤ u) (hv : v ≤ 0) :
    r ≤ u * r - v * r' := by
  have older := le_mul_of_one_le_left hr hu
  have newer := mul_nonpos_of_nonpos_of_nonneg hv hr'
  linarith

/-- With positive coordinates, the bound leaves too little room for the newer fraction to make up
for the older one. -/
theorem distance_large {u v q q' r r' b t bound : ℤ} (hr : 0 ≤ r) (hr' : 0 ≤ r') (hq : 0 ≤ q)
    (hq' : 0 ≤ q') (ht : 0 ≤ t) (filled : q' * r + q * r' = b)
    (gap : bound * r' * t + b * q' < b * t) (small : u * q + v * q' ≤ bound) (hu : 1 ≤ u) :
    b < (u * r - v * r') * t := by
  by_contra close
  have room : v * q' ≤ bound - q := by
    have := le_mul_of_one_le_left hq hu
    linarith
  have least : (r - v * r') * t ≤ b := by
    have := mul_le_mul_of_nonneg_right (le_mul_of_one_le_left hr hu) ht
    linarith
  have scaled := mul_le_mul_of_nonneg_right least hq'
  have used := mul_le_mul_of_nonneg_right room (mul_nonneg hr' ht)
  have total : (r - v * r') * t * q' + v * q' * (r' * t) + q * (r' * t) = b * t := by
    rw [← filled]
    ring
  linarith

/-- A multiple that is within a part of `1 / t` of an integer, for a factor up to `bound`, is a
multiple of the newer fraction. -/
theorem Around.multiple (around : Around a b s side) {t bound d m : ℕ}
    (far : b < s.r * t) (gap : bound * s.r' * t + b * s.q' < b * t)
    (positive : 0 < d) (small : d ≤ bound) (close : |(d * a - m * b : ℤ)| * t ≤ b) :
    ∃ v : ℕ, d = v * s.q' ∧ m = v * s.p' := by
  have filled := around.fills
  obtain ⟨u, v, hd, hm, distance⟩ := around.coordinates d m
  zify at far gap positive small filled
  have hq := Int.natCast_nonneg s.q
  have hq' := Int.natCast_nonneg s.q'
  have hr := Int.natCast_nonneg s.r
  have hr' := Int.natCast_nonneg s.r'
  have ht := Int.natCast_nonneg t
  have bounded : ∀ x ≤ |(u * s.r - v * s.r' : ℤ)|, x * t ≤ b := by
    intro x hx
    rw [distance] at close
    exact le_trans (mul_le_mul_of_nonneg_right hx ht) close
  -- Were the older fraction part of it, it would be too far off or the factor not in the bounds.
  have none : u = 0 := by
    rcases lt_trichotomy u 0 with negative | zero | above
    · exfalso
      by_cases hv : 0 ≤ v
      · have apart := distance_ge hr hr' (show 1 ≤ -u by omega) (show -v ≤ 0 by omega)
        have := bounded s.r (le_trans apart (le_trans (le_of_eq (by ring)) (neg_le_abs _)))
        linarith
      · have older := mul_nonneg (show 0 ≤ -u by omega) hq
        have newer := mul_nonneg (show 0 ≤ -v by omega) hq'
        linarith
    · exact zero
    · exfalso
      by_cases hv : v ≤ 0
      · have apart := distance_ge hr hr' above hv
        have := bounded s.r (le_trans apart (le_abs_self _))
        linarith
      · rw [hd] at small
        have large := distance_large hr hr' hq hq' ht filled gap small above
        have := bounded _ (le_abs_self _)
        linarith
  rw [none, zero_mul, zero_add] at hd hm
  have hv : 0 ≤ v := by
    by_contra below
    have := mul_nonneg (show 0 ≤ -v by omega) hq'
    linarith
  obtain ⟨n, rfl⟩ := Int.eq_ofNat_of_zero_le hv
  exact ⟨n, by exact_mod_cast hd, by exact_mod_cast hm⟩

end Approximants
end Postfix
