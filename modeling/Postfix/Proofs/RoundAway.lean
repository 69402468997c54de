import Mathlib.Algebra.Order.Round
import Mathlib.Data.Rat.Floor
import Postfix.Proofs.Binary.Closed
import Postfix.Proofs.Binary.Value
import Postfix.Proofs.Machine

/-! Rounding to integers.
What a number has beyond its whole part keeps the exponent and shortens the significand, and a
number with such a part is far below the end of the format, so neither the subtraction nor the
addition loses anything. What remains is a comparison of the exact fraction with one half. -/
namespace Postfix

/-- No integer is nearer, and those as near are not larger in magnitude. -/
def HalfAway (q : ℚ) (n : ℤ) : Prop :=
  ∀ k : ℤ, |q - n| ≤ |q - k| ∧ (|q - k| = |q - n| → |k| ≤ |n|)

namespace HalfAway

variable {q : ℚ} {n : ℤ}

theorem distance (rounds : HalfAway q n) : |q - n| ≤ 1 / 2 :=
  (rounds (round q)).1.trans (abs_sub_round q)

theorem of_integer {k : ℤ} (rounds : HalfAway (n : ℚ) k) : k = n := by
  have near := (rounds n).1
  rw [sub_self, abs_zero] at near
  have none := abs_nonpos_iff.mp near
  rw [sub_eq_zero] at none
  exact_mod_cast none.symm

theorem neg (rounds : HalfAway q n) : HalfAway (-q) (-n : ℤ) := by
  have mirrored (j : ℤ) : |-q - (-j : ℤ)| = |q - j| := by
    rw [← abs_neg (q - j)]
    push_cast
    ring_nf
  intro k
  obtain ⟨near, tie⟩ := rounds (-k)
  rw [← mirrored n, ← mirrored (-k), neg_neg] at near tie
  refine ⟨near, fun same => ?_⟩
  rw [abs_neg] at tie ⊢
  exact tie same

theorem of_between {w n : ℕ} (rounds : ∀ k : ℤ, |q - (n : ℕ)| ≤ |q - k| ∧
    (|q - k| = |q - (n : ℕ)| → (w : ℚ) ≤ k ∧ (k : ℚ) ≤ n)) : HalfAway q n := by
  intro k
  obtain ⟨near, tie⟩ := rounds k
  refine ⟨near, fun same => ?_⟩
  obtain ⟨below, above⟩ := tie same
  have below : (w : ℤ) ≤ k := by exact_mod_cast below
  have above : k ≤ n := by exact_mod_cast above
  rw [Int.abs_eq_natAbs, Int.abs_eq_natAbs]
  omega

theorem of_fraction (w : ℕ) {part : ℚ} (least : 0 ≤ part) (small : part < 1) :
    HalfAway (w + part) (w + if 1 / 2 ≤ part then 1 else 0 : ℕ) := by
  apply of_between (w := w)
  intro k
  have distance : (k : ℚ) ≤ w ∧ |w + part - k| = w + part - k ∨
      (w + 1 : ℚ) ≤ k ∧ |w + part - k| = k - (w + part) := by
    rcases le_or_gt k w with below | above
    · have below : (k : ℚ) ≤ w := by exact_mod_cast below
      exact .inl ⟨below, abs_of_nonneg (by linarith)⟩
    · have above : (w + 1 : ℚ) ≤ k := by exact_mod_cast above
      exact .inr ⟨above, abs_sub_comm (w + part) (k : ℚ) ▸ abs_of_nonneg (by linarith)⟩
  split
  · rename_i half
    have carried : |w + part - (w + 1 : ℕ)| = 1 - part := by
      rw [abs_sub_comm, abs_of_nonneg] <;> push_cast <;> linarith
    rw [carried]
    push_cast
    rcases distance with ⟨side, far⟩ | ⟨side, far⟩
    all_goals
      rw [far]
      exact ⟨by linarith, fun same => ⟨by linarith, by linarith⟩⟩
  · rename_i less
    have kept : |w + part - (w + 0 : ℕ)| = part := by
      rw [Nat.add_zero, add_sub_cancel_left, abs_of_nonneg least]
    rw [kept]
    push_cast
    rcases distance with ⟨side, far⟩ | ⟨side, far⟩
    all_goals
      rw [far]
      exact ⟨by linarith, fun same => ⟨by linarith, by linarith⟩⟩

end HalfAway

namespace Binary

variable {f : Format} {x : Binary} {s : Bool} {q : ℚ}

/-! ### The parts of a number -/

/-- What is added to the whole part: one if the fraction is at least a half, with the sign of the
number. -/
def roundStep (f : Format) (x : Binary) : Binary :=
  let step := if le (f.round false 1 2) (abs (sub f x (trunc f x))) then f.ofInt 1 else f.zero false
  copySign step x

theorem roundAway_eq (f : Format) (x : Binary) :
    roundAway f x = add f (trunc f x) (roundStep f x) := rfl

theorem canonical_trunc (canonical : x.Canonical f) : (trunc f x).Canonical f := by
  cases x with
  | nan => trivial
  | inf s => trivial
  | finite s m e =>
    simp only [trunc]
    split
    · exact canonical
    · exact f.canonical_roundDyadic s _ _

theorem cut_fraction {m : ℕ} {e : ℤ} (below : e < 0) :
    (m * 2 ^ e : ℚ) = (m / 2 ^ (-e).toNat : ℕ) + (m % 2 ^ (-e).toNat : ℕ) * 2 ^ e ∧
      ((m % 2 ^ (-e).toNat : ℕ) * 2 ^ e : ℚ) < 1 := by
  have unit : ((2 ^ (-e).toNat : ℕ) : ℚ) * 2 ^ e = 1 := by
    push_cast
    rw [← zpow_natCast, Int.toNat_of_nonneg (by omega), ← zpow_add₀ (by norm_num), neg_add_cancel,
      zpow_zero]
  have divided : (m : ℚ) = (2 ^ (-e).toNat : ℕ) * (m / 2 ^ (-e).toNat : ℕ) +
      (m % 2 ^ (-e).toNat : ℕ) := by
    exact_mod_cast (Nat.div_add_mod m _).symm
  have rest : ((m % 2 ^ (-e).toNat : ℕ) : ℚ) < (2 ^ (-e).toNat : ℕ) := by
    exact_mod_cast Nat.mod_lt m (Nat.two_pow_pos _)
  constructor
  · nth_rewrite 1 [divided]
    rw [add_mul, mul_right_comm, unit, one_mul]
  · rw [← unit]
    exact mul_lt_mul_of_pos_right rest (two_zpow_pos e)

section Fraction

variable {m : ℕ} {e : ℤ}

theorem hasValue_trunc (canonical : (finite s m e).Canonical f) (below : e < 0) :
    (trunc f (finite s m e)).HasValue s (direction s * (m / 2 ^ (-e).toNat : ℕ)) := by
  have cut : trunc f (finite s m e) = f.roundDyadic s (m / 2 ^ (-e).toNat) 0 :=
    if_neg (not_le.mpr below)
  have fits : (finite s (m / 2 ^ (-e).toNat) 0).Fits f := by
    refine ⟨(Nat.div_le_self m _).trans_lt canonical.2.2.1, ?_, ?_⟩ <;> cases f <;> decide
  rw [cut]
  exact (Format.roundDyadic_fits fits).hasValue (.intro (by simp))

theorem hasValue_sub_trunc (canonical : (finite s m e).Canonical f) (below : e < 0) :
    ∃ u, (sub f (finite s m e) (trunc f (finite s m e))).HasValue u
      (direction s * ((m % 2 ^ (-e).toNat : ℕ) * 2 ^ e)) := by
  have number : (finite s m e).HasValue s (direction s * (m * 2 ^ e)) := .intro rfl
  have whole := hasValue_trunc canonical below
  have smaller : m % 2 ^ (-e).toNat < 2 ^ f.precision :=
    (Nat.mod_le m _).trans_lt canonical.2.2.1
  obtain ⟨parts, _⟩ := cut_fraction (m := m) below
  generalize m / 2 ^ (-e).toNat = w at *
  generalize m % 2 ^ (-e).toNat = rest at *
  by_cases none : rest = 0
  · rw [none, Nat.cast_zero, zero_mul, add_zero] at parts
    rw [parts] at number
    rw [none, Nat.cast_zero, zero_mul, mul_zero]
    exact ⟨false, hasValue_sub_same number whole⟩
  · have left : direction s * (m * 2 ^ e) + -(direction s * w) = direction s * (rest * 2 ^ e) := by
      rw [parts]
      ring
    have apart : direction s * (rest * 2 ^ e : ℚ) ≠ 0 := by
      have positive : (0 : ℚ) < rest * 2 ^ e :=
        mul_pos (by exact_mod_cast Nat.pos_of_ne_zero none) (two_zpow_pos e)
      cases s <;> simp [positive.ne']
    have fits : (finite s rest e).Fits f := ⟨smaller, canonical.1, canonical.2.1⟩
    have kept : (finite s rest e).HasValue s (direction s * (rest * 2 ^ e)) := .intro rfl
    rw [← left] at kept apart ⊢
    exact ⟨s, add_exact number whole.neg kept fits fun zero => absurd zero apart⟩

end Fraction

/-- The whole part and the fraction are both found without a rounding, and there is room for one
more next to a fraction. -/
theorem exact_parts (canonical : x.Canonical f) (hx : x.HasValue s q) :
    ∃ (w : ℕ) (part : ℚ), 0 ≤ part ∧ part < 1 ∧ q = direction s * (w + part) ∧
      (trunc f x).HasValue s (direction s * w) ∧
      (∃ u, (sub f x (trunc f x)).HasValue u (direction s * part)) ∧
      (part ≠ 0 → w + 1 < 2 ^ f.precision) := by
  obtain @⟨m, e, rfl⟩ := hx
  by_cases units : 0 ≤ e
  · have same : trunc f (finite s m e) = finite s m e := if_pos units
    have power : (m * 2 ^ e : ℚ) = (m * 2 ^ e.toNat : ℕ) := by
      nth_rewrite 1 [← Int.toNat_of_nonneg units]
      rw [zpow_natCast]
      push_cast
      rfl
    have number : (finite s m e).HasValue s (direction s * (m * 2 ^ e.toNat : ℕ)) := by
      refine .intro ?_
      rw [power]
    refine ⟨m * 2 ^ e.toNat, 0, le_rfl, one_pos, ?_, ?_, ⟨false, ?_⟩, fun none => absurd rfl none⟩
    · rw [add_zero, power]
    · rw [same]
      exact number
    · rw [same, mul_zero]
      exact hasValue_sub_same number number
  · have below : e < 0 := not_le.mp units
    obtain ⟨parts, small⟩ := cut_fraction (m := m) below
    refine ⟨_, _, ?_, small, congrArg _ parts, hasValue_trunc canonical below,
      hasValue_sub_trunc canonical below, fun _ => ?_⟩
    · exact mul_nonneg (Nat.cast_nonneg _) (two_zpow_pos e).le
    · have full := canonical.2.2.1
      have least : 2 ≤ 2 ^ f.precision := by cases f <;> decide
      have halved : m / 2 ^ (-e).toNat ≤ m / 2 :=
        Nat.div_le_div_left (Nat.le_self_pow (by omega) 2) (by decide)
      omega

theorem hasValue_roundStep (hx : x.HasValue s q) {u : Bool} {part : ℚ} (least : 0 ≤ part)
    (rest : (sub f x (trunc f x)).HasValue u (direction s * part)) :
    (roundStep f x).HasValue s (direction s * (if 1 / 2 ≤ part then 1 else 0 : ℕ)) := by
  have compared := (hasValue_half f).le_iff rest.abs
  rw [abs_direction_mul s least] at compared
  unfold roundStep
  simp only [compared]
  split
  · have step := (hasValue_one f).copySign hx
    rwa [abs_one, ← Nat.cast_one] at step
  · have step := (hasValue_zero f false).copySign hx
    rwa [abs_zero, ← Nat.cast_zero] at step

theorem halfAway_signed (s : Bool) (w : ℕ) {part : ℚ} (least : 0 ≤ part) (small : part < 1) :
    HalfAway (direction s * (w + part)) (signed s (w + if 1 / 2 ≤ part then 1 else 0)) := by
  have away := HalfAway.of_fraction w least small
  cases s with
  | false =>
    rw [direction_false, one_mul]
    exact away
  | true =>
    rw [direction_true, neg_one_mul]
    exact away.neg

theorem hasValue_add_step {w : ℕ} {part : ℚ} (canonical : x.Canonical f)
    (whole : (trunc f x).HasValue s (direction s * w))
    (step : (roundStep f x).HasValue s (direction s * (if 1 / 2 ≤ part then 1 else 0 : ℕ)))
    (room : part ≠ 0 → w + 1 < 2 ^ f.precision) :
    (roundAway f x).HasValue s
      (direction s * w + direction s * (if 1 / 2 ≤ part then 1 else 0 : ℕ)) := by
  have sign (q : ℚ) : q = 0 → s = (s && s) := fun _ => (Bool.and_self s).symm
  rw [roundAway_eq]
  by_cases half : 1 / 2 ≤ part
  · rw [if_pos half] at step ⊢
    have larger : (finite s (w + 1) 0).HasValue s (direction s * w + direction s * (1 : ℕ)) := by
      refine .intro ?_
      push_cast
      ring
    have fits : (finite s (w + 1) 0).Fits f := by
      refine ⟨room (by linarith), ?_, ?_⟩ <;> cases f <;> decide
    exact add_exact whole step larger fits (sign _)
  · rw [if_neg half] at step ⊢
    have same : (trunc f x).HasValue s (direction s * w + direction s * (0 : ℕ)) := by
      rwa [Nat.cast_zero, mul_zero, add_zero]
    exact add_exact whole step same (canonical_trunc canonical).fits (sign _)

theorem roundAway_steps (canonical : x.Canonical f) (hx : x.HasValue s q) :
    ∃ t k : ℤ, HalfAway q (t + k) ∧ (trunc f x).HasValue s t ∧
      (∃ u, (sub f x (trunc f x)).HasValue u (q - t)) ∧ (roundStep f x).HasValue s k ∧
      (roundAway f x).HasValue s (t + k) := by
  obtain ⟨w, part, least, small, rfl, whole, ⟨u, rest⟩, room⟩ := exact_parts canonical hx
  have step := hasValue_roundStep hx least rest
  have away := halfAway_signed s w least small
  have joined (carry : ℕ) : signed s (w + carry) = signed s w + signed s carry := by
    cases s <;> simp [signed, add_comm]
  rw [joined] at away
  refine ⟨signed s w, _, away, ?_, ⟨u, ?_⟩, ?_, ?_⟩
  · rwa [signed_direction]
  · rw [signed_direction, mul_add, add_sub_cancel_left]
    exact rest
  · rwa [signed_direction]
  · rw [signed_direction, signed_direction]
    exact hasValue_add_step canonical whole step room

theorem roundAway_inf (f : Format) (s : Bool) : roundAway f (inf s) = inf s := by
  cases f <;> cases s <;> rfl

theorem roundAway_roundAway (canonical : x.Canonical f) :
    roundAway f (roundAway f x) = roundAway f x := by
  cases x with
  | nan => rfl
  | inf s => rw [roundAway_inf, roundAway_inf]
  | finite s m e =>
    obtain ⟨t, k, _, _, _, _, rounded⟩ := roundAway_steps canonical (.intro rfl)
    rw [← Int.cast_add] at rounded
    obtain ⟨i, j, again, _, _, _, twice⟩ := roundAway_steps (canonical_roundAway f _) rounded
    rw [← Int.cast_add, again.of_integer] at twice
    exact (canonical_roundAway f _).eq_of_hasValue (canonical_roundAway f _) twice rounded

end Binary

open Binary

namespace FloatOp

/-- Rounding is exact in every format. -/
theorem round_exact {f : Format} {x : Binary} (canonical : x.Canonical f) :
    (∀ dtype below, (apply dtype (unary .round)).Effects (.float f x :: below)
      (.ok (.float f (roundAway f x) :: below))) ∧
    (∀ s q, x.HasValue s q → ∃ t k : ℤ, HalfAway q (t + k) ∧ (trunc f x).HasValue s t ∧
      (∃ u, (sub f x (trunc f x)).HasValue u (q - t)) ∧ (roundStep f x).HasValue s k ∧
      roundAway f x = add f (trunc f x) (roundStep f x) ∧ (roundAway f x).HasValue s (t + k)) ∧
    (x = .nan ∨ x.isInfinite → roundAway f x = x) ∧
    roundAway f (roundAway f x) = roundAway f x := by
  refine ⟨fun dtype below => ?_, fun s q hx => ?_, ?_, roundAway_roundAway canonical⟩
  · exact effects_apply dtype (.unary .round) (.float f x :: below)
  · obtain ⟨t, k, away, whole, rest, step, rounded⟩ := roundAway_steps canonical hx
    exact ⟨t, k, away, whole, rest, step, roundAway_eq f x, rounded⟩
  · cases x with
    | nan => exact fun _ => rfl
    | inf s => exact fun _ => roundAway_inf f s
    | finite s m e => simp [isInfinite]

/-- The least double above minus one half gives zero with its sign. -/
theorem round_exact_below_half : ∃ v : Binary, v.HasValue true 0 ∧ ∀ dtype below,
    (apply dtype (unary .round)).Effects
      (.float .double (.finite true 9007199254740991 (-54)) :: below)
      (.ok (.float .double v :: below)) := by
  let x : Binary := .finite true 9007199254740991 (-54)
  have canonical : x.Canonical .double := ⟨by decide, by decide, by decide, .inr (by decide)⟩
  obtain ⟨effects, steps, _, _⟩ := round_exact canonical
  obtain ⟨t, k, away, _, _, _, _, rounded⟩ := steps true _ (.intro rfl)
  have none : t + k = 0 := by
    have near := away.distance
    norm_num [abs_le] at near
    have lower : (-1 : ℚ) < (t + k : ℤ) := by push_cast; linarith
    have upper : ((t + k : ℤ) : ℚ) < 1 := by push_cast; linarith
    have lower : -1 < t + k := by exact_mod_cast lower
    have upper : t + k < 1 := by exact_mod_cast upper
    omega
  have zero : (t + k : ℚ) = 0 := by exact_mod_cast none
  rw [zero] at rounded
  exact ⟨_, rounded, effects⟩

end FloatOp
end Postfix
