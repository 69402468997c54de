import Postfix.Operator.Float
import Postfix.Proofs.Binary.Rounding

/-! The operations of a format stay in it.
Whatever an operation makes anew is rounded, or is one of the data that every format has; what it
passes on is one of its operands. -/
namespace Postfix

namespace Format

variable {f : Format}

theorem canonical_roundDyadic (f : Format) (s : Bool) (m : ℕ) (e : ℤ) :
    (f.roundDyadic s m e).Canonical f :=
  f.canonical_round s _ (Nat.two_pow_pos _)

theorem canonical_ofInt (f : Format) (n : ℤ) : (f.ofInt n).Canonical f :=
  f.canonical_round _ _ Nat.one_pos

end Format

namespace Binary

variable {f : Format} {x y : Binary}

theorem Canonical.neg (canonical : x.Canonical f) : x.neg.Canonical f := by
  cases x <;> exact canonical

theorem canonical_add (f : Format) (x y : Binary) : (add f x y).Canonical f := by
  unfold add
  split
  case h_1 => trivial
  case h_2 => trivial
  case h_3 => split <;> trivial
  case h_4 => trivial
  case h_5 => trivial
  case h_6 =>
    simp only
    split
    · exact f.canonical_zero _
    · exact f.canonical_roundDyadic _ _ _

theorem canonical_mul (f : Format) (x y : Binary) : (mul f x y).Canonical f := by
  unfold mul
  split
  case h_6 => exact f.canonical_roundDyadic _ _ _
  all_goals first | trivial | (split <;> trivial)

theorem canonical_div (f : Format) (x y : Binary) : (div f x y).Canonical f := by
  unfold div
  split
  case h_5 => exact f.canonical_zero _
  case h_6 =>
    split
    · split <;> trivial
    · exact f.canonical_round _ _ (Nat.mul_pos (by omega) (Nat.two_pow_pos _))
  all_goals trivial

theorem canonical_rem (canonical : x.Canonical f) (y : Binary) : (rem f x y).Canonical f := by
  unfold rem
  split
  case h_4 => exact canonical
  case h_5 =>
    split
    · trivial
    · exact f.canonical_roundDyadic _ _ _
  all_goals trivial

theorem canonical_sqrt (canonical : x.Canonical f) : (sqrt f x).Canonical f := by
  cases x with
  | nan => trivial
  | inf s => cases s <;> trivial
  | finite s m e =>
    simp only [sqrt]
    split
    · exact canonical
    · split
      · trivial
      · split <;> exact f.canonical_roundDyadic _ _ _

theorem canonical_roundAway (f : Format) (x : Binary) : (roundAway f x).Canonical f :=
  canonical_add f _ _

/-! ### Enclosed values -/

theorem canonical_settled {a : Enclosure} {e : ℤ} (settled : a.settled f e = some x) :
    x.Canonical f := by
  unfold Enclosure.settled at settled
  simp only at settled
  split at settled <;> cases settled
  exact f.canonical_roundDyadic _ _ _

theorem canonical_settledExp {s : ℕ} {negative : Bool} {t : Enclosure}
    (settled : Enclosure.settledExp f s negative t = some x) : x.Canonical f := by
  unfold Enclosure.settledExp at settled
  simp only at settled
  split at settled
  · cases settled; trivial
  · split at settled
    · cases settled; exact f.canonical_zero _
    · split at settled
      · cases settled
      · obtain ⟨y, first, rfl⟩ := Option.map_eq_some_iff.mp settled
        have canonical := canonical_settled first
        split
        · exact canonical.neg
        · exact canonical

theorem canonical_firstSettled {attempt : ℕ → Option Binary}
    (each : ∀ scale x, attempt scale = some x → x.Canonical f) :
    (firstSettled attempt).Canonical f := by
  unfold firstSettled
  cases found : scales.findSome? attempt with
  | none => trivial
  | some x =>
    obtain ⟨scale, _, settled⟩ := List.exists_of_findSome?_eq_some found
    exact each scale x settled

theorem canonical_exp (f : Format) (x : Binary) : (exp f x).Canonical f := by
  cases x with
  | nan => trivial
  | inf s =>
    cases s
    · trivial
    · exact f.canonical_zero _
  | finite s m e =>
    simp only [exp]
    split
    · exact f.canonical_ofInt 1
    · exact canonical_firstSettled fun scale x => canonical_settledExp

theorem canonical_log2 (f : Format) (x : Binary) : (log2 f x).Canonical f := by
  cases x with
  | nan => trivial
  | inf s => cases s <;> trivial
  | finite s m e =>
    simp only [log2]
    split
    · trivial
    · split
      · trivial
      · split
        · exact f.canonical_ofInt _
        · exact canonical_firstSettled fun scale x => canonical_settled

theorem canonical_powerOfTwo (f : Format) (negative : Bool) (e : ℤ) :
    (powerOfTwo f negative e).Canonical f := by
  unfold powerOfTwo
  split
  · trivial
  · split
    · exact f.canonical_zero _
    · exact f.canonical_roundDyadic _ _ _

theorem canonical_powPositive (f : Format) (negative : Bool) (m : ℕ) (d : ℤ) (s : Bool) (n : ℕ)
    (e : ℤ) : (powPositive f negative m d s n e).Canonical f := by
  unfold powPositive
  simp only
  split
  · exact canonical_firstSettled fun scale x => canonical_settledExp
  · split
    · exact canonical_powerOfTwo f _ _
    · split
      · exact canonical_firstSettled fun scale x => canonical_settledExp
      · exact f.canonical_roundDyadic _ _ _

theorem canonical_pow (f : Format) (x y : Binary) : (pow f x y).Canonical f := by
  have one := f.canonical_ofInt 1
  have zero (s : Bool) := f.canonical_zero s
  unfold pow
  split
  case h_1 => exact one
  case h_2 => trivial
  case h_3 => split <;> first | exact one | trivial
  case h_4 => trivial
  case h_5 => split <;> first | exact zero _ | trivial
  case h_6 =>
    split
    · exact one
    · split <;> first | exact zero _ | trivial
  case h_7 => split <;> first | exact zero _ | trivial
  case h_8 =>
    split
    · split <;> first | exact zero _ | trivial
    · split
      · trivial
      · split
        · simp only
          split
          · exact one.neg
          · exact one
        · exact canonical_powPositive f _ _ _ _ _ _

end Binary

/-! ### Operators -/

theorem Format.canonical_widened (f : Format) {value : Format → Binary}
    (each : ∀ g, (value g).Canonical g) : (f.widened value).Canonical f := by
  cases f with
  | half => exact Format.half.canonical_ofBinary _
  | _ => exact each _

theorem FloatBinary.canonical_eval (op : FloatBinary) {f : Format} {x : Binary}
    (canonical : x.Canonical f) (y : Binary) : (op.eval f x y).Canonical f := by
  cases op with
  | add => exact Binary.canonical_add f x y
  | sub => exact Binary.canonical_add f x y.neg
  | mul => exact Binary.canonical_mul f x y
  | div => exact Binary.canonical_div f x y
  | rem => exact Binary.canonical_rem canonical y
  | pow => exact f.canonical_widened fun g => Binary.canonical_pow g x y

theorem FloatUnary.canonical_eval (op : FloatUnary) {f : Format} {x : Binary}
    (canonical : x.Canonical f) : (op.eval f x).Canonical f := by
  cases op with
  | neg => exact canonical.neg
  | sqrt => exact Binary.canonical_sqrt canonical
  | log2 => exact f.canonical_widened fun g => Binary.canonical_log2 g x
  | exp => exact f.canonical_widened fun g => Binary.canonical_exp g x
  | round => exact Binary.canonical_roundAway f x

end Postfix
