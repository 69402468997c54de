import Mathlib.Data.List.TakeWhile
import Postfix.Proofs.Decimal.Shortest
import Postfix.Proofs.Text.Digits
import Postfix.Proofs.Text.Words

/-! Positional notation read back.
The text of a datum is a literal, and it denotes the digits that were chosen for the datum. This is
about the number that is written; to which datum it is read is a matter of rounding, and not
settled here. -/
namespace Postfix

open Text Decimal

namespace Decimal

def Digits.value (d : Digits) : ℚ := readDigits d.digits * 10 ^ (d.point - d.digits.length)

def Numeral.value (n : Numeral) : ℚ :=
  readDigits (n.whole ++ n.fraction) * 10 ^ (n.exponent - n.fraction.length)

/-! ### Zeros on either side -/

theorem readDigits_zeros (n : ℕ) : readDigits (List.replicate n '0') = 0 := by
  induction n with
  | zero => rfl
  | succ n ih =>
    rw [List.replicate_succ', readDigits_concat, ih]
    rfl

theorem readDigits_zeros_append (n : ℕ) (cs : List Char) :
    readDigits (List.replicate n '0' ++ cs) = readDigits cs := by
  rw [readDigits_append, readDigits_zeros, Nat.zero_mul, Nat.zero_add]

theorem readDigits_append_zeros (cs : List Char) (n : ℕ) :
    readDigits (cs ++ List.replicate n '0') = readDigits cs * 10 ^ n := by
  rw [readDigits_append, readDigits_zeros, List.length_replicate, Nat.add_zero]

theorem dropTrailingZeros_append (cs : List Char) :
    ∃ k, cs = dropTrailingZeros cs ++ List.replicate k '0' := by
  have zeros : cs.reverse.takeWhile (· = '0') =
      List.replicate (cs.reverse.takeWhile (· = '0')).length '0' := by
    refine List.eq_replicate_of_mem fun c hc => ?_
    simpa using List.mem_takeWhile_imp hc
  refine ⟨(cs.reverse.takeWhile (· = '0')).length, ?_⟩
  have split := List.takeWhile_append_dropWhile (p := (· = '0')) (l := cs.reverse)
  have := congrArg List.reverse split
  rw [List.reverse_append, List.reverse_reverse, zeros, List.reverse_replicate] at this
  exact this.symm

theorem Scaled.toDigits_value (d : Scaled) : d.toDigits.value = d.value := by
  obtain ⟨k, split⟩ := dropTrailingZeros_append (natDigits d.coefficient)
  have number := congrArg readDigits split
  have length := congrArg List.length split
  rw [readDigits_natDigits, readDigits_append_zeros] at number
  rw [List.length_append, List.length_replicate] at length
  simp only [Digits.value, Scaled.toDigits, Scaled.value]
  rw [length]
  generalize dropTrailingZeros (natDigits d.coefficient) = cs at *
  have exponent : ((cs.length + k : ℕ) : ℤ) + d.exponent - cs.length = k + d.exponent := by
    push_cast
    ring
  rw [exponent, zpow_add₀ (by norm_num), zpow_natCast, number]
  push_cast
  ring

/-! ### The parts around the point -/

theorem Digits.parts_value (d : Digits) :
    (readDigits (d.parts.1 ++ d.parts.2) : ℚ) * 10 ^ (-(d.parts.2.length : ℤ)) = d.value := by
  have ten : (10 : ℚ) ≠ 0 := by norm_num
  unfold Digits.parts Digits.value
  split
  · rename_i small
    have whole : readDigits (['0'] ++ (List.replicate (-d.point).toNat '0' ++ d.digits)) =
        readDigits d.digits := by
      rw [← List.append_assoc]
      exact readDigits_zeros_append ((-d.point).toNat + 1) d.digits
    rw [whole, List.length_append, List.length_replicate]
    congr 2
    push_cast
    omega
  · rename_i large
    by_cases short : d.digits.length ≤ d.point.toNat
    · rw [List.take_of_length_le short, List.drop_of_length_le short, List.append_nil,
        readDigits_append_zeros]
      have exponent : d.point - d.digits.length = ((d.point.toNat - d.digits.length : ℕ) : ℤ) := by
        omega
      rw [exponent, zpow_natCast]
      simp
    · rw [Nat.sub_eq_zero_of_le (by omega), List.replicate_zero, List.append_nil,
        List.take_append_drop, List.length_drop]
      congr 2
      omega

theorem Digits.parts_digits {d : Digits} (digits : ∀ c ∈ d.digits, isDigit c) :
    (∀ c ∈ d.parts.1, isDigit c) ∧ ∀ c ∈ d.parts.2, isDigit c := by
  have zeros : ∀ (n : ℕ), ∀ c ∈ List.replicate n '0', isDigit c := by
    intro n c hc
    rw [List.eq_of_mem_replicate hc]
    rfl
  unfold Digits.parts
  split
  · refine ⟨zeros 1, fun c hc => ?_⟩
    rcases List.mem_append.mp hc with hc | hc
    · exact zeros _ c hc
    · exact digits c hc
  · refine ⟨fun c hc => ?_, fun c hc => digits c (List.mem_of_mem_drop hc)⟩
    rcases List.mem_append.mp hc with hc | hc
    · exact digits c (List.mem_of_mem_take hc)
    · exact zeros _ c hc

theorem Digits.parts_ne_nil (d : Digits) : d.parts.1 ≠ [] := by
  unfold Digits.parts
  split
  · simp
  · intro empty
    have := congrArg List.length empty
    simp only [List.length_append, List.length_take, List.length_replicate, List.length_nil] at this
    omega

/-! ### Reading -/

theorem readNumeral_digits {whole fraction : List Char} (some : whole ≠ [])
    (hwhole : ∀ c ∈ whole, isDigit c) (hfraction : ∀ c ∈ fraction, isDigit c) :
    readNumeral (if fraction.isEmpty then whole else whole ++ '.' :: fraction) =
      .some ⟨whole, fraction, 0⟩ := by
  have nonempty : whole.isEmpty = false := by simpa using some
  unfold readNumeral
  split
  · rename_i empty
    obtain rfl := List.isEmpty_iff.mp empty
    have all := List.takeWhile_eq_self_iff.mpr hwhole
    have rest := List.dropWhile_eq_nil_iff.mpr hwhole
    simp [all, rest, nonempty, readExponent]
  · have stop : isDigit '.' = false := rfl
    have all := List.takeWhile_eq_self_iff.mpr hfraction
    have rest := List.dropWhile_eq_nil_iff.mpr hfraction
    simp [List.takeWhile_append_of_pos hwhole, List.dropWhile_append_of_pos hwhole, stop, all, rest,
      nonempty, readExponent]

theorem readNumeral_positional {d : Digits} (digits : ∀ c ∈ d.digits, isDigit c) :
    ∃ n, readNumeral d.positional = some n ∧ n.value = d.value := by
  obtain ⟨whole, fraction⟩ := Digits.parts_digits digits
  refine ⟨⟨d.parts.1, d.parts.2, 0⟩, readNumeral_digits d.parts_ne_nil whole fraction, ?_⟩
  rw [← d.parts_value, Numeral.value, zero_sub]

theorem toDigits_digits (d : Scaled) : ∀ c ∈ d.toDigits.digits, isDigit c := by
  intro c hc
  refine isDigit_of_mem_natDigits (n := d.coefficient) ?_
  have kept := List.mem_reverse.mp hc
  exact List.mem_reverse.mp ((List.dropWhile_sublist _).mem kept)

theorem readNumeral_magnitude (f : Format) (m : ℕ) (e : ℤ) :
    ∃ n, readNumeral (magnitudeChars .plain f m e) = some n ∧
      n.value = if m = 0 then 0 else (shortest f m e).value := by
  simp only [magnitudeChars]
  split
  · exact ⟨⟨['0'], [], 0⟩, rfl, by simp [Numeral.value, readDigits, digitValue]⟩
  · obtain ⟨n, read, value⟩ := readNumeral_positional (toDigits_digits (shortest f m e))
    exact ⟨n, read, by rw [value, Scaled.toDigits_value]⟩

end Decimal
end Postfix
