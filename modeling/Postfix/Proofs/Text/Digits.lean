import Mathlib.Data.List.Induction
import Mathlib.Tactic.Ring
import Postfix.Decimal.Literal

/-! Decimal digits, written and read back.
What is written has no leading zero, is never longer than any other spelling of the number, and is
read as the number that it was written for. -/
namespace Postfix.Text

theorem isDigit_digitChar : ∀ n < 10, isDigit (digitChar n) := by decide

theorem digitValue_digitChar : ∀ n < 10, digitValue (digitChar n) = n := by decide

theorem readDigits_concat (cs : List Char) (c : Char) :
    readDigits (cs ++ [c]) = 10 * readDigits cs + digitValue c := by
  simp [readDigits]

theorem readDigits_append (cs ds : List Char) :
    readDigits (cs ++ ds) = readDigits cs * 10 ^ ds.length + readDigits ds := by
  induction ds using List.reverseRecOn with
  | nil => simp [readDigits]
  | append_singleton ds d ih =>
    rw [← List.append_assoc, readDigits_concat, readDigits_concat, ih, List.length_append,
      List.length_singleton, Nat.pow_succ]
    ring

theorem readDigits_lt {cs : List Char} (digits : ∀ c ∈ cs, isDigit c) :
    readDigits cs < 10 ^ cs.length := by
  induction cs using List.reverseRecOn with
  | nil => decide
  | append_singleton cs c ih =>
    have before := ih fun d hd => digits d (List.mem_append_left _ hd)
    have last : digitValue c < 10 := by
      have digit := digits c (by simp)
      simp only [isDigit, Bool.and_eq_true, decide_eq_true_eq, Char.le_def] at digit
      have : c.toNat ≤ '9'.toNat := digit.2
      simp only [digitValue]
      have : '9'.toNat = '0'.toNat + 9 := rfl
      omega
    rw [readDigits_concat, List.length_append, List.length_singleton, Nat.pow_succ]
    omega

/-! ### Digits of a number -/

theorem isDigit_of_mem_natDigits {n : Nat} {c : Char} (member : c ∈ natDigits n) : isDigit c := by
  induction n using Nat.strongRecOn with
  | ind n ih =>
    rw [natDigits] at member
    split at member
    · rename_i small
      rw [List.mem_singleton.mp member]
      exact isDigit_digitChar n small
    · rcases List.mem_append.mp member with before | last
      · exact ih (n / 10) (by omega) before
      · rw [List.mem_singleton.mp last]
        exact isDigit_digitChar (n % 10) (by omega)

theorem natDigits_ne_nil (n : Nat) : natDigits n ≠ [] := by
  rw [natDigits]
  split <;> simp

theorem readDigits_natDigits (n : Nat) : readDigits (natDigits n) = n := by
  induction n using Nat.strongRecOn with
  | ind n ih =>
    rw [natDigits]
    split
    · rename_i small
      simp [readDigits, digitValue_digitChar n small]
    · rw [readDigits_concat, ih (n / 10) (by omega), digitValue_digitChar (n % 10) (by omega)]
      omega

theorem length_natDigits_le {n k : Nat} (some : 0 < k) (bound : n < 10 ^ k) :
    (natDigits n).length ≤ k := by
  induction k generalizing n with
  | zero => omega
  | succ k ih =>
    rw [natDigits]
    split
    · simp
    · rename_i large
      cases k with
      | zero => omega
      | succ k =>
        have shorter := ih (n := n / 10) (by omega) (by rw [Nat.pow_succ] at bound; omega)
        simp
        omega

theorem length_natDigits_readDigits {cs : List Char} (some : cs ≠ [])
    (digits : ∀ c ∈ cs, isDigit c) : (natDigits (readDigits cs)).length ≤ cs.length :=
  length_natDigits_le (List.length_pos_iff.mpr some) (readDigits_lt digits)

end Postfix.Text
