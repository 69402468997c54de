import Postfix.Proofs.Building
import Postfix.Proofs.Decimal.Literal

/-! Canonical texts of operands.
A text that stands for an operand is a word that begins like a number. Reading it again gives the
very operand, for words and for the widest reals; what becomes of the text of a narrower real is
left open here, apart from the fact that it is read as something. -/
namespace Postfix

open Text Decimal

/-! ### Integers -/

theorem natDigits_eq_cons (n : ℕ) :
    ∃ c rest, natDigits n = c :: rest ∧ isDigit c ∧ ∀ d ∈ c :: rest, isDigit d := by
  have digits := fun d => isDigit_of_mem_natDigits (n := n) (c := d)
  cases eq : natDigits n with
  | nil => exact absurd eq (natDigits_ne_nil n)
  | cons c rest =>
    rw [eq] at digits
    exact ⟨c, rest, rfl, digits c List.mem_cons_self, digits⟩

theorem toList_intText (n : ℤ) :
    (intText n).toList = if n < 0 then '-' :: natDigits n.natAbs else natDigits n.natAbs := by
  unfold intText
  split <;> simp [natText]

theorem splitSign_intText (n : ℤ) :
    splitSign (intText n).toList = (decide (n < 0), natDigits n.natAbs) := by
  obtain ⟨c, rest, eq, digit, _⟩ := natDigits_eq_cons n.natAbs
  rw [toList_intText]
  split
  · rename_i negative
    simp [splitSign, negative]
  · rename_i positive
    rw [eq, splitSign_digit digit]
    simp [positive]

theorem integerOf_intText (n : ℤ) : integerOf (intText n).toList = n := by
  unfold integerOf
  rw [splitSign_intText]
  simp only [readDigits_natDigits, decide_eq_true_eq]
  split <;> omega

theorem isInteger_intText (n : ℤ) : Decimal.isInteger (intText n).toList := by
  obtain ⟨c, rest, eq, _, all⟩ := natDigits_eq_cons n.natAbs
  unfold Decimal.isInteger
  rw [splitSign_intText, eq]
  simpa using all

theorem isNumberText_intText (n : ℤ) : isNumberText (intText n).toList := by
  obtain ⟨c, rest, eq, digit, _⟩ := natDigits_eq_cons n.natAbs
  rw [toList_intText, eq]
  split
  · exact isNumberText_minus digit rest
  · exact isNumberText_digit digit rest

theorem isWord_natDigits (n : ℕ) : IsWord (natDigits n) :=
  ⟨natDigits_ne_nil n, fun _ hc => not_isBlank_of_isDigit (isDigit_of_mem_natDigits hc)⟩

theorem isWord_cons {c : Char} {cs : List Char} (plain : ¬ isBlank c) (word : IsWord cs) :
    IsWord (c :: cs) := by
  refine ⟨by simp, fun d hd => ?_⟩
  rcases List.mem_cons.mp hd with rfl | hd
  · exact plain
  · exact word.2 d hd

theorem isWord_intText (n : ℤ) : IsWord (intText n).toList := by
  rw [toList_intText]
  split
  · exact isWord_cons (by decide) (isWord_natDigits _)
  · exact isWord_natDigits _

namespace WordType

theorem length_natDigits_of_holds {t : WordType} {n : ℤ} (inside : t.holds n) :
    (natDigits n.natAbs).length ≤ digitLimit := by
  have bound : n.natAbs < 10 ^ 20 := by
    simp only [holds, Bool.and_eq_true, minimum, maximum] at inside
    obtain ⟨s, w⟩ := t
    cases s <;> cases w <;> simp [Width.bits] at inside <;> omega
  exact le_trans (length_natDigits_le (by decide) bound) (by decide)

end WordType

/-! ### Operands -/

namespace NumericType

theorem readWord_intText {t : WordType} {n : ℤ} (inside : t.holds n) :
    readWord t (intText n) = .ok (.word t n) := by
  have digits := WordType.length_natDigits_of_holds inside
  simp only [readWord, dropFinalNewline_word (isWord_intText n), isInteger_intText,
    integerOf_intText, splitSign_intText, inside]
  rw [if_neg (by simp), if_neg (by omega), if_pos trivial]

theorem canonical_of_readFloat {f : Format} {raw : String} {v : Value}
    (h : readFloat f raw = .ok v) : ∃ x : Binary, x.Canonical f ∧ v = .float f x := by
  obtain ⟨literal, x, _, denotes, rfl⟩ := readFloat_eq_ok h
  obtain ⟨y, _, rfl⟩ := Option.map_eq_some_iff.mp denotes
  exact ⟨_, f.canonical_ofBinary y, rfl⟩

theorem toList_text_float {f : Format} {x : Binary} (canonical : x.Canonical f) :
    ((NumericType.float f).text (.float f x)).toList = binaryChars .plain f x := by
  simp [text, binaryText, Format.ofBinary_eq_self canonical]

/-- The text of a real is read in the widest format, and rounded to its own. -/
theorem readFloat_text {f : Format} {x : Binary} (canonical : x.Canonical f) :
    ∃ literal y, Denotes f x literal ∧ literal.toDouble = some y ∧
      readFloat f ((NumericType.float f).text (.float f x)) = .ok (.float f (f.ofBinary y)) := by
  obtain ⟨literal, read, denotes⟩ := readLiteral_binaryChars f x
  have number : ∃ y, literal.toDouble = some y := by
    cases literal with
    | nothing => cases x <;> cases denotes
    | _ => exact ⟨_, rfl⟩
  obtain ⟨y, number⟩ := number
  refine ⟨literal, y, denotes, number, ?_⟩
  rw [readFloat, toList_text_float canonical, dropFinalNewline_word (isWord_binaryChars f x), read]
  simp only [Literal.toBinary, number, Option.map_some]

theorem readFloat_text_double {x : Binary} (canonical : x.Canonical .double) :
    readFloat .double (float64.text (.float .double x)) = .ok (.float .double x) := by
  obtain ⟨literal, y, denotes, number, read⟩ := readFloat_text canonical
  rw [toDouble_of_denotes canonical denotes, Option.some_inj] at number
  rw [← number, Format.ofBinary_eq_self canonical] at read
  exact read

/-- The types whose texts lose nothing. -/
def IsFaithful (t : NumericType) : Prop := t = float64 ∨ ∃ w, t = signed w

theorem read_text {t : NumericType} (faithful : t.IsFaithful) {raw : String} {v : Value}
    (h : t.read raw = .ok v) : t.read (t.text v) = .ok v := by
  rcases faithful with rfl | ⟨w, rfl⟩
  · obtain ⟨x, canonical, rfl⟩ := canonical_of_readFloat h
    exact readFloat_text_double canonical
  · obtain ⟨n, rfl, inside⟩ := readWord_eq_ok h
    exact readWord_intText inside

theorem isWord_text {t : NumericType} {raw : String} {v : Value} (h : t.read raw = .ok v) :
    IsWord (t.text v).toList := by
  cases t with
  | word t =>
    obtain ⟨n, rfl, _⟩ := readWord_eq_ok h
    exact isWord_intText n
  | float f =>
    obtain ⟨x, canonical, rfl⟩ := canonical_of_readFloat h
    rw [toList_text_float canonical]
    exact isWord_binaryChars f x

theorem isNumberText_text {t : NumericType} {raw : String} {v : Value} (h : t.read raw = .ok v) :
    isNumberText (t.text v).toList := by
  cases t with
  | word t =>
    obtain ⟨n, rfl, _⟩ := readWord_eq_ok h
    exact isNumberText_intText n
  | float f =>
    obtain ⟨x, canonical, rfl⟩ := canonical_of_readFloat h
    rw [toList_text_float canonical]
    exact isNumberText_binaryChars f x

end NumericType
end Postfix
