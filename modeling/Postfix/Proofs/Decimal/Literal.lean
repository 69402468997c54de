import Postfix.Proofs.Decimal.Positional

/-! The text of a datum is a literal that denotes the datum's digits.
It is one word without a blank, and it begins like a number, so no symbol of an operator and no
variable can be taken for it. A text of the widest format is read back as the very datum; for a
narrower format there is one more rounding on the way, which is not looked at here. -/
namespace Postfix.Decimal

open Text

/-! ### Shapes -/

/-- Texts that begin with a digit, behind a sign or not, and the words for data that are no
numbers. -/
def isNumberText (cs : List Char) : Bool :=
  (splitSign cs).2.head?.any isDigit || cs = ['n', 'a', 'n'] || cs = ['i', 'n', 'f'] ||
    cs = ['-', 'i', 'n', 'f']

theorem splitSign_digit {c : Char} (digit : isDigit c) (rest : List Char) :
    splitSign (c :: rest) = (false, c :: rest) := by
  unfold splitSign
  split
  · rename_i h; cases h; cases digit
  · rename_i h; cases h; cases digit
  · rfl

theorem isNumberText_digit {c : Char} (digit : isDigit c) (rest : List Char) :
    isNumberText (c :: rest) := by
  simp [isNumberText, splitSign_digit digit, digit]

theorem isNumberText_minus {c : Char} (digit : isDigit c) (rest : List Char) :
    isNumberText ('-' :: c :: rest) := by
  simp [isNumberText, splitSign, digit]

theorem not_isBlank_of_isDigit {c : Char} (digit : isDigit c) : ¬ isBlank c := by
  simp only [isDigit, Bool.and_eq_true, decide_eq_true_eq, Char.le_def] at digit
  have lower : 48 ≤ c.toNat := digit.1
  have upper : c.toNat ≤ 57 := digit.2
  simp only [isBlank, Bool.or_eq_true, Bool.and_eq_true, decide_eq_true_eq, beq_iff_eq]
  omega

theorem dropFinalNewline_unbroken {cs : List Char} (unbroken : ∀ c ∈ cs, ¬ isBlank c) :
    dropFinalNewline cs = cs := by
  unfold dropFinalNewline
  rw [if_neg]
  intro last
  exact unbroken '\n' (List.mem_of_getLast? last) rfl

theorem dropFinalNewline_word {cs : List Char} (word : IsWord cs) : dropFinalNewline cs = cs :=
  dropFinalNewline_unbroken word.2

theorem magnitude_shape (f : Format) (m : ℕ) (e : ℤ) :
    ∃ c rest, magnitudeChars .plain f m e = c :: rest ∧ isDigit c ∧
      ∀ d ∈ c :: rest, isDigit d ∨ d = '.' := by
  simp only [magnitudeChars]
  split
  · exact ⟨'0', [], rfl, rfl, fun d hd => .inl (List.mem_singleton.mp hd ▸ rfl)⟩
  · have parts := Digits.parts_digits (toDigits_digits (shortest f m e))
    have some := (shortest f m e).toDigits.parts_ne_nil
    unfold Digits.positional
    generalize (shortest f m e).toDigits.parts = p at *
    obtain ⟨whole, fraction⟩ := p
    cases whole with
    | nil => exact absurd rfl some
    | cons c rest =>
      have first := parts.1 c List.mem_cons_self
      cases fraction with
      | nil => exact ⟨c, rest, rfl, first, fun d hd => .inl (parts.1 d hd)⟩
      | cons d fraction =>
        refine ⟨c, rest ++ '.' :: d :: fraction, rfl, first, fun x hx => ?_⟩
        have either : x ∈ (c :: rest) ++ '.' :: d :: fraction := hx
        rcases List.mem_append.mp either with hx | hx
        · exact .inl (parts.1 x hx)
        · rcases List.mem_cons.mp hx with rfl | hx
          · exact .inr rfl
          · exact .inl (parts.2 x hx)

theorem isWord_magnitude (f : Format) (m : ℕ) (e : ℤ) : IsWord (magnitudeChars .plain f m e) := by
  obtain ⟨c, rest, eq, _, all⟩ := magnitude_shape f m e
  rw [eq]
  refine ⟨by simp, fun d hd => ?_⟩
  rcases all d hd with digit | rfl
  · exact not_isBlank_of_isDigit digit
  · decide

theorem isWord_binaryChars (f : Format) (x : Binary) : IsWord (binaryChars .plain f x) := by
  cases x with
  | nan =>
    show IsWord ['n', 'a', 'n']
    decide
  | inf s =>
    cases s with
    | false =>
      show IsWord ['i', 'n', 'f']
      decide
    | true =>
      show IsWord ['-', 'i', 'n', 'f']
      decide
  | finite s m e =>
    have word := isWord_magnitude f m e
    cases s with
    | false => exact word
    | true =>
      refine ⟨by simp [binaryChars], fun c hc => ?_⟩
      rcases List.mem_cons.mp hc with rfl | hc
      · decide
      · exact word.2 c hc

theorem isNumberText_binaryChars (f : Format) (x : Binary) :
    isNumberText (binaryChars .plain f x) := by
  cases x with
  | nan => rfl
  | inf s => cases s <;> rfl
  | finite s m e =>
    obtain ⟨c, rest, eq, digit, _⟩ := magnitude_shape f m e
    simp only [binaryChars, eq]
    cases s with
    | false => exact isNumberText_digit digit rest
    | true => exact isNumberText_minus digit rest

/-! ### Reading -/

def Denotes (f : Format) : Binary → Literal → Prop
  | .nan, .nan => True
  | .inf s, .infinite t => s = t
  | .finite s m e, .number t n => s = t ∧ n.value = if m = 0 then 0 else (shortest f m e).value
  | _, _ => False

theorem readLiteral_binaryChars (f : Format) (x : Binary) :
    ∃ literal, readLiteral (binaryChars .plain f x) = some literal ∧ Denotes f x literal := by
  cases x with
  | nan => exact ⟨.nan, rfl, trivial⟩
  | inf s => cases s <;> exact ⟨_, rfl, rfl⟩
  | finite s m e =>
    obtain ⟨n, read, value⟩ := readNumeral_magnitude f m e
    obtain ⟨c, rest, eq, digit, _⟩ := magnitude_shape f m e
    refine ⟨.number s n, ?_, rfl, value⟩
    rw [eq] at read
    cases s with
    | false => simp only [binaryChars, eq, readLiteral, splitSign_digit digit, read, if_false,
        Bool.false_eq_true]
    | true => simp only [binaryChars, eq, readLiteral, splitSign, read, if_true]

theorem Numeral.toBinary_zero (f : Format) (s : Bool) {n : Numeral} (zero : n.value = 0) :
    n.toBinary f s = f.zero s := by
  have power : (10 : ℚ) ^ (n.exponent - n.fraction.length) ≠ 0 := zpow_ne_zero _ (by norm_num)
  have none : (readDigits (n.whole ++ n.fraction) : ℚ) = 0 :=
    (mul_eq_zero.mp zero).resolve_right power
  have none : readDigits (n.whole ++ n.fraction) = 0 := by exact_mod_cast none
  rw [toBinary, ofScaled, if_pos none]

theorem Numeral.toBinary_eq_finite {f : Format} {s : Bool} {m : ℕ} {e : ℤ}
    (canonical : (Binary.finite s m e).Canonical f) (positive : 0 < m) {n : Numeral}
    (inside : Identifies f m e n.value) : n.toBinary f s = .finite s m e :=
  ofScaled_eq_finite canonical positive inside

theorem canonical_zero_exponent {f : Format} {s : Bool} {e : ℤ}
    (canonical : (Binary.finite s 0 e).Canonical f) : Binary.finite s 0 e = f.zero s := by
  have := Nat.two_pow_pos (f.precision - 1)
  rw [canonical.2.2.2.resolve_right (by omega)]
  rfl

/-- The digits of a datum denote it in its own format, whatever they denote in a wider one. -/
theorem Numeral.toBinary_of_denotes {f : Format} {x : Binary} (canonical : x.Canonical f) {s : Bool}
    {n : Numeral} (denotes : Denotes f x (.number s n)) : n.toBinary f s = x := by
  cases x with
  | nan => cases denotes
  | inf s => cases denotes
  | finite s m e =>
    obtain ⟨rfl, value⟩ := denotes
    rcases Nat.eq_zero_or_pos m with rfl | positive
    · rw [Numeral.toBinary_zero f s value, canonical_zero_exponent canonical]
    · rw [if_neg (by omega)] at value
      rw [Numeral.toBinary_eq_finite canonical positive
        (value ▸ identifies_shortest f positive e)]

theorem toDouble_of_denotes {x : Binary} (canonical : x.Canonical .double) {literal : Literal}
    (denotes : Denotes .double x literal) : literal.toDouble = some x := by
  cases literal with
  | number s n => rw [Literal.toDouble, Numeral.toBinary_of_denotes canonical denotes]
  | infinite s => cases x <;> cases denotes; rfl
  | nan => cases x <;> first | rfl | cases denotes
  | nothing => cases x <;> cases denotes

theorem eq_of_denotes {f : Format} {x y : Binary} (canonical : x.Canonical f)
    (canonical' : y.Canonical f) {literal : Literal} (denotes : Denotes f x literal)
    (denotes' : Denotes f y literal) : x = y := by
  cases literal with
  | number s n =>
    exact (Numeral.toBinary_of_denotes canonical denotes).symm.trans
      (Numeral.toBinary_of_denotes canonical' denotes')
  | infinite s =>
    cases x <;> cases denotes
    cases y <;> cases denotes'
    rfl
  | nan =>
    cases x <;> cases denotes
    cases y <;> cases denotes'
    rfl
  | nothing => cases x <;> cases denotes

theorem binaryChars_injective {f : Format} {x y : Binary} (canonical : x.Canonical f)
    (canonical' : y.Canonical f) (alike : binaryChars .plain f x = binaryChars .plain f y) :
    x = y := by
  obtain ⟨literal, read, denotes⟩ := readLiteral_binaryChars f x
  obtain ⟨literal', read', denotes'⟩ := readLiteral_binaryChars f y
  rw [alike, read'] at read
  cases read
  exact eq_of_denotes canonical canonical' denotes denotes'

end Postfix.Decimal
