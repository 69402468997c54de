import Mathlib.Data.Nat.Digits.Defs
import Postfix.Proofs.Binary.Exact
import Postfix.Proofs.Reading

/-! The languages of decimal literals, with what their members denote.
They are given by rules, and the readers are shown to follow these rules in both directions. A
reader takes as many digits as there are, and the rules do not say how a text is to be cut; the
two agree because what may come after digits never begins with one. -/
namespace Postfix

open Text

namespace Decimal

/-! ### Rules -/

def digitsValue (ds : List Char) : ℕ := Nat.ofDigits 10 (ds.reverse.map digitValue)

def IsDigits (ds : List Char) : Prop := ds ≠ [] ∧ ∀ c ∈ ds, isDigit c

inductive SignText : Bool → List Char → Prop
  | none : SignText false []
  | plus : SignText false ['+']
  | minus : SignText true ['-']

inductive IntegerText : ℤ → List Char → Prop
  | intro {negative : Bool} {sign ds : List Char} (signed : SignText negative sign)
    (digits : IsDigits ds) : IntegerText (Binary.signed negative (digitsValue ds)) (sign ++ ds)

/-- Digits with an optional point and further digits, or a point and at least one digit. -/
inductive MagnitudeText : ℚ → List Char → Prop
  | whole {ds : List Char} (digits : IsDigits ds) : MagnitudeText (digitsValue ds) ds
  | pointed {ds fs : List Char} (digits : IsDigits ds) (further : ∀ c ∈ fs, isDigit c) :
    MagnitudeText (digitsValue (ds ++ fs) / 10 ^ fs.length) (ds ++ '.' :: fs)
  | fraction {fs : List Char} (digits : IsDigits fs) :
    MagnitudeText (digitsValue fs / 10 ^ fs.length) ('.' :: fs)

inductive ExponentText : ℤ → List Char → Prop
  | none : ExponentText 0 []
  | some {c : Char} {n : ℤ} {cs : List Char} (mark : c = 'e' ∨ c = 'E') (power : IntegerText n cs) :
    ExponentText n (c :: cs)

def Spelled (word : String) (cs : List Char) : Prop := cs.map Char.toLower = word.toList

/-- The datum of a literal: the double nearest to the number, brought into the format. -/
inductive RealText (f : Format) : Binary → List Char → Prop
  | number {negative : Bool} {sign ds es : List Char} {q : ℚ} {n : ℤ} {num den : ℕ}
    (signed : SignText negative sign) (magnitude : MagnitudeText q ds)
    (exponent : ExponentText n es) (positive : 0 < den) (value : (num / den : ℚ) = q * 10 ^ n) :
    RealText f (f.ofBinary (Format.double.round negative num den)) (sign ++ (ds ++ es))
  | infinity {negative : Bool} {sign cs : List Char} (signed : SignText negative sign)
    (word : Spelled "inf" cs ∨ Spelled "infinity" cs) : RealText f (.inf negative) (sign ++ cs)
  | nan {negative : Bool} {sign cs : List Char} (signed : SignText negative sign)
    (word : Spelled "nan" cs) : RealText f .nan (sign ++ cs)

/-! ### Digits and signs -/

theorem readDigits_eq (cs : List Char) : readDigits cs = digitsValue cs := by
  induction cs using List.reverseRecOn with
  | nil => rfl
  | append_singleton cs c ih =>
    rw [readDigits_concat, ih, digitsValue, digitsValue, List.reverse_append,
      List.reverse_singleton, List.singleton_append, List.map_cons, Nat.ofDigits_cons]
    omega

theorem exists_sign (cs : List Char) :
    ∃ sign, SignText (splitSign cs).1 sign ∧ cs = sign ++ (splitSign cs).2 := by
  unfold splitSign
  split
  · exact ⟨_, .minus, rfl⟩
  · exact ⟨_, .plus, rfl⟩
  · exact ⟨_, .none, rfl⟩

theorem SignText.splitSign {negative : Bool} {sign body : List Char}
    (signed : SignText negative sign) (unsigned : ∀ cs, body ≠ '+' :: cs ∧ body ≠ '-' :: cs) :
    splitSign (sign ++ body) = (negative, body) := by
  cases signed with
  | none =>
    unfold Decimal.splitSign
    split
    · rename_i minus
      exact absurd minus (unsigned _).2
    · rename_i plus
      exact absurd plus (unsigned _).1
    · rfl
  | plus => rfl
  | minus => rfl

theorem IsDigits.unsigned {ds : List Char} (digits : IsDigits ds) (cs : List Char) :
    ds ≠ '+' :: cs ∧ ds ≠ '-' :: cs := by
  constructor
  all_goals
    rintro rfl
    exact absurd (digits.2 _ List.mem_cons_self) (by decide)

theorem integer_iff {n : ℤ} {cs : List Char} :
    IntegerText n cs ↔ isInteger cs ∧ integerOf cs = n := by
  have all : isInteger cs ↔ IsDigits (splitSign cs).2 := by
    simp [isInteger, IsDigits]
  have value : integerOf cs =
      Binary.signed (splitSign cs).1 (digitsValue (splitSign cs).2) := by
    rw [← readDigits_eq]
    rfl
  rw [all, value]
  constructor
  · rintro ⟨signed, digits⟩
    rw [signed.splitSign digits.unsigned]
    exact ⟨digits, rfl⟩
  · rintro ⟨digits, rfl⟩
    obtain ⟨sign, signed, whole⟩ := exists_sign cs
    have integer := IntegerText.intro signed digits
    rwa [← whole] at integer

/-! ### Numerals -/

theorem exponent_iff {n : ℤ} {es : List Char} : ExponentText n es ↔ readExponent es = some n := by
  constructor
  · intro exponent
    cases exponent with
    | none => rfl
    | some mark power =>
      obtain ⟨form, value⟩ := integer_iff.mp power
      simp [readExponent, mark, form, value]
  · intro read
    cases es with
    | nil =>
      cases read
      exact .none
    | cons c cs =>
      rw [readExponent] at read
      split at read
      · rename_i form
        simp only [Bool.and_eq_true, Bool.or_eq_true, decide_eq_true_eq] at form
        cases read
        exact .some form.1 (integer_iff.mpr ⟨form.2, rfl⟩)
      · cases read

theorem Numeral.value_eq (ds fs : List Char) (n : ℤ) :
    (⟨ds, fs, n⟩ : Numeral).value = digitsValue (ds ++ fs) / 10 ^ fs.length * 10 ^ n := by
  rw [Numeral.value, readDigits_eq, zpow_sub₀ (by norm_num), zpow_natCast]
  ring

theorem magnitude_of_parts {ds fs : List Char} (whole : ∀ c ∈ ds, isDigit c)
    (further : ∀ c ∈ fs, isDigit c) (some : ¬ (ds.isEmpty && fs.isEmpty)) :
    MagnitudeText (digitsValue (ds ++ fs) / 10 ^ fs.length) (ds ++ '.' :: fs) := by
  cases ds with
  | nil =>
    have other : fs ≠ [] := by simpa using some
    exact .fraction ⟨other, further⟩
  | cons d ds => exact .pointed ⟨by simp, whole⟩ further

/-- What is read as a numeral was written by the rules. -/
theorem of_readNumeral {cs : List Char} {m : Numeral} (read : readNumeral cs = some m) :
    ∃ q n ds es, MagnitudeText q ds ∧ ExponentText n es ∧ cs = ds ++ es ∧ m.value = q * 10 ^ n := by
  have cut : cs.takeWhile isDigit ++ cs.dropWhile isDigit = cs := List.takeWhile_append_dropWhile
  have whole : ∀ c ∈ cs.takeWhile isDigit, isDigit c := fun c => List.mem_takeWhile_imp
  simp only [readNumeral] at read
  generalize cs.takeWhile isDigit = ds at *
  generalize cs.dropWhile isDigit = tail at *
  split at read
  · rename_i rest
    have again : rest.takeWhile isDigit ++ rest.dropWhile isDigit = rest :=
      List.takeWhile_append_dropWhile
    have further : ∀ c ∈ rest.takeWhile isDigit, isDigit c := fun c => List.mem_takeWhile_imp
    generalize rest.takeWhile isDigit = fs at *
    generalize rest.dropWhile isDigit = es at *
    split at read
    · cases read
    · rename_i some
      obtain ⟨n, power, rfl⟩ := Option.map_eq_some_iff.mp read
      refine ⟨_, n, _, es, magnitude_of_parts whole further some, exponent_iff.mpr power, ?_,
        Numeral.value_eq ds fs n⟩
      rw [← cut, ← again]
      simp
  · split at read
    · cases read
    · rename_i some
      obtain ⟨n, power, rfl⟩ := Option.map_eq_some_iff.mp read
      have digits : IsDigits ds := ⟨by simpa using some, whole⟩
      refine ⟨_, n, _, tail, .whole digits, exponent_iff.mpr power, cut.symm, ?_⟩
      rw [Numeral.value_eq]
      simp

theorem ExponentText.stops {n : ℤ} {es : List Char} (exponent : ExponentText n es) :
    es.takeWhile isDigit = [] ∧ es.dropWhile isDigit = es ∧ ∀ cs, es ≠ '.' :: cs := by
  cases exponent with
  | none => simp
  | some mark power => rcases mark with rfl | rfl <;> simp <;> decide

theorem readNumeral_of {q : ℚ} {n : ℤ} {ds es : List Char} (magnitude : MagnitudeText q ds)
    (exponent : ExponentText n es) :
    ∃ m, readNumeral (ds ++ es) = some m ∧ m.value = q * 10 ^ n := by
  have power := exponent_iff.mp exponent
  obtain ⟨none, all, pointless⟩ := exponent.stops
  have stop : isDigit '.' = false := rfl
  cases magnitude with
  | whole digits =>
    refine ⟨⟨ds, [], n⟩, ?_, by rw [Numeral.value_eq]; simp⟩
    simp only [readNumeral, List.takeWhile_append_of_pos digits.2,
      List.dropWhile_append_of_pos digits.2, none, all, List.append_nil]
    simp [digits.1, power]
  | @pointed ds fs digits further =>
    refine ⟨⟨ds, fs, n⟩, ?_, Numeral.value_eq ds fs n⟩
    simp [readNumeral, List.takeWhile_append_of_pos digits.2, List.dropWhile_append_of_pos digits.2,
      stop, List.takeWhile_append_of_pos further, List.dropWhile_append_of_pos further, none, all,
      digits.1, power]
  | @fraction fs digits =>
    refine ⟨⟨[], fs, n⟩, ?_, Numeral.value_eq [] fs n⟩
    simp [readNumeral, stop, List.takeWhile_append_of_pos digits.2,
      List.dropWhile_append_of_pos digits.2, none, all, digits.1, power]

/-! ### Literals -/

theorem Numeral.toBinary_eq_round (f : Format) (s : Bool) (m : Numeral) {num den : ℕ}
    (positive : 0 < den) (value : (num / den : ℚ) = m.value) :
    m.toBinary f s = f.round s num den := by
  rw [toBinary, ofScaled_eq_round]
  apply f.round_congr s (Nat.pow_pos (by decide)) positive
  rw [scaled_value, value, Numeral.value]

theorem foldCase_eq_toLower {c : Char} (ascii : c.toNat < 128) : foldCase c = c.toLower := by
  have all : ∀ n < 128, foldCase (Char.ofNat n) = (Char.ofNat n).toLower := by decide
  rw [← Char.ofNat_toNat c]
  exact all c.toNat ascii

theorem map_foldCase {cs : List Char} (ascii : ∀ c ∈ cs, c.toNat < 128) :
    cs.map foldCase = cs.map Char.toLower :=
  List.map_congr_left fun c hc => foldCase_eq_toLower (ascii c hc)

theorem readWord_iff {cs : List Char} (ascii : ∀ c ∈ cs, c.toNat < 128) :
    (readWord cs = some .infinity ↔ Spelled "inf" cs ∨ Spelled "infinity" cs) ∧
      (readWord cs = some .nan ↔ Spelled "nan" cs) := by
  have inf : "inf".toList = ['i', 'n', 'f'] := rfl
  have infinity : "infinity".toList = ['i', 'n', 'f', 'i', 'n', 'i', 't', 'y'] := rfl
  have nan : "nan".toList = ['n', 'a', 'n'] := rfl
  simp only [readWord, Spelled, map_foldCase ascii, inf, infinity, nan]
  generalize cs.map Char.toLower = folded
  constructor
  · split
    · rename_i either
      simp [either]
    · rename_i neither
      simp only [neither, iff_false]
      split <;> simp
  · split
    · rename_i either
      rcases either with rfl | rfl <;> simp
    · split
      · rename_i same
        simp [same]
      · rename_i other
        simp [other]

theorem MagnitudeText.unsigned {q : ℚ} {ds : List Char} (magnitude : MagnitudeText q ds)
    (es cs : List Char) : ds ++ es ≠ '+' :: cs ∧ ds ++ es ≠ '-' :: cs := by
  have digit {d : Char} {rest : List Char} (digits : IsDigits (d :: rest)) : d ≠ '+' ∧ d ≠ '-' := by
    have first := digits.2 d List.mem_cons_self
    constructor <;> rintro rfl <;> exact absurd first (by decide)
  cases magnitude with
  | whole digits =>
    cases ds with
    | nil => exact absurd rfl digits.1
    | cons d ds => simp [digit digits]
  | @pointed ds fs digits further =>
    cases ds with
    | nil => exact absurd rfl digits.1
    | cons d ds => simp [digit digits]
  | fraction digits => simp

theorem unsigned_word {body : List Char} (word : (readWord body).isSome) (cs : List Char) :
    body ≠ '+' :: cs ∧ body ≠ '-' :: cs := by
  obtain ⟨_, letters⟩ := readWord_letters word
  constructor
  all_goals
    rintro rfl
    exact absurd (letters _ List.mem_cons_self) (by decide)

theorem readLiteral_word {negative : Bool} {sign body : List Char} {w : Word}
    (signed : SignText negative sign) (ascii : ∀ c ∈ body, c.toNat < 128)
    (word : readWord body = some w) :
    readLiteral (sign ++ body) =
      some (match w with | .infinity => .infinite negative | .nan => .nan) := by
  have isWord : (readWord body).isSome := by rw [word]; rfl
  have all : (body.all fun c => c.toNat < 128) = true := by simpa using ascii
  simp only [readLiteral, signed.splitSign (unsigned_word isWord), readNumeral_word isWord, word,
    all, if_true]
  cases w <;> rfl

/-- The reader of literals follows the rules. -/
theorem real_iff {f : Format} {x : Binary} {cs : List Char} (ascii : ∀ c ∈ cs, c.toNat < 128) :
    RealText f x cs ↔ ∃ literal, readLiteral cs = some literal ∧ literal.toBinary f = some x := by
  constructor
  · intro real
    cases real with
    | @number negative sign ds es q n num den signed magnitude exponent positive value =>
      obtain ⟨m, read, number⟩ := readNumeral_of magnitude exponent
      refine ⟨.number negative m, ?_, ?_⟩
      · simp only [readLiteral, signed.splitSign (magnitude.unsigned es), read]
      · rw [← number] at value
        rw [Literal.toBinary, Literal.toDouble, m.toBinary_eq_round .double negative positive value,
          Option.map_some]
    | infinity signed word =>
      have body := fun c hc => ascii c (List.mem_append_right _ hc)
      exact ⟨_, readLiteral_word signed body ((readWord_iff body).1.mpr word), rfl⟩
    | nan signed word =>
      have body := fun c hc => ascii c (List.mem_append_right _ hc)
      exact ⟨_, readLiteral_word signed body ((readWord_iff body).2.mpr word), rfl⟩
  · rintro ⟨literal, read, denoted⟩
    obtain ⟨sign, signed, whole⟩ := exists_sign cs
    simp only [readLiteral] at read
    generalize (splitSign cs).1 = negative at *
    generalize (splitSign cs).2 = body at *
    subst whole
    have rest : ∀ c ∈ body, c.toNat < 128 := fun c hc => ascii c (List.mem_append_right _ hc)
    split at read
    · rename_i m numeral
      cases read
      cases denoted
      obtain ⟨q, n, ds, es, magnitude, exponent, rfl, value⟩ := of_readNumeral numeral
      have same :=
        scaled_value (readDigits (m.whole ++ m.fraction)) (m.exponent - m.fraction.length)
      have positive : 0 < 10 ^ (-(m.exponent - m.fraction.length)).toNat := Nat.pow_pos (by decide)
      rw [← Numeral.value] at same
      rw [m.toBinary_eq_round .double negative positive same]
      exact .number signed magnitude exponent positive (same.trans value)
    · split at read
      · cases read
      · rename_i w word
        have all : (body.all fun c => c.toNat < 128) = true := by simpa using rest
        rw [all, if_pos rfl] at read
        cases w with
        | infinity =>
          cases read
          cases denoted
          exact .infinity signed ((readWord_iff rest).1.mp word)
        | nan =>
          cases read
          cases denoted
          exact .nan signed ((readWord_iff rest).2.mp word)

end Decimal
end Postfix
