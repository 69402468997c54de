import Mathlib.Algebra.Order.Ring.Int
import Postfix.Proofs.Substitution

/-! Division and remainder of signed words.
The two are those of division toward zero, so the remainder is smaller than the divisor and has the
sign of the dividend. Only a divisor of zero, and the least word over minus one, leave the range,
and the latter has a remainder all the same. What is multiplied back never goes beyond the dividend,
so quotient and remainder can be put together again within the range. -/
namespace Postfix

/-! ### Division toward zero -/

/-- From zero up to the number, on its side. -/
def Toward (l n : Int) : Prop := 0 ≤ n ∧ n ≤ l ∨ l ≤ n ∧ n ≤ 0

theorem toward_tmod (l r : Int) : Toward l (l.tmod r) := by
  have size := Int.natAbs_tmod l r
  have smaller : l.natAbs % r.natAbs ≤ l.natAbs := Nat.mod_le _ _
  rcases Int.le_total 0 l with above | below
  · have sign := Int.tmod_nonneg r above
    exact .inl (by omega)
  · have sign := Int.tmod_nonneg r (Int.neg_nonneg_of_nonpos below)
    rw [Int.neg_tmod] at sign
    exact .inr (by omega)

theorem toward_product (l r : Int) : Toward l (l.tdiv r * r) := by
  have parts := Int.tdiv_mul_add_tmod l r
  rcases toward_tmod l r with rest | rest
  · exact .inl (by omega)
  · exact .inr (by omega)

theorem tmod_small {r : Int} (nonzero : r ≠ 0) (l : Int) :
    (l.tmod r).natAbs < r.natAbs ∧ (l.tmod r = 0 ∨ (l.tmod r).sign = l.sign) := by
  constructor
  · rw [Int.natAbs_tmod]
    exact Nat.mod_lt _ (Int.natAbs_pos.mpr nonzero)
  · by_cases none : l.tmod r = 0
    · exact .inl none
    · right
      rcases toward_tmod l r with ⟨above, most⟩ | ⟨least, below⟩
      · rw [Int.sign_eq_one_of_pos (by omega), Int.sign_eq_one_of_pos (by omega)]
      · rw [Int.sign_eq_neg_one_of_neg (by omega), Int.sign_eq_neg_one_of_neg (by omega)]

namespace WordType

variable {w : Width} {l r n : Int}

def Indivisible (t : WordType) (l r : Int) : Prop := r = 0 ∨ l = t.minimum ∧ r = -1

instance (t : WordType) (l r : Int) : Decidable (t.Indivisible l r) :=
  inferInstanceAs (Decidable (_ ∨ _))

theorem holds_iff_natAbs : holds ⟨true, w⟩ n ↔ minimum ⟨true, w⟩ ≤ n ∧ n < -minimum ⟨true, w⟩ := by
  simp only [holds, minimum, maximum, if_true, Bool.and_eq_true, decide_eq_true_eq]
  omega

theorem minimum_neg : minimum ⟨true, w⟩ < 0 := by cases w <;> decide

theorem holds_toward (inside : holds ⟨true, w⟩ l) (toward : Toward l n) : holds ⟨true, w⟩ n := by
  have negative := minimum_neg (w := w)
  rw [holds_iff_natAbs] at inside ⊢
  unfold Toward at toward
  omega

/-- A quotient leaves the range only where the least word is turned around. -/
theorem holds_tdiv (inside : holds ⟨true, w⟩ l) (nonzero : r ≠ 0) :
    holds ⟨true, w⟩ (l.tdiv r) ↔ ¬ (l = minimum ⟨true, w⟩ ∧ r = -1) := by
  have negative := minimum_neg (w := w)
  have size : (l.tdiv r).natAbs = l.natAbs / r.natAbs := Int.natAbs_tdiv l r
  rw [holds_iff_natAbs] at inside ⊢
  by_cases unit : r.natAbs = 1
  · obtain rfl | rfl : r = 1 ∨ r = -1 := by omega
    · rw [Int.tdiv_one]
      omega
    · rw [Int.tdiv_neg, Int.tdiv_one]
      omega
  · -- Any other divisor halves the magnitude at least, which even the least word can bear.
    have halved : l.natAbs / r.natAbs ≤ l.natAbs / 2 :=
      Nat.div_le_div_left (by omega) (by decide)
    omega

end WordType

/-! ### The operators -/

namespace IntegerOp

variable {w : Width} {l r : Int}

theorem onList_exact {op : IntegerBinary} {n : Int}
    (computed : op.exact w.bits l r = .ok n) (held : WordType.holds ⟨true, w⟩ n)
    (below : List Value) :
    onList (some (.word ⟨true, w⟩)) (binary op)
        (.word ⟨true, w⟩ r :: .word ⟨true, w⟩ l :: below) = .ok (.word ⟨true, w⟩ n :: below) := by
  simp only [onList, combine_word, combineInts, elementBits, computed, checked_word, held, if_true]
  rfl

theorem onList_rem (inside : WordType.holds ⟨true, w⟩ l) (below : List Value) :
    onList (some (.word ⟨true, w⟩)) (binary .rem)
        (.word ⟨true, w⟩ r :: .word ⟨true, w⟩ l :: below) =
      if r = 0 then .error (.arithmetic .invalidRem [l, r])
      else .ok (.word ⟨true, w⟩ (l.tmod r) :: below) := by
  split
  · rename_i zero
    simp only [onList, combine_word, combineInts, IntegerBinary.exact, zero, if_true]
    rfl
  · rename_i nonzero
    apply onList_exact
    · simp only [IntegerBinary.exact, IntegerBinary.truncatedQuotient_eq_tdiv, nonzero, if_false,
        Int.tmod_def]
    · exact WordType.holds_toward inside (toward_tmod l r)

theorem onList_div (inside : WordType.holds ⟨true, w⟩ l) (below : List Value) :
    onList (some (.word ⟨true, w⟩)) (binary .div)
        (.word ⟨true, w⟩ r :: .word ⟨true, w⟩ l :: below) =
      if WordType.Indivisible ⟨true, w⟩ l r then .error (.arithmetic .invalidDiv [l, r])
      else .ok (.word ⟨true, w⟩ (l.tdiv r) :: below) := by
  by_cases zero : r = 0
  · simp only [WordType.Indivisible, zero, true_or, if_true]
    simp only [onList, combine_word, combineInts, IntegerBinary.exact, if_true]
    rfl
  · have held := WordType.holds_tdiv inside zero
    have computed : IntegerBinary.div.exact w.bits l r = .ok (l.tdiv r) := by
      simp only [IntegerBinary.exact, IntegerBinary.truncatedQuotient_eq_tdiv, zero, if_false]
    split
    · rename_i turned
      have out := mt held.mp (not_not.mpr (turned.resolve_left zero))
      simp only [onList, combine_word, combineInts, elementBits, computed, checked_word, out,
        Bool.false_eq_true, if_false]
      rfl
    · rename_i divisible
      exact onList_exact computed (held.mpr fun turned => divisible (.inr turned)) below

end IntegerOp

/-! ### Quotient and remainder put together -/

def Spells (w : Width) (text : String) (n : Int) : Prop :=
  (NumericType.signed w).read text = .ok (.word ⟨true, w⟩ n)

namespace Expression

variable {w : Width} {l r : Int}

theorem runList_recompose (inside : WordType.holds ⟨true, w⟩ l)
    (divisible : ¬ WordType.Indivisible ⟨true, w⟩ l r) (c : Container) (left right : String) :
    runList (.numeric (.signed w)) c
      [.operand (.word ⟨true, w⟩ l) left, .operand (.word ⟨true, w⟩ r) right,
        .operator (.integer (.binary .div)), .operand (.word ⟨true, w⟩ r) right,
        .operator (.integer (.binary .mul)), .operand (.word ⟨true, w⟩ l) left,
        .operand (.word ⟨true, w⟩ r) right, .operator (.integer (.binary .rem)),
        .operator (.integer (.binary .add))] [] = .ok [.word ⟨true, w⟩ l] := by
  have nonzero : r ≠ 0 := fun zero => divisible (.inl zero)
  have divided (below : List Value) := IntegerOp.onList_div (r := r) inside below
  have rest (below : List Value) := IntegerOp.onList_rem (r := r) inside below
  have product := WordType.holds_toward inside (toward_product l r)
  have times : IntegerBinary.mul.exact w.bits (l.tdiv r) r = .ok (l.tdiv r * r) := rfl
  have multiplied (below : List Value) := IntegerOp.onList_exact times product below
  have whole : IntegerBinary.add.exact w.bits (l.tdiv r * r) (l.tmod r) = .ok l := by
    rw [IntegerBinary.exact, Int.tdiv_mul_add_tmod]
  have added (below : List Value) := IntegerOp.onList_exact whole inside below
  simp only [divisible, nonzero, if_false] at divided rest
  simp only [runList, onList, Operator.onList, OperandKind.dtype?, NumericType.dtype,
    NumericType.signed, Except.bind, divided, multiplied, rest, added]

theorem evaluate_recompose (inside : WordType.holds ⟨true, w⟩ l)
    (divisible : ¬ WordType.Indivisible ⟨true, w⟩ l r) {left right : String}
    (readLeft : Spells w left l) (readRight : Spells w right r) (vars : VariableKind) :
    ∃ e, ofTokens [left, right, "/", right, "*", left, right, "%", "+"] .integer
        (.numeric (.signed w)) vars = .ok e ∧ ∀ c, e.evaluate c = .ok (.word ⟨true, w⟩ l) := by
  have standard : Family.integer.IsStandard := .inr rfl
  let kind : OperandKind := .numeric (.signed w)
  let first : Token := .operand (.word ⟨true, w⟩ l) (kind.text (.word ⟨true, w⟩ l))
  let second : Token := .operand (.word ⟨true, w⟩ r) (kind.text (.word ⟨true, w⟩ r))
  let symbol (op : IntegerBinary) : Token := .operator (.integer (.binary op))
  let e : Expression :=
    ⟨[first, second, symbol .div, second, symbol .mul, first, second, symbol .rem, symbol .add],
      3, kind, .integer, vars⟩
  have readFirst : classify .integer vars kind left = .ok first :=
    classify_literal standard vars readLeft
  have readSecond : classify .integer vars kind right = .ok second :=
    classify_literal standard vars readRight
  have readSymbol (op : IntegerBinary) :
      classify .integer vars kind (IntegerOp.binary op).symbol = .ok (symbol op) := by
    apply classify_symbol
    cases op <;> decide
  refine ⟨e, ofTokens_eq_ok.mpr ⟨rfl, ?_, rfl, rfl, rfl, rfl⟩, fun c => ?_⟩
  · exact .cons readFirst (.cons readSecond (.cons (readSymbol .div) (.cons readSecond
      (.cons (readSymbol .mul) (.cons readFirst (.cons readSecond (.cons (readSymbol .rem)
        (.cons (readSymbol .add) .nil))))))))
  · rw [evaluate_eq_runList, runList_recompose inside divisible]

end Expression

namespace IntegerOp

variable {w : Width} {l r : Int}

/-- Division and remainder of two words. A remainder fails for the divisor zero only, and is smaller
than the divisor and on the side of the dividend; a quotient fails besides for the least word over
minus one. Where there is a quotient, the two are put together to the dividend again, by an
expression that stays in the range all the way. -/
theorem division_complete (left : WordType.holds ⟨true, w⟩ l) (right : WordType.holds ⟨true, w⟩ r) :
    (∃ m, (r ≠ 0 → m.natAbs < r.natAbs ∧ (m = 0 ∨ m.sign = l.sign)) ∧ ∀ below,
      (apply (some (.word ⟨true, w⟩)) (binary .rem)).Effects
        (.word ⟨true, w⟩ r :: .word ⟨true, w⟩ l :: below)
        (if r = 0 then .error (.arithmetic .invalidRem [l, r])
          else .ok (.word ⟨true, w⟩ m :: below))) ∧
    (∀ below, (apply (some (.word ⟨true, w⟩)) (binary .div)).Effects
        (.word ⟨true, w⟩ r :: .word ⟨true, w⟩ l :: below)
        (if r = 0 ∨ l = WordType.minimum ⟨true, w⟩ ∧ r = -1 then
            .error (.arithmetic .invalidDiv [l, r])
          else .ok (.word ⟨true, w⟩ (l.tdiv r) :: below))) ∧
    (Spells w (Text.intText l) l ∧ Spells w (Text.intText r) r) ∧
    (¬ (r = 0 ∨ l = WordType.minimum ⟨true, w⟩ ∧ r = -1) →
      ∀ a b, Spells w a l → Spells w b r → ∀ vars,
        ∃ e, Expression.ofTokens [a, b, "/", b, "*", a, b, "%", "+"] .integer
            (.numeric (.signed w)) vars = .ok e ∧ ∀ c, e.evaluate c = .ok (.word ⟨true, w⟩ l)) := by
  refine ⟨⟨l.tmod r, fun nonzero => tmod_small nonzero l, fun below => ?_⟩, fun below => ?_,
    ⟨?_, ?_⟩, ?_⟩
  · rw [← onList_rem left below]
    exact effects_apply _ _ _
  · have effects := effects_apply (some (.word ⟨true, w⟩)) (binary .div)
      (.word ⟨true, w⟩ r :: .word ⟨true, w⟩ l :: below)
    rw [onList_div left below] at effects
    exact effects
  · exact NumericType.readWord_intText left
  · exact NumericType.readWord_intText right
  · intro divisible a b readLeft readRight vars
    exact Expression.evaluate_recompose left divisible readLeft readRight vars

/-- The least word has no quotient by minus one, but the remainder zero; by seven it has both. -/
theorem division_complete_least :
    (∀ below, (apply (some (.word ⟨true, .w8⟩)) (binary .rem)).Effects
      (.word ⟨true, .w8⟩ (-1) :: .word ⟨true, .w8⟩ (-128) :: below)
      (.ok (.word ⟨true, .w8⟩ 0 :: below))) ∧
    (∀ below, (apply (some (.word ⟨true, .w8⟩)) (binary .div)).Effects
      (.word ⟨true, .w8⟩ (-1) :: .word ⟨true, .w8⟩ (-128) :: below)
      (.error (.arithmetic .invalidDiv [-128, -1]))) ∧
    ∃ e, Expression.ofTokens ["-128", "+07", "/", "+07", "*", "-128", "+07", "%", "+"] .integer
      (.numeric .int8) .none = .ok e ∧ ∀ c, e.evaluate c = .ok (.word ⟨true, .w8⟩ (-128)) := by
  have least : WordType.holds ⟨true, .w8⟩ (-128) := by decide
  obtain ⟨⟨m, small, rest⟩, divided, _, _⟩ := division_complete least (r := -1) (by decide)
  obtain rfl : m = 0 := by
    have below := (small (by decide)).1
    omega
  obtain ⟨_, _, _, recomposed⟩ := division_complete least (r := 7) (by decide)
  exact ⟨rest, divided, recomposed (by decide) "-128" "+07" rfl rfl .none⟩

end IntegerOp
end Postfix
