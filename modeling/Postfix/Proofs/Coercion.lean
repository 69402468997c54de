import Postfix.Proofs.Building

/-! How taking in a value ends.
A value that is no number of the type is refused, and the refusal counts as one of the value. Two
sorts of values escape that: numbers that have to go through a double which cannot hold them, and
refused values whose own report cannot be written, since an integer in them has too many digits. -/
namespace Postfix

/-- A number that is beyond the doubles, where its type has to look at it as a double. -/
inductive Overflows : NumericType → Value → Fault → Prop
  | integer {f : Format} {n : Int} (beyond : (Format.double.ofInt n).isInfinite) :
    Overflows (.float f) (.int n) .realTooLarge
  | fraction {t : NumericType} {num : Int} {den : Nat}
    (beyond : (Format.double.round (num < 0) num.natAbs den).isInfinite) :
    Overflows t (.fraction num den) .quotientTooLarge

/-- A value that ends its evaluation with a fault, which is not reported as one of the value. -/
inductive Escapes (t : NumericType) (v : Value) : Fault → Prop
  | overflow {f : Fault} (beyond : Overflows t v f) : Escapes t v f
  | unwritten {cause : Refusal} (refused : t.coerce v = .error cause)
    (ofValue : Expression.isOfValue cause) (huge : v.hasHugeInteger) : Escapes t v .shownDigitLimit

/-- The value is refused for a cause, and the report of it can be written. -/
structure Refused (t : NumericType) (v : Value) (cause : Refusal) : Prop where
  refused : t.coerce v = .error cause
  ofValue : Expression.isOfValue cause
  written : v.hasHugeInteger = false

namespace NumericType

theorem isOfValue_ite {p : Prop} [Decidable p] {f g : Fault}
    (first : Expression.isOfValue (.fault f)) (second : Expression.isOfValue (.fault g)) :
    Expression.isOfValue (.fault (if p then f else g)) := by
  split
  · exact first
  · exact second

theorem quotientBinary_eq_error {num : Int} {den : Nat} {f : Fault} :
    quotientBinary num den = .error f ↔
      (Format.double.round (num < 0) num.natAbs den).isInfinite ∧ f = .quotientTooLarge := by
  unfold quotientBinary
  simp only
  split
  · rename_i beyond
    simp only [beyond, true_and, Except.error.injEq, eq_comm]
  · rename_i held
    simp only [held, false_and, reduceCtorEq]

theorem integerBinary_eq_error {n : Int} {f : Fault} :
    integerBinary n = .error f ↔ (Format.double.ofInt n).isInfinite ∧ f = .realTooLarge := by
  unfold integerBinary
  simp only
  split
  · rename_i beyond
    simp only [beyond, true_and, Except.error.injEq, eq_comm]
  · rename_i held
    simp only [held, false_and, reduceCtorEq]

theorem wholeNumber_eq_error {v : Value} {f : Fault} (failed : wholeNumber v = .error f)
    (t : WordType) : Overflows (.word t) v f := by
  cases v with
  | fraction num den =>
    cases quotient : quotientBinary num den with
    | ok x => rw [wholeNumber, quotient] at failed; cases failed
    | error e =>
      rw [wholeNumber, quotient] at failed
      cases failed
      obtain ⟨beyond, rfl⟩ := quotientBinary_eq_error.mp quotient
      exact .fraction beyond
  | _ => cases failed

theorem coerce_of_owns {t : NumericType} {v : Value} (owned : t.owns v) : t.coerce v = .ok v := by
  unfold coerce
  rw [if_pos owned]

theorem coerceWord_eq_error {t : WordType} {v : Value} {f : Fault}
    (failed : coerceWord t v = .error f) :
    Overflows (.word t) v f ∨ Expression.isOfValue (.fault f) := by
  unfold coerceWord at failed
  cases whole : wholeNumber v with
  | error e =>
    rw [whole] at failed
    cases failed
    exact .inl (wholeNumber_eq_error whole t)
  | ok n? =>
    rw [whole] at failed
    refine .inr ?_
    cases n? with
    | none =>
      change Except.error _ = _ at failed
      cases failed
      exact isOfValue_ite rfl rfl
    | some n =>
      change (if _ then _ else _) = _ at failed
      split at failed
      · cases failed
      · rw [← Except.error.inj failed]
        exact isOfValue_ite rfl rfl

theorem coerceFloat_eq_error {format : Format} {v : Value} {f : Fault}
    (failed : coerceFloat format v = .error f) :
    Overflows (.float format) v f ∨ Expression.isOfValue (.fault f) := by
  cases v with
  | int n =>
    cases number : integerBinary n with
    | ok x => rw [coerceFloat, number] at failed; cases failed
    | error e =>
      rw [coerceFloat, number] at failed
      cases failed
      obtain ⟨beyond, rfl⟩ := integerBinary_eq_error.mp number
      exact .inl (.integer beyond)
  | fraction num den =>
    cases number : quotientBinary num den with
    | ok x => rw [coerceFloat, number] at failed; cases failed
    | error e =>
      rw [coerceFloat, number] at failed
      cases failed
      obtain ⟨beyond, rfl⟩ := quotientBinary_eq_error.mp number
      exact .inl (.fraction beyond)
  | real _ => cases failed
  | float _ _ => cases failed
  | word _ _ => cases failed
  | _ =>
    cases failed
    exact .inr (isOfValue_ite rfl rfl)

theorem read_isOfValue {t : NumericType} {raw : String} {cause : Refusal}
    (failed : t.read raw = .error cause) : Expression.isOfValue cause := by
  cases t with
  | word w =>
    simp only [read, readWord] at failed
    split at failed
    · cases failed; rfl
    · split at failed
      · cases failed; rfl
      · split at failed <;> cases failed
        rfl
  | float f =>
    simp only [read, readFloat] at failed
    split at failed
    · cases failed; rfl
    · split at failed <;> cases failed
      rfl

theorem coerce_eq_error {t : NumericType} {v : Value} {cause : Refusal}
    (failed : t.coerce v = .error cause) :
    Expression.isOfValue cause ∨ ∃ f, Overflows t v f ∧ cause = .fault f := by
  unfold coerce at failed
  split at failed
  · cases failed
  · split at failed
    · cases failed; exact .inl rfl
    · cases failed; exact .inl rfl
    · exact .inl (read_isOfValue failed)
    · exact .inl (read_isOfValue failed)
    · obtain ⟨f, refused, rfl⟩ := Except.mapError_eq_error.mp failed
      have ends : Overflows t v f ∨ Expression.isOfValue (.fault f) := by
        cases t with
        | word t => exact coerceWord_eq_error refused
        | float format => exact coerceFloat_eq_error refused
      exact ends.elim (fun beyond => .inr ⟨f, beyond, rfl⟩) .inl

theorem coerce_overflows {t : NumericType} {v : Value} {f : Fault} (beyond : Overflows t v f) :
    t.coerce v = .error (.fault f) := by
  cases beyond with
  | integer beyond =>
    have tooLarge := integerBinary_eq_error.mpr ⟨beyond, rfl⟩
    simp only [coerce, owns, coerceFloat, tooLarge, Bool.false_eq_true, if_false]
    rfl
  | fraction beyond =>
    have tooLarge := quotientBinary_eq_error.mpr ⟨beyond, rfl⟩
    cases t with
    | word t =>
      simp only [coerce, owns, coerceWord, wholeNumber, tooLarge, Bool.false_eq_true, if_false]
      rfl
    | float f =>
      simp only [coerce, owns, coerceFloat, tooLarge, Bool.false_eq_true, if_false]
      rfl

theorem coerce_cases (t : NumericType) (v : Value) :
    (∃ x, t.coerce v = .ok x ∧ t.owns x) ∨ (∃ f, Escapes t v f) ∨ ∃ cause, Refused t v cause := by
  cases taken : t.coerce v with
  | ok x => exact .inl ⟨x, rfl, owns_of_coerce taken⟩
  | error cause =>
    rcases coerce_eq_error taken with ofValue | ⟨f, beyond, rfl⟩
    · cases huge : v.hasHugeInteger with
      | true => exact .inr (.inl ⟨_, .unwritten taken ofValue huge⟩)
      | false => exact .inr (.inr ⟨cause, taken, ofValue, huge⟩)
    · exact .inr (.inl ⟨f, .overflow beyond⟩)

end NumericType

/-! ### Variables -/

namespace Expression

variable {t : NumericType} {c : Container} {v : Variable}

theorem lookup_supported (supported : ∀ name, c ≠ .unsupported name) (v : Variable) :
    ∃ found, c.lookup v.key = .ok found := by
  have key : v.key.notKey? = none := by cases v <;> rfl
  cases c with
  | unsupported name => exact absurd rfl (supported name)
  | keyed pairs => exact ⟨_, by simp only [Container.lookup, key]; rfl⟩
  | labelled entries => exact ⟨_, by simp only [Container.lookup, key]; rfl⟩
  | _ => exact ⟨_, rfl⟩

theorem resolve_missing {kind : OperandKind} (missing : c.lookup v.key = .ok none) :
    resolve kind c v = .error (.notFound v.text) := by
  simp only [resolve, missing]

theorem resolve_escapes {value : Value} {f : Fault}
    (found : c.lookup v.key = .ok (some value)) (escapes : Escapes t value f) :
    resolve (.numeric t) c v = .error (.fault f) := by
  cases escapes with
  | overflow beyond =>
    simp only [resolve, found, OperandKind.coerce, NumericType.coerce_overflows beyond]
    cases beyond <;> rfl
  | unwritten refused ofValue huge =>
    simp only [resolve, found, OperandKind.coerce, refused, ofValue, huge, if_true]

theorem resolve_taken {value x : Value} (found : c.lookup v.key = .ok (some value))
    (taken : t.coerce value = .ok x) : resolve (.numeric t) c v = .ok x := by
  simp only [resolve, found, OperandKind.coerce, taken]

theorem resolve_unfit {value : Value} {cause : Refusal}
    (found : c.lookup v.key = .ok (some value)) (refused : Refused t value cause) :
    resolve (.numeric t) c v = .error (.unfit v.text value t.name cause) := by
  simp only [resolve, found, OperandKind.coerce, refused.refused, refused.ofValue, refused.written,
    Bool.false_eq_true, if_true, if_false]
  rfl

theorem resolve_refused {value : Value} {cause : Refusal}
    (found : c.lookup v.key = .ok (some value)) (refused : t.coerce value = .error cause)
    (contained : ∀ f, ¬ Escapes t value f) :
    resolve (.numeric t) c v = .error (.unfit v.text value t.name cause) := by
  rcases t.coerce_cases value with ⟨x, taken, _⟩ | ⟨f, escapes⟩ | ⟨_, again⟩
  · rw [refused] at taken; cases taken
  · exact absurd escapes (contained f)
  · cases refused.symm.trans again.refused
    exact resolve_unfit found again

theorem resolve_eq_error (supported : ∀ name, c ≠ .unsupported name) {failure : Failure}
    (failed : resolve (.numeric t) c v = .error failure) :
    (c.lookup v.key = .ok none ∧ failure = .notFound v.text) ∨
      ∃ value, c.lookup v.key = .ok (some value) ∧
        ((∃ cause, t.coerce value = .error cause ∧ failure = .unfit v.text value t.name cause) ∨
          ∃ f, Escapes t value f ∧ failure = .fault f) := by
  obtain ⟨found, answer⟩ := lookup_supported supported v
  cases found with
  | none =>
    rw [resolve_missing answer] at failed
    cases failed
    exact .inl ⟨answer, rfl⟩
  | some value =>
    refine .inr ⟨value, answer, ?_⟩
    by_cases escapes : ∃ f, Escapes t value f
    · obtain ⟨f, escapes⟩ := escapes
      rw [resolve_escapes answer escapes] at failed
      cases failed
      exact .inr ⟨f, escapes, rfl⟩
    · cases taken : t.coerce value with
      | ok x =>
        rw [resolve_taken answer taken] at failed
        cases failed
      | error cause =>
        rw [resolve_refused answer taken (not_exists.mp escapes)] at failed
        cases failed
        exact .inl ⟨cause, rfl, rfl⟩

end Expression
end Postfix
