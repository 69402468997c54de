import Postfix.Proofs.Coercion
import Postfix.Proofs.Composition
import Postfix.Proofs.Reading
import Postfix.Proofs.References

/-! Variables whose values are texts, and the literals written in their places.
The one text is looked up and taken in while the expression is evaluated, the other is read when the
expression is built. A literal is read as nothing else, whatever symbols and variables are tried
before, so both come to the same operand; the expression without the variables is built with as deep
a stack and ends alike, in every container. -/
namespace Postfix

open Text Decimal

/-! ### Literals among the other roles -/

theorem Family.read_literal {family : Family} (standard : family.IsStandard) {t : NumericType}
    {raw : String} {v : Value} (read : t.read raw = .ok v) :
    ∃ fault, family.read raw = .error (.token fault) := by
  apply (Family.read_cases standard raw).resolve_left
  rintro ⟨op, symbol⟩
  obtain ⟨member, rfl⟩ := Family.mem_of_read symbol
  have noLiteral : ∀ op ∈ family.operators,
      Decimal.isInteger (dropFinalNewline op.symbol.toList) = false ∧
        (readLiteral (dropFinalNewline op.symbol.toList)).isSome = false := by
    rcases standard with rfl | rfl <;> decide
  obtain ⟨noInteger, noReal⟩ := noLiteral op member
  cases t with
  | word w =>
    rw [NumericType.read, NumericType.readWord] at read
    simp [noInteger] at read
  | float f =>
    obtain ⟨literal, _, found, _⟩ := NumericType.readFloat_eq_ok read
    rw [found] at noReal
    cases noReal

theorem VariableKind.read_literal (vars : VariableKind) {t : NumericType} {raw : String} {v : Value}
    (read : t.read raw = .ok v) : ∃ fault, vars.read raw = .error (.token fault) := by
  apply vars.read_unmarked
  intro cs
  exact ⟨fun form => NumericType.read_marked form (.inl rfl) read,
    fun form => NumericType.read_marked form (.inr rfl) read⟩

theorem classify_literal {family : Family} (standard : family.IsStandard) (vars : VariableKind)
    {t : NumericType} {raw : String} {v : Value} (read : t.read raw = .ok v) :
    classify family vars (.numeric t) raw = .ok (.operand v (t.text v)) := by
  obtain ⟨_, noOperator⟩ := Family.read_literal standard read
  obtain ⟨_, noVariable⟩ := vars.read_literal read
  simp only [classify, noOperator, noVariable, OperandKind.read, read, OperandKind.text]

/-! ### Tokens -/

theorem Expression.resolve_text {t : NumericType} {c : Container} {v : Variable} {text : String}
    {x : Value} (given : c.lookup v.key = .ok (some (.text text))) (read : t.read text = .ok x) :
    resolve (.numeric t) c v = .ok x := by
  apply resolve_taken given
  have foreign : t.owns (.text text) = false := by cases t <;> rfl
  simp only [NumericType.coerce, foreign, Bool.false_eq_true, if_false, read]

/-- A token in the place of another: the literal that is the value of a variable, and everything
else as it is. -/
inductive Token.Fills (t : NumericType) (c : Container) : Token → Token → Prop
  | literal {v : Variable} {text : String} {x : Value}
    (given : c.lookup v.key = .ok (some (.text text))) (read : t.read text = .ok x) :
    Fills t c (.reference v) (.operand x (t.text x))
  | same {s : Token} (other : s.reference? = none) : Fills t c s s

namespace Token.Fills

variable {t : NumericType} {c : Container} {s s' : Token}

theorem reference?_eq_none (fills : Fills t c s s') : s'.reference? = none := by
  cases fills with
  | literal given read => rfl
  | same other => exact other

theorem step (fills : Fills t c s s') (balance : Nat) :
    Arity.step balance s' = Arity.step balance s := by
  cases fills <;> rfl

theorem onList (fills : Fills t c s s') (d : Container) (vs : List Value) :
    Expression.onList (.numeric t) d s' vs = Expression.onList (.numeric t) c s vs := by
  cases fills with
  | literal given read =>
    simp only [Expression.onList, Expression.resolve_text given read]
    rfl
  | same other =>
    cases s with
    | reference v => cases other
    | operand value text => rfl
    | operator op => rfl

end Token.Fills

namespace Expression

theorem runList_fills {t : NumericType} {c : Container} {ts ts' : List Token}
    (fills : List.Forall₂ (Token.Fills t c) ts ts') (d : Container) (vs : List Value) :
    runList (.numeric t) d ts' vs = runList (.numeric t) c ts vs := by
  induction fills generalizing vs with
  | nil => rfl
  | cons first _ ih =>
    simp only [runList, first.onList d vs]
    exact congrArg _ (funext ih)

/-! ### Expressions -/

/-- A raw token with the text of the variable in its place, if it is read as one. -/
def written (family : Family) (kind : OperandKind) (vars : VariableKind)
    (text : Variable → String) (raw : String) : String :=
  match classify family vars kind raw with
  | .ok (.reference v) => text v
  | _ => raw

section

variable {family : Family} {t : NumericType} {vars : VariableKind} {raw : List String}
  {e : Expression} {c : Container} {text : Variable → String}

theorem classify_written (standard : family.IsStandard) {r : String} {s : Token}
    (classified : classify family vars (.numeric t) r = .ok s)
    (given : ∀ v, s = .reference v → c.lookup v.key = .ok (some (.text (text v))) ∧
      ∃ x, t.read (text v) = .ok x) :
    ∃ s', classify family vars (.numeric t) (written family (.numeric t) vars text r) = .ok s' ∧
      Token.Fills t c s s' := by
  cases s with
  | reference v =>
    obtain ⟨found, x, read⟩ := given v rfl
    simp only [written, classified]
    exact ⟨_, classify_literal standard vars read, .literal found read⟩
  | operand value text =>
    simp only [written, classified]
    exact ⟨_, rfl, .same rfl⟩
  | operator op =>
    simp only [written, classified]
    exact ⟨_, rfl, .same rfl⟩

theorem classified_written (standard : family.IsStandard) {ts : List Token}
    (classified : List.Forall₂ (fun r s => classify family vars (.numeric t) r = .ok s) raw ts)
    (given : ∀ v, .reference v ∈ ts → c.lookup v.key = .ok (some (.text (text v))) ∧
      ∃ x, t.read (text v) = .ok x) :
    ∃ ts', List.Forall₂ (fun r s => classify family vars (.numeric t) r = .ok s)
        (raw.map (written family (.numeric t) vars text)) ts' ∧
      List.Forall₂ (Token.Fills t c) ts ts' := by
  induction classified with
  | nil => exact ⟨[], .nil, .nil⟩
  | @cons r s raw ts first _ ih =>
    obtain ⟨s', here, fill⟩ := classify_written standard first fun v h =>
      given v (h ▸ List.mem_cons_self)
    obtain ⟨ts', rest, fills⟩ := ih fun v h => given v (List.mem_cons_of_mem s h)
    exact ⟨s' :: ts', .cons here rest, .cons fill fills⟩

theorem references_eq_nil (none : ∀ s ∈ e.tokens, s.reference? = none) : e.references = [] := by
  apply List.eq_nil_iff_forall_not_mem.mpr
  intro v listed
  cases none _ (mem_references_iff.mp listed)

/-- An expression whose variables are all given texts of literals, whatever container they are found
in, ends as the one with these texts in their places. -/
theorem evaluate_written (standard : family.IsStandard)
    (built : ofTokens raw family (.numeric t) vars = .ok e)
    (given : ∀ v ∈ e.references, c.lookup v.key = .ok (some (.text (text v))) ∧
      ∃ x, t.read (text v) = .ok x) :
    ∃ e', ofTokens (raw.map (written family (.numeric t) vars text)) family (.numeric t) vars =
        .ok e' ∧
      e'.maxStack = e.maxStack ∧ e'.references = [] ∧ ∀ d, e'.evaluate d = e.evaluate c := by
  obtain ⟨accepted, classified, checked, sameKind, _, _⟩ := ofTokens_eq_ok.mp built
  obtain ⟨ts, again, fills⟩ := classified_written standard classified fun v occurs =>
    given v (mem_references occurs)
  let e' : Expression := ⟨ts, e.maxStack, .numeric t, family, vars⟩
  have steps := fills.imp fun _ _ fill => fill.step
  have built' : ofTokens (raw.map (written family (.numeric t) vars text)) family (.numeric t) vars
      = .ok e' :=
    ofTokens_eq_ok.mpr ⟨accepted, again, Arity.checkFrom_congr steps checked, rfl, rfl, rfl⟩
  refine ⟨e', built', rfl, ?_, ?_⟩
  · apply references_eq_nil
    intro s' member
    obtain ⟨s, _, fill⟩ := List.exists_of_forall₂_mem fills member
    exact fill.reference?_eq_none
  · intro d
    apply evaluate_eq_of_runList standard.keepsWord built' built
    rw [sameKind]
    exact runList_fills fills d []

end

def textAt (values : List String) : Variable → String
  | .index i => values.getD i ""
  | v => v.text

theorem textAt_index {values : List String} {i : Nat} {text : String}
    (found : values[i]? = some text) : textAt values (.index i) = text := by
  simp [textAt, found]

theorem lookup_index {values : List String} {i : Nat} {text : String}
    (found : values[i]? = some text) :
    (Container.positional (values.map .text)).lookup (Variable.index i).key =
      .ok (some (.text text)) := by
  simp [Container.lookup, Variable.key, Container.position?, List.getElem?_map, found,
    Container.found]

theorem exists_index {raw : List String} {family : Family} {kind : OperandKind} {e : Expression}
    (built : ofTokens raw family kind .index = .ok e) {v : Variable} (listed : v ∈ e.references) :
    ∃ i, v = .index i := by
  obtain ⟨r, _, read⟩ := exists_read built listed
  obtain ⟨digits, _, _, _, _, rfl⟩ := readIndex_eq_ok.mp read
  exact ⟨readDigits digits, rfl⟩

/-- A variable that is given a text means the same as the literal written in its place. -/
theorem evaluate_literals {family : Family} (standard : family.IsStandard) {t : NumericType}
    {raw : List String} {e : Expression}
    (built : ofTokens raw family (.numeric t) .index = .ok e) {values : List String}
    (given : ∀ i, .index i ∈ e.references →
      ∃ text v, values[i]? = some text ∧ t.read text = .ok v) :
    ∃ e', ofTokens (raw.map (written family (.numeric t) .index (textAt values))) family
        (.numeric t) .index = .ok e' ∧
      e'.maxStack = e.maxStack ∧ e'.references = [] ∧
      ∀ c, e'.evaluate c = e.evaluate (.positional (values.map .text)) := by
  apply evaluate_written standard built
  intro v listed
  obtain ⟨i, rfl⟩ := exists_index built listed
  obtain ⟨text, x, found, read⟩ := given i listed
  rw [textAt_index found]
  exact ⟨lookup_index found, x, read⟩

/-- A text with a sign and a line feed is read twice, and one that is no number is not asked for. -/
theorem evaluate_literals_signed :
    Family.integer.IsStandard ∧
      ∃ e, ofTokens ["$1", "$01", "*", "$2", "-"] .integer (.numeric .int8) .index = .ok e ∧
        e.references = [.index 1, .index 2] ∧
        e.evaluate (.positional [.text "five", .text "+5\n", .text "-3"]) =
          .ok (.word .int8 28) ∧
        ∃ e', ofTokens ["+5\n", "+5\n", "*", "-3", "-"] .integer (.numeric .int8) .index = .ok e' ∧
          e'.maxStack = 2 ∧ e'.evaluate .absent = .ok (.word .int8 28) := by
  have standard : Family.integer.IsStandard := .inr rfl
  let e : Expression :=
    ⟨[.reference (.index 1), .reference (.index 1), .operator (.integer (.binary .mul)),
      .reference (.index 2), .operator (.integer (.binary .sub))], 2, .numeric .int8, .integer,
      .index⟩
  have built : ofTokens ["$1", "$01", "*", "$2", "-"] .integer (.numeric .int8) .index = .ok e := by
    with_unfolding_all rfl
  have references : e.references = [.index 1, .index 2] := by decide
  have given : ∀ i, .index i ∈ e.references → ∃ text v,
      ["five", "+5\n", "-3"][i]? = some text ∧ NumericType.int8.read text = .ok v := by
    rw [references]
    intro i listed
    simp only [List.mem_cons, Variable.index.injEq, List.not_mem_nil, or_false] at listed
    rcases listed with rfl | rfl
    · exact ⟨"+5\n", .word .int8 5, rfl, by with_unfolding_all rfl⟩
    · exact ⟨"-3", .word .int8 (-3), rfl, by with_unfolding_all rfl⟩
  have value : e.evaluate (.positional [.text "five", .text "+5\n", .text "-3"]) =
      .ok (.word .int8 28) := by
    rw [evaluate_eq_runList]
    with_unfolding_all rfl
  obtain ⟨e', built', depth, _, values⟩ := evaluate_literals standard built given
  have replaced : ["$1", "$01", "*", "$2", "-"].map
      (written .integer (.numeric .int8) .index (textAt ["five", "+5\n", "-3"])) =
      ["+5\n", "+5\n", "*", "-3", "-"] := by
    with_unfolding_all rfl
  rw [replaced] at built'
  exact ⟨standard, e, built, references, value, e', built', depth, (values .absent).trans value⟩

end Expression
end Postfix
