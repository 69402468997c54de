import Postfix.Proofs.Operands
import Postfix.Proofs.Prelude

/-! What is known of an expression once it has been built: where each of its tokens comes from, and
that their arity was checked. Operands and the values that variables resolve to are of the kind
of the expression. -/
namespace Postfix

/-! ### Reading -/

theorem Family.mem_of_read {family : Family} {raw : String} {op : Operator}
    (h : family.read raw = .ok op) : op ∈ family.operators ∧ op.symbol = raw := by
  unfold read at h
  split at h
  · cases h
  · split at h
    · rename_i found
      cases h
      exact ⟨List.mem_of_find?_eq_some found, by simpa using List.find?_some found⟩
    · cases h

theorem NumericType.readWord_eq_ok {t : WordType} {raw : String} {v : Value}
    (h : readWord t raw = .ok v) : ∃ n, v = .word t n ∧ t.holds n := by
  simp only [readWord] at h
  split at h
  · cases h
  · split at h
    · cases h
    · split at h
      · rename_i inside
        cases h
        exact ⟨_, rfl, inside⟩
      · cases h

theorem NumericType.readFloat_eq_ok {f : Format} {raw : String} {v : Value}
    (h : readFloat f raw = .ok v) :
    ∃ literal x, Decimal.readLiteral (Decimal.dropFinalNewline raw.toList) = some literal ∧
      literal.toBinary f = some x ∧ v = .float f x := by
  simp only [readFloat] at h
  split at h
  · cases h
  · rename_i literal read
    split at h
    · rename_i x denotes
      cases h
      exact ⟨literal, x, read, denotes, rfl⟩
    · cases h

theorem NumericType.owns_of_read {t : NumericType} {raw : String} {v : Value}
    (h : t.read raw = .ok v) : t.owns v := by
  cases t with
  | word t =>
    obtain ⟨n, rfl, _⟩ := readWord_eq_ok h
    simp [owns]
  | float f =>
    obtain ⟨_, x, _, _, rfl⟩ := readFloat_eq_ok h
    simp [owns]

theorem OperandKind.owns_of_read {kind : OperandKind} {raw : String} {v : Value}
    (h : kind.read raw = .ok v) : kind.owns v := by
  cases kind with
  | numeric t => exact NumericType.owns_of_read h
  | oneTwo =>
    simp only [read, OneTwo.read] at h
    split at h
    · cases h; rfl
    · split at h <;> cases h
      rfl
  | letters =>
    simp only [read] at h
    split at h <;> cases h
    rfl

theorem classify_eq_ok {family : Family} {kind : OperandKind} {vars : VariableKind}
    {raw : String} {t : Token} (h : classify family vars kind raw = .ok t) :
    (∃ op, t = .operator op ∧ family.read raw = .ok op) ∨
      (∃ v, t = .reference v ∧ vars.read raw = .ok v) ∨
      (∃ value, t = .operand value (kind.text value) ∧ kind.read raw = .ok value) := by
  unfold classify at h
  split at h
  · rename_i op read
    cases h
    exact .inl ⟨op, rfl, read⟩
  · cases h
  · split at h
    · rename_i v read
      cases h
      exact .inr (.inl ⟨v, rfl, read⟩)
    · cases h
    · split at h
      · rename_i value read
        cases h
        exact .inr (.inr ⟨value, rfl, read⟩)
      · cases h
      · cases h

namespace Expression

theorem ofTokens_eq_ok {raw : List String} {family : Family} {kind : OperandKind}
    {vars : VariableKind} {e : Expression} :
    ofTokens raw family kind vars = .ok e ↔
      family.accepts kind ∧
        List.Forall₂ (fun r t => classify family vars kind r = .ok t) raw e.tokens ∧
        Arity.check e.tokens = .ok e.maxStack ∧ e.kind = kind ∧ e.family = family ∧
        e.variableKind = vars := by
  unfold ofTokens
  by_cases accepted : family.accepts kind = true
  · rw [if_pos accepted, Except.bind_eq_ok]
    constructor
    · rintro ⟨tokens, classified, h⟩
      obtain ⟨depth, checked, h⟩ := Except.bind_eq_ok.mp h
      cases h
      exact ⟨accepted, Except.mapM_eq_ok.mp classified, checked, rfl, rfl, rfl⟩
    · rintro ⟨_, classified, checked, rfl, rfl, rfl⟩
      exact ⟨e.tokens, Except.mapM_eq_ok.mpr classified,
        Except.bind_eq_ok.mpr ⟨e.maxStack, checked, rfl⟩⟩
  · rw [if_neg accepted]
    constructor
    · intro h; cases h
    · intro h; exact absurd h.1 accepted

theorem classified_of_mem {raw : List String} {family : Family} {kind : OperandKind}
    {vars : VariableKind} {e : Expression} (built : ofTokens raw family kind vars = .ok e)
    {t : Token} (member : t ∈ e.tokens) :
    ∃ r ∈ raw, classify family vars kind r = .ok t := by
  exact List.exists_of_forall₂_mem (ofTokens_eq_ok.mp built).2.1 member

theorem exists_classified {raw : List String} {family : Family} {kind : OperandKind}
    {vars : VariableKind} {e : Expression} (built : ofTokens raw family kind vars = .ok e)
    {t : Token} (member : t ∈ e.tokens) : ∃ r, classify family vars kind r = .ok t :=
  (classified_of_mem built member).imp fun _ h => h.2

theorem mem_operators {raw : List String} {family : Family} {kind : OperandKind}
    {vars : VariableKind} {e : Expression} (built : ofTokens raw family kind vars = .ok e)
    {op : Operator} (member : .operator op ∈ e.tokens) : op ∈ family.operators := by
  obtain ⟨r, _, classified⟩ := classified_of_mem built member
  rcases classify_eq_ok classified with ⟨_, same, read⟩ | ⟨_, same, _⟩ | ⟨_, same, _⟩
  · cases same
    exact (Family.mem_of_read read).1
  · cases same
  · cases same

end Expression

/-! ### Values taken in -/

namespace NumericType

theorem coerceWord_eq_ok {t : WordType} {v x : Value} (h : coerceWord t v = .ok x) :
    ∃ n, (x = .word t n ∧ t.holds n) ∧ wholeNumber v = .ok (some n) := by
  obtain ⟨whole, number, h⟩ := Except.bind_eq_ok.mp h
  cases whole with
  | none => cases h
  | some n =>
    simp only at h
    split at h
    · rename_i inside
      cases h
      exact ⟨n, ⟨rfl, inside⟩, number⟩
    · cases h

theorem coerceFloat_eq_ok {f : Format} {v x : Value} (h : coerceFloat f v = .ok x) :
    ∃ y, x = .float f y := by
  unfold coerceFloat at h
  split at h
  · obtain ⟨y, _, h⟩ := Except.bind_eq_ok.mp h
    cases h
    exact ⟨_, rfl⟩
  · obtain ⟨y, _, h⟩ := Except.bind_eq_ok.mp h
    cases h
    exact ⟨_, rfl⟩
  · cases h; exact ⟨_, rfl⟩
  · cases h; exact ⟨_, rfl⟩
  · cases h; exact ⟨_, rfl⟩
  · cases h

theorem owns_of_coerce {t : NumericType} {v x : Value} (h : t.coerce v = .ok x) : t.owns x := by
  unfold coerce at h
  split at h
  · rename_i own
    cases h
    exact own
  · split at h
    · cases h
    · cases h
    · exact owns_of_read h
    · exact owns_of_read h
    · rw [Except.mapError_eq_ok] at h
      cases t with
      | word t =>
        obtain ⟨n, ⟨rfl, _⟩, _⟩ := coerceWord_eq_ok h
        simp [owns]
      | float f =>
        obtain ⟨y, rfl⟩ := coerceFloat_eq_ok h
        simp [owns]

end NumericType

namespace Expression

theorem resolve_eq_ok {kind : OperandKind} {c : Container} {v : Variable} {x : Value}
    (h : resolve kind c v = .ok x) :
    ∃ value, c.lookup v.key = .ok (some value) ∧ kind.coerce value = .ok x := by
  unfold resolve at h
  split at h
  · cases h
  · cases h
  · rename_i value found
    split at h
    · rename_i operand taken
      cases h
      exact ⟨value, found, taken⟩
    · split at h
      · split at h <;> cases h
      · cases h

theorem owns_of_resolve {t : NumericType} {c : Container} {v : Variable} {x : Value}
    (h : resolve (.numeric t) c v = .ok x) : t.owns x := by
  obtain ⟨_, _, taken⟩ := resolve_eq_ok h
  exact NumericType.owns_of_coerce taken

theorem resolve_ne_underflow (kind : OperandKind) (c : Container) (v : Variable) (u : Underflow) :
    resolve kind c v ≠ .error (.underflow u) := by
  intro h
  unfold resolve at h
  split at h
  · cases h
  · cases h
  · split at h
    · cases h
    · rename_i cause _
      split at h
      · split at h <;> cases h
      · cases cause <;> cases h

end Expression
end Postfix
