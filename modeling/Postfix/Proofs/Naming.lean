import Postfix.Proofs.Splitting

/-! The text of an expression as its name.
If no symbol begins like a literal or like a variable, the beginning of a token shows its role, and
with the role its text tells which token it is. The tokens of a formula are words, so the text of an
expression that was built of a formula falls into them again. Two formulas then give expressions
with the same text if and only if they give the same expression. -/
namespace Postfix

open Text Decimal

/-- No symbol begins like the text of an operand or of a variable. -/
def Family.SymbolsApart (family : Family) : Prop :=
  ∀ op ∈ family.operators, ¬ IsNoSymbol op.symbol.toList

instance (family : Family) : Decidable family.SymbolsApart :=
  inferInstanceAs (Decidable (∀ op ∈ family.operators, _))

theorem Family.IsStandard.symbolsApart {family : Family} (standard : family.IsStandard) :
    family.SymbolsApart := symbol_begins standard

theorem VariableKind.isPlain_of_read {vars : VariableKind} (unmarked : vars ≠ marked)
    {raw : String} {v : Variable} (read : vars.read raw = .ok v) : vars.IsPlain := by
  cases vars with
  | none => exact .inl rfl
  | dummy => cases read
  | index => exact .inr (.inl rfl)
  | name => exact .inr (.inr rfl)
  | marked => exact absurd rfl unmarked

/-- The role that a text shows by its beginning. -/
def Role.ofText (text : String) : Role :=
  if isNumberText text.toList then .operand
  else if text.toList.head? = some '$' then .variable
  else .operator

section

variable {family : Family} {vars : VariableKind} {t : NumericType}

theorem Token.role_eq (apart : family.SymbolsApart) (unmarked : vars ≠ .marked) {raw : String}
    (word : IsWord raw.toList) {s : Token}
    (classified : classify family vars (.numeric t) raw = .ok s) :
    s.role = Role.ofText s.text ∧ IsWord s.text.toList := by
  rcases classify_eq_ok classified with ⟨op, rfl, read⟩ | ⟨v, rfl, read⟩ | ⟨value, rfl, read⟩
  · obtain ⟨member, same⟩ := Family.mem_of_read read
    have begins := not_or.mp (apart op member)
    refine ⟨?_, by rwa [Token.text, same]⟩
    rw [Role.ofText, Token.text, if_neg begins.1, if_neg begins.2]
    rfl
  · have plain := VariableKind.isPlain_of_read unmarked read
    obtain ⟨_, sigil, word⟩ := VariableKind.read_text plain word read
    refine ⟨?_, word⟩
    rw [Role.ofText, Token.text, if_neg (not_isNumberText_of_sigil sigil), if_pos sigil]
    rfl
  · have number := NumericType.isNumberText_text read
    refine ⟨?_, NumericType.isWord_text read⟩
    rw [Role.ofText, Token.text, OperandKind.text, if_pos number]
    rfl

namespace Expression

theorem keys_eq (apart : family.SymbolsApart) (unmarked : vars ≠ .marked) {formula : String}
    {e : Expression} (built : ofText formula family (.numeric t) vars = .ok e) :
    e.tokens.map Token.key = (splitTokens e.text).map fun text => (Role.ofText text, text) := by
  have shown : ∀ s ∈ e.tokens, s.role = Role.ofText s.text ∧ IsWord s.text.toList := by
    intro s member
    obtain ⟨r, given, classified⟩ := classified_of_mem built member
    exact Token.role_eq apart unmarked (isWord_of_mem_splitTokens given) classified
  have words : ∀ r ∈ e.tokens.map Token.text, IsWord r.toList := by
    intro r member
    obtain ⟨s, hs, rfl⟩ := List.mem_map.mp member
    exact (shown s hs).2
  have blank : ∀ c ∈ " ".toList, isBlank c := List.all_eq_true.mp (by decide)
  rw [text, render, splitTokens_intercalate (by decide) blank words, List.map_map]
  refine List.map_congr_left fun s member => ?_
  rw [Token.key, (shown s member).1]
  rfl

theorem eq_of_text (apart : family.SymbolsApart) (unmarked : vars ≠ .marked)
    {formula formula' : String} {d e : Expression}
    (first : ofText formula family (.numeric t) vars = .ok d)
    (second : ofText formula' family (.numeric t) vars = .ok e) (alike : d.text = e.text) :
    d = e := by
  have keys : d.tokens.map Token.key = e.tokens.map Token.key := by
    rw [keys_eq apart unmarked first, keys_eq apart unmarked second, alike]
  obtain ⟨_, _, _, kind, family, vars⟩ := ofTokens_eq_ok.mp first
  obtain ⟨_, _, _, kind', family', _⟩ := ofTokens_eq_ok.mp second
  have same := same_iff.mpr ⟨keys, kind.trans kind'.symm, family.trans family'.symm⟩
  rw [eq_of_same unmarked unmarked first second same, ← vars]

end Expression

end

end Postfix
