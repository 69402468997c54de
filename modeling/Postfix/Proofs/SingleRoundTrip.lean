import Postfix.Proofs.RoundTrip
import Postfix.Proofs.Decimal.Narrow

/-! Rendering expressions over reals of 32 bits.
Texts of such reals are read back as the same reals with one exception up to the sign, which is read
as its neighbour. So an expression is equal to the one that is built from its rendering if and only
if the exception is not among its operands; values of variables are not rendered and do not
matter. -/
namespace Postfix

open Text Decimal

namespace NumericType

theorem readFloat_text_single {x : Binary} (canonical : x.Canonical .single)
    (kept : ∀ s, x ≠ lost s) :
    readFloat .single (float32.text (.float .single x)) = .ok (.float .single x) := by
  obtain ⟨literal, y, denotes, number, read⟩ := readFloat_text canonical
  rw [toDouble_single canonical kept denotes number] at read
  exact read

theorem readFloat_text_lost (s : Bool) :
    readFloat .single (float32.text (.float .single (lost s))) =
      .ok (.float .single (found s)) := by
  have read : (readLiteral (dropFinalNewline (float32.text (.float .single (lost s))).toList)).bind
      (Literal.toBinary .single) = some (found s) := by
    cases s <;> decide +kernel
  obtain ⟨literal, parsed, number⟩ := Option.bind_eq_some_iff.mp read
  simp only [readFloat, parsed, number]

theorem text_found_ne (s : Bool) :
    float32.text (.float .single (found s)) ≠ float32.text (.float .single (lost s)) := by
  cases s <;> decide +kernel

theorem read_text_single {raw : String} {v : Value} (h : float32.read raw = .ok v) :
    float32.read (float32.text v) = .ok v ↔ ∀ s, v ≠ .float .single (lost s) := by
  obtain ⟨x, canonical, rfl⟩ := canonical_of_readFloat h
  constructor
  · rintro back s same
    rw [same] at back
    cases (readFloat_text_lost s).symm.trans back
  · intro kept
    exact readFloat_text_single canonical fun s same => kept s (by rw [same])

end NumericType

/-! ### Expressions -/

def Token.IsLost (t : Token) : Prop := ∃ s text, t = .operand (.float .single (lost s)) text

theorem Token.comesBack_single {family : Family} {vars : VariableKind} {raw : String}
    {t t' : Token} (h : classify family vars (.numeric .float32) raw = .ok t)
    (back : t.ComesBack (.numeric .float32) t') :
    (¬ t.IsLost → t' = t) ∧ (t'.same t ↔ ¬ t.IsLost) := by
  have fixed : ¬ t.IsLost → t' = t → (¬ t.IsLost → t' = t) ∧ (t'.same t ↔ ¬ t.IsLost) := by
    rintro kept rfl
    exact ⟨fun _ => rfl, by simp [same, kept]⟩
  rcases classify_eq_ok h with ⟨op, rfl, _⟩ | ⟨v, rfl, _⟩ | ⟨value, rfl, read⟩
  · exact fixed (by rintro ⟨_, _, h⟩; cases h) back
  · exact fixed (by rintro ⟨_, _, h⟩; cases h) back
  · obtain ⟨w, again, rfl⟩ := back
    by_cases exception : ∃ s, value = .float .single (lost s)
    · obtain ⟨s, rfl⟩ := exception
      have found_ : w = .float .single (found s) := by
        cases (NumericType.readFloat_text_lost s).symm.trans again
        rfl
      subst found_
      have gone : (operand (.float .single (lost s))
          (NumericType.float32.text (.float .single (lost s)))).IsLost := ⟨s, _, rfl⟩
      refine ⟨fun kept => absurd gone kept, ?_⟩
      have other := NumericType.text_found_ne s
      simp [same, role, text, OperandKind.text, other, gone]
    · have known := (NumericType.read_text_single read).mpr fun s h => exception ⟨s, h⟩
      have kept : ¬ (operand value (NumericType.float32.text value)).IsLost := by
        rintro ⟨s, _, h⟩
        cases h
        exact exception ⟨s, rfl⟩
      cases known.symm.trans again
      exact fixed kept rfl

namespace Expression

theorem sameTokens_single {family : Family} {vars : VariableKind} {raw : List String}
    {ts ts' : List Token}
    (classified : List.Forall₂ (fun r t => classify family vars (.numeric .float32) r = .ok t)
      raw ts)
    (back : List.Forall₂ (Token.ComesBack (.numeric .float32)) ts ts') :
    ((∀ t ∈ ts, ¬ t.IsLost) → ts' = ts) ∧ (sameTokens ts' ts ↔ ∀ t ∈ ts, ¬ t.IsLost) := by
  induction classified generalizing ts' with
  | nil =>
    cases back
    exact ⟨fun _ => rfl, by simp [sameTokens]⟩
  | @cons r t raw ts first _ ih =>
    cases back with
    | @cons _ t' _ ts' here rest =>
      obtain ⟨sameHere, iffHere⟩ := Token.comesBack_single first here
      obtain ⟨sameRest, iffRest⟩ := ih rest
      constructor
      · intro kept
        rw [sameHere (kept t List.mem_cons_self),
          sameRest fun u hu => kept u (List.mem_cons_of_mem t hu)]
      · rw [sameTokens, Bool.and_eq_true, iffHere, iffRest, List.forall_mem_cons]

/-- Rendering and building over reals of 32 bits. A literal is read back from its text unless it is
read as the exception, and an expression is equal to the one that is built from its rendering unless
the exception is among its operands. -/
theorem ofText_render_single (raw text : String) {vars : VariableKind} (plain : vars.IsPlain)
    {separator : String} (some : separator ≠ "") (blank : ∀ c ∈ separator.toList, isBlank c) :
    (∀ v, NumericType.float32.read raw = .ok v →
      (NumericType.float32.read (NumericType.float32.text v) = .ok v ↔
        ∀ s, v ≠ .float .single (lost s))) ∧
    ∀ e, ofText text .float (.numeric .float32) vars = .ok e →
      ∃ e', ofText (e.render separator) .float (.numeric .float32) vars = .ok e' ∧
        (e'.same e ↔ ∀ t ∈ e.tokens, ¬ t.IsLost) ∧
        ((∀ t ∈ e.tokens, ¬ t.IsLost) → e' = e) := by
  refine ⟨fun v h => NumericType.read_text_single h, ?_⟩
  intro e built
  obtain ⟨ts, again, back⟩ :=
    ofText_render_comesBack ⟨.inl rfl, plain, .float32, rfl⟩ built some blank
  obtain ⟨_, classified, _⟩ := ofTokens_eq_ok.mp built
  obtain ⟨kept, iff⟩ := sameTokens_single classified back
  refine ⟨_, again, ?_, fun all => by rw [kept all]⟩
  simp only [same, decide_true, Bool.and_true]
  exact iff

theorem ofText_render_single_lost :
    ∃ v, NumericType.float32.read "7.03853069e-26" = .ok v ∧
      NumericType.float32.read (NumericType.float32.text v) ≠ .ok v ∧
      ∃ e e', ofText "7.03853069e-26" .float (.numeric .float32) .none = .ok e ∧
        ofText (e.render " ") .float (.numeric .float32) .none = .ok e' ∧ ¬ e'.same e := by
  have literal : (readLiteral (dropFinalNewline "7.03853069e-26".toList)).bind
      (Literal.toBinary .single) = some (lost false) := by decide +kernel
  obtain ⟨_, parsed, number⟩ := Option.bind_eq_some_iff.mp literal
  have read : NumericType.float32.read "7.03853069e-26" = .ok (.float .single (lost false)) := by
    simp only [NumericType.read, NumericType.float32, NumericType.readFloat, parsed, number]
  have number : isNumberText "7.03853069e-26".toList := by decide
  have standard : Family.float.IsStandard := .inl rfl
  have plain : VariableKind.none.IsPlain := .inl rfl
  obtain ⟨_, noOperator⟩ := Family.read_refuses standard (.inl number)
  obtain ⟨_, noVariable⟩ := VariableKind.read_refuses plain number
  have classified : classify .float .none (.numeric .float32) "7.03853069e-26" =
      .ok (.operand (.float .single (lost false))
        (NumericType.float32.text (.float .single (lost false)))) := by
    simp only [classify, noOperator, noVariable, OperandKind.read, read, OperandKind.text]
  have built : ofText "7.03853069e-26" .float (.numeric .float32) .none =
      .ok ⟨[.operand (.float .single (lost false))
        (NumericType.float32.text (.float .single (lost false)))], 1, .numeric .float32, .float,
        .none⟩ := by
    rw [ofText, show splitTokens "7.03853069e-26" = ["7.03853069e-26"] by decide]
    exact ofTokens_eq_ok.mpr ⟨rfl, .cons classified .nil, rfl, rfl, rfl, rfl⟩
  obtain ⟨token, expression⟩ := ofText_render_single "7.03853069e-26" "7.03853069e-26" plain
    (show " " ≠ "" by decide) (List.all_eq_true.mp (by decide))
  obtain ⟨e', again, same, _⟩ := expression _ built
  refine ⟨_, read, fun back => ?_, _, e', built, again, fun h => ?_⟩
  · exact (token _ read).mp back false rfl
  · exact same.mp h _ List.mem_cons_self ⟨false, _, rfl⟩

end Expression
end Postfix
