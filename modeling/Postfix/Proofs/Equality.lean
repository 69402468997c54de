import Postfix.Proofs.Reading
import Postfix.Proofs.References

/-! Equality of expressions, which looks at roles and texts only.
Texts are canonical: two operands of one kind with the same text are the same, and so are two
variables, be they of the same kind or not. The values of the tokens and the kind of the variables
are left out of the comparison and still come out equal, or without effect, so equal expressions
stand for each other everywhere. Variables with a mark of their own are the exception: their text
may be that of an index. -/
namespace Postfix

open Text Decimal

/-! ### Texts of operands -/

theorem intText_injective {n m : ℤ} (alike : intText n = intText m) : n = m := by
  rw [← integerOf_intText n, alike, integerOf_intText]

/-- Of values that were read, the text tells which one it is, zeros with different signs and
neighbours in a narrow format among them. -/
theorem NumericType.text_injective {t : NumericType} {raw raw' : String} {v w : Value}
    (read : t.read raw = .ok v) (read' : t.read raw' = .ok w) (alike : t.text v = t.text w) :
    v = w := by
  cases t with
  | word t =>
    obtain ⟨n, rfl, _⟩ := readWord_eq_ok read
    obtain ⟨m, rfl, _⟩ := readWord_eq_ok read'
    rw [intText_injective alike]
  | float f =>
    obtain ⟨x, canonical, rfl⟩ := canonical_of_readFloat read
    obtain ⟨y, canonical', rfl⟩ := canonical_of_readFloat read'
    have chars := congrArg String.toList alike
    rw [toList_text_float canonical, toList_text_float canonical'] at chars
    rw [binaryChars_injective canonical canonical' chars]

theorem OperandKind.text_injective {kind : OperandKind} {raw raw' : String} {v w : Value}
    (read : kind.read raw = .ok v) (read' : kind.read raw' = .ok w)
    (alike : kind.text v = kind.text w) : v = w := by
  have owned := owns_of_read read
  have owned' := owns_of_read read'
  cases kind with
  | numeric t => exact NumericType.text_injective read read' alike
  | oneTwo =>
    obtain ⟨d, rfl⟩ := owns_oneTwo owned
    obtain ⟨d', rfl⟩ := owns_oneTwo owned'
    cases d <;> cases d' <;> first | rfl | exact absurd alike (by decide)
  | letters =>
    obtain ⟨s, rfl⟩ := owns_letters owned
    obtain ⟨s', rfl⟩ := owns_letters owned'
    exact congrArg Value.text alike

/-! ### Texts of variables -/

def Variable.IsProper : Variable → Prop
  | index _ => True
  | name s => ∃ c cs, s.toList = c :: cs ∧ isNameStart c
  | marked _ => False

theorem not_isDigit_of_isNameStart {c : Char} (start : isNameStart c) : ¬ isDigit c := by
  intro digit
  simp only [isDigit, isNameStart, Bool.or_eq_true, Bool.and_eq_true, decide_eq_true_eq,
    Char.le_def] at digit start
  have upper : c.toNat ≤ 57 := digit.2
  rcases start with (⟨low, _⟩ | ⟨low, _⟩) | rfl
  · have : 65 ≤ c.toNat := low
    omega
  · have : 97 ≤ c.toNat := low
    omega
  · exact absurd upper (by decide)

theorem dropFinalNewline_prefix (cs : List Char) : dropFinalNewline cs <+: cs := by
  unfold dropFinalNewline
  split
  · exact List.dropLast_prefix cs
  · exact List.prefix_rfl

theorem readName_isProper {token : String} {v : Variable} (read : readName token = .ok v) :
    v.IsProper := by
  obtain ⟨cs, _, named, rfl⟩ := readName_iff.mp read
  obtain ⟨rest, whole⟩ := dropFinalNewline_prefix cs
  cases kept : dropFinalNewline cs with
  | nil => rw [kept] at named; cases named
  | cons c ds =>
    rw [kept, isName, Bool.and_eq_true] at named
    refine ⟨c, ds ++ rest, ?_, named.1⟩
    rw [String.toList_ofList, ← whole, kept, List.cons_append]

theorem VariableKind.read_isProper {vars : VariableKind} (plain : vars ≠ marked) {raw : String}
    {v : Variable} (read : vars.read raw = .ok v) : v.IsProper := by
  cases vars with
  | none => cases read
  | dummy => cases read
  | index =>
    obtain ⟨_, _, _, _, _, rfl⟩ := readIndex_eq_ok.mp read
    trivial
  | name => exact readName_isProper read
  | marked => exact absurd rfl plain

namespace Variable

theorem text_index_ne_name {n : ℕ} {s : String} (proper : (name s).IsProper) :
    (index n).text ≠ (name s).text := by
  intro alike
  have chars := congrArg String.toList alike
  rw [toList_text_index, toList_text_name] at chars
  obtain ⟨c, cs, begins, start⟩ := proper
  have member : c ∈ natDigits n := by
    rw [(List.cons.inj chars).2, begins]
    exact List.mem_cons_self
  exact not_isDigit_of_isNameStart start (isDigit_of_mem_natDigits member)

theorem text_injective {v w : Variable} (proper : v.IsProper) (proper' : w.IsProper)
    (alike : v.text = w.text) : v = w := by
  have chars := congrArg String.toList alike
  cases v with
  | index n =>
    cases w with
    | index m =>
      rw [toList_text_index, toList_text_index] at chars
      have digits := congrArg readDigits (List.cons.inj chars).2
      rw [readDigits_natDigits, readDigits_natDigits] at digits
      rw [digits]
    | name s => exact absurd alike (text_index_ne_name proper')
    | marked s => exact proper'.elim
  | name s =>
    cases w with
    | index m => exact absurd alike.symm (text_index_ne_name proper)
    | name s' =>
      rw [toList_text_name, toList_text_name] at chars
      rw [String.toList_inj.mp (List.cons.inj chars).2]
    | marked s' => exact proper'.elim
  | marked s => exact proper.elim

end Variable

/-! ### Tokens -/

namespace Token

/-- All that a comparison of tokens looks at. -/
def key (t : Token) : Role × String := (t.role, t.text)

theorem same_iff {s t : Token} : s.same t ↔ s.key = t.key := by
  simp [same, key]

theorem eq_of_key {family : Family} {kind : OperandKind} {vars vars' : VariableKind}
    (plain : vars ≠ .marked) (plain' : vars' ≠ .marked) {raw raw' : String} {s t : Token}
    (first : classify family vars kind raw = .ok s)
    (second : classify family vars' kind raw' = .ok t) (alike : s.key = t.key) : s = t := by
  have role : s.role = t.role := congrArg Prod.fst alike
  have text : s.text = t.text := congrArg Prod.snd alike
  rcases classify_eq_ok first with ⟨op, rfl, read⟩ | ⟨v, rfl, read⟩ | ⟨value, rfl, read⟩
  · rcases classify_eq_ok second with ⟨op', rfl, read'⟩ | ⟨_, rfl, _⟩ | ⟨_, rfl, _⟩
    · have symbols : raw = raw' :=
        (Family.mem_of_read read).2.symm.trans (text.trans (Family.mem_of_read read').2)
      rw [symbols, read'] at read
      cases read
      rfl
    · cases role
    · cases role
  · rcases classify_eq_ok second with ⟨_, rfl, _⟩ | ⟨v', rfl, read'⟩ | ⟨_, rfl, _⟩
    · cases role
    · have proper := VariableKind.read_isProper plain read
      have proper' := VariableKind.read_isProper plain' read'
      rw [Variable.text_injective proper proper' text]
    · cases role
  · rcases classify_eq_ok second with ⟨_, rfl, _⟩ | ⟨_, rfl, _⟩ | ⟨value', rfl, read'⟩
    · cases role
    · cases role
    · rw [OperandKind.text_injective read read' text]

-- A variable with a mark of its own may have the text of an index.
example : (reference (.marked "$0")).key = (reference (.index 0)).key := by decide +kernel

end Token

/-! ### Expressions -/

namespace Expression

theorem sameTokens_iff {ss ts : List Token} :
    sameTokens ss ts ↔ ss.map Token.key = ts.map Token.key := by
  induction ss generalizing ts with
  | nil => cases ts <;> simp [sameTokens]
  | cons s ss ih =>
    cases ts with
    | nil => simp [sameTokens]
    | cons t ts => simp [sameTokens, Token.same_iff, ih]

theorem same_iff {d e : Expression} :
    d.same e ↔ d.tokens.map Token.key = e.tokens.map Token.key ∧ d.kind = e.kind ∧
      d.family = e.family := by
  simp [same, sameTokens_iff, and_assoc]

theorem same_equivalence : Equivalence fun d e : Expression => d.same e = true := by
  constructor
  · exact same_refl
  · intro d e alike
    obtain ⟨tokens, kind, family⟩ := same_iff.mp alike
    exact same_iff.mpr ⟨tokens.symm, kind.symm, family.symm⟩
  · intro d e f first second
    obtain ⟨tokens, kind, family⟩ := same_iff.mp first
    obtain ⟨tokens', kind', family'⟩ := same_iff.mp second
    exact same_iff.mpr ⟨tokens.trans tokens', kind.trans kind', family.trans family'⟩

theorem tokens_eq_of_keys {family : Family} {kind : OperandKind} {vars vars' : VariableKind}
    (plain : vars ≠ .marked) (plain' : vars' ≠ .marked) {raw raw' : List String}
    {ss ts : List Token}
    (first : List.Forall₂ (fun r s => classify family vars kind r = .ok s) raw ss)
    (second : List.Forall₂ (fun r t => classify family vars' kind r = .ok t) raw' ts)
    (alike : ss.map Token.key = ts.map Token.key) : ss = ts := by
  induction first generalizing raw' ts with
  | nil =>
    cases second with
    | nil => rfl
    | cons here rest => cases alike
  | cons here _ ih =>
    cases second with
    | nil => cases alike
    | cons here' rest' =>
      obtain ⟨head, tail⟩ := List.cons.inj alike
      rw [Token.eq_of_key plain plain' here here' head, ih rest' tail]

section

variable {family family' : Family} {kind kind' : OperandKind} {vars vars' : VariableKind}
  {raw raw' : List String} {d e : Expression}

/-- Equal expressions that were built differ at most in the kind of variables that they accept. -/
theorem eq_of_same (plain : vars ≠ .marked) (plain' : vars' ≠ .marked)
    (first : ofTokens raw family kind vars = .ok d)
    (second : ofTokens raw' family' kind' vars' = .ok e) (alike : d.same e) :
    e = { d with variableKind := vars' } := by
  obtain ⟨_, classified, checked, rfl, rfl, rfl⟩ := ofTokens_eq_ok.mp first
  obtain ⟨_, classified', checked', rfl, rfl, rfl⟩ := ofTokens_eq_ok.mp second
  obtain ⟨keys, sameKind, sameFamily⟩ := same_iff.mp alike
  rw [← sameKind, ← sameFamily] at classified'
  have tokens := tokens_eq_of_keys plain plain' classified classified' keys
  rw [tokens, checked'] at checked
  have depth : e.maxStack = d.maxStack := Except.ok.inj checked
  cases d
  cases e
  simp only at tokens sameKind sameFamily depth
  simp only [tokens, sameKind, sameFamily, depth]

/-- Equality is an equivalence, and what it holds of cannot be told apart: such expressions are
hashed alike, plan the same depth, list the same variables and evaluate alike in every container. -/
theorem same_interchangeable (plain : vars ≠ .marked) (plain' : vars' ≠ .marked)
    (first : ofTokens raw family kind vars = .ok d)
    (second : ofTokens raw' family' kind' vars' = .ok e) :
    Equivalence (fun d e : Expression => d.same e = true) ∧
      (d.same e → d.sameHash e ∧ d.maxStack = e.maxStack ∧ d.references = e.references ∧
        ∀ c, d.run c = e.run c ∧ d.evaluate c = e.evaluate c) := by
  refine ⟨same_equivalence, fun alike => ?_⟩
  have hashed : d.sameHash e := by
    obtain ⟨keys, _, sameFamily⟩ := same_iff.mp alike
    simp [sameHash, sameTokens_iff, keys, sameFamily]
  refine ⟨hashed, ?_⟩
  rw [eq_of_same plain plain' first second alike]
  exact ⟨rfl, rfl, fun c => ⟨rfl, rfl⟩⟩

end

/-- Two spellings of a negative zero and of ten, where one expression accepts variables. -/
theorem same_interchangeable_zeros :
    VariableKind.index ≠ .marked ∧ VariableKind.none ≠ .marked ∧
      ∃ d e, ofTokens ["-0", "10", "/"] .float (.numeric .float32) .index = .ok d ∧
        ofTokens ["-0.0e7", "1E1", "/"] .float (.numeric .float32) .none = .ok e ∧ d.same e ∧
        d.sameHash e ∧ d.maxStack = e.maxStack ∧ ∀ c, d.evaluate c = e.evaluate c := by
  have plain : VariableKind.index ≠ .marked := by decide
  have plain' : VariableKind.none ≠ .marked := by decide
  have alike : ((ofTokens ["-0", "10", "/"] .float (.numeric .float32) .index).toOption.any fun d =>
      (ofTokens ["-0.0e7", "1E1", "/"] .float (.numeric .float32) .none).toOption.any fun e =>
        d.same e) = true := by decide +kernel
  have built {x : Except Failure Expression} {e : Expression} (found : x.toOption = some e) :
      x = .ok e := by
    cases x <;> cases found
    rfl
  obtain ⟨d, first, alike⟩ := (Option.any_eq_true ..).mp alike
  obtain ⟨e, second, alike⟩ := (Option.any_eq_true ..).mp alike
  have first := built first
  have second := built second
  obtain ⟨hashed, depth, _, outcomes⟩ := (same_interchangeable plain plain' first second).2 alike
  exact ⟨plain, plain', d, e, first, second, alike, hashed, depth, fun c => (outcomes c).2⟩

end Expression
end Postfix
