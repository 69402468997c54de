import Postfix.Proofs.CanonicalText

/-! Rendering an expression and building it again.
Each token is rendered as a word that is read in the same role: no text of an operand or of a
variable is a symbol, and no text of an operand begins like a variable. Operators and variables
come back as they are; operands come back as what their texts are read as, and for the types whose
texts lose nothing that is the same value. Variables with a mark of their own are left out, since
their texts do not show it. -/
namespace Postfix

open Text Decimal

/-! ### Symbols -/

def Family.IsStandard (family : Family) : Prop := family = float ∨ family = integer

def IsNoSymbol (cs : List Char) : Prop := isNumberText cs ∨ cs.head? = some '$'

instance (cs : List Char) : Decidable (IsNoSymbol cs) := inferInstanceAs (Decidable (_ ∨ _))

theorem Family.symbol_begins {family : Family} (standard : family.IsStandard) :
    ∀ op ∈ family.operators, ¬ IsNoSymbol op.symbol.toList := by
  rcases standard with rfl | rfl <;> decide

theorem Family.read_refuses {family : Family} (standard : family.IsStandard) {raw : String}
    (other : IsNoSymbol raw.toList) : ∃ fault, family.read raw = .error (.token fault) := by
  have missing : family.operators.find? (·.symbol = raw) = none := by
    rw [List.find?_eq_none]
    intro op member same
    have same : op.symbol = raw := by simpa using same
    exact symbol_begins standard op member (same ▸ other)
  refine ⟨.operator raw family.symbolName?, ?_⟩
  rcases standard with rfl | rfl <;> simp only [read, missing]

/-! ### Variables -/

theorem afterSigil_eq_ok {token : String} {cs : List Char} :
    afterSigil variableSigil token = .ok cs ↔ token.toList = '$' :: cs := by
  have sigil : variableSigil.toList = ['$'] := rfl
  unfold afterSigil
  rw [sigil]
  cases token.toList with
  | nil => simp [List.isPrefixOf?]
  | cons c rest =>
    by_cases same : '$' = c
    · subst same
      simp [List.isPrefixOf?]
    · simp [List.isPrefixOf?, same, Ne.symm same]

theorem not_isNumberText_of_sigil {cs : List Char} (sigil : cs.head? = some '$') :
    ¬ isNumberText cs := by
  cases cs with
  | nil => cases sigil
  | cons c cs =>
    cases sigil
    have sign : splitSign ('$' :: cs) = (false, '$' :: cs) := rfl
    have digit : isDigit '$' = false := rfl
    simp [isNumberText, sign, digit]

theorem afterSigil_number {token : String} (number : isNumberText token.toList) :
    ∃ fault, afterSigil variableSigil token = .error (.token fault) := by
  cases result : afterSigil variableSigil token with
  | ok cs =>
    have sigil : token.toList.head? = some '$' := by rw [afterSigil_eq_ok.mp result]; rfl
    exact absurd number (not_isNumberText_of_sigil sigil)
  | error refusal =>
    unfold afterSigil at result
    split at result
    · cases result
    · cases result
      exact ⟨_, rfl⟩

theorem Variable.toList_text_index (n : ℕ) : (index n).text.toList = '$' :: natDigits n := by
  rw [text, String.toList_append, natText, String.toList_ofList]
  rfl

theorem Variable.toList_text_name (s : String) : (name s).text.toList = '$' :: s.toList := by
  rw [text, String.toList_append]
  rfl

theorem readIndex_eq_ok {token : String} {v : Variable} :
    readIndex token = .ok v ↔ ∃ digits, token.toList = '$' :: digits ∧ digits ≠ [] ∧
      (∀ c ∈ digits, isDigit c) ∧ digits.length ≤ digitLimit ∧ v = .index (readDigits digits) := by
  unfold readIndex
  rw [Except.bind_eq_ok]
  simp only [afterSigil_eq_ok]
  refine exists_congr fun digits => and_congr_right fun _ => ?_
  split
  · rename_i wrong
    rw [Bool.or_eq_true, List.isEmpty_iff, Bool.not_eq_true', ← Bool.not_eq_true,
      List.all_eq_true] at wrong
    constructor
    · intro h; cases h
    · rintro ⟨some, all, _⟩
      rcases wrong with empty | other
      · exact absurd empty some
      · exact absurd all other
  · rename_i right
    rw [Bool.or_eq_true, List.isEmpty_iff, Bool.not_eq_true', ← Bool.not_eq_true,
      List.all_eq_true, not_or, not_not] at right
    split
    · constructor
      · intro h; cases h
      · rintro ⟨_, _, short, _⟩; omega
    · rename_i short
      constructor
      · intro h; cases h
        exact ⟨right.1, right.2, by omega, rfl⟩
      · rintro ⟨_, _, _, rfl⟩; rfl

theorem readName_iff {token : String} {v : Variable} :
    readName token = .ok v ↔ ∃ cs, token.toList = '$' :: cs ∧ isName (dropFinalNewline cs) ∧
      v = .name (String.ofList cs) := by
  unfold readName
  rw [Except.bind_eq_ok]
  simp only [afterSigil_eq_ok]
  refine exists_congr fun cs => and_congr_right fun _ => ?_
  split
  · rename_i name
    simp [name, eq_comm]
  · rename_i other
    simp [other]

theorem readName_eq_ok {token : String} {v : Variable} (h : readName token = .ok v) :
    v.text = token ∧ token.toList.head? = some '$' := by
  obtain ⟨cs, form, _, rfl⟩ := readName_iff.mp h
  refine ⟨String.toList_inj.mp ?_, by rw [form]; rfl⟩
  rw [Variable.toList_text_name, String.toList_ofList, form]

/-- Expressions without variables, or with variables that are written with the sigil. -/
def VariableKind.IsPlain (vars : VariableKind) : Prop :=
  vars = none ∨ vars = index ∨ vars = name

theorem VariableKind.read_refuses {vars : VariableKind} (plain : vars.IsPlain) {raw : String}
    (number : isNumberText raw.toList) : ∃ fault, vars.read raw = .error (.token fault) := by
  obtain ⟨fault, refused⟩ := afterSigil_number number
  rcases plain with rfl | rfl | rfl
  · exact ⟨_, rfl⟩
  · exact ⟨fault, by rw [read, readIndex, refused]; rfl⟩
  · exact ⟨fault, by rw [read, readName, refused]; rfl⟩

/-- The text of a variable is read as the variable. Leading zeros are gone from it, so it is not
longer than what was read first. -/
theorem VariableKind.read_text {vars : VariableKind} (plain : vars.IsPlain) {raw : String}
    (word : IsWord raw.toList) {v : Variable} (h : vars.read raw = .ok v) :
    vars.read v.text = .ok v ∧ v.text.toList.head? = some '$' ∧ IsWord v.text.toList := by
  rcases plain with rfl | rfl | rfl
  · cases h
  · obtain ⟨digits, _, some, all, short, rfl⟩ := readIndex_eq_ok.mp h
    have written := Variable.toList_text_index (readDigits digits)
    have shorter := length_natDigits_readDigits some all
    refine ⟨readIndex_eq_ok.mpr ⟨_, written, natDigits_ne_nil _, ?_, by omega, ?_⟩, ?_, ?_⟩
    · exact fun c hc => isDigit_of_mem_natDigits hc
    · rw [readDigits_natDigits]
    · rw [written]; rfl
    · rw [written]; exact isWord_cons (by decide) (isWord_natDigits _)
  · obtain ⟨same, sigil⟩ := readName_eq_ok h
    rw [same]
    exact ⟨h, sigil, word⟩

/-! ### Tokens -/

/-- What a token comes back as: an operand as what its text is read as, any other as it is. -/
def Token.ComesBack (kind : OperandKind) (t t' : Token) : Prop :=
  match t with
  | operand _ text => ∃ v, kind.read text = .ok v ∧ t' = operand v (kind.text v)
  | t => t' = t

structure Renderable (family : Family) (kind : OperandKind) (vars : VariableKind) : Prop where
  standard : family.IsStandard
  plain : vars.IsPlain
  numeric : ∃ t, kind = .numeric t

theorem OperandKind.read_total {t : NumericType} {raw : String} {v : Value}
    (h : t.read raw = .ok v) : ∃ w, t.read (t.text v) = .ok w := by
  cases t with
  | word t =>
    obtain ⟨n, rfl, inside⟩ := NumericType.readWord_eq_ok h
    exact ⟨_, NumericType.readWord_intText inside⟩
  | float f =>
    obtain ⟨x, canonical, rfl⟩ := NumericType.canonical_of_readFloat h
    obtain ⟨_, y, _, _, read⟩ := NumericType.readFloat_text canonical
    exact ⟨_, read⟩

theorem classify_text {family : Family} {kind : OperandKind} {vars : VariableKind}
    (renderable : Renderable family kind vars) {raw : String} (word : IsWord raw.toList)
    {t : Token} (h : classify family vars kind raw = .ok t) :
    IsWord t.text.toList ∧ ∃ t', classify family vars kind t.text = .ok t' ∧
      t.ComesBack kind t' := by
  obtain ⟨standard, plain, t, rfl⟩ := renderable
  rcases classify_eq_ok h with ⟨op, rfl, read⟩ | ⟨v, rfl, read⟩ | ⟨value, rfl, read⟩
  · have same : op.symbol = raw := (Family.mem_of_read read).2
    simp only [Token.text, same]
    exact ⟨word, _, h, rfl⟩
  · obtain ⟨again, sigil, word⟩ := VariableKind.read_text plain word read
    obtain ⟨fault, refused⟩ := Family.read_refuses standard (.inr sigil)
    exact ⟨word, _, by simp only [classify, Token.text, refused, again], rfl⟩
  · have number := NumericType.isNumberText_text read
    obtain ⟨w, again⟩ := OperandKind.read_total read
    obtain ⟨_, noOperator⟩ := Family.read_refuses standard (.inl number)
    obtain ⟨_, noVariable⟩ := VariableKind.read_refuses plain number
    refine ⟨NumericType.isWord_text read, .operand w (t.text w), ?_, w, again, rfl⟩
    simp only [classify, Token.text, OperandKind.text, OperandKind.read, noOperator, noVariable,
      again]

/-! ### Expressions -/

theorem Token.ComesBack.step {kind : OperandKind} {t t' : Token} (back : t.ComesBack kind t')
    (balance : ℕ) : Arity.step balance t' = Arity.step balance t := by
  cases t with
  | operand _ _ =>
    obtain ⟨_, _, rfl⟩ := back
    rfl
  | _ =>
    obtain rfl := back
    rfl

/-- The check asks of a token only how many values it takes and gives. -/
theorem Arity.checkFrom_congr {ts ts' : List Token}
    (alike : List.Forall₂ (fun t t' => ∀ balance, step balance t' = step balance t) ts ts')
    {position balance depth greatest : ℕ}
    (checked : checkFrom position balance depth ts = .ok greatest) :
    checkFrom position balance depth ts' = .ok greatest := by
  induction alike generalizing position balance depth with
  | nil => exact checked
  | cons first _ ih =>
    rw [checkFrom, first balance]
    rw [checkFrom] at checked
    split at checked
    · cases checked
    · exact ih checked

namespace Expression

theorem rendered_tokens {family : Family} {kind : OperandKind} {vars : VariableKind}
    (renderable : Renderable family kind vars) {raw : List String} {ts : List Token}
    (words : ∀ r ∈ raw, IsWord r.toList)
    (classified : List.Forall₂ (fun r t => classify family vars kind r = .ok t) raw ts) :
    (∀ r ∈ ts.map Token.text, IsWord r.toList) ∧
      ∃ ts', List.Forall₂ (fun r t => classify family vars kind r = .ok t) (ts.map Token.text) ts' ∧
        List.Forall₂ (Token.ComesBack kind) ts ts' := by
  induction classified with
  | nil => exact ⟨by simp, [], .nil, .nil⟩
  | @cons r t raw ts first _ ih =>
    obtain ⟨word, t', here, back⟩ :=
      classify_text renderable (words r List.mem_cons_self) first
    obtain ⟨plain, ts', rest, backs⟩ := ih fun r hr => words r (List.mem_cons_of_mem _ hr)
    refine ⟨?_, t' :: ts', .cons here rest, .cons back backs⟩
    intro s hs
    rcases List.mem_cons.mp hs with rfl | hs
    · exact word
    · exact plain s hs

theorem ofText_render_comesBack {family : Family} {kind : OperandKind} {vars : VariableKind}
    (renderable : Renderable family kind vars) {text : String} {e : Expression}
    (built : ofText text family kind vars = .ok e) {separator : String} (some : separator ≠ "")
    (blank : ∀ c ∈ separator.toList, isBlank c) :
    ∃ ts, ofText (e.render separator) family kind vars = .ok { e with tokens := ts } ∧
      List.Forall₂ (Token.ComesBack kind) e.tokens ts := by
  obtain ⟨accepted, classified, checked, hkind, hfamily, hvars⟩ := ofTokens_eq_ok.mp built
  obtain ⟨words, ts, again, back⟩ :=
    rendered_tokens renderable (fun r => isWord_of_mem_splitTokens) classified
  refine ⟨ts, ?_, back⟩
  rw [ofText, render, splitTokens_intercalate some blank words]
  have alike := back.imp fun _ _ comesBack => comesBack.step
  exact ofTokens_eq_ok.mpr ⟨accepted, again, Arity.checkFrom_congr alike checked, hkind, hfamily,
    hvars⟩

theorem sameTokens_refl (ts : List Token) : sameTokens ts ts := by
  induction ts with
  | nil => rfl
  | cons t ts ih => simp [sameTokens, Token.same, ih]

theorem same_refl (e : Expression) : e.same e := by
  simp [same, sameTokens_refl]

theorem eq_of_comesBack {family : Family} {t : NumericType} {vars : VariableKind}
    (faithful : t.IsFaithful) {raw : List String} {ts ts' : List Token}
    (classified : List.Forall₂ (fun r s => classify family vars (.numeric t) r = .ok s) raw ts)
    (back : List.Forall₂ (Token.ComesBack (.numeric t)) ts ts') : ts' = ts := by
  induction classified generalizing ts' with
  | nil => cases back; rfl
  | @cons r s raw ts first _ ih =>
    cases back with
    | @cons _ s' _ ts' here rest =>
      rw [ih rest]
      congr 1
      rcases classify_eq_ok first with ⟨op, rfl, _⟩ | ⟨v, rfl, _⟩ | ⟨value, rfl, read⟩
      · exact here
      · exact here
      · obtain ⟨v, again, rfl⟩ := here
        have known := NumericType.read_text faithful read
        rw [OperandKind.read, OperandKind.text, known] at again
        cases again
        rfl

/-- Rendering and building are inverse: an expression over a faithful type, rendered with any blanks
between its tokens, is built again as the same expression. -/
theorem ofText_render {family : Family} {t : NumericType} {vars : VariableKind}
    (standard : family.IsStandard) (faithful : t.IsFaithful) (plain : vars.IsPlain) {text : String}
    {e : Expression} (built : ofText text family (.numeric t) vars = .ok e) {separator : String}
    (some : separator ≠ "") (blank : ∀ c ∈ separator.toList, isBlank c) :
    ofText (e.render separator) family (.numeric t) vars = .ok e ∧ e.same e := by
  obtain ⟨ts, again, back⟩ :=
    ofText_render_comesBack ⟨standard, plain, t, rfl⟩ built some blank
  obtain ⟨_, classified, _⟩ := ofTokens_eq_ok.mp built
  rw [again, eq_of_comesBack faithful classified back]
  exact ⟨rfl, e.same_refl⟩

theorem ofText_render_signed_zero :
    Family.float.IsStandard ∧ NumericType.float64.IsFaithful ∧ VariableKind.name.IsPlain ∧
      ∃ e, ofText "-0e7 1E+2\u2003$x * +" .float (.numeric .float64) .name = .ok e ∧
        ofText (e.render "\t\n") .float (.numeric .float64) .name = .ok e ∧ e.same e := by
  have standard : Family.float.IsStandard := .inl rfl
  have faithful : NumericType.float64.IsFaithful := .inl rfl
  have plain : VariableKind.name.IsPlain := .inr (.inr rfl)
  have ok : (ofText "-0e7 1E+2\u2003$x * +" .float (.numeric .float64) .name).isOk := by
    decide +kernel
  cases built : ofText "-0e7 1E+2\u2003$x * +" .float (.numeric .float64) .name with
  | error f => rw [built] at ok; cases ok
  | ok e =>
    exact ⟨standard, faithful, plain, e, rfl,
      ofText_render standard faithful plain built (by decide) (List.all_eq_true.mp (by decide))⟩

end Expression
end Postfix
