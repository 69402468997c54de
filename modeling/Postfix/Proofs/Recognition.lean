import Postfix.Proofs.Decimal.Grammar
import Postfix.Proofs.Rejection
import Postfix.Proofs.Splitting
import Postfix.Proofs.Substitution

/-! The language of tokens.
Symbols, variables and literals are given by rules of their own, and every reader follows the rules
of its role as far as tokens go that hold no blanks and no characters beyond ASCII, and that are not
longer than an integer may be written. The three languages have no token in common, so the order in
which the roles are tried decides nothing. -/
namespace Postfix

open Text Decimal

/-! ### Rules -/

/-- The sign of variables with a run of digits, or with a letter or underscore and then letters,
digits and underscores. -/
inductive IsVariable : VariableKind → Variable → List Char → Prop
  | index {ds : List Char} (digits : IsDigits ds) :
    IsVariable .index (.index (digitsValue ds)) ('$' :: ds)
  | name {c : Char} {cs : List Char} (start : isNameStart c)
    (rest : ∀ d ∈ cs, isNameStart d ∨ isDigit d) :
    IsVariable .name (.name (String.ofList (c :: cs))) ('$' :: c :: cs)

inductive IsOperand : NumericType → Value → List Char → Prop
  | word {t : WordType} {n : Int} {cs : List Char} (integer : IntegerText n cs)
    (inside : t.holds n) : IsOperand (.word t) (.word t n) cs
  | float {f : Format} {x : Binary} {cs : List Char} (real : RealText f x cs) :
    IsOperand (.float f) (.float f x) cs

inductive Recognized (family : Family) (vars : VariableKind) (t : NumericType) (raw : String) :
    Token → Prop
  | operator {op : Operator} (member : op ∈ family.operators) (symbol : op.symbol = raw) :
    Recognized family vars t raw (.operator op)
  | reference {v : Variable} (marked : IsVariable vars v raw.toList) :
    Recognized family vars t raw (.reference v)
  | operand {v : Value} (literal : IsOperand t v raw.toList) :
    Recognized family vars t raw (.operand v (t.text v))

/-- A text without blanks, of ASCII characters, and not longer than an integer may be written. -/
structure IsAsciiToken (raw : String) : Prop where
  ascii : ∀ c ∈ raw.toList, c.toNat < 128
  unbroken : ∀ c ∈ raw.toList, ¬ isBlank c
  short : raw.toList.length ≤ digitLimit

/-! ### Readers -/

theorem Family.read_iff {family : Family} (standard : family.IsStandard) {raw : String}
    {op : Operator} : family.read raw = .ok op ↔ op ∈ family.operators ∧ op.symbol = raw := by
  constructor
  · exact Family.mem_of_read
  · rintro ⟨member, rfl⟩
    have all : ∀ op ∈ family.operators, family.read op.symbol = .ok op := by
      rcases standard with rfl | rfl <;> decide
    exact all op member

theorem isName_iff {cs : List Char} :
    isName cs ↔
      ∃ c rest, cs = c :: rest ∧ isNameStart c ∧ ∀ d ∈ rest, isNameStart d ∨ isDigit d := by
  cases cs with
  | nil => simp [isName]
  | cons c rest => simp [isName]

theorem readName_unbroken {raw : String} (unbroken : ∀ c ∈ raw.toList, ¬ isBlank c)
    {v : Variable} : readName raw = .ok v ↔ IsVariable .name v raw.toList := by
  have plain {cs : List Char} (form : raw.toList = '$' :: cs) : dropFinalNewline cs = cs :=
    dropFinalNewline_unbroken fun c hc => unbroken c (form ▸ List.mem_cons_of_mem _ hc)
  rw [readName_iff]
  constructor
  · rintro ⟨cs, form, name, rfl⟩
    rw [plain form] at name
    obtain ⟨c, rest, rfl, start, further⟩ := isName_iff.mp name
    rw [form]
    exact .name start further
  · intro named
    cases form : raw.toList with
    | nil => rw [form] at named; cases named
    | cons d cs =>
      rw [form] at named
      cases named with
      | name start rest =>
        refine ⟨_, rfl, ?_, rfl⟩
        rw [plain form]
        exact isName_iff.mpr ⟨_, _, rfl, start, rest⟩

theorem VariableKind.read_iff {vars : VariableKind} (unmarked : vars ≠ .marked) {raw : String}
    (plain : IsAsciiToken raw) {v : Variable} :
    vars.read raw = .ok v ↔ IsVariable vars v raw.toList := by
  cases vars with
  | none => exact ⟨nofun, nofun⟩
  | dummy => exact ⟨nofun, nofun⟩
  | index =>
    rw [read, readIndex_eq_ok]
    constructor
    · rintro ⟨digits, form, some, all, _, rfl⟩
      rw [form, readDigits_eq]
      exact .index ⟨some, all⟩
    · intro indexed
      have short := plain.short
      cases form : raw.toList with
      | nil => rw [form] at indexed; cases indexed
      | cons d ds =>
        rw [form] at indexed short
        cases indexed with
        | index digits =>
          refine ⟨ds, rfl, digits.1, digits.2, ?_, by rw [readDigits_eq]⟩
          exact (Nat.le_succ _).trans short
  | name => exact readName_unbroken plain.unbroken
  | marked => exact absurd rfl unmarked

theorem NumericType.readWord_iff {t : WordType} {raw : String} (plain : IsAsciiToken raw)
    {v : Value} : readWord t raw = .ok v ↔ IsOperand (.word t) v raw.toList := by
  have kept := dropFinalNewline_unbroken plain.unbroken
  have fewer : ¬ digitLimit < (splitSign raw.toList).2.length := by
    obtain ⟨sign, _, whole⟩ := exists_sign raw.toList
    have length := congrArg List.length whole
    have short := plain.short
    rw [List.length_append] at length
    omega
  simp only [readWord, kept, fewer, if_false]
  constructor
  · intro read
    split at read
    · cases read
    · rename_i form
      split at read
      · rename_i inside
        cases read
        exact .word (integer_iff.mpr ⟨by simpa using form, rfl⟩) inside
      · cases read
  · rintro ⟨integer, inside⟩
    obtain ⟨form, rfl⟩ := integer_iff.mp integer
    simp [form, inside]

theorem NumericType.readFloat_iff {f : Format} {raw : String} (plain : IsAsciiToken raw)
    {v : Value} : readFloat f raw = .ok v ↔ IsOperand (.float f) v raw.toList := by
  have kept := dropFinalNewline_unbroken plain.unbroken
  constructor
  · intro read
    obtain ⟨literal, x, found, denoted, rfl⟩ := readFloat_eq_ok read
    rw [kept] at found
    exact .float ((real_iff plain.ascii).mpr ⟨literal, found, denoted⟩)
  · intro operand
    cases operand with
    | float real =>
      obtain ⟨literal, found, denoted⟩ := (real_iff plain.ascii).mp real
      simp only [readFloat, kept, found, denoted]

theorem NumericType.read_iff {t : NumericType} {raw : String} (plain : IsAsciiToken raw)
    {v : Value} : t.read raw = .ok v ↔ IsOperand t v raw.toList := by
  cases t with
  | word t => exact readWord_iff plain
  | float f => exact readFloat_iff plain

/-! ### Roles -/

theorem IsAsciiToken.readable {raw : String} (plain : IsAsciiToken raw) (vars : VariableKind)
    (t : NumericType) (f : Fault) : ¬ Unreadable vars raw t f := by
  have part {cs : List Char} (inside : cs.length ≤ raw.toList.length) :
      ¬ digitLimit < cs.length := not_lt.mpr (inside.trans plain.short)
  have body : literalBody raw <:+ raw.toList := by
    obtain ⟨sign, _, whole⟩ := exists_sign raw.toList
    rw [literalBody, dropFinalNewline_unbroken plain.unbroken]
    exact ⟨sign, whole.symm⟩
  intro unreadable
  cases unreadable with
  | index _ form _ long =>
    refine part ?_ long
    rw [form, List.length_cons]
    exact Nat.le_succ _
  | integer _ long => exact part body.length_le long
  | infinity _ letter =>
    rcases letter with dotless | dotted
    · exact absurd (plain.ascii _ (body.mem dotless)) (by decide)
    · exact absurd (plain.ascii _ (body.mem dotted)) (by decide)

theorem IsVariable.begins {vars : VariableKind} {v : Variable} {cs : List Char}
    (marked : IsVariable vars v cs) : cs.head? = some '$' := by
  cases marked <;> rfl

section Roles

variable {family : Family} {vars : VariableKind} {t : NumericType} {raw : String}

theorem IsVariable.no_operator {v : Variable} (marked : IsVariable vars v raw.toList)
    (standard : family.IsStandard) : ∃ fault, family.read raw = .error (.token fault) :=
  Family.read_refuses standard (.inr marked.begins)

theorem count_accepting (standard : family.IsStandard) (unmarked : vars ≠ .marked) (t : NumericType)
    (plain : IsAsciiToken raw) :
    [(family.read raw).isOk, (vars.read raw).isOk, (t.read raw).isOk].count true ≤ 1 := by
  cases literal : t.read raw with
  | ok value =>
    obtain ⟨_, noOperator⟩ := Family.read_literal standard literal
    obtain ⟨_, noVariable⟩ := vars.read_literal literal
    rw [noOperator, noVariable]
    exact le_rfl
  | error _ =>
    cases variable_ : vars.read raw with
    | ok v =>
      obtain ⟨_, noOperator⟩ :=
        ((VariableKind.read_iff unmarked plain).mp variable_).no_operator standard
      rw [noOperator]
      exact le_rfl
    | error _ =>
      cases family.read raw with
      | ok op => exact le_rfl
      | error _ => exact Nat.zero_le 1

theorem classify_iff (standard : family.IsStandard) (unmarked : vars ≠ .marked) (t : NumericType)
    (plain : IsAsciiToken raw) {token : Token} :
    classify family vars (.numeric t) raw = .ok token ↔ Recognized family vars t raw token := by
  constructor
  · intro classified
    rcases classify_eq_ok classified with ⟨op, rfl, read⟩ | ⟨v, rfl, read⟩ | ⟨value, rfl, read⟩
    · obtain ⟨member, symbol⟩ := (Family.read_iff standard).mp read
      exact .operator member symbol
    · exact .reference ((VariableKind.read_iff unmarked plain).mp read)
    · exact .operand ((NumericType.read_iff plain).mp read)
  · intro recognized
    cases recognized with
    | operator member symbol =>
      exact Expression.classify_symbol ((Family.read_iff standard).mpr ⟨member, symbol⟩)
    | reference marked =>
      obtain ⟨_, noOperator⟩ := marked.no_operator standard
      have read := (VariableKind.read_iff unmarked plain).mpr marked
      simp only [classify, noOperator, read]
    | operand literal =>
      exact classify_literal standard vars ((NumericType.read_iff plain).mpr literal)

/-- Every reader follows the rules of its role, at most one of them takes a token, and the
classification gives the token of that role, or else the three reasons. -/
theorem classify_language (standard : family.IsStandard) (unmarked : vars ≠ .marked)
    (t : NumericType) (ascii : ∀ c ∈ raw.toList, c.toNat < 128)
    (unbroken : ∀ c ∈ raw.toList, ¬ isBlank c) (short : raw.length ≤ 4300) :
    (∀ op, family.read raw = .ok op ↔ op ∈ family.operators ∧ op.symbol = raw) ∧
    (∀ v, vars.read raw = .ok v ↔ IsVariable vars v raw.toList) ∧
    (∀ v, t.read raw = .ok v ↔ IsOperand t v raw.toList) ∧
    [(family.read raw).isOk, (vars.read raw).isOk, (t.read raw).isOk].count true ≤ 1 ∧
    (∀ token, classify family vars (.numeric t) raw = .ok token ↔
      Recognized family vars t raw token) ∧
    ((∀ token, ¬ Recognized family vars t raw token) → ∃ noOperator noVariable noOperand,
      RefusedFor family vars t raw noOperator noVariable noOperand ∧
        classify family vars (.numeric t) raw =
          .error (.unclassified raw noOperator noVariable noOperand)) := by
  have plain : IsAsciiToken raw := ⟨ascii, unbroken, String.length_toList ▸ short⟩
  refine ⟨fun op => Family.read_iff standard, fun v => VariableKind.read_iff unmarked plain,
    fun v => NumericType.read_iff plain, count_accepting standard unmarked t plain,
    fun token => classify_iff standard unmarked t plain, fun foreign => ?_⟩
  refine classify_refused standard (fun accepted => ?_) (plain.readable vars t)
  obtain ⟨token, classified⟩ := classify_accepted standard accepted
  exact foreign token ((classify_iff standard unmarked t plain).mp classified)

/-- A twentieth, with a sign, without a digit before the point and with an exponent. -/
theorem classify_language_twentieth :
    let v : Value := .float .single (Format.single.ofBinary (Format.double.round false 1 20))
    classify .float .name (.numeric .float32) "+.5E-1" =
      .ok (.operand v (NumericType.float32.text v)) := by
  have ascii : ∀ c ∈ "+.5E-1".toList, c.toNat < 128 := by simp
  have unbroken : ∀ c ∈ "+.5E-1".toList, ¬ isBlank c := by simp [isBlank]
  have unmarked : VariableKind.name ≠ .marked := by decide
  obtain ⟨_, _, _, _, classified, _⟩ :=
    classify_language (.inl rfl) unmarked .float32 ascii unbroken (by decide)
  have five : IsDigits ['5'] := ⟨by decide, by simp [isDigit]⟩
  have one : IsDigits ['1'] := ⟨by decide, by simp [isDigit]⟩
  have value : ((1 : ℕ) / (20 : ℕ) : ℚ) =
      digitsValue ['5'] / 10 ^ ['5'].length * 10 ^ Binary.signed true (digitsValue ['1']) := by
    have numerator : digitsValue ['5'] = 5 := rfl
    have power : Binary.signed true (digitsValue ['1']) = -1 := rfl
    rw [numerator, power]
    norm_num
  have real : RealText .single _ "+.5E-1".toList :=
    .number .plus (.fraction five) (.some (.inr rfl) (.intro .minus one)) (by decide) value
  exact (classified _).mpr (.operand (.float real))

end Roles

end Postfix
