import Postfix.Proofs.RoundTrip

/-! Tokens that look like an index or like a literal and denote none.
An integer may not be written with more than a limited number of digits, and infinity may be
spelled with two letters that only look right. Reading such a token ends with a fault and not with a
reason to try the next role, and these are the only tokens for which it does. -/
namespace Postfix

open Text Decimal

/-! ### Forms of tokens -/

/-- What is left of a token that may be a literal: without its last line feed and without a sign. -/
def literalBody (raw : String) : List Char := (splitSign (dropFinalNewline raw.toList)).2

/-- A token with the form of an index or of a literal that denotes none, and the fault that reading
it ends with. -/
inductive Unreadable (vars : VariableKind) (raw : String) : NumericType → Fault → Prop
  | index {t : NumericType} {digits : List Char} (kind : vars = .index)
    (form : raw.toList = '$' :: digits) (all : ∀ c ∈ digits, isDigit c)
    (long : digitLimit < digits.length) : Unreadable vars raw t (.digitLimit digits.length)
  | integer {w : WordType} (all : ∀ c ∈ literalBody raw, isDigit c)
    (long : digitLimit < (literalBody raw).length) :
    Unreadable vars raw (.word w) (.digitLimit (literalBody raw).length)
  | infinity {f : Format} (word : (readWord (literalBody raw)).isSome)
    (letter : 'ı' ∈ literalBody raw ∨ 'İ' ∈ literalBody raw) :
    Unreadable vars raw (.float f) (.unreadable raw)

theorem dropFinalNewline_cons {c : Char} (other : c ≠ '\n') (cs : List Char) :
    ∃ rest, dropFinalNewline (c :: cs) = c :: rest := by
  unfold dropFinalNewline
  split
  · rename_i last
    cases cs with
    | nil => exact absurd (by simpa using last) other
    | cons d cs => exact ⟨(d :: cs).dropLast, rfl⟩
  · exact ⟨cs, rfl⟩

theorem literalBody_marked {raw : String} {c : Char} {cs : List Char} (form : raw.toList = c :: cs)
    (mark : c = '$' ∨ c = '@') : ∃ rest, literalBody raw = c :: rest := by
  have other : c ≠ '\n' := by rcases mark with rfl | rfl <;> decide
  obtain ⟨rest, kept⟩ := dropFinalNewline_cons other cs
  rw [literalBody, form, kept]
  rcases mark with rfl | rfl <;> exact ⟨rest, rfl⟩

theorem foldCase_letter {c : Char} (small : 'a' ≤ foldCase c ∧ foldCase c ≤ 'z') :
    c = 'ı' ∨ c = 'İ' ∨ ('A' ≤ c ∧ c ≤ 'Z') ∨ ('a' ≤ c ∧ c ≤ 'z') := by
  unfold foldCase at small
  split at small
  · rename_i capital
    exact .inr (.inr (.inl capital))
  · split at small
    · rename_i either
      exact either.imp_right .inl
    · exact .inr (.inr (.inr small))

theorem readWord_letters {cs : List Char} (word : (readWord cs).isSome) :
    cs ≠ [] ∧ ∀ c ∈ cs, 'a' ≤ foldCase c ∧ foldCase c ≤ 'z' := by
  have folded : cs.map foldCase ∈ [['i', 'n', 'f'], ['i', 'n', 'f', 'i', 'n', 'i', 't', 'y'],
      ['n', 'a', 'n']] := by
    by_contra other
    simp only [List.mem_cons, List.not_mem_nil, or_false, not_or] at other
    simp [readWord, other] at word
  have words : ∀ w ∈ [['i', 'n', 'f'], ['i', 'n', 'f', 'i', 'n', 'i', 't', 'y'],
      ['n', 'a', 'n']], w ≠ [] ∧ ∀ c ∈ w, 'a' ≤ c ∧ c ≤ 'z' := by simp
  obtain ⟨some, letters⟩ := words _ folded
  refine ⟨fun empty => some (by rw [empty]; rfl), fun c hc => ?_⟩
  exact letters _ (List.mem_map_of_mem hc)

theorem foldCase_apart {c : Char} (letter : 'a' ≤ foldCase c ∧ foldCase c ≤ 'z') :
    isDigit c = false ∧ c ≠ '.' ∧ c ≠ '$' ∧ c ≠ '@' := by
  refine ⟨?_, ?_, ?_, ?_⟩
  · rw [← Bool.not_eq_true]
    intro digit
    simp only [isDigit, Bool.and_eq_true, decide_eq_true_eq, Char.le_def] at digit
    have upper : c.toNat ≤ 57 := digit.2
    rcases foldCase_letter letter with rfl | rfl | ⟨low, _⟩ | ⟨low, _⟩
    · exact absurd upper (by decide)
    · exact absurd upper (by decide)
    · have : 65 ≤ c.toNat := low
      omega
    · have : 97 ≤ c.toNat := low
      omega
  all_goals
    rintro rfl
    exact absurd letter (by decide)

theorem readNumeral_word {cs : List Char} (word : (readWord cs).isSome) :
    readNumeral cs = none := by
  obtain ⟨some, letters⟩ := readWord_letters word
  cases cs with
  | nil => exact absurd rfl some
  | cons c cs =>
    obtain ⟨noDigit, noPoint, _⟩ := foldCase_apart (letters c List.mem_cons_self)
    simp only [readNumeral, List.takeWhile_cons, List.dropWhile_cons, noDigit, Bool.false_eq_true,
      if_false]
    split
    · rename_i h
      cases h
      exact absurd rfl noPoint
    · rfl

theorem ascii_word {cs : List Char} (word : (readWord cs).isSome) :
    (cs.all fun c => c.toNat < 128) = false ↔ 'ı' ∈ cs ∨ 'İ' ∈ cs := by
  obtain ⟨_, letters⟩ := readWord_letters word
  rw [List.all_eq_false]
  constructor
  · rintro ⟨c, member, large⟩
    have large : ¬ c.toNat < 128 := by simpa using large
    rcases foldCase_letter (letters c member) with rfl | rfl | ⟨_, high⟩ | ⟨_, high⟩
    · exact .inl member
    · exact .inr member
    · have : c.toNat ≤ 90 := high
      omega
    · have : c.toNat ≤ 122 := high
      omega
  · rintro (member | member)
    · exact ⟨_, member, by decide⟩
    · exact ⟨_, member, by decide⟩

theorem readLiteral_body {raw : String} (noNumeral : readNumeral (literalBody raw) = none)
    (noWord : readWord (literalBody raw) = none) :
    readLiteral (dropFinalNewline raw.toList) = none := by
  unfold literalBody at noNumeral noWord
  simp only [readLiteral, noNumeral, noWord]

theorem readLiteral_eq_nothing {raw : String} :
    readLiteral (dropFinalNewline raw.toList) = some .nothing ↔
      (readWord (literalBody raw)).isSome ∧ ('ı' ∈ literalBody raw ∨ 'İ' ∈ literalBody raw) := by
  unfold readLiteral literalBody
  generalize splitSign (dropFinalNewline raw.toList) = signed
  obtain ⟨s, body⟩ := signed
  simp only
  constructor
  · intro h
    split at h
    · cases h
    · split at h
      · cases h
      · rename_i w word
        have isWord : (readWord body).isSome := by rw [word]; rfl
        refine ⟨isWord, (ascii_word isWord).mp ?_⟩
        split at h
        · cases w <;> cases h
        · rename_i other
          exact Bool.eq_false_iff.mpr other
  · rintro ⟨word, letter⟩
    have other := (ascii_word word).mpr letter
    obtain ⟨w, known⟩ := Option.isSome_iff_exists.mp word
    simp only [readNumeral_word word, known, other, Bool.false_eq_true, if_false]

/-! ### Readings -/

theorem Family.read_cases {family : Family} (standard : family.IsStandard) (raw : String) :
    (∃ op, family.read raw = .ok op) ∨ ∃ fault, family.read raw = .error (.token fault) := by
  cases found : family.operators.find? (·.symbol = raw) with
  | some op => exact .inl ⟨op, by rcases standard with rfl | rfl <;> simp only [read, found]⟩
  | none =>
    refine .inr ⟨.operator raw family.symbolName?, ?_⟩
    rcases standard with rfl | rfl <;> simp only [read, found]

theorem afterSigil_cases (sign token : String) :
    (∃ cs, afterSigil sign token = .ok cs ∧ token.toList = sign.toList ++ cs) ∨
      afterSigil sign token = .error (.token (.sigil token sign)) := by
  unfold afterSigil
  cases found : sign.toList.isPrefixOf? token.toList with
  | some cs => exact .inl ⟨cs, rfl, (List.isPrefixOf?_eq_some_iff_append_eq.mp found).symm⟩
  | none => exact .inr rfl

theorem VariableKind.read_unmarked (vars : VariableKind) {raw : String}
    (plain : ∀ cs, raw.toList ≠ '$' :: cs ∧ raw.toList ≠ '@' :: cs) :
    ∃ fault, vars.read raw = .error (.token fault) := by
  have sigil (sign : String) (some : sign.toList = ['$'] ∨ sign.toList = ['@']) :
      afterSigil sign raw = .error (.token (.sigil raw sign)) := by
    refine (afterSigil_cases sign raw).resolve_left ?_
    rintro ⟨cs, _, form⟩
    rcases some with h | h
    · rw [h] at form; exact (plain cs).1 form
    · rw [h] at form; exact (plain cs).2 form
  have dollar := sigil variableSigil (.inl rfl)
  cases vars with
  | none => exact ⟨_, rfl⟩
  | dummy => exact ⟨_, rfl⟩
  | index => exact ⟨_, by rw [read, readIndex, dollar]; rfl⟩
  | name => exact ⟨_, by rw [read, readName, dollar]; rfl⟩
  | marked => exact ⟨_, by rw [read, readMarked, sigil markSigil (.inr rfl)]; rfl⟩

theorem readIndex_eq_fault {raw : String} {f : Fault} :
    readIndex raw = .error (.fault f) ↔ ∃ digits, raw.toList = '$' :: digits ∧
      (∀ c ∈ digits, isDigit c) ∧ digitLimit < digits.length ∧ f = .digitLimit digits.length := by
  unfold readIndex
  rcases afterSigil_cases variableSigil raw with ⟨cs, found, form⟩ | missing
  · have form : raw.toList = '$' :: cs := form
    rw [found, form]
    simp only [List.cons.injEq, true_and, exists_eq_left']
    change (if _ then _ else _ : Except Refusal Variable) = _ ↔ _
    split
    · rename_i wrong
      rw [Bool.or_eq_true, List.isEmpty_iff, Bool.not_eq_true', List.all_eq_false] at wrong
      constructor
      · intro h; cases h
      · rintro ⟨all, long, _⟩
        rcases wrong with rfl | ⟨c, member, other⟩
        · exact absurd long (by simp)
        · exact absurd (all c member) other
    · rename_i right
      rw [Bool.or_eq_true, List.isEmpty_iff, Bool.not_eq_true', not_or, Bool.not_eq_false,
        List.all_eq_true] at right
      split
      · rename_i long
        constructor
        · intro h; cases h; exact ⟨right.2, long, rfl⟩
        · rintro ⟨_, _, rfl⟩; rfl
      · rename_i short
        constructor
        · intro h; cases h
        · rintro ⟨_, long, _⟩; exact absurd long short
  · rw [missing]
    constructor
    · intro h; cases h
    · rintro ⟨digits, form, _⟩
      have found := afterSigil_eq_ok.mpr form
      rw [missing] at found
      cases found

theorem VariableKind.read_eq_fault {vars : VariableKind} {raw : String} {f : Fault} :
    vars.read raw = .error (.fault f) ↔ vars = .index ∧ readIndex raw = .error (.fault f) := by
  cases vars with
  | none => simp [read]
  | dummy => simp [read]
  | index => simp [read]
  | name =>
    simp only [read, readName, reduceCtorEq, false_and, iff_false]
    rcases afterSigil_cases variableSigil raw with ⟨cs, found, _⟩ | missing
    · rw [found]
      change ¬ (if _ then _ else _ : Except Refusal Variable) = _
      split
      · intro failed; cases failed
      · intro failed; cases failed
    · rw [missing]
      intro failed
      cases failed
  | marked =>
    simp only [read, readMarked, reduceCtorEq, false_and, iff_false]
    rcases afterSigil_cases markSigil raw with ⟨cs, found, _⟩ | missing
    · rw [found]
      intro failed
      cases failed
    · rw [missing]
      intro failed
      cases failed

theorem NumericType.readWord_eq_fault {w : WordType} {raw : String} {f : Fault} :
    readWord w raw = .error (.fault f) ↔ (∀ c ∈ literalBody raw, isDigit c) ∧
      digitLimit < (literalBody raw).length ∧ f = .digitLimit (literalBody raw).length := by
  unfold readWord Decimal.isInteger literalBody
  simp only
  split
  · rename_i wrong
    rw [Bool.not_eq_true', Bool.and_eq_false_iff, Bool.not_eq_false', List.isEmpty_iff,
      List.all_eq_false] at wrong
    constructor
    · intro h; cases h
    · rintro ⟨all, long, _⟩
      rcases wrong with empty | ⟨c, member, other⟩
      · rw [empty] at long
        exact absurd long (by simp)
      · exact absurd (all c member) other
  · rename_i right
    rw [Bool.not_eq_true', Bool.not_eq_false, Bool.and_eq_true, List.all_eq_true] at right
    split
    · rename_i long
      constructor
      · intro h; cases h; exact ⟨right.2, long, rfl⟩
      · rintro ⟨_, _, rfl⟩; rfl
    · rename_i short
      constructor
      · intro h; split at h <;> cases h
      · rintro ⟨_, long, _⟩; exact absurd long short

theorem NumericType.readFloat_eq_fault {format : Format} {raw : String} {f : Fault} :
    readFloat format raw = .error (.fault f) ↔ (Decimal.readWord (literalBody raw)).isSome ∧
      ('ı' ∈ literalBody raw ∨ 'İ' ∈ literalBody raw) ∧ f = .unreadable raw := by
  rw [← and_assoc, ← readLiteral_eq_nothing]
  unfold readFloat
  cases readLiteral (dropFinalNewline raw.toList) with
  | none => simp
  | some literal => cases literal <;> simp [Literal.toBinary, Literal.toDouble, eq_comm]

/-! ### Faults of reading -/

theorem unreadable_iff {vars : VariableKind} {raw : String} {t : NumericType} {f : Fault} :
    Unreadable vars raw t f ↔
      vars.read raw = .error (.fault f) ∨ t.read raw = .error (.fault f) := by
  rw [VariableKind.read_eq_fault]
  constructor
  · intro unreadable
    cases unreadable with
    | index kind form all long =>
      exact .inl ⟨kind, readIndex_eq_fault.mpr ⟨_, form, all, long, rfl⟩⟩
    | integer all long => exact .inr (NumericType.readWord_eq_fault.mpr ⟨all, long, rfl⟩)
    | infinity word letter => exact .inr (NumericType.readFloat_eq_fault.mpr ⟨word, letter, rfl⟩)
  · rintro (⟨kind, read⟩ | read)
    · obtain ⟨digits, form, all, long, rfl⟩ := readIndex_eq_fault.mp read
      exact .index kind form all long
    · cases t with
      | word w =>
        obtain ⟨all, long, rfl⟩ := NumericType.readWord_eq_fault.mp read
        exact .integer all long
      | float format =>
        obtain ⟨word, letter, rfl⟩ := NumericType.readFloat_eq_fault.mp read
        exact .infinity word letter

/-- A token with the form of a literal, whether or not it denotes one, is neither a symbol nor a
variable. -/
theorem read_literal_eq_fault {family : Family} (standard : family.IsStandard)
    (vars : VariableKind) {t : NumericType} {raw : String} {f : Fault}
    (read : t.read raw = .error (.fault f)) :
    (∃ fault, family.read raw = .error (.token fault)) ∧
      ∃ fault, vars.read raw = .error (.token fault) := by
  have form : (digitLimit < (literalBody raw).length ∧ ∀ c ∈ literalBody raw, isDigit c) ∨
      (readWord (literalBody raw)).isSome := by
    cases t with
    | word w =>
      obtain ⟨all, long, _⟩ := NumericType.readWord_eq_fault.mp read
      exact .inl ⟨long, all⟩
    | float format => exact .inr (NumericType.readFloat_eq_fault.mp read).1
  constructor
  · refine (Family.read_cases standard raw).resolve_left ?_
    rintro ⟨op, symbol⟩
    obtain ⟨member, same⟩ := Family.mem_of_read symbol
    have short : ∀ op ∈ family.operators, (literalBody op.symbol).length ≤ digitLimit ∧
        (readWord (literalBody op.symbol)).isSome = false := by
      rcases standard with rfl | rfl <;> decide
    obtain ⟨fits, noWord⟩ := short op member
    rw [same] at fits noWord
    rcases form with ⟨long, _⟩ | word
    · omega
    · rw [noWord] at word; cases word
  · have marked (c : Char) (mark : c = '$' ∨ c = '@') (cs : List Char) : raw.toList ≠ c :: cs := by
      intro begins
      obtain ⟨rest, body⟩ := literalBody_marked begins mark
      rw [body] at form
      rcases form with ⟨_, all⟩ | word
      · have digit := all c List.mem_cons_self
        rcases mark with rfl | rfl <;> cases digit
      · have letter := (readWord_letters word).2 c List.mem_cons_self
        obtain ⟨_, _, noDollar, noAt⟩ := foldCase_apart letter
        rcases mark with rfl | rfl
        · exact noDollar rfl
        · exact noAt rfl
    exact vars.read_unmarked fun cs => ⟨marked '$' (.inl rfl) cs, marked '@' (.inr rfl) cs⟩

theorem NumericType.read_marked {t : NumericType} {raw : String} {c : Char} {cs : List Char}
    (form : raw.toList = c :: cs) (mark : c = '$' ∨ c = '@') {v : Value} : t.read raw ≠ .ok v := by
  obtain ⟨rest, body⟩ := literalBody_marked form mark
  have noDigit : isDigit c = false := by rcases mark with rfl | rfl <;> rfl
  intro read
  cases t with
  | word w =>
    have refused : Decimal.isInteger (dropFinalNewline raw.toList) = false := by
      change (!(literalBody raw).isEmpty && (literalBody raw).all isDigit) = false
      rw [body, List.all_cons, noDigit]
      rfl
    rw [NumericType.read, NumericType.readWord] at read
    simp [refused] at read
  | float f =>
    obtain ⟨literal, _, found, _⟩ := NumericType.readFloat_eq_ok read
    have noNumeral : readNumeral (literalBody raw) = none := by
      have noPoint : c ≠ '.' := by rcases mark with rfl | rfl <;> decide
      rw [body]
      simp [readNumeral, noDigit, noPoint]
    have noWord : Decimal.readWord (literalBody raw) = none := by
      rw [Option.eq_none_iff_forall_ne_some]
      intro w word
      have letters := (readWord_letters (Option.isSome_of_mem word)).2
      obtain ⟨_, _, noDollar, noAt⟩ := foldCase_apart (letters c (body ▸ List.mem_cons_self))
      rcases mark with rfl | rfl
      · exact noDollar rfl
      · exact noAt rfl
    rw [readLiteral_body noNumeral noWord] at found
    cases found

end Postfix
