import Postfix.Proofs.Equality

/-! Splitting the text of an expression into its tokens again.
Symbols, indices and literals are written as words, whatever they were read from, and so is a name
that was read without a line feed. A name read with one keeps it, and the split takes it for one of
the blanks between two tokens. Nothing else is lost. -/
namespace Postfix

open Text Decimal

/-! ### Final line feeds -/

theorem dropFinalNewline_tail (cs : List Char) :
    ∃ tail, cs = dropFinalNewline cs ++ tail ∧
      (cs.getLast? = some '\n' ∧ tail = ['\n'] ∨ cs.getLast? ≠ some '\n' ∧ tail = []) := by
  unfold dropFinalNewline
  split
  · rename_i last
    exact ⟨['\n'], (List.dropLast_append_getLast? '\n' last).symm, .inl ⟨last, rfl⟩⟩
  · rename_i other
    exact ⟨[], by simp, .inr ⟨other, rfl⟩⟩

theorem dropFinalNewline_eq_self {cs : List Char} :
    dropFinalNewline cs = cs ↔ cs.getLast? ≠ some '\n' := by
  obtain ⟨tail, whole, ⟨last, rfl⟩ | ⟨other, rfl⟩⟩ := dropFinalNewline_tail cs
  · constructor
    · intro same
      have length := congrArg List.length whole
      rw [same] at length
      simp at length
    · intro other
      exact absurd last other
  · rw [List.append_nil] at whole
    simp [other, ← whole]

theorem dropFinalNewline_head {c : Char} {cs : List Char} (some : cs ≠ []) :
    dropFinalNewline (c :: cs) = c :: dropFinalNewline cs := by
  unfold dropFinalNewline
  rw [List.getLast?_cons_of_ne_nil some]
  split
  · exact List.dropLast_cons_of_ne_nil some
  · rfl

/-! ### Texts of tokens -/

theorem not_isBlank_of_isNameStart {c : Char} (start : isNameStart c) : ¬ isBlank c := by
  simp only [isNameStart, Bool.or_eq_true, Bool.and_eq_true, decide_eq_true_eq,
    Char.le_def] at start
  have range : 65 ≤ c.toNat ∧ c.toNat ≤ 122 := by
    rcases start with (⟨low, high⟩ | ⟨low, high⟩) | rfl
    · exact ⟨low, le_trans high (by decide)⟩
    · exact ⟨le_trans (by decide) low, high⟩
    · decide
  simp only [isBlank, Bool.or_eq_true, Bool.and_eq_true, decide_eq_true_eq, beq_iff_eq]
  omega

theorem isWord_of_isName {cs : List Char} (name : isName cs) : IsWord cs := by
  cases cs with
  | nil => cases name
  | cons c cs =>
    rw [isName, Bool.and_eq_true, List.all_eq_true] at name
    obtain ⟨start, rest⟩ := name
    refine ⟨by simp, fun d hd => ?_⟩
    rcases List.mem_cons.mp hd with rfl | hd
    · exact not_isBlank_of_isNameStart start
    · rcases Bool.or_eq_true _ _ |>.mp (rest d hd) with letter | digit
      · exact not_isBlank_of_isNameStart letter
      · exact not_isBlank_of_isDigit digit

theorem Family.isWord_symbol {family : Family} (standard : family.IsStandard) :
    ∀ op ∈ family.operators, IsWord op.symbol.toList := by
  rcases standard with rfl | rfl <;> decide

def Token.EndsLine : Token → Prop
  | .reference (.name s) => s.toList.getLast? = some '\n'
  | _ => False

structure Token.Written (t : Token) : Prop where
  isWord : IsWord (dropFinalNewline t.text.toList)
  endsLine : t.EndsLine ↔ t.text.toList.getLast? = some '\n'

namespace Token.Written

variable {t : Token}

theorem of_word (word : IsWord t.text.toList) (other : ¬ t.EndsLine) : t.Written := by
  have kept := dropFinalNewline_word word
  refine ⟨by rwa [kept], ?_⟩
  have last := dropFinalNewline_eq_self.mp kept
  simp only [other, last]

theorem of_name {cs : List Char} (name : isName (dropFinalNewline cs)) :
    (Token.reference (.name (String.ofList cs))).Written := by
  have some : cs ≠ [] := by
    rintro rfl
    cases name
  have form : (Token.reference (.name (String.ofList cs))).text.toList = '$' :: cs := by
    rw [Token.text, Variable.toList_text_name, String.toList_ofList]
  constructor
  · rw [form, dropFinalNewline_head some]
    exact isWord_cons (by decide) (isWord_of_isName name)
  · rw [form, List.getLast?_cons_of_ne_nil some, EndsLine, String.toList_ofList]

theorem of_classified {family : Family} (standard : family.IsStandard) {vars : VariableKind}
    (plain : vars.IsPlain) {type : NumericType} {raw : String}
    (classified : classify family vars (.numeric type) raw = .ok t) : t.Written := by
  rcases classify_eq_ok classified with ⟨op, rfl, read⟩ | ⟨v, rfl, read⟩ | ⟨value, rfl, read⟩
  · exact of_word (Family.isWord_symbol standard op (Family.mem_of_read read).1) id
  · rcases plain with rfl | rfl | rfl
    · cases read
    · obtain ⟨digits, _, _, _, _, rfl⟩ := readIndex_eq_ok.mp read
      refine of_word ?_ id
      rw [Token.text, Variable.toList_text_index]
      exact isWord_cons (by decide) (isWord_natDigits _)
    · obtain ⟨cs, _, name, rfl⟩ := readName_iff.mp read
      exact of_name name
  · exact of_word (NumericType.isWord_text read) id

theorem isPadded (written : t.Written) :
    IsPadded t.text.toList (dropFinalNewline t.text.toList) := by
  obtain ⟨tail, whole, ends⟩ := dropFinalNewline_tail t.text.toList
  refine ⟨written.isWord, tail, ?_, whole⟩
  intro c hc
  rcases ends with ⟨_, rfl⟩ | ⟨_, rfl⟩
  · rw [List.mem_singleton.mp hc]
    rfl
  · cases hc

theorem isWord_iff (written : t.Written) : IsWord t.text.toList ↔ ¬ t.EndsLine := by
  rw [written.endsLine, ← ne_eq, ← dropFinalNewline_eq_self]
  constructor
  · exact dropFinalNewline_word
  · intro kept
    rw [← kept]
    exact written.isWord

end Token.Written

/-- A line feed at the end of a name was there before it was read. -/
theorem Token.EndsLine.unread {s : Token} (ends : s.EndsLine) {family : Family}
    {vars : VariableKind} (plain : vars.IsPlain) {kind : OperandKind} {raw : String}
    (classified : classify family vars kind raw = .ok s) : vars = .name ∧ s.text = raw := by
  rcases classify_eq_ok classified with ⟨op, rfl, _⟩ | ⟨v, rfl, read⟩ | ⟨value, rfl, _⟩
  · exact ends.elim
  · rcases plain with rfl | rfl | rfl
    · cases read
    · obtain ⟨_, _, _, _, _, rfl⟩ := readIndex_eq_ok.mp read
      exact ends.elim
    · exact ⟨rfl, (readName_eq_ok read).1⟩
  · exact ends.elim

/-! ### Expressions -/

namespace Expression

variable {family : Family} {vars : VariableKind} {t : NumericType} {raw : List String}
  {e : Expression}

theorem splitTokens_text (written : ∀ s ∈ e.tokens, s.Written) :
    splitTokens e.text = e.tokens.map fun s => String.ofList (dropFinalNewline s.text.toList) := by
  have padded : List.Forall₂ IsPadded (e.tokens.map fun s => s.text.toList)
      (e.tokens.map fun s => dropFinalNewline s.text.toList) := by
    rw [List.forall₂_map_left_iff, List.forall₂_map_right_iff, List.forall₂_same]
    exact fun s hs => (written s hs).isPadded
  have blank : ∀ c ∈ " ".toList, isBlank c := List.all_eq_true.mp (by decide)
  have split := words_intercalate_padded (by decide) blank padded
  rw [splitTokens, text, render, String.toList_intercalate, List.map_map]
  simp only [Function.comp_def, split, List.map_map]

/-- An expression that was built of any tokens is split into its own tokens again, except for the
final line feeds of its names. No text of a token is empty, and the others have no blanks. -/
theorem splitTokens_built (standard : family.IsStandard) (plain : vars.IsPlain)
    (built : ofTokens raw family (.numeric t) vars = .ok e) :
    splitTokens e.text =
        e.tokens.map (fun s => String.ofList (dropFinalNewline s.text.toList)) ∧
      (splitTokens e.text = e.tokens.map Token.text ↔ ∀ s ∈ e.tokens, ¬ s.EndsLine) ∧
      (∀ s ∈ e.tokens, s.text ≠ "" ∧ (IsWord s.text.toList ↔ ¬ s.EndsLine)) ∧
      (∀ s ∈ e.tokens, s.EndsLine → vars = .name ∧ s.text ∈ raw) := by
  have written : ∀ s ∈ e.tokens, s.Written := by
    intro s member
    obtain ⟨r, classified⟩ := exists_classified built member
    exact .of_classified standard plain classified
  have split := splitTokens_text written
  refine ⟨split, ?_, fun s member => ⟨?_, (written s member).isWord_iff⟩, ?_⟩
  · rw [split, List.map_inj_left]
    refine forall₂_congr fun s member => ?_
    rw [(written s member).endsLine, ← ne_eq, ← dropFinalNewline_eq_self, ← String.toList_inj,
      String.toList_ofList]
  · intro empty
    have word := (written s member).isWord
    rw [empty] at word
    exact word.1 rfl
  · intro s member ends
    obtain ⟨r, given, classified⟩ := classified_of_mem built member
    obtain ⟨named, same⟩ := ends.unread plain classified
    exact ⟨named, same ▸ given⟩

/-- A name that was given with a line feed, before a name without one. -/
theorem splitTokens_built_line_feed :
    ∃ e, ofTokens ["$a\n", "$b", "+"] .integer (.numeric .int8) .name = .ok e ∧
      splitTokens e.text = ["$a", "$b", "+"] ∧ splitTokens e.text ≠ e.tokens.map Token.text := by
  let e : Expression :=
    ⟨[.reference (.name "a\n"), .reference (.name "b"), .operator (.integer (.binary .add))], 2,
      .numeric .int8, .integer, .name⟩
  have built : ofTokens ["$a\n", "$b", "+"] .integer (.numeric .int8) .name = .ok e := by
    with_unfolding_all rfl
  obtain ⟨split, exact_iff, _, _⟩ := splitTokens_built (.inr rfl) (.inr (.inr rfl)) built
  refine ⟨e, built, split, fun same => ?_⟩
  have ends : (Token.reference (.name "a\n")).EndsLine := rfl
  exact exact_iff.mp same _ List.mem_cons_self ends

end Expression
end Postfix
