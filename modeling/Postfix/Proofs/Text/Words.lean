import Mathlib.Data.List.Forall2
import Postfix.Text.Blank

/-! Splitting a text into words, and joining words again.
A word is a nonempty run of characters that are not blank. Words that are joined by blanks, however
many stand between two of them, are the words of the joined text. -/
namespace Postfix.Text

def IsWord (cs : List Char) : Prop := cs ≠ [] ∧ ∀ c ∈ cs, ¬ isBlank c

instance (cs : List Char) : Decidable (IsWord cs) :=
  decidable_of_iff (cs ≠ [] ∧ cs.all fun c => !isBlank c) (by simp [IsWord])

theorem wordsFrom_append {cs : List Char} (plain : ∀ c ∈ cs, ¬ isBlank c)
    (word rest : List Char) :
    wordsFrom word (cs ++ rest) = wordsFrom (cs.reverse ++ word) rest := by
  induction cs generalizing word with
  | nil => rfl
  | cons c cs ih =>
    have here := plain c List.mem_cons_self
    simp only [List.cons_append, wordsFrom, here]
    rw [if_neg Bool.false_ne_true, ih fun d hd => plain d (List.mem_cons_of_mem c hd)]
    simp

theorem wordsFrom_blanks {sep : List Char} (blank : ∀ c ∈ sep, isBlank c) (rest : List Char) :
    wordsFrom [] (sep ++ rest) = wordsFrom [] rest := by
  induction sep with
  | nil => rfl
  | cons c sep ih =>
    simp only [List.cons_append, wordsFrom, blank c List.mem_cons_self, if_true, List.isEmpty_nil]
    exact ih fun d hd => blank d (List.mem_cons_of_mem c hd)

theorem wordsFrom_sep {sep word : List Char} (some : sep ≠ []) (blank : ∀ c ∈ sep, isBlank c)
    (open_ : word ≠ []) (rest : List Char) :
    wordsFrom word (sep ++ rest) = word.reverse :: wordsFrom [] rest := by
  cases sep with
  | nil => exact absurd rfl some
  | cons c sep =>
    have pending : word.isEmpty = false := by simpa using open_
    simp only [List.cons_append, wordsFrom, blank c List.mem_cons_self, if_true, pending]
    rw [if_neg Bool.false_ne_true,
      wordsFrom_blanks (fun d hd => blank d (List.mem_cons_of_mem c hd)) rest]

def IsPadded (text word : List Char) : Prop :=
  IsWord word ∧ ∃ tail, (∀ c ∈ tail, isBlank c) ∧ text = word ++ tail

/-- Blanks at the end of the parts are among those that separate them. -/
theorem words_intercalate_padded {sep : List Char} (some : sep ≠ []) (blank : ∀ c ∈ sep, isBlank c)
    {texts ws : List (List Char)} (padded : List.Forall₂ IsPadded texts ws) :
    words (sep.intercalate texts) = ws := by
  unfold words
  induction padded with
  | nil => rfl
  | @cons text w texts ws first rest ih =>
    obtain ⟨⟨open_, plain⟩, tail, empty, rfl⟩ := first
    have pending : w.reverse ≠ [] := by simpa using open_
    cases rest with
    | nil =>
      rw [List.intercalate_singleton, wordsFrom_append plain, List.append_nil]
      cases tail with
      | nil => simp [wordsFrom, open_]
      | cons c tail =>
        have last := wordsFrom_sep (List.cons_ne_nil c tail) empty pending []
        rw [List.append_nil, List.reverse_reverse] at last
        exact last
    | cons next rest =>
      have gap : ∀ c ∈ tail ++ sep, isBlank c := by
        intro c hc
        rcases List.mem_append.mp hc with before | after
        · exact empty c before
        · exact blank c after
      rw [List.intercalate_cons_cons, List.append_assoc, List.append_assoc,
        ← List.append_assoc tail, wordsFrom_append plain, List.append_nil,
        wordsFrom_sep (by simp [some]) gap pending, ih, List.reverse_reverse]

theorem words_intercalate {sep : List Char} (some : sep ≠ []) (blank : ∀ c ∈ sep, isBlank c)
    {ws : List (List Char)} (plain : ∀ w ∈ ws, IsWord w) : words (sep.intercalate ws) = ws := by
  apply words_intercalate_padded some blank
  rw [List.forall₂_same]
  exact fun w hw => ⟨plain w hw, [], by simp, by simp⟩

theorem isWord_reverse {word : List Char} (some : ¬ word.isEmpty = true)
    (plain : ∀ c ∈ word, ¬ isBlank c) : IsWord word.reverse :=
  ⟨by simpa using some, fun c hc => plain c (List.mem_reverse.mp hc)⟩

theorem isWord_of_mem_wordsFrom {cs word w : List Char} (plain : ∀ c ∈ word, ¬ isBlank c)
    (member : w ∈ wordsFrom word cs) : IsWord w := by
  induction cs generalizing word with
  | nil =>
    simp only [wordsFrom] at member
    split at member
    · cases member
    · rename_i some
      rw [List.mem_singleton.mp member]
      exact isWord_reverse some plain
  | cons c cs ih =>
    have fresh : w ∈ wordsFrom [] cs → IsWord w := ih (by simp)
    simp only [wordsFrom] at member
    split at member
    · split at member
      · exact fresh member
      · rename_i some
        rcases List.mem_cons.mp member with rfl | member
        · exact isWord_reverse some plain
        · exact fresh member
    · rename_i here
      refine ih (fun d hd => ?_) member
      rcases List.mem_cons.mp hd with rfl | hd
      · exact here
      · exact plain d hd

theorem isWord_of_mem_splitTokens {text token : String} (member : token ∈ splitTokens text) :
    IsWord token.toList := by
  obtain ⟨w, hw, rfl⟩ := List.mem_map.mp member
  rw [String.toList_ofList]
  exact isWord_of_mem_wordsFrom (by simp) hw

theorem splitTokens_intercalate {sep : String} (some : sep ≠ "")
    (blank : ∀ c ∈ sep.toList, isBlank c) {tokens : List String}
    (plain : ∀ t ∈ tokens, IsWord t.toList) : splitTokens (sep.intercalate tokens) = tokens := by
  have nonempty : sep.toList ≠ [] := by
    intro h
    exact some (String.toList_inj.mp (by rw [h]; rfl))
  unfold splitTokens
  rw [String.toList_intercalate, words_intercalate nonempty blank]
  · rw [List.map_map]
    simp [Function.comp_def]
  · intro w hw
    obtain ⟨t, ht, rfl⟩ := List.mem_map.mp hw
    exact plain t ht

end Postfix.Text
