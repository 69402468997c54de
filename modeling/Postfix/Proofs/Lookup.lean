import Postfix.Proofs.Ending
import Postfix.Proofs.Substitution

/-! Containers that answer alike.
A mapping and a row under labels are searched in different ways, but if no two of their entries have
one key, they answer alike. Values under their positions are entries of that sort, and a sequence
counts its way to the same value. So an expression whose variables are indices cannot tell the
sequence, the mapping and the row of the same values apart, at no moment of a run. -/
namespace Postfix

namespace Value

theorem same_int (n m : Int) : (int n).same (int m) = decide (n = m) := by
  simp [same, sameNumber, number?, Exact.same]

theorem same_text (s t : String) : (text s).same (text t) = decide (s = t) := by
  simp [same]

end Value

namespace Container

/-! ### Entries under different keys -/

theorem keyed_lookup {key : Value} (usable : key.notKey? = none) (entries : List (Value × Value)) :
    (keyed entries).lookup key =
      .ok ((entries.filter fun p => p.1.same key).getLast?.bind fun p => found p.2) := by
  simp only [lookup, usable]
  rw [← List.head?_filter, List.filter_reverse, List.head?_reverse]

/-- If no two entries have the key, the order of the search does not matter. -/
theorem keyed_eq_labelled {key : Value} (usable : key.notKey? = none)
    {entries : List (Value × Value)}
    (alike : ∀ p ∈ entries, labelMatches key p.1 = p.1.same key)
    (apart : entries.Pairwise fun p q => ¬ (p.1.same key ∧ q.1.same key)) :
    (keyed entries).lookup key = (labelled entries).lookup key := by
  rw [keyed_lookup usable]
  simp only [lookup, usable, List.filter_congr alike]
  rcases List.filter_cases apart with none | ⟨p, _, _, only⟩
  · rw [none]
    rfl
  · rw [only]
    rfl

/-! ### Values under their positions -/

def numbered (xs : List Value) : List (Value × Value) :=
  xs.mapIdx fun (i : Nat) v => (.int i, v)

variable (xs : List Value) (n : Nat)

theorem mem_numbered {p : Value × Value} :
    p ∈ numbered xs ↔ ∃ i : Nat, ∃ v, xs[i]? = some v ∧ p = (.int i, v) := by
  simp only [numbered, List.mem_mapIdx]
  constructor
  · rintro ⟨i, inside, rfl⟩
    exact ⟨i, xs[i], List.getElem?_eq_getElem inside, rfl⟩
  · rintro ⟨i, v, found, rfl⟩
    obtain ⟨inside, rfl⟩ := List.getElem?_eq_some_iff.mp found
    exact ⟨i, inside, rfl⟩

theorem numbered_apart :
    (numbered xs).Pairwise fun p q => ¬ (p.1.same (.int n) ∧ q.1.same (.int n)) := by
  rw [List.pairwise_iff_getElem]
  intro i j hi hj before
  simp only [numbered, List.getElem_mapIdx, Value.same_int, decide_eq_true_eq, not_and]
  omega

theorem numbered_matches :
    ∀ p ∈ numbered xs, labelMatches (.int n) p.1 = p.1.same (.int n) := by
  intro p member
  obtain ⟨i, v, _, rfl⟩ := (mem_numbered xs).mp member
  simp only [labelMatches, Value.isMeasure, Value.same_int, Bool.true_and, eq_comm]

theorem labelled_numbered :
    (labelled (numbered xs)).lookup (.int n) = .ok (xs[n]?.bind found) := by
  have usable : (Value.int n).notKey? = none := rfl
  simp only [lookup, usable, List.filter_congr (numbered_matches xs n)]
  rcases List.filter_cases (numbered_apart xs n) with none | ⟨p, member, picked, only⟩
  · have absent : xs[n]? = Option.none := by
      cases given : xs[n]? with
      | none => rfl
      | some v =>
        have entry := (mem_numbered xs).mpr ⟨n, v, given, rfl⟩
        exact absurd (by simp [Value.same_int]) (List.filter_eq_nil_iff.mp none _ entry)
    rw [none, absent]
    rfl
  · obtain ⟨i, v, given, rfl⟩ := (mem_numbered xs).mp member
    have here : i = n := by simpa [Value.same_int] using picked
    rw [only, ← here, given]
    rfl

theorem keyed_numbered : (keyed (numbered xs)).lookup (.int n) = .ok (xs[n]?.bind found) := by
  rw [keyed_eq_labelled rfl (numbered_matches xs n) (numbered_apart xs n), labelled_numbered]

theorem positional_lookup : (positional xs).lookup (.int n) = .ok (xs[n]?.bind found) := by
  simp [lookup, position?]

end Container

namespace Expression

open Container

variable {family : Family} {kind : OperandKind} {raw : List String} {e : Expression}

/-- The values of a list are found at their positions alike, be they given as a sequence, as a
mapping or as a row, and so an expression with indices runs alike. An index without a value, however
large, ends a run that gets to it. -/
theorem evaluate_positional (built : ofTokens raw family kind .index = .ok e) (xs : List Value) :
    ∀ c ∈ [positional xs, keyed (numbered xs), labelled (numbered xs)],
      (∀ n, c.lookup (Variable.index n).key = .ok (xs[n]?.bind Container.found)) ∧
      e.moments c = e.moments (positional xs) ∧ e.evaluate c = e.evaluate (positional xs) ∧
      ∀ n, e.Reaches c (.index n) → xs.length ≤ n ∨ xs[n]? = some .none →
        e.evaluate c = .error (.notFound (Variable.index n).text) := by
  intro c member
  have answers : ∀ n, c.lookup (Variable.index n).key = .ok (xs[n]?.bind Container.found) := by
    intro n
    simp only [List.mem_cons, List.not_mem_nil, or_false] at member
    rcases member with rfl | rfl | rfl
    · exact positional_lookup xs n
    · exact keyed_numbered xs n
    · exact labelled_numbered xs n
  have alike : ∀ v ∈ e.references, c.lookup v.key = (positional xs).lookup v.key := by
    intro v listed
    obtain ⟨n, rfl⟩ := exists_index built listed
    rw [answers n]
    exact (positional_lookup xs n).symm
  refine ⟨answers, (run_congr alike).1, evaluate_congr alike, ?_⟩
  intro n reached missing
  have nothing : xs[n]?.bind Container.found = none := by
    rcases missing with beyond | stored
    · rw [List.getElem?_eq_none beyond]
      rfl
    · rw [stored]
      rfl
  have absent := answers n
  rw [nothing] at absent
  exact reached.evaluate_eq_error (resolve_missing absent)

/-- A difference of a text and an integer, before an index far beyond the values. -/
theorem evaluate_positional_far :
    ∃ e, ofTokens ["$1", "$0", "-", "$99999999999999999999", "+"] .integer (.numeric .int8)
        .index = .ok e ∧
      ∀ c ∈ [positional [.int 3, .text "5", .none], keyed (numbered [.int 3, .text "5", .none]),
          labelled (numbered [.int 3, .text "5", .none])],
        c.lookup (Variable.index 1).key = .ok (some (.text "5")) ∧
          c.lookup (Variable.index 2).key = .ok none ∧
          e.evaluate c = .error (.notFound "$99999999999999999999") := by
  let e : Expression :=
    ⟨[.reference (.index 1), .reference (.index 0), .operator (.integer (.binary .sub)),
      .reference (.index 99999999999999999999), .operator (.integer (.binary .add))], 2,
      .numeric .int8, .integer, .index⟩
  have built : ofTokens ["$1", "$0", "-", "$99999999999999999999", "+"] .integer (.numeric .int8)
      .index = .ok e := by
    with_unfolding_all rfl
  have reached : e.Reaches (positional [.int 3, .text "5", .none])
      (.index 99999999999999999999) := by
    refine reaches_iff.mpr ⟨[.reference (.index 1), .reference (.index 0),
      .operator (.integer (.binary .sub))], [.operator (.integer (.binary .add))],
      [.word .int8 2], rfl, ?_⟩
    with_unfolding_all rfl
  refine ⟨e, built, fun c member => ?_⟩
  obtain ⟨answers, _, same, _⟩ := evaluate_positional built [.int 3, .text "5", .none] c member
  obtain ⟨_, _, _, ends⟩ :=
    evaluate_positional built [.int 3, .text "5", .none] _ List.mem_cons_self
  refine ⟨answers 1, answers 2, ?_⟩
  have written : (Variable.index 99999999999999999999).text = "$99999999999999999999" := by
    decide +kernel
  rw [same, ends _ reached (.inl (by decide)), written]

end Expression
end Postfix
