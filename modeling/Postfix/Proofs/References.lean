import Mathlib.Data.List.Induction
import Postfix.Proofs.Building
import Postfix.Proofs.Moves

/-! The variables that an expression lists, and what an evaluation reads of a container.
The list has every variable of the tokens once, in the order in which they first appear. Nothing
else of a container is asked for: over two containers that answer alike for the variables of the
list, refusals included, the run goes through the same stacks and ends alike. Whether the containers
are of one sort, or supported at all, has no say beyond these answers. -/
namespace Postfix

def Token.reference? : Token → Option Variable
  | reference v => some v
  | _ => none

namespace Expression

def occurrences (e : Expression) : List Variable := e.tokens.filterMap Token.reference?

/-! ### The list -/

/-- The different variables of a list, in the order of their first places there. -/
structure Firsts (listed occurring : List Variable) : Prop where
  mem_iff : ∀ v, v ∈ listed ↔ v ∈ occurring
  ordered : listed.Pairwise fun v w => occurring.idxOf v < occurring.idxOf w

namespace Firsts

variable {listed occurring : List Variable}

theorem nil : Firsts [] [] := ⟨fun _ => Iff.rfl, List.Pairwise.nil⟩

theorem nodup (firsts : Firsts listed occurring) : listed.Nodup := by
  apply firsts.ordered.imp
  rintro v w before rfl
  exact Nat.lt_irrefl _ before

/-- A variable at the end does not move the places of those before it. -/
theorem ordered_concat (firsts : Firsts listed occurring) (v : Variable) :
    listed.Pairwise fun u w => (occurring ++ [v]).idxOf u < (occurring ++ [v]).idxOf w := by
  apply firsts.ordered.imp_of_mem
  intro u w hu hw before
  rw [List.idxOf_append_of_mem ((firsts.mem_iff u).mp hu),
    List.idxOf_append_of_mem ((firsts.mem_iff w).mp hw)]
  exact before

theorem again (firsts : Firsts listed occurring) {v : Variable} (known : v ∈ listed) :
    Firsts listed (occurring ++ [v]) := by
  refine ⟨fun w => ?_, firsts.ordered_concat v⟩
  have occurs := (firsts.mem_iff v).mp known
  rw [firsts.mem_iff w, List.mem_append, List.mem_singleton]
  exact ⟨.inl, fun h => h.elim id fun same => same ▸ occurs⟩

theorem concat (firsts : Firsts listed occurring) {v : Variable} (new : v ∉ listed) :
    Firsts (listed ++ [v]) (occurring ++ [v]) := by
  refine ⟨fun w => by simp [firsts.mem_iff w], ?_⟩
  apply List.pairwise_append.mpr
  refine ⟨firsts.ordered_concat v, List.pairwise_singleton _ _, ?_⟩
  intro u hu w hw
  obtain rfl := List.mem_singleton.mp hw
  have occurs : u ∈ occurring := (firsts.mem_iff u).mp hu
  have missing : w ∉ occurring := fun h => new ((firsts.mem_iff w).mpr h)
  rw [List.idxOf_append_of_mem occurs, List.idxOf_append_of_notMem missing]
  exact Nat.lt_of_lt_of_le (List.idxOf_lt_length_of_mem occurs) (Nat.le_add_right _ _)

theorem addReference (firsts : Firsts listed occurring) (t : Token) :
    Firsts (addReference listed t) (occurring ++ t.reference?.toList) := by
  cases t with
  | reference v =>
    by_cases known : v ∈ listed
    · simpa [Token.reference?, Expression.addReference, known] using firsts.again known
    · simpa [Token.reference?, Expression.addReference, known] using firsts.concat known
  | operand value text => simpa [Token.reference?, Expression.addReference] using firsts
  | operator op => simpa [Token.reference?, Expression.addReference] using firsts

end Firsts

theorem firsts_foldl (ts : List Token) :
    Firsts (ts.foldl addReference []) (ts.filterMap Token.reference?) := by
  induction ts using List.reverseRecOn with
  | nil => exact .nil
  | append_singleton ts t ih =>
    have one : [t].filterMap Token.reference? = t.reference?.toList := by
      cases h : t.reference? <;> simp [h]
    simpa [List.foldl_append, List.filterMap_append, one] using ih.addReference t

theorem firsts_references (e : Expression) : Firsts e.references e.occurrences :=
  firsts_foldl e.tokens

theorem mem_occurrences {e : Expression} {v : Variable} :
    v ∈ e.occurrences ↔ .reference v ∈ e.tokens := by
  simp only [occurrences, List.mem_filterMap]
  constructor
  · rintro ⟨t, member, known⟩
    cases t with
    | reference w =>
      obtain rfl := Option.some.inj known
      exact member
    | operand _ _ => cases known
    | operator _ => cases known
  · intro member
    exact ⟨.reference v, member, rfl⟩

theorem mem_references_iff {e : Expression} {v : Variable} :
    v ∈ e.references ↔ .reference v ∈ e.tokens := by
  rw [(firsts_references e).mem_iff, mem_occurrences]

theorem mem_references {e : Expression} {v : Variable} (occurs : .reference v ∈ e.tokens) :
    v ∈ e.references := mem_references_iff.mpr occurs

theorem exists_read {raw : List String} {family : Family} {kind : OperandKind}
    {vars : VariableKind} {e : Expression} (built : ofTokens raw family kind vars = .ok e)
    {v : Variable} (listed : v ∈ e.references) : ∃ r ∈ raw, vars.read r = .ok v := by
  obtain ⟨r, given, classified⟩ := classified_of_mem built (mem_references_iff.mp listed)
  rcases classify_eq_ok classified with ⟨_, same, _⟩ | ⟨_, same, read⟩ | ⟨_, same, _⟩
  · cases same
  · cases same
    exact ⟨r, given, read⟩
  · cases same

/-! ### Runs over two containers -/

section

variable {c d : Container} {kind : OperandKind}

theorem resolve_congr {v : Variable} (alike : c.lookup v.key = d.lookup v.key) :
    resolve kind c v = resolve kind d v := by
  simp only [resolve, alike]

theorem tokenMoves_congr {t : Token}
    (alike : ∀ v, t = .reference v → c.lookup v.key = d.lookup v.key) :
    tokenMoves kind c t = tokenMoves kind d t := by
  cases t with
  | reference v => simp only [tokenMoves, resolve_congr (alike v rfl)]
  | operand value text => rfl
  | operator op => rfl

theorem moves_congr {ts : List Token}
    (alike : ∀ v, .reference v ∈ ts → c.lookup v.key = d.lookup v.key) :
    moves kind c ts = moves kind d ts := by
  induction ts with
  | nil => rfl
  | cons t ts ih =>
    have first : tokenMoves kind c t = tokenMoves kind d t :=
      tokenMoves_congr fun v h => alike v (h ▸ List.mem_cons_self)
    simp only [moves, first, ih fun v occurs => alike v (List.mem_cons_of_mem t occurs)]

theorem run_congr {e : Expression} (alike : ∀ v ∈ e.references, c.lookup v.key = d.lookup v.key) :
    e.moments c = e.moments d ∧ e.run c = e.run d := by
  have same : moves e.kind c e.tokens = moves e.kind d e.tokens :=
    moves_congr fun v occurs => alike v (mem_references occurs)
  constructor
  · simp only [moments, same]
  · simp only [run, ← action_moves, same]

theorem evaluate_congr {e : Expression}
    (alike : ∀ v ∈ e.references, c.lookup v.key = d.lookup v.key) :
    e.evaluate c = e.evaluate d := by
  simp only [evaluate, (run_congr alike).2]

end

/-- The variables of an expression are all that an evaluation reads: each is listed once, and two
containers with the same answers for them are not told apart at any moment of the run. -/
theorem evaluate_reads_references (e : Expression) :
    (∀ v, v ∈ e.references ↔ .reference v ∈ e.tokens) ∧ e.references.Nodup ∧
      (e.references.Pairwise fun v w => e.occurrences.idxOf v < e.occurrences.idxOf w) ∧
      (∀ c d : Container, (∀ v ∈ e.references, c.lookup v.key = d.lookup v.key) →
        e.moments c = e.moments d ∧ e.run c = e.run d ∧ e.evaluate c = e.evaluate d) ∧
      (e.references = [] → ∀ c d : Container, e.evaluate c = e.evaluate d) := by
  have firsts := firsts_references e
  refine ⟨fun v => mem_references_iff, firsts.nodup, firsts.ordered, ?_, ?_⟩
  · intro c d alike
    obtain ⟨between, outcomes⟩ := run_congr alike
    exact ⟨between, outcomes, evaluate_congr alike⟩
  · intro none c d
    apply evaluate_congr
    simp [none]

/-- A mapping and a row under labels, which differ in all but the two values asked for. -/
theorem evaluate_reads_references_of_row :
    ∃ e, ofTokens ["$b", "$a", "$b", "-", "+"] .integer (.numeric .int8) .name = .ok e ∧
      e.references = [.name "b", .name "a"] ∧
      ∃ c d, c = .keyed [(.text "a", .int 1), (.text "b", .int 7), (.text "c", .none)] ∧
        d = .labelled [(.text "b", .int 7), (.int 0, .text "x"), (.text "a", .int 1)] ∧
        e.moments c = e.moments d ∧ e.evaluate c = .ok (.word .int8 1) := by
  let e : Expression :=
    ⟨[.reference (.name "b"), .reference (.name "a"), .reference (.name "b"),
      .operator (.integer (.binary .sub)), .operator (.integer (.binary .add))], 3,
      .numeric .int8, .integer, .name⟩
  let c : Container := .keyed [(.text "a", .int 1), (.text "b", .int 7), (.text "c", .none)]
  let d : Container := .labelled [(.text "b", .int 7), (.int 0, .text "x"), (.text "a", .int 1)]
  have built :
      ofTokens ["$b", "$a", "$b", "-", "+"] .integer (.numeric .int8) .name = .ok e := by
    with_unfolding_all rfl
  have references : e.references = [.name "b", .name "a"] := by decide
  obtain ⟨_, _, _, reads, _⟩ := evaluate_reads_references e
  have alike : ∀ v ∈ e.references, c.lookup v.key = d.lookup v.key := by
    rw [references]
    simp only [List.forall_mem_cons, List.not_mem_nil, IsEmpty.forall_iff, implies_true, and_true]
    exact ⟨rfl, rfl⟩
  obtain ⟨between, _, outcomes⟩ := reads c d alike
  refine ⟨e, built, references, c, d, rfl, rfl, between, ?_⟩
  rw [outcomes, evaluate_eq_runList]
  with_unfolding_all rfl

end Expression
end Postfix
