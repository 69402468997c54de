import Postfix.Proofs.Closure
import Postfix.Proofs.Lookup
import Postfix.Proofs.Formula.Gaps
import Postfix.Proofs.Formula.Preservation
import Postfix.Proofs.Formula.Reordering

/-! Frames whose columns are all of the operand type.
Nothing happens to the cells of such a frame on their way into a row: the row has the values of its
columns as they are, and none of them can be refused. So a row answers like the mapping from labels
to cells, and a formula over the frame gives what it gives for these mappings one by one. -/
namespace Postfix

/-! ### Rows of one element type -/

namespace DType

theorem join_self (t : DType) : t.join t = t := by
  cases t with
  | word w =>
    obtain ⟨s, w⟩ := w
    cases w <;> simp [join, WordType.join, Width.max]
  | float f => simp [join, Format.max]
  | _ => rfl

theorem mapM_format_replicate {t : DType} {f : Format} (counted : t.format? = some f) (n : Nat) :
    (List.replicate n t).mapM format? = some (List.replicate n f) := by
  induction n with
  | zero => rfl
  | succ n ih => rw [List.replicate_succ, List.mapM_cons, counted, ih]; rfl

theorem joinAll_replicate (t : DType) (n : Nat) : joinAll (t :: List.replicate n t) = t := by
  have joined := List.foldl_replicate t.join_self n
  rw [joinAll]
  split
  · rename_i f formats formatted
    split
    · rename_i floats
      cases t with
      | float g =>
        rw [← List.replicate_succ, mapM_format_replicate rfl] at formatted
        cases formatted
        exact congrArg float (List.foldl_replicate (by simp [Format.max]) n)
      | _ => simp [isFloat] at floats
    · exact joined
  · exact joined

theorem joinAll_of_forall_eq {t : DType} {ts : List DType} (some : ts ≠ [])
    (all : ∀ u ∈ ts, u = t) : joinAll ts = t := by
  obtain ⟨u, rest, rfl⟩ := List.exists_cons_of_ne_nil some
  obtain rfl := all u List.mem_cons_self
  rw [List.eq_replicate_of_mem fun v hv => all v (List.mem_cons_of_mem u hv), joinAll_replicate]

theorem Owns.member {t : NumericType} {v : Value} (owned : t.dtype.Owns v) : t.Member v := by
  cases t with
  | word w =>
    cases owned with
    | word inside => exact ⟨rfl, inside⟩
  | float f =>
    cases owned with
    | float canonical => exact ⟨rfl, canonical⟩

end DType

theorem NumericType.Member.not_escapes {t : NumericType} {v : Value} (member : t.Member v)
    (f : Fault) : ¬ Escapes t v f := by
  intro escapes
  have taken := coerce_of_owns member.owns
  cases escapes with
  | overflow beyond => cases taken.symm.trans (coerce_overflows beyond)
  | unwritten refused => cases taken.symm.trans refused

namespace Expression

theorem exists_name {raw : List String} {family : Family} {kind : OperandKind} {e : Expression}
    (built : ofTokens raw family kind .name = .ok e) {v : Variable} (listed : v ∈ e.references) :
    ∃ s, v = .name s := by
  obtain ⟨r, _, read⟩ := exists_read built listed
  obtain ⟨cs, _, _, rfl⟩ := readName_iff.mp read
  exact ⟨_, rfl⟩

end Expression

namespace Formula

open Container

/-- The columns are of the one type, under texts that are all different. -/
structure Frame.IsUniform (f : Frame) (t : NumericType) : Prop where
  typed : f.IsTyped
  dtype : ∀ c ∈ f.columns, c.dtype = t.dtype
  texts : ∀ c ∈ f.columns, ∃ s, c.label = .text s
  apart : (f.columns.map Column.label).Nodup

def Frame.entries (f : Frame) (i : Nat) : List (Value × Value) :=
  f.columns.map fun c => (c.label, c.values[i]?.getD .none)

namespace Frame.IsUniform

variable {f : Frame} {t : NumericType} {i : Nat}

theorem cell (uniform : f.IsUniform t) (inside : i < f.index.length) {c : Column}
    (member : c ∈ f.columns) :
    t.Member (c.values[i]?.getD .none) ∧ f.cell i c = c.values[i]?.getD .none := by
  obtain ⟨v, present, owned, _, cell⟩ := uniform.typed.cell member inside
  have rowType : f.rowType = t.dtype := by
    refine DType.joinAll_of_forall_eq (List.ne_nil_of_mem (List.mem_map_of_mem member)) ?_
    intro u hu
    obtain ⟨d, hd, rfl⟩ := List.mem_map.mp hu
    exact uniform.dtype d hd
  rw [uniform.dtype c member] at owned
  have kept : t.dtype.among t.dtype v = v := by
    refine Eq.trans ?_ owned.member.store
    cases t <;> rfl
  rw [present, Option.getD_some, cell, uniform.dtype c member, rowType]
  exact ⟨owned.member, kept⟩

theorem seen (uniform : f.IsUniform t) (inside : i < f.index.length) {c : Column}
    (member : c ∈ f.columns) : f.seen i c = c.values[i]?.getD .none := by
  have noText : f.isTextRow i = false := by
    rw [isTextRow, Bool.and_eq_false_iff, List.any_eq_false]
    refine .inl fun d hd => ?_
    obtain ⟨value, cell⟩ := uniform.cell inside hd
    rw [cell]
    cases t with
    | word w =>
      obtain ⟨n, shape, _⟩ := NumericType.member_word.mp value
      rw [shape]
      exact Bool.false_ne_true
    | float g =>
      obtain ⟨x, shape, _⟩ := NumericType.member_float.mp value
      rw [shape]
      exact Bool.false_ne_true
  rw [Frame.seen, noText, Bool.false_and, if_neg Bool.false_ne_true,
    (uniform.cell inside member).2]

theorem row (uniform : f.IsUniform t) (inside : i < f.index.length) :
    f.row i = .labelled (f.entries i) := by
  rw [Frame.row, f.cells_eq, List.zip_map', entries]
  refine congrArg labelled (List.map_congr_left fun c member => ?_)
  rw [uniform.seen inside member]

theorem lookup (uniform : f.IsUniform t) (inside : i < f.index.length) (s : String) :
    (f.row i).lookup (.text s) = (keyed (f.entries i)).lookup (.text s) := by
  rw [uniform.row inside]
  refine (keyed_eq_labelled rfl ?_ ?_).symm
  · intro p member
    obtain ⟨c, hc, rfl⟩ := List.mem_map.mp member
    obtain ⟨name, label⟩ := uniform.texts c hc
    simp only [label, labelMatches, Value.same_text, eq_comm]
  · refine List.pairwise_map.mpr ((List.pairwise_map.mp uniform.apart).imp_of_mem ?_)
    rintro c d hc hd differ ⟨first, second⟩
    obtain ⟨name, label⟩ := uniform.texts c hc
    obtain ⟨name', label'⟩ := uniform.texts d hd
    simp only [label, label', Value.same_text, decide_eq_true_eq] at first second
    exact differ (by rw [label, label', first, second])

theorem member_of_lookup (uniform : f.IsUniform t) (inside : i < f.index.length) {s : String}
    {value : Value} (found : (f.row i).lookup (.text s) = .ok (some value)) : t.Member value := by
  rw [uniform.lookup inside, keyed_lookup rfl] at found
  obtain ⟨p, last, stored⟩ := Option.bind_eq_some_iff.mp (Except.ok.inj found)
  obtain ⟨c, member, rfl⟩ :=
    List.mem_map.mp (List.mem_of_mem_filter (List.mem_of_getLast? last))
  have value := (uniform.cell inside member).1
  have same : c.values[i]?.getD .none = _ := found_eq_some stored
  rwa [same] at value

section

variable {raw : List String} {family : Family} {e : Expression}
  (built : Expression.ofTokens raw family (.numeric t) .name = .ok e)

include built

theorem contained (uniform : f.IsUniform t) (standard : family.IsStandard)
    (inside : i < f.index.length) (failure : Failure)
    (failed : e.evaluate (f.row i) = .error failure) : failure.isEvaluation := by
  have accepted := (Expression.ofTokens_eq_ok.mp built).1
  refine Expression.row_contained (standard.paired accepted .name) built ?_ failure failed
  rintro ⟨v, listed, value, fault, found, escapes⟩
  obtain ⟨s, rfl⟩ := Expression.exists_name built listed
  exact (uniform.member_of_lookup inside found).not_escapes fault escapes

theorem members (uniform : f.IsUniform t) :
    ∀ i < f.index.length, ∀ v, e.evaluate (f.row i) = .ok v → t.Member v := fun _ inside _ =>
  Expression.evaluate_member built fun w _ _ => uniform.typed.lookup_formed inside w

end

end Frame.IsUniform

end Formula
end Postfix
