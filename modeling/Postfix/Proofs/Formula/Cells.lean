import Postfix.Expression
import Postfix.Proofs.Members
import Postfix.Proofs.Formula.RowType

/-! What a variable finds in a row of a frame.
The cells of a row go through its element type, and beside texts the missing ones become NaN; apart
from that a variable sees the columns under its name and no others. -/
namespace Postfix

namespace Value

def isText : Value → Bool
  | text _ => true
  | _ => false

def isMissing : Value → Bool
  | none => true
  | v => v.isNaN

end Value

inductive DType.Owns : DType → Value → Prop
  | flag (b : Bool) : Owns flag (.flag b)
  | word {t : WordType} {n : Int} (inside : t.holds n) : Owns (word t) (.word t n)
  | float {f : Format} {x : Binary} (canonical : x.Canonical f) : Owns (float f) (.float f x)
  | object {v : Value} (formed : v.IsWellFormed) : Owns object v

namespace Formula

structure Frame.IsTyped (f : Frame) : Prop where
  height : ∀ c ∈ f.columns, c.values.length = f.index.length
  typed : ∀ c ∈ f.columns, ∀ v ∈ c.values, c.dtype.Owns v

namespace Frame

def cell (f : Frame) (i : Nat) (c : Column) : Value :=
  c.dtype.among f.rowType (c.values[i]?.getD .none)

/-- The values of the row are texts, apart from missing ones. -/
def isTextRow (f : Frame) (i : Nat) : Bool :=
  (f.columns.any fun c => (f.cell i c).isText) &&
    f.columns.all fun c => (f.cell i c).isText || (f.cell i c).isMissing

def seen (f : Frame) (i : Nat) (c : Column) : Value :=
  if f.isTextRow i && !(f.cell i c).isText then .real .nan else f.cell i c

def named (f : Frame) (v : Variable) : List Column :=
  f.columns.filter fun c => Container.labelMatches v.key c.label

theorem mem_columns {f : Frame} {v : Variable} {c : Column} (named : c ∈ f.named v) :
    c ∈ f.columns :=
  List.mem_of_mem_filter named

end Frame

/-! ### Rows -/

/-- A value, or NaN in the place of one that is missing. -/
def Filled (v w : Value) : Prop := w = v ∨ (w = .real .nan ∧ (v = .none ∨ v.isNaN))

theorem alongTexts_eq (vs : List Value) :
    Value.alongTexts vs =
      if vs.any Value.isText && vs.all fun v => v.isText || v.isMissing then
        vs.map fun v => if v.isText then v else .real .nan
      else vs := rfl

theorem Frame.cells_eq (f : Frame) (i : Nat) : f.cells i = f.columns.map (f.seen i) := by
  have along : f.cells i = Value.alongTexts (f.columns.map (f.cell i)) := rfl
  rw [along, alongTexts_eq, List.any_map, List.all_map, List.map_map]
  change (if f.isTextRow i then _ else _) = _
  split
  · rename_i texts
    refine List.map_congr_left fun c _ => ?_
    simp only [seen, texts, Bool.true_and, Function.comp_apply]
    cases (f.cell i c).isText <;> rfl
  · rename_i other
    refine List.map_congr_left fun c _ => ?_
    simp only [seen, other, Bool.false_and, Bool.false_eq_true, if_false]

theorem Frame.filled_seen (f : Frame) (i : Nat) {c : Column} (member : c ∈ f.columns) :
    Filled (f.cell i c) (f.seen i c) := by
  unfold seen
  split
  · rename_i texts
    rw [Bool.and_eq_true, isTextRow, Bool.and_eq_true, List.all_eq_true, Bool.not_eq_true'] at texts
    have kept := texts.1.2 c member
    rw [texts.2, Bool.false_or] at kept
    refine .inr ⟨rfl, ?_⟩
    cases shape : f.cell i c <;> rw [shape] at kept <;> first | exact .inl rfl | exact .inr kept
  · exact .inl rfl

theorem Frame.row_lookup (f : Frame) (i : Nat) (v : Variable) :
    (f.row i).lookup v.key = .ok (Container.single ((f.named v).map (f.seen i))) := by
  have key : v.key.notKey? = none := by cases v <;> rfl
  have entries : (f.columns.map Column.label).zip (f.cells i) =
      f.columns.map fun c => (c.label, f.seen i c) := by
    rw [f.cells_eq, List.zip_map']
  simp only [Frame.row, Container.lookup, key, entries, List.filter_map, List.map_map, Frame.named]
  rfl

/-! ### Well-formed cells -/

theorem among_formed {own other : DType} {v : Value} (owned : own.Owns v)
    (wider : own.Widens other) : (own.among other v).IsWellFormed := by
  cases owned with
  | flag b =>
    cases other with
    | flag | object => trivial
    | _ => exact wider.elim
  | @word a n inside =>
    cases other with
    | flag => exact wider.elim
    | word b =>
      have inside : a.minimum ≤ n ∧ n ≤ a.maximum := by simpa [WordType.holds] using inside
      have : b.minimum ≤ n ∧ n ≤ b.maximum :=
        ⟨Int.le_trans wider.1 inside.1, Int.le_trans inside.2 wider.2⟩
      simpa [DType.among, DType.store, Value.toWord, Value.IsWellFormed, WordType.holds] using this
    | float g => exact g.canonical_ofInt n
    | object => trivial
  | @float f x _ =>
    cases other with
    | float g => exact g.canonical_ofBinary x
    | object => trivial
    | _ => exact wider.elim
  | object formed =>
    cases other with
    | object => exact formed
    | _ => exact wider.elim

theorem Frame.IsTyped.cell {f : Frame} (typed : f.IsTyped) {c : Column} (member : c ∈ f.columns)
    {i : Nat} (inside : i < f.index.length) :
    ∃ v, c.values[i]? = some v ∧ c.dtype.Owns v ∧ c.dtype.Widens f.rowType ∧
      f.cell i c = c.dtype.among f.rowType v := by
  have height := typed.height c member
  have present : c.values[i]? = some c.values[i] := List.getElem?_eq_getElem (by omega)
  refine ⟨c.values[i], present, typed.typed c member _ (List.getElem_mem _),
    DType.widens_joinAll _ _ (List.mem_map_of_mem member), ?_⟩
  rw [Frame.cell, present, Option.getD_some]

theorem Filled.formed {v w : Value} (filled : Filled v w) (formed : v.IsWellFormed) :
    w.IsWellFormed := by
  rcases filled with rfl | ⟨rfl, _⟩
  · exact formed
  · trivial

theorem found_eq_some {v w : Value} (found : Container.found v = some w) : v = w := by
  cases v <;> cases found <;> rfl

theorem single_eq_some {vs : List Value} {v : Value} (found : Container.single vs = some v) :
    vs = [v] ∨ v = .labelled := by
  match vs with
  | [] => cases found
  | [w] =>
    rw [found_eq_some found]
    exact .inl rfl
  | _ :: _ :: _ => cases found; exact .inr rfl

theorem Frame.IsTyped.lookup_formed {f : Frame} (typed : f.IsTyped) {i : Nat}
    (inside : i < f.index.length) (v : Variable) {value : Value}
    (found : (f.row i).lookup v.key = .ok (some value)) : value.IsWellFormed := by
  rw [f.row_lookup] at found
  rcases single_eq_some (Except.ok.inj found) with one | rfl
  · have member : value ∈ (f.named v).map (f.seen i) := by rw [one]; simp
    obtain ⟨c, named, rfl⟩ := List.mem_map.mp member
    have column := Frame.mem_columns named
    obtain ⟨_, _, owned, wider, cell⟩ := typed.cell column inside
    refine (f.filled_seen i column).formed ?_
    rw [cell]
    exact among_formed owned wider
  · trivial

end Formula
end Postfix
