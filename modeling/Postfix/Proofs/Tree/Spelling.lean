import Mathlib.Data.Finset.Lattice.Fold
import Mathlib.Data.Fintype.Basic
import Mathlib.Data.List.OfFn
import Mathlib.Order.Lattice.Nat
import Postfix.Proofs.Balance

/-! Postfix notation as the spelling of trees.
A token stands over as many trees as it needs values: operands and variables over none, an operator
over one for each of its operands. The spelling of a tree is its postorder. The arity check reads
counts only, but for operators that generate one value each it accepts exactly the spellings, its
depth is the depth of the tree, and the run of the tokens is the evaluation of the tree from left
to right. Nothing is said of operators that generate more, such as an exchange of two values. -/
namespace Postfix

inductive Tree
  | node (root : Token) (children : Fin root.needed → Tree)

def SingleValued (ts : List Token) : Prop := ∀ op, .operator op ∈ ts → op.generated = 1

namespace SingleValued

theorem left {ss ts : List Token} (single : SingleValued (ss ++ ts)) : SingleValued ss :=
  fun op member => single op (List.mem_append_left ts member)

theorem right {ss ts : List Token} (single : SingleValued (ss ++ ts)) : SingleValued ts :=
  fun op member => single op (List.mem_append_right ss member)

end SingleValued

theorem Arity.step_single {balance : Nat} {t : Token} (single : SingleValued [t]) :
    step balance t = if balance < t.needed then none else some (balance - t.needed + 1) := by
  have one : t.generated = 1 := by
    cases t with
    | operator op => exact single op (by simp)
    | operand value text => rfl
    | reference v => rfl
  rw [step_eq, one]

namespace Tree

def root : Tree → Token
  | node t _ => t

def children : Tree → List Tree
  | node _ cs => List.ofFn cs

def postorder : Tree → List Token
  | node t cs => (List.ofFn fun i => (cs i).postorder).flatten ++ [t]

def spelling (Ts : List Tree) : List Token := Ts.flatMap postorder

/-- The greatest number of values at once when the tree is worked out from left to right: while it
is the turn of a child, the values of the children before it wait. -/
def depth : Tree → Nat
  | node t cs => if t.needed = 0 then 1 else Finset.univ.sup fun i => i.val + (cs i).depth

@[simp] theorem length_children (T : Tree) : T.children.length = T.root.needed := by
  cases T with
  | node t cs => simp [children, root]

theorem postorder_eq (T : Tree) : T.postorder = spelling T.children ++ [T.root] := by
  cases T with
  | node t cs => simp [postorder, spelling, children, root, List.flatMap_def, Function.comp_def]

@[simp] theorem spelling_nil : spelling [] = [] := rfl

@[simp] theorem spelling_cons (T : Tree) (Ts : List Tree) :
    spelling (T :: Ts) = T.postorder ++ spelling Ts := rfl

@[simp] theorem spelling_append (Ts Us : List Tree) :
    spelling (Ts ++ Us) = spelling Ts ++ spelling Us := by
  simp [spelling]

theorem singleValued_of_mem {Ts : List Tree} (single : SingleValued (spelling Ts)) {T : Tree}
    (member : T ∈ Ts) : SingleValued T.postorder :=
  fun op h => single op (List.mem_flatMap.mpr ⟨T, member, h⟩)

theorem children_induction {P : Tree → Prop} (step : ∀ T : Tree, (∀ C ∈ T.children, P C) → P T)
    (T : Tree) : P T := by
  induction T with
  | node t cs ih =>
    apply step
    intro C member
    obtain ⟨i, rfl⟩ := List.mem_ofFn.mp member
    exact ih i

/-! ### One spelling, one tree -/

theorem eq_of_children {T U : Tree} (roots : T.root = U.root) (children : T.children = U.children) :
    T = U := by
  cases T with
  | node t cs =>
    cases U with
    | node u ds =>
      cases (show t = u from roots)
      rw [List.ofFn_injective (show List.ofFn cs = List.ofFn ds from children)]

/-- Trees are told apart by their spelling, also when several stand in a row: the last token is the
root of the last tree, and says how many of the trees before it are its children. -/
theorem spelling_injective {ts : List Token} {Ts Us : List Tree} (spelled : spelling Ts = ts)
    (alike : spelling Us = ts) : Ts = Us := by
  induction ts using List.reverseRecOn generalizing Ts Us with
  | nil =>
    have empty {Vs : List Tree} (h : spelling Vs = []) : Vs = [] := by
      cases Vs with
      | nil => rfl
      | cons V Vs => simp [postorder_eq V] at h
    rw [empty spelled, empty alike]
  | append_singleton ts t ih =>
    have last {Vs : List Tree} (h : spelling Vs = ts ++ [t]) :
        ∃ Ws V, Vs = Ws ++ [V] ∧ spelling (Ws ++ V.children) = ts ∧ V.root = t := by
      rcases List.eq_nil_or_concat Vs with rfl | ⟨Ws, V, rfl⟩
      · simp at h
      · refine ⟨Ws, V, by simp, ?_⟩
        simp only [List.concat_eq_append, spelling_append, spelling_cons, spelling_nil,
          List.append_nil, postorder_eq V, ← List.append_assoc] at h
        obtain ⟨before, roots⟩ := List.append_inj' h rfl
        exact ⟨by rw [spelling_append]; exact before, List.singleton_injective roots⟩
    obtain ⟨Ts, T, rfl, before, rootT⟩ := last spelled
    obtain ⟨Us, U, rfl, before', rootU⟩ := last alike
    have counts : T.children.length = U.children.length := by simp [rootT, rootU]
    obtain ⟨rfl, children⟩ := List.append_inj' (ih before before') counts
    rw [eq_of_children (rootT.trans rootU.symm) children]

theorem postorder_injective {T U : Tree} (same : T.postorder = U.postorder) : T = U := by
  have spelled : spelling [T] = T.postorder := by simp
  have forests : [T] = [U] := spelling_injective spelled (by simp [same])
  exact List.singleton_injective forests

/-! ### What the arity check accepts -/

theorem depth_pos (T : Tree) : 0 < T.depth := by
  induction T with
  | node t cs ih =>
    unfold depth
    split
    · exact Nat.one_pos
    · rename_i some
      have first : 0 < t.needed := Nat.pos_of_ne_zero some
      refine Nat.lt_of_lt_of_le (ih ⟨0, first⟩) ?_
      have bound := Finset.le_sup (f := fun i : Fin t.needed => i.val + (cs i).depth)
        (Finset.mem_univ ⟨0, first⟩)
      simpa using bound

/-- The greatest number of values while trees are worked out one after the other, above `balance`
values and with `depth` reached before. -/
def peak (balance depth : Nat) : List Tree → Nat
  | [] => depth
  | T :: Ts => peak (balance + 1) (max depth (balance + T.depth)) Ts

theorem peak_le_iff {balance depth bound : Nat} {Ts : List Tree} :
    peak balance depth Ts ≤ bound ↔
      depth ≤ bound ∧ ∀ i (h : i < Ts.length), balance + i + Ts[i].depth ≤ bound := by
  induction Ts generalizing balance depth with
  | nil => simp [peak]
  | cons T Ts ih =>
    rw [peak, ih, Nat.max_le, and_assoc]
    refine and_congr_right fun _ => ?_
    constructor
    · rintro ⟨first, rest⟩ i h
      cases i with
      | zero => exact first
      | succ i =>
        have := rest i (by simpa using h)
        simp only [List.getElem_cons_succ]
        omega
    · intro all
      refine ⟨all 0 (by simp), fun i h => ?_⟩
      have := all (i + 1) (by simpa using h)
      simp only [List.getElem_cons_succ] at this
      omega

theorem depth_le_iff {T : Tree} {bound : Nat} :
    T.depth ≤ bound ↔
      1 ≤ bound ∧ ∀ i (h : i < T.children.length), i + T.children[i].depth ≤ bound := by
  constructor
  · intro le
    refine ⟨Nat.le_trans T.depth_pos le, ?_⟩
    cases T with
    | node t cs =>
      intro i h
      have inside : i < t.needed := by simpa [children] using h
      have some : t.needed ≠ 0 := by omega
      rw [depth, if_neg some] at le
      have each := Finset.sup_le_iff.mp le ⟨i, inside⟩ (Finset.mem_univ _)
      simpa [children] using each
  · rintro ⟨positive, each⟩
    cases T with
    | node t cs =>
      rw [depth]
      split
      · exact positive
      · refine Finset.sup_le fun i _ => ?_
        have := each i.val (by simp [children])
        simpa [children] using this

theorem max_peak_children (T : Tree) (balance depth : Nat) :
    max (peak balance depth T.children) (balance + 1) = max depth (balance + T.depth) := by
  refine eq_of_forall_ge_iff fun bound => ?_
  rw [Nat.max_le, Nat.max_le, peak_le_iff, and_assoc]
  refine and_congr_right fun _ => ?_
  rcases Nat.lt_or_ge bound balance with low | high
  · have := T.depth_pos
    constructor <;> intro h <;> omega
  · obtain ⟨room, rfl⟩ := Nat.exists_eq_add_of_le high
    rw [Nat.add_le_add_iff_left, Nat.add_le_add_iff_left, depth_le_iff, and_comm]
    refine and_congr_right fun _ => forall₂_congr fun i h => ?_
    rw [Nat.add_assoc, Nat.add_le_add_iff_left]

/-- The check goes on behind the spelling of the tree with one value more, and has gone as deep as
the tree. -/
def Checks (T : Tree) : Prop :=
  ∀ position balance depth rest,
    Arity.checkFrom position balance depth (T.postorder ++ rest) =
      Arity.checkFrom (position + T.postorder.length) (balance + 1)
        (max depth (balance + T.depth)) rest

theorem checkFrom_spelling {Ts : List Tree} (each : ∀ T ∈ Ts, Checks T)
    (position balance depth : Nat) (rest : List Token) :
    Arity.checkFrom position balance depth (spelling Ts ++ rest) =
      Arity.checkFrom (position + (spelling Ts).length) (balance + Ts.length)
        (peak balance depth Ts) rest := by
  induction Ts generalizing position balance depth with
  | nil => rfl
  | cons T Ts ih =>
    rw [spelling_cons, List.append_assoc, each T List.mem_cons_self,
      ih fun U member => each U (List.mem_cons_of_mem T member)]
    simp only [peak, List.length_append, List.length_cons]
    congr 1 <;> omega

theorem checks (T : Tree) (single : SingleValued T.postorder) : Checks T := by
  induction T using children_induction with
  | step T ih =>
    rw [postorder_eq] at single
    have each : ∀ C ∈ T.children, Checks C :=
      fun C member => ih C member (singleValued_of_mem single.left member)
    intro position balance depth rest
    have enough : ¬ balance + T.root.needed < T.root.needed := by simp
    rw [postorder_eq, List.append_assoc, checkFrom_spelling each, length_children,
      List.singleton_append, Arity.checkFrom, Arity.step_single single.right, if_neg enough,
      Nat.add_sub_cancel]
    dsimp only
    rw [max_peak_children, List.length_append, List.length_singleton, Nat.add_assoc]

theorem check_postorder (T : Tree) (single : SingleValued T.postorder) :
    Arity.check T.postorder = .ok T.depth := by
  have whole := T.checks single 0 0 0 []
  rw [List.append_nil] at whole
  rw [Arity.check, whole]
  simp [Arity.checkFrom, Arity.finish]

/-- Tokens that always find their operands spell one tree for each value that they leave. -/
theorem exists_spelling {ts : List Token} (single : SingleValued ts) {balance : Nat}
    (size : Arity.stackSize ts = some balance) :
    ∃ Ts : List Tree, Ts.length = balance ∧ spelling Ts = ts := by
  induction ts using List.reverseRecOn generalizing balance with
  | nil =>
    cases size
    exact ⟨[], rfl, rfl⟩
  | append_singleton ts t ih =>
    rw [Arity.stackSize, Arity.stackSizeFrom_append, Option.bind_eq_some_iff] at size
    obtain ⟨before, sized, moved⟩ := size
    obtain ⟨Ts, rfl, rfl⟩ := ih single.left sized
    rw [Arity.stackSizeFrom, Arity.step_single single.right] at moved
    split at moved
    · cases moved
    · rename_i enough
      cases moved
      -- The token takes the last trees as its children.
      have counted : (Ts.drop (Ts.length - t.needed)).length = t.needed := by
        rw [List.length_drop]
        omega
      let T : Tree := .node t fun i =>
        (Ts.drop (Ts.length - t.needed)).get (i.cast counted.symm)
      have children : T.children = Ts.drop (Ts.length - t.needed) := by
        apply List.ext_getElem
        · rw [length_children, counted]
          rfl
        · intro i _ _
          simp [T, Tree.children]
      refine ⟨Ts.take (Ts.length - t.needed) ++ [T], ?_, ?_⟩
      · simp
      · rw [spelling_append, spelling_cons, spelling_nil, List.append_nil, postorder_eq, children,
          ← List.append_assoc, ← spelling_append, List.take_append_drop]
        rfl

theorem exists_postorder {ts : List Token} (single : SingleValued ts) {depth : Nat}
    (checked : Arity.check ts = .ok depth) : ∃ T : Tree, T.postorder = ts := by
  obtain ⟨Ts, one, spelled⟩ :=
    exists_spelling single (Arity.stackSizeFrom_of_checkFrom checked)
  obtain ⟨T, rfl⟩ := List.length_eq_one_iff.mp one
  exact ⟨T, by simpa using spelled⟩

end Tree
end Postfix
