import Postfix.Formula.Frame
import Postfix.Proofs.Prelude

/-! The element type of a row takes in the values of every column.
One type widens another if it has all of its range, or all of its precision; mixing two types gives
one that widens both, so folding over the columns does. Words of 64 bits are the exception that is
counted in: among reals they get the precision of a double, which is less than their width. -/
namespace Postfix

namespace DType

/-- Among the values of the second type, those of the first keep their range and the precision that
is counted for them. -/
def Widens : DType → DType → Prop
  | _, object => True
  | flag, flag => True
  | word a, word b => b.minimum ≤ a.minimum ∧ a.maximum ≤ b.maximum
  | word a, float g => a.width.format.precision ≤ g.precision
  | float f, float g => f.precision ≤ g.precision
  | _, _ => False

instance (t u : DType) : Decidable (Widens t u) :=
  match t, u with
  | flag, object | word _, object | float _, object | object, object =>
    inferInstanceAs (Decidable True)
  | flag, flag => inferInstanceAs (Decidable True)
  | word _, word _ => inferInstanceAs (Decidable (_ ∧ _))
  | word _, float _ => inferInstanceAs (Decidable (_ ≤ _))
  | float _, float _ => inferInstanceAs (Decidable (_ ≤ _))
  | flag, word _ | flag, float _ | word _, flag | float _, flag | float _, word _ =>
    inferInstanceAs (Decidable False)
  | object, flag | object, word _ | object, float _ => inferInstanceAs (Decidable False)

theorem Widens.refl (t : DType) : Widens t t := by
  cases t with
  | word a => exact ⟨Int.le_refl _, Int.le_refl _⟩
  | float f => exact Nat.le_refl _
  | _ => trivial

theorem precision_mono {a b : WordType}
    (wider : b.minimum ≤ a.minimum ∧ a.maximum ≤ b.maximum) :
    a.width.format.precision ≤ b.width.format.precision := by
  obtain ⟨s, v⟩ := a
  obtain ⟨t, w⟩ := b
  revert wider
  cases s <;> cases t <;> cases v <;> cases w <;> decide

theorem Widens.trans {t u v : DType} (first : Widens t u) (second : Widens u v) : Widens t v := by
  cases v with
  | object => cases t <;> trivial
  | flag => cases u <;> first | exact second.elim | exact first
  | word c =>
    cases u with
    | word b =>
      cases t with
      | word a => exact ⟨Int.le_trans second.1 first.1, Int.le_trans first.2 second.2⟩
      | _ => exact first.elim
    | _ => exact second.elim
  | float h =>
    cases u with
    | word b =>
      cases t with
      | word a => exact Nat.le_trans (precision_mono first) second
      | _ => exact first.elim
    | float g =>
      cases t with
      | word a => exact Nat.le_trans first second
      | float f => exact Nat.le_trans first second
      | _ => exact first.elim
    | _ => exact second.elim

theorem max_precision (f g : Format) :
    f.precision ≤ (f.max g).precision ∧ g.precision ≤ (f.max g).precision := by
  cases f <;> cases g <;> decide

theorem join_word (a b : WordType) : Widens (word a) (a.join b) ∧ Widens (word b) (a.join b) := by
  obtain ⟨s, v⟩ := a
  obtain ⟨t, w⟩ := b
  cases s <;> cases t <;> cases v <;> cases w <;> decide

theorem widens_join (t u : DType) : Widens t (t.join u) ∧ Widens u (t.join u) := by
  cases t with
  | flag => cases u <;> exact ⟨trivial, trivial⟩
  | object => cases u <;> exact ⟨trivial, trivial⟩
  | word a =>
    cases u with
    | word b => exact join_word a b
    | float g => exact max_precision _ g
    | _ => exact ⟨trivial, trivial⟩
  | float f =>
    cases u with
    | word b => exact (max_precision _ f).symm
    | float g => exact max_precision f g
    | _ => exact ⟨trivial, trivial⟩

theorem widens_foldl_join (t : DType) (rest : List DType) :
    ∀ u ∈ t :: rest, Widens u (rest.foldl join t) := by
  induction rest generalizing t with
  | nil =>
    intro u hu
    obtain rfl := List.mem_singleton.mp hu
    exact .refl u
  | cons v rest ih =>
    have joined := ih (t.join v)
    have whole : Widens (t.join v) (rest.foldl join (t.join v)) := joined _ List.mem_cons_self
    intro u hu
    rcases List.mem_cons.mp hu with rfl | hu
    · exact (widens_join u v).1.trans whole
    · rcases List.mem_cons.mp hu with rfl | hu
      · exact (widens_join t u).2.trans whole
      · exact joined u (List.mem_cons_of_mem _ hu)

theorem precision_foldl_max (f : Format) (rest : List Format) :
    ∀ g ∈ f :: rest, g.precision ≤ (rest.foldl Format.max f).precision := by
  induction rest generalizing f with
  | nil =>
    intro g hg
    obtain rfl := List.mem_singleton.mp hg
    exact Nat.le_refl _
  | cons h rest ih =>
    have joined := ih (f.max h)
    have whole := joined _ List.mem_cons_self
    intro g hg
    rcases List.mem_cons.mp hg with rfl | hg
    · exact Nat.le_trans (max_precision g h).1 whole
    · rcases List.mem_cons.mp hg with rfl | hg
      · exact Nat.le_trans (max_precision f g).2 whole
      · exact joined g (List.mem_cons_of_mem _ hg)

theorem widens_of_format {t : DType} {f g : Format} (counted : t.format? = some f)
    (wider : f.precision ≤ g.precision) : Widens t (float g) := by
  cases t <;> cases counted
  · exact wider
  · exact wider

theorem widens_joinAll (ts : List DType) : ∀ t ∈ ts, Widens t (joinAll ts) := by
  cases ts with
  | nil => exact fun _ h => by cases h
  | cons t rest =>
    intro u hu
    rw [joinAll]
    split
    · rename_i f formats all
      split
      · obtain ⟨g, member, counted⟩ := Option.exists_of_mapM all hu
        exact widens_of_format counted (precision_foldl_max f formats g member)
      · exact widens_foldl_join t rest u hu
    · exact widens_foldl_join t rest u hu

end DType
end Postfix
