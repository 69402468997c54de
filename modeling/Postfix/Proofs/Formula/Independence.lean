import Postfix.Proofs.Formula.Images
import Postfix.Proofs.Formula.Rows
import Postfix.Proofs.References

/-! The columns that a formula does not mention.
They have a say in the element type of the rows, and in what becomes of missing values; nothing else
of them is seen. So two frames with the same columns under the names of a formula give the same
series, if the cells in these columns are steady and the missing ones are filled alike. -/
namespace Postfix

/-- The same failure, or refusals of the same number in two forms. -/
inductive Failure.Matches (t : NumericType) : Failure → Failure → Prop
  | same (f : Failure) : Matches t f f
  | refused {name : String} {v w : Value} {c d : Refusal} (first : Refused t v c)
    (second : Refused t w d) (number : v.SameNumber w) :
    Matches t (.unfit name v t.name c) (.unfit name w t.name d)

def Agrees (t : NumericType) {α : Type} : Except Failure α → Except Failure α → Prop
  | .ok x, .ok y => x = y
  | .error f, .error g => f.Matches t g
  | _, _ => False

theorem Failure.Matches.isEvaluation {t : NumericType} {f g : Failure} (alike : f.Matches t g) :
    f.isEvaluation = g.isEvaluation := by
  cases alike <;> rfl

namespace Agrees

variable {t : NumericType} {α β : Type} {x y : Except Failure α}

theorem refl (x : Except Failure α) : Agrees t x x := by
  cases x with
  | ok a => rfl
  | error f => exact .same f

theorem bind (agree : Agrees t x y) {f g : α → Except Failure β}
    (later : ∀ a, Agrees t (f a) (g a)) :
    Agrees t (x.bind f) (y.bind g) := by
  cases x <;> cases y <;> first | exact agree.elim | skip
  · exact agree
  · obtain rfl := show _ = _ from agree
    exact later _

theorem map (agree : Agrees t x y) (f : α → β) : Agrees t (x.map f) (y.map f) := by
  cases x <;> cases y <;> first | exact agree.elim | skip
  · exact agree
  · exact congrArg f agree

end Agrees

namespace Expression

variable {t : NumericType} {c d : Container} {v : Variable}

end Expression

namespace Formula

open Expression

variable {t : NumericType}

section

variable {f g : Frame} {c : Column} {i : Nat}

end

/-! ### Rows -/

end Formula
end Postfix
