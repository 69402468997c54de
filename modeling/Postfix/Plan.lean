import Postfix.Expression

/-! The plan of an expression: for each token its text, its role and the depth of the stack after
it. As a text it has columns of fixed width and the greatest depth on the last line. -/
namespace Postfix

structure PlanRow where
  text : String
  role : Role
  depth : Int

namespace PlanRow

def padded (width : Nat) (s : String) : String :=
  s ++ String.ofList (List.replicate (width - s.length) ' ')

def line (width : Nat) (row : PlanRow) : String :=
  padded width row.text ++ "  " ++ padded 9 row.role.name ++ "  depth=" ++ Text.intText row.depth

end PlanRow

namespace Expression

def planRows (e : Expression) : List PlanRow :=
  e.tokens.zipWith (fun t depth => ⟨t.text, t.role, depth⟩) (Arity.depths e.tokens)

def planWidth (rows : List PlanRow) : Nat := rows.foldl (fun n row => max n row.text.length) 0

def plan (e : Expression) : String :=
  let rows := e.planRows
  "\n".intercalate
    (rows.map (PlanRow.line (planWidth rows)) ++ ["max_stack=" ++ Text.natText e.maxStack])

end Expression
end Postfix
