import Postfix.Proofs.Balance
import Postfix.Proofs.Moves

/-! The planned depth of the stack against the stacks that a run goes through.
The plan counts values after whole tokens, the run moves them one by one, and may end in the middle
of an operator. Still no stack of the run holds more than was planned, since an operator takes all
its operands before it gives anything back, and a run that comes to its end has held as much. For
this the operators have to keep their word; the values themselves play no part. -/
namespace Postfix

namespace Moves

variable {α β : Type} {bound : Nat}

/-- From a stack of `n` values, no value is taken that is not there and none is put above the bound;
where the moves end, the number of values is as stated. -/
def Within (bound : Nat) (final : Nat → Prop) : Moves α → Nat → Prop
  | done _, n => final n
  | fail _, _ => True
  | pop next, n => 0 < n ∧ ∀ v, (next v).Within bound final (n - 1)
  | push _ next, n => n < bound ∧ next.Within bound final (n + 1)

theorem Within.mono {final after : Nat → Prop} (weaker : ∀ k, final k → after k) {m : Moves α}
    {n : Nat} (within : m.Within bound final n) : m.Within bound after n := by
  induction m generalizing n with
  | done a => exact weaker n within
  | fail e => trivial
  | pop next ih => exact ⟨within.1, fun v => ih v (within.2 v)⟩
  | push v next ih => exact ⟨within.1, ih within.2⟩

theorem Within.bind {middle final : Nat → Prop} {m : Moves α} {f : α → Moves β} {n : Nat}
    (first : m.Within bound middle n) (second : ∀ k, middle k → ∀ a, (f a).Within bound final k) :
    (m.bind f).Within bound final n := by
  induction m generalizing n with
  | done a => exact second n first a
  | fail e => trivial
  | pop next ih => exact ⟨first.1, fun v => ih v (first.2 v)⟩
  | push v next ih => exact ⟨first.1, ih first.2⟩

theorem within_give {final : Nat → Prop} {n : Nat} (r : Except Failure Value) (room : n < bound)
    (ends : final (n + 1)) : (give r).Within bound final n := by
  cases r with
  | ok v => exact ⟨room, ends⟩
  | error e => trivial

/-- What lies below the values that the moves begin with stays where it is at every moment. Above it
there are never more values than the bound, and the buffer grows no larger than to hold them. -/
theorem Within.moments_above {final : Nat → Prop} {m : Moves α} {s : Stack Value}
    {above below : List Value} (holds : s.Holds (above ++ below))
    (within : m.Within bound final above.length) (room : above.length ≤ bound) :
    ∀ t ∈ m.moments s, (∃ above, above.length ≤ bound ∧ t.Holds (above ++ below)) ∧
      t.capacity ≤ max s.capacity (bound + below.length) := by
  have here : (∃ above, above.length ≤ bound ∧ s.Holds (above ++ below)) ∧
      s.capacity ≤ max s.capacity (bound + below.length) :=
    ⟨⟨above, room, holds⟩, Nat.le_max_left ..⟩
  induction m generalizing s above with
  | done a => simpa [Moves.moments] using here
  | fail e => simpa [Moves.moments] using here
  | pop next ih =>
    obtain ⟨v, above, rfl⟩ := List.exists_cons_of_length_pos within.1
    obtain ⟨t, popped, ht⟩ := holds.pop_cons
    have same : t.capacity = s.capacity := by
      have := s.capacity_pop
      rwa [popped] at this
    have fewer : above.length ≤ bound := Nat.le_trans (Nat.le_succ _) room
    have rest := ih v ht (within.2 v) fewer ⟨⟨above, fewer, ht⟩, Nat.le_max_left ..⟩
    rw [same] at rest
    intro u hu
    simp only [Moves.moments, popped, List.mem_cons] at hu
    rcases hu with rfl | hu
    · exact here
    · exact rest u hu
  | push v next ih =>
    have more : (v :: above).length ≤ bound := within.1
    have pushed : (s.push v).Holds (v :: above ++ below) := holds.push v
    have rest := ih pushed within.2 more ⟨⟨v :: above, more, pushed⟩, Nat.le_max_left ..⟩
    have grown : max (s.push v).capacity (bound + below.length) =
        max s.capacity (bound + below.length) := by
      rw [holds.capacity_push, List.length_append]
      have := within.1
      omega
    rw [grown] at rest
    intro u hu
    rcases List.mem_cons.mp hu with rfl | hu
    · exact here
    · exact rest u hu

theorem Within.moments {final : Nat → Prop} {m : Moves α} {s : Stack Value} {vs : List Value}
    (holds : s.Holds vs) (within : m.Within bound final vs.length) (room : vs.length ≤ bound) :
    ∀ t ∈ m.moments s, t.toList.length ≤ bound ∧ t.capacity ≤ max s.capacity bound := by
  intro t member
  rw [← List.append_nil vs] at holds
  obtain ⟨⟨above, few, ht⟩, grown⟩ := within.moments_above holds room t member
  rw [List.append_nil] at ht
  exact ⟨ht.length_toList ▸ few, grown⟩

theorem capacity_le_of_mem_moments {m : Moves α} {s t : Stack Value} {vs : List Value}
    (holds : s.Holds vs) (member : t ∈ m.moments s) : s.capacity ≤ t.capacity := by
  induction m generalizing s vs with
  | done a => exact List.mem_singleton.mp member ▸ Nat.le_refl _
  | fail e => exact List.mem_singleton.mp member ▸ Nat.le_refl _
  | pop next ih =>
    match vs with
    | [] =>
      simp only [Moves.moments, holds.pop_nil] at member
      obtain rfl : t = s := by simpa using member
      exact Nat.le_refl _
    | v :: vs =>
      obtain ⟨u, popped, hu⟩ := holds.pop_cons
      have same := s.capacity_pop
      rw [popped] at same
      simp only [Moves.moments, popped, List.mem_cons] at member
      rcases member with rfl | member
      · exact Nat.le_refl _
      · exact same ▸ ih v hu member
  | push v next ih =>
    rcases List.mem_cons.mp member with rfl | member
    · exact Nat.le_refl _
    · have grown := holds.capacity_push v
      exact Nat.le_trans (grown ▸ Nat.le_max_left ..) (ih (holds.push v) member)

theorem Within.final {final : Nat → Prop} {m : Moves α} {s t : Stack Value} {vs : List Value}
    {a : α} (holds : s.Holds vs) (within : m.Within bound final vs.length)
    (ran : m.action.runOn s = (.ok a, t)) : ∃ ws, t.Holds ws ∧ final ws.length := by
  induction m generalizing s vs with
  | done b =>
    cases ran
    exact ⟨vs, holds, within⟩
  | fail e => cases ran
  | pop next ih =>
    match vs, within.1 with
    | v :: vs, _ =>
      obtain ⟨u, popped, hu⟩ := holds.pop_cons
      rw [action, Action.runOn_bind, Action.runOn_pop, popped] at ran
      exact ih v hu (within.2 v) ran
  | push v next ih => exact ih (holds.push v) within.2 ran

theorem mem_moments_start (m : Moves α) (s : Stack Value) : s ∈ m.moments s := by
  cases m with
  | pop next =>
    simp only [moments]
    split <;> simp
  | _ => simp [moments]

theorem mem_moments_end (m : Moves α) (s : Stack Value) : (m.action.runOn s).2 ∈ m.moments s := by
  induction m generalizing s with
  | done a => exact List.mem_singleton_self s
  | fail e => exact List.mem_singleton_self s
  | pop next ih =>
    rw [action, Action.runOn_bind, Action.runOn_pop, moments]
    rcases s.pop with ⟨_ | v, t⟩
    · simp
    · exact List.mem_cons_of_mem s (ih v t)
  | push v next ih => exact List.mem_cons_of_mem s (ih (s.push v))

theorem mem_moments_bind {m : Moves α} {f : α → Moves β} {s t u : Stack Value} {a : α}
    (ran : m.action.runOn s = (.ok a, t)) (later : u ∈ (f a).moments t) :
    u ∈ (m.bind f).moments s := by
  induction m generalizing s with
  | done b =>
    cases ran
    exact later
  | fail e => cases ran
  | pop next ih =>
    rw [action, Action.runOn_bind, Action.runOn_pop] at ran
    simp only [bind, moments]
    rcases popped : s.pop with ⟨_ | v, w⟩
    · rw [popped] at ran
      cases ran
    · rw [popped] at ran
      exact List.mem_cons_of_mem s (ih v ran)
  | push v next ih => exact List.mem_cons_of_mem s (ih ran)

end Moves

/-! ### Operators within the bound -/

section

variable {bound n : Nat} {dtype : Option DType}

open Moves

theorem Moves.within_popTwo {final : Nat → Prop} {next : Value → Value → Moves Unit}
    (enough : 2 ≤ n) (after : ∀ left right, (next left right).Within bound final (n - 2)) :
    (popTwo next).Within bound final n :=
  ⟨by omega, fun right => ⟨by omega, fun left => after left right⟩⟩

theorem Moves.within_combine {combine : Value → Value → Except Failure Value} (enough : 2 ≤ n)
    (room : n - 2 + 1 ≤ bound) :
    (popTwo fun left right => give (combine left right)).Within bound (· = n - 2 + 1) n :=
  within_popTwo enough fun _ _ => within_give _ room rfl

theorem Moves.within_transform {transform : Value → Except Failure Value} (enough : 1 ≤ n)
    (room : n - 1 + 1 ≤ bound) :
    (pop fun v => give (transform v)).Within bound (· = n - 1 + 1) n :=
  ⟨enough, fun _ => within_give _ room rfl⟩

/-- An exchange is at its full height again only at its end. -/
theorem Moves.within_swap (enough : 2 ≤ n) (room : n - 2 + 2 ≤ bound) :
    (popTwo fun left right => push right (push left (done ()))).Within bound (· = n - 2 + 2) n :=
  within_popTwo enough fun _ _ => ⟨by omega, ⟨by omega, rfl⟩⟩

theorem FloatOp.within_moves (op : FloatOp) (enough : op.arity.1 ≤ n)
    (room : n - op.arity.1 + op.arity.2 ≤ bound) :
    (op.moves dtype).Within bound (· = n - op.arity.1 + op.arity.2) n := by
  cases op with
  | binary op => exact within_combine enough room
  | unary op => exact within_transform enough room
  | swap => exact within_swap enough room
  | zero => exact ⟨room, rfl⟩
  | one => exact ⟨room, rfl⟩

theorem IntegerOp.within_moves (op : IntegerOp) (enough : op.arity.1 ≤ n)
    (room : n - op.arity.1 + op.arity.2 ≤ bound) :
    (op.moves dtype).Within bound (· = n - op.arity.1 + op.arity.2) n := by
  cases op with
  | binary op => exact within_combine enough room
  | neg => exact within_transform enough room
  | swap => exact within_swap enough room
  | zero => exact ⟨room, rfl⟩
  | one => exact ⟨room, rfl⟩

theorem TableOp.within_takeMoves (count : Nat) (enough : count ≤ n) :
    (takeMoves count).Within bound (· = n - count) n := by
  induction count generalizing n with
  | zero => rfl
  | succ count ih =>
    refine ⟨by omega, fun v => (ih (n := n - 1) (by omega)).bind ?_⟩
    rintro k rfl vs
    change n - 1 - count = n - (count + 1)
    omega

theorem TableOp.within_giveMoves (taken : List Value) (is : List Nat)
    (room : n + is.length ≤ bound) :
    (giveMoves dtype taken is).Within bound (· = n + is.length) n := by
  induction is generalizing n with
  | nil => rfl
  | cons i is ih =>
    rw [List.length_cons] at room
    simp only [giveMoves]
    cases output dtype taken i with
    | error f => trivial
    | ok v =>
      refine ⟨by omega, (ih (n := n + 1) (by omega)).mono ?_⟩
      rintro k rfl
      rw [List.length_cons]
      omega

theorem TableOp.within_moves {op : TableOp} (keeps : op.KeepsWord) (enough : op.needed ≤ n)
    (room : n - op.needed + op.generated ≤ bound) :
    (op.moves dtype).Within bound (· = n - op.needed + op.generated) n := by
  obtain ⟨pops, pushes⟩ := keeps
  rw [← pops] at enough room ⊢
  rw [← pushes] at room ⊢
  refine (within_takeMoves op.pops enough).bind ?_
  rintro k rfl taken
  have outputs : (giveMoves dtype taken (List.range op.pushes)).Within bound
      (· = n - op.pops + (List.range op.pushes).length) (n - op.pops) :=
    within_giveMoves taken _ (by simpa using room)
  simpa using outputs

theorem Operator.within_moves {op : Operator} (keeps : op.KeepsWord) (enough : op.needed ≤ n)
    (room : n - op.needed + op.generated ≤ bound) :
    (op.moves dtype).Within bound (· = n - op.needed + op.generated) n := by
  cases op with
  | float op => exact op.within_moves enough room
  | integer op => exact op.within_moves enough room
  | oneTwo op => exact within_combine enough room
  | table op => exact TableOp.within_moves keeps enough room

end

/-! ### The planned depth -/

namespace Arity

theorem eq_of_checkFrom_nil {position balance depth found : Nat}
    (checked : checkFrom position balance depth [] = .ok found) : found = depth := by
  simp only [checkFrom, finish] at checked
  split at checked
  · cases checked
  · split at checked
    · cases checked
    · exact (Except.ok.inj checked).symm

theorem checkFrom_cons_eq_ok {position balance depth found : Nat} {t : Token} {ts : List Token}
    (checked : checkFrom position balance depth (t :: ts) = .ok found) :
    ∃ next, step balance t = some next ∧
      checkFrom (position + 1) next (max depth next) ts = .ok found := by
  simp only [checkFrom] at checked
  split at checked
  · cases checked
  · rename_i next moved
    exact ⟨next, moved, checked⟩

theorem le_of_checkFrom {position balance depth found : Nat} {ts : List Token}
    (checked : checkFrom position balance depth ts = .ok found) : depth ≤ found := by
  induction ts generalizing position balance depth with
  | nil => exact Nat.le_of_eq (eq_of_checkFrom_nil checked).symm
  | cons t ts ih =>
    obtain ⟨next, _, checked⟩ := checkFrom_cons_eq_ok checked
    exact Nat.le_trans (Nat.le_max_left ..) (ih checked)

theorem exists_deepest {position balance depth found : Nat} {ts : List Token}
    (checked : checkFrom position balance depth ts = .ok found) :
    found = depth ∨
      ∃ done rest, ts = done ++ rest ∧ stackSizeFrom balance done = some found := by
  induction ts generalizing position balance depth with
  | nil => exact .inl (eq_of_checkFrom_nil checked)
  | cons t ts ih =>
    obtain ⟨next, moved, checked⟩ := checkFrom_cons_eq_ok checked
    rcases ih checked with deepest | ⟨done, rest, rfl, size⟩
    · rcases Nat.le_total next depth with lower | higher
      · exact .inl (by rw [deepest, Nat.max_eq_left lower])
      · refine .inr ⟨[t], ts, rfl, ?_⟩
        rw [deepest, Nat.max_eq_right higher]
        simp [stackSizeFrom, moved]
    · refine .inr ⟨t :: done, rest, rfl, ?_⟩
      simpa [stackSizeFrom, moved] using size

end Arity

namespace Expression

theorem within_tokenMoves {kind : OperandKind} {c : Container} {bound n next : Nat} {t : Token}
    (keeps : ∀ op, t = .operator op → op.KeepsWord) (moved : Arity.step n t = some next)
    (room : next ≤ bound) : (tokenMoves kind c t).Within bound (· = next) n := by
  cases t with
  | operator op =>
    obtain ⟨enough, rfl⟩ := Arity.step_operator_eq_some.mp moved
    exact Operator.within_moves (keeps op rfl) enough room
  | operand value text =>
    cases moved
    exact ⟨room, rfl⟩
  | reference v =>
    cases moved
    exact Moves.within_give _ room rfl

/-- Up to any token of a checked sequence the run is within the depth, and at the balance that the
check computed. -/
theorem within_moves {kind : OperandKind} {c : Container} {position balance depth found : Nat}
    {done rest : List Token} (keeps : ∀ op, .operator op ∈ done → op.KeepsWord)
    (checked : Arity.checkFrom position balance depth (done ++ rest) = .ok found) :
    (moves kind c done).Within found
      (fun k => Arity.stackSizeFrom balance done = some k) balance := by
  induction done generalizing position balance depth with
  | nil => rfl
  | cons t done ih =>
    obtain ⟨next, moved, checked⟩ := Arity.checkFrom_cons_eq_ok checked
    have room : next ≤ found :=
      Nat.le_trans (Nat.le_max_right ..) (Arity.le_of_checkFrom checked)
    have first : (tokenMoves kind c t).Within found (· = next) balance :=
      within_tokenMoves (fun op h => keeps op (by simp [h])) moved room
    refine first.bind ?_
    rintro k rfl _
    have later := ih (fun op h => keeps op (List.mem_cons_of_mem t h)) checked
    simpa [Arity.stackSizeFrom, moved] using later

theorem moves_append (kind : OperandKind) (c : Container) (ss ts : List Token) :
    moves kind c (ss ++ ts) = (moves kind c ss).bind fun _ => moves kind c ts := by
  induction ss with
  | nil => rfl
  | cons s ss ih => simp only [List.cons_append, moves, ih, Moves.bind_bind]

theorem performAll_split {kind : OperandKind} {c : Container} {done rest : List Token}
    {s t : Stack Value} (ran : (performAll kind c (done ++ rest)).runOn s = (.ok (), t)) :
    ∃ u, (performAll kind c done).runOn s = (.ok (), u) ∧
      (performAll kind c rest).runOn u = (.ok (), t) := by
  rw [← action_moves, moves_append, Moves.action_bind, Action.runOn_bind, action_moves,
    action_moves] at ran
  rcases first : (performAll kind c done).runOn s with ⟨_ | _, u⟩
  · rw [first] at ran
    cases ran
  · rw [first] at ran
    exact ⟨u, rfl, ran⟩

/-- Whether a run goes through does not depend on the capacity that it begins with. -/
theorem runs_of_evaluate {e : Expression} {c : Container} {v : Value}
    (evaluates : e.evaluate c = .ok v) (capacity : Nat) :
    ∃ t, (performAll e.kind c e.tokens).runOn (Stack.withCapacity capacity) = (.ok (), t) := by
  rw [evaluate_eq_runList] at evaluates
  have effects := effects_performAll e.kind c e.tokens []
  cases out : runList e.kind c e.tokens [] with
  | error f => rw [out] at evaluates; cases evaluates
  | ok vs =>
    obtain ⟨t, ran, _⟩ := effects.runs out (Stack.holds_withCapacity capacity)
    exact ⟨t, ran⟩

section

variable {family : Family} {kind : OperandKind} {vars : VariableKind} {raw : List String}
  {e : Expression} {c : Container}

theorem within_built (keeps : family.KeepsWord) (built : ofTokens raw family kind vars = .ok e)
    {done rest : List Token} (split : e.tokens = done ++ rest) :
    (moves e.kind c done).Within e.maxStack (fun k => Arity.stackSize done = some k) 0 := by
  have checked := (ofTokens_eq_ok.mp built).2.2.1
  rw [split] at checked
  refine within_moves (fun op h => keeps.operator (mem_operators built ?_)) checked
  rw [split]
  exact List.mem_append_left rest h

theorem exists_full_moment (keeps : family.KeepsWord)
    (built : ofTokens raw family kind vars = .ok e) {capacity : Nat} {t : Stack Value}
    (ran : (performAll e.kind c e.tokens).runOn (Stack.withCapacity capacity) = (.ok (), t)) :
    ∃ u ∈ (moves e.kind c e.tokens).moments (Stack.withCapacity capacity),
      u.toList.length = e.maxStack ∧ e.maxStack ≤ u.capacity ∧ u.capacity ≤ t.capacity := by
  have checked := (ofTokens_eq_ok.mp built).2.2.1
  obtain ⟨done, rest, split, size⟩ :
      ∃ done rest, e.tokens = done ++ rest ∧ Arity.stackSize done = some e.maxStack := by
    rcases Arity.exists_deepest checked with none | found
    · exact ⟨[], e.tokens, rfl, by rw [none]; rfl⟩
    · exact found
  rw [split] at ran
  obtain ⟨u, first, later⟩ := performAll_split ran
  have within := within_built (c := c) keeps built split
  have firstMoves := first
  rw [← action_moves] at firstMoves
  obtain ⟨vs, holds, sized⟩ :=
    within.final (Stack.holds_withCapacity capacity) firstMoves
  have deep : vs.length = e.maxStack := Option.some.inj (sized.symm.trans size)
  refine ⟨u, ?_, holds.length_toList.trans deep, deep ▸ holds.length_le, ?_⟩
  · rw [split, moves_append]
    exact Moves.mem_moments_bind firstMoves (Moves.mem_moments_start _ u)
  · rw [← action_moves] at later
    have last := Moves.mem_moments_end (moves e.kind c rest) u
    rw [later] at last
    exact Moves.capacity_le_of_mem_moments holds last

/-- The planned depth is enough at every moment of every run, and no less is enough for a run that
gives a value. -/
theorem maxStack_exact (keeps : family.KeepsWord)
    (built : ofTokens raw family kind vars = .ok e) (c : Container) :
    (moves e.kind c e.tokens).action = performAll e.kind c e.tokens ∧
      (e.run c).2 ∈ e.moments c ∧
      (∀ t ∈ e.moments c, t.toList.length ≤ e.maxStack ∧ t.capacity = e.maxStack) ∧
      ∀ v, e.evaluate c = .ok v →
        (∃ t ∈ e.moments c, t.toList.length = e.maxStack) ∧
          ∀ capacity,
            ((performAll e.kind c e.tokens).runOn (Stack.withCapacity capacity)).2.capacity =
              max capacity e.maxStack := by
  have within : (moves e.kind c e.tokens).Within e.maxStack
      (fun k => Arity.stackSize e.tokens = some k) 0 :=
    within_built keeps built (List.append_nil _).symm
  have start (capacity : Nat) := Stack.holds_withCapacity (α := Value) capacity
  have bounded (capacity : Nat) := within.moments (start capacity) (Nat.zero_le _)
  have least (capacity : Nat) {t : Stack Value}
      (member : t ∈ (moves e.kind c e.tokens).moments (Stack.withCapacity capacity)) :
      capacity ≤ t.capacity := by
    have grows := Moves.capacity_le_of_mem_moments (start capacity) member
    simpa [Stack.withCapacity, Stack.capacity] using grows
  refine ⟨action_moves e.kind c e.tokens, ?_, ?_, ?_⟩
  · have last := Moves.mem_moments_end (moves e.kind c e.tokens) (Stack.withCapacity e.maxStack)
    rwa [action_moves] at last
  · intro t member
    obtain ⟨size, capacity⟩ := bounded e.maxStack t member
    refine ⟨size, Nat.le_antisymm ?_ (least e.maxStack member)⟩
    simpa [Stack.withCapacity, Stack.capacity] using capacity
  · intro v evaluates
    constructor
    · obtain ⟨t, ran⟩ := runs_of_evaluate evaluates e.maxStack
      obtain ⟨u, member, full, _⟩ := exists_full_moment keeps built ran
      exact ⟨u, member, full⟩
    · intro capacity
      obtain ⟨t, ran⟩ := runs_of_evaluate evaluates capacity
      obtain ⟨u, _, full, holds, grows⟩ := exists_full_moment keeps built ran
      -- The buffer grows to hold the full moment and, as nothing needs more, no further.
      have last := Moves.mem_moments_end (moves e.kind c e.tokens) (Stack.withCapacity capacity)
      rw [action_moves, ran] at last
      have most := (bounded capacity t last).2
      have some := least capacity last
      rw [ran]
      simp only [Stack.withCapacity, Stack.capacity, Array.size_replicate] at *
      omega

end

theorem maxStack_exact_with_swap :
    Family.integer.KeepsWord ∧
      ∃ e, ofTokens ["1", "2", "$0", "swap", "-", "+"] .integer (.numeric .int8) .index = .ok e ∧
        e.maxStack = 3 ∧ (∀ c, ∀ t ∈ e.moments c, t.toList.length ≤ 3) ∧
        e.evaluate (.positional [.int 5]) = .ok (.word .int8 4) ∧
        ∃ t ∈ e.moments (.positional [.int 5]), t.toList.length = 3 := by
  let e : Expression :=
    ⟨[.operand (.word .int8 1) "1", .operand (.word .int8 2) "2", .reference (.index 0),
      .operator (.integer .swap), .operator (.integer (.binary .sub)),
      .operator (.integer (.binary .add))], 3, .numeric .int8, .integer, .index⟩
  have built :
      ofTokens ["1", "2", "$0", "swap", "-", "+"] .integer (.numeric .int8) .index = .ok e := by
    with_unfolding_all rfl
  have value : e.evaluate (.positional [.int 5]) = .ok (.word .int8 4) := by
    rw [evaluate_eq_runList]
    with_unfolding_all rfl
  have keeps : Family.integer.KeepsWord := trivial
  have exact_ := maxStack_exact keeps built
  refine ⟨keeps, e, built, rfl, fun c t member => ?_, value, ?_⟩
  · exact ((exact_ c).2.2.1 t member).1
  · exact ((exact_ _).2.2.2 _ value).1

end Expression
end Postfix
