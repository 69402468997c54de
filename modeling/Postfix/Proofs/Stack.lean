import Postfix.Stack

/-! What a buffered stack holds, as a list with the top first.
The relation also says that every slot above the size is empty, so each operation on the buffer is
an operation on the list: nothing of an earlier value can come back. -/
namespace Postfix.Stack

variable {α : Type}

/-- The slots in use are the values, bottom first, and the spare slots are empty. -/
def Holds (s : Stack α) (vs : List α) : Prop :=
  s.size = vs.length ∧
    ∃ spare, s.slots.toList = vs.reverse.map some ++ List.replicate spare none

theorem size_of_slots {s : Stack α} {vs : List α} {spare : Nat}
    (slots : s.slots.toList = vs.reverse.map some ++ List.replicate spare none) :
    s.slots.size = vs.length + spare := by
  have counted := congrArg List.length slots
  simpa using counted

theorem holds_withCapacity (capacity : Nat) : (withCapacity (α := α) capacity).Holds [] :=
  ⟨rfl, capacity, by simp [withCapacity]⟩

@[simp] theorem capacity_drop (s : Stack α) : s.drop.capacity = s.capacity := by
  simp [drop, capacity]

@[simp] theorem capacity_pop (s : Stack α) : s.pop.2.capacity = s.capacity := by
  unfold pop
  split
  · exact s.capacity_drop
  · rfl

namespace Holds

variable {s : Stack α} {vs : List α} {v w : α}

theorem length_le (h : s.Holds vs) : vs.length ≤ s.capacity := by
  obtain ⟨_, spare, slots⟩ := h
  exact Nat.le_trans (Nat.le_add_right _ spare) (Nat.le_of_eq (size_of_slots slots).symm)

theorem capacity_push (h : s.Holds vs) (v : α) :
    (s.push v).capacity = max s.capacity (vs.length + 1) := by
  have fits := h.length_le
  unfold Stack.push
  rw [h.1]
  split
  · rename_i room
    simp only [capacity, Array.size_setIfInBounds] at fits ⊢
    omega
  · rename_i full
    simp only [capacity, Array.size_push] at fits ⊢
    omega

theorem push (h : s.Holds vs) (v : α) : (s.push v).Holds (v :: vs) := by
  obtain ⟨size, spare, slots⟩ := h
  have width := size_of_slots slots
  unfold Stack.push
  split
  · rename_i room
    obtain ⟨rest, rfl⟩ : ∃ rest, spare = rest + 1 := ⟨spare - 1, by omega⟩
    refine ⟨by simp [size], rest, ?_⟩
    simp [slots, size, List.replicate_succ]
  · have full : spare = 0 := by omega
    refine ⟨by simp [size], 0, ?_⟩
    simp [slots, full]

theorem top? (h : s.Holds vs) : s.top? = vs.head? := by
  obtain ⟨size, spare, slots⟩ := h
  unfold Stack.top?
  cases vs with
  | nil => simp [size]
  | cons v vs =>
    have at_top : s.slots[vs.length]? = some (some v) := by
      rw [← Array.getElem?_toList, slots]
      simp
    simp [size, at_top]

theorem drop (h : s.Holds (v :: vs)) : s.drop.Holds vs := by
  obtain ⟨size, spare, slots⟩ := h
  refine ⟨by simp [Stack.drop, size], spare + 1, ?_⟩
  simp [Stack.drop, size, slots, List.replicate_succ]

theorem toList (h : s.Holds vs) : s.toList = vs.reverse := by
  obtain ⟨size, spare, slots⟩ := h
  simp [Stack.toList, size, slots]

theorem length_toList (h : s.Holds vs) : s.toList.length = vs.length := by
  rw [h.toList, List.length_reverse]

theorem pop_cons (h : s.Holds (v :: vs)) : ∃ t, s.pop = (.ok v, t) ∧ t.Holds vs :=
  ⟨s.drop, by simp [Stack.pop, h.top?], h.drop⟩

theorem pop_nil (h : s.Holds []) : s.pop = (.error .pop, s) := by
  simp [Stack.pop, h.top?]

theorem popTwo_cons (h : s.Holds (w :: v :: vs)) :
    ∃ t, s.popTwo = (.ok (v, w), t) ∧ t.Holds vs := by
  obtain ⟨t, first, ht⟩ := h.pop_cons
  obtain ⟨u, second, hu⟩ := ht.pop_cons
  exact ⟨u, by simp [Stack.popTwo, first, second], hu⟩

theorem popTwo_short (h : s.Holds vs) (short : vs.length < 2) :
    ∃ t, s.popTwo = (.error .pop, t) ∧ t.Holds [] := by
  match vs, short with
  | [], _ => exact ⟨s, by simp [Stack.popTwo, h.pop_nil], h⟩
  | [v], _ =>
    obtain ⟨t, first, ht⟩ := h.pop_cons
    exact ⟨t, by simp [Stack.popTwo, first, ht.pop_nil], ht⟩

end Holds
end Postfix.Stack
