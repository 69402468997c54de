import Mathlib.Data.List.Induction
import Postfix.Proofs.Stack

/-! A stack in a buffer is a list.
Every request to a stack is also a request to a plain list, where values are put at the end and
taken from it. One request keeps the two together: the answers are the same, the buffer holds the
list, and it has grown if and only if the list has outgrown it. So whatever is asked, the capacity
is never seen in an answer. -/
namespace Postfix.Stack

variable {α : Type}

inductive Request (α : Type)
  | push (v : α)
  | pop
  | peek
  | popTwo
  | size
  | isEmpty

inductive Answer (α : Type)
  | done
  | value (v : α)
  | pair (left right : α)
  | count (n : Nat)
  | truth (b : Bool)
  | refused (u : Underflow)
  deriving DecidableEq

def Answer.ofOutcome {β : Type} (answer : β → Answer α) : Except Underflow β → Answer α
  | .ok r => answer r
  | .error u => .refused u

def Answer.isRefusal : Answer α → Bool
  | refused _ => true
  | _ => false

namespace Request

def onBuffer (s : Stack α) : Request α → Answer α × Stack α
  | push v => (.done, s.push v)
  | pop => (.ofOutcome .value s.pop.1, s.pop.2)
  | peek => (.ofOutcome .value s.peek, s)
  | popTwo => (.ofOutcome (fun p => .pair p.1 p.2) s.popTwo.1, s.popTwo.2)
  | size => (.count s.size, s)
  | isEmpty => (.truth s.isEmpty, s)

/-- The list has the bottom first. Of two values the later one goes first, and is lost if there is
no other. -/
def onList (vs : List α) : Request α → Answer α × List α
  | push v => (.done, vs ++ [v])
  | pop => match vs.getLast? with
    | some v => (.value v, vs.dropLast)
    | none => (.refused .pop, vs)
  | peek => match vs.getLast? with
    | some v => (.value v, vs)
    | none => (.refused .peek, vs)
  | popTwo => match vs.getLast?, vs.dropLast.getLast? with
    | some right, some left => (.pair left right, vs.dropLast.dropLast)
    | _, _ => (.refused .pop, vs.dropLast)
  | size => (.count vs.length, vs)
  | isEmpty => (.truth vs.isEmpty, vs)

end Request

section

variable {σ : Type} (perform : σ → Request α → Answer α × σ)

def answers (s : σ) : List (Request α) → List (Answer α)
  | [] => []
  | r :: rest => (perform s r).1 :: answers (perform s r).2 rest

def after (s : σ) : List (Request α) → σ
  | [] => s
  | r :: rest => after (perform s r).2 rest

end

def largest (vs : List α) : List (Request α) → Nat
  | [] => vs.length
  | r :: rest => max vs.length (largest (r.onList vs).2 rest)

/-! ### One request -/

theorem pop_of_refused {s : Stack α} (refused : (Request.pop.onBuffer s).1.isRefusal) :
    (Request.pop.onBuffer s).2 = s := by
  simp only [Request.onBuffer, pop] at refused ⊢
  split at refused
  · cases refused
  · rfl

theorem popTwo_snd (s : Stack α) : s.popTwo.2 = s.pop.2.pop.2 := by
  unfold popTwo
  rcases popped : s.pop with ⟨u | right, t⟩
  case error =>
    have refused : (Request.pop.onBuffer s).1.isRefusal := by rw [Request.onBuffer, popped]; rfl
    have same : t = s := by simpa only [Request.onBuffer, popped] using pop_of_refused refused
    rw [same, popped, same]
  case ok =>
    simp only
    rcases t.pop with ⟨_ | left, u⟩ <;> rfl

theorem capacity_popTwo (s : Stack α) : s.popTwo.2.capacity = s.capacity := by
  rw [popTwo_snd, capacity_pop, capacity_pop]

theorem capacity_kept {r : Request α} (other : ∀ v, r ≠ .push v) {s : Stack α} :
    (r.onBuffer s).2.capacity = s.capacity := by
  cases r with
  | push v => exact absurd rfl (other v)
  | pop => exact s.capacity_pop
  | popTwo => exact s.capacity_popTwo
  | _ => rfl

/-- The request gets one answer from the buffer and from the list that it holds, and the buffer then
holds the list again. A buffer is read from the top, the list from the bottom. -/
def Request.Agrees (r : Request α) (s : Stack α) (vs : List α) : Prop :=
  (r.onBuffer s).1 = (r.onList vs).1 ∧ (r.onBuffer s).2.Holds (r.onList vs).2.reverse

namespace Holds

variable {s : Stack α} {vs : List α}

theorem peek_cons {v : α} (holds : s.Holds (v :: vs)) : s.peek = .ok v := by
  simp [Stack.peek, holds.top?]

theorem peek_nil (holds : s.Holds []) : s.peek = .error .peek := by
  simp [Stack.peek, holds.top?]

theorem agrees_pop (holds : s.Holds vs.reverse) : Request.pop.Agrees s vs := by
  cases vs using List.reverseRecOn with
  | nil =>
    rw [Request.Agrees, Request.onBuffer, holds.pop_nil]
    exact ⟨rfl, holds⟩
  | append_singleton below top =>
    rw [List.reverse_concat] at holds
    obtain ⟨t, popped, held⟩ := holds.pop_cons
    simp only [Request.Agrees, Request.onBuffer, Request.onList, popped, List.getLast?_concat,
      List.dropLast_concat]
    exact ⟨rfl, held⟩

theorem agrees_peek (holds : s.Holds vs.reverse) : Request.peek.Agrees s vs := by
  cases vs using List.reverseRecOn with
  | nil =>
    rw [Request.Agrees, Request.onBuffer, holds.peek_nil]
    exact ⟨rfl, holds⟩
  | append_singleton below top =>
    have seen : s.peek = .ok top := by
      rw [List.reverse_concat] at holds
      exact holds.peek_cons
    simp only [Request.Agrees, Request.onBuffer, Request.onList, seen, List.getLast?_concat]
    exact ⟨rfl, holds⟩

theorem agrees_popTwo (holds : s.Holds vs.reverse) : Request.popTwo.Agrees s vs := by
  cases vs using List.reverseRecOn with
  | nil =>
    obtain ⟨t, popped, held⟩ := holds.popTwo_short Nat.zero_lt_two
    rw [Request.Agrees, Request.onBuffer, popped]
    exact ⟨rfl, held⟩
  | append_singleton below right =>
    rw [List.reverse_concat] at holds
    cases below using List.reverseRecOn with
    | nil =>
      obtain ⟨t, popped, held⟩ := holds.popTwo_short Nat.one_lt_two
      rw [Request.Agrees, Request.onBuffer, popped]
      exact ⟨rfl, held⟩
    | append_singleton rest left =>
      rw [List.reverse_concat] at holds
      obtain ⟨t, popped, held⟩ := holds.popTwo_cons
      simp only [Request.Agrees, Request.onBuffer, Request.onList, popped, List.getLast?_concat,
        List.dropLast_concat]
      exact ⟨rfl, held⟩

theorem agrees (holds : s.Holds vs.reverse) (r : Request α) : r.Agrees s vs := by
  have counted : s.size = vs.length := holds.1.trans List.length_reverse
  cases r with
  | push v =>
    refine ⟨rfl, ?_⟩
    rw [Request.onList, List.reverse_concat]
    exact holds.push v
  | pop => exact holds.agrees_pop
  | peek => exact holds.agrees_peek
  | popTwo => exact holds.agrees_popTwo
  | size => exact ⟨congrArg Answer.count counted, holds⟩
  | isEmpty =>
    refine ⟨congrArg Answer.truth ?_, holds⟩
    rw [Stack.isEmpty, counted]
    cases vs <;> rfl

theorem capacity_request (holds : s.Holds vs.reverse) (r : Request α) :
    (r.onBuffer s).2.capacity = max s.capacity (r.onList vs).2.length := by
  have fits := (holds.agrees r).2.length_le
  rw [List.length_reverse] at fits
  cases r with
  | push v =>
    simp only [Request.onBuffer, Request.onList, holds.capacity_push, List.length_reverse,
      List.length_append, List.length_singleton]
  | _ =>
    rw [capacity_kept nofun] at fits ⊢
    exact (Nat.max_eq_left fits).symm

theorem empty_of_refused (holds : s.Holds vs.reverse)
    (refused : (Request.popTwo.onBuffer s).1.isRefusal) :
    (Request.popTwo.onBuffer s).2.Holds [] := by
  obtain ⟨same, held⟩ := holds.agrees_popTwo
  rw [same] at refused
  cases vs using List.reverseRecOn with
  | nil => exact held
  | append_singleton below right =>
    cases below using List.reverseRecOn with
    | nil => exact held
    | append_singleton rest left => simp [Request.onList, Answer.isRefusal] at refused

theorem slot_above (holds : s.Holds vs) {i : Nat} (above : s.size ≤ i) (inside : i < s.capacity) :
    s.slots[i]? = some none := by
  obtain ⟨size, spare, slots⟩ := holds
  have width := size_of_slots slots
  have past : (vs.reverse.map some).length ≤ i := by simpa [← size] using above
  rw [← Array.getElem?_toList, slots, List.getElem?_append_right past]
  apply List.getElem?_replicate_of_lt
  rw [capacity, width] at inside
  rw [List.length_map, List.length_reverse]
  omega

end Holds

/-! ### Many requests -/

theorem length_le_largest (vs : List α) (requests : List (Request α)) :
    vs.length ≤ largest vs requests := by
  cases requests with
  | nil => exact Nat.le_refl _
  | cons r rest => exact Nat.le_max_left ..

theorem Holds.requests {s : Stack α} {vs : List α} (holds : s.Holds vs.reverse)
    (requests : List (Request α)) :
    answers Request.onBuffer s requests = answers Request.onList vs requests ∧
      (after Request.onBuffer s requests).Holds (after Request.onList vs requests).reverse ∧
      (after Request.onBuffer s requests).capacity = max s.capacity (largest vs requests) := by
  induction requests generalizing s vs with
  | nil =>
    have fits := holds.length_le
    rw [List.length_reverse] at fits
    exact ⟨rfl, holds, (Nat.max_eq_left fits).symm⟩
  | cons r rest ih =>
    obtain ⟨answer, held⟩ := holds.agrees r
    obtain ⟨others, kept, grown⟩ := ih held
    refine ⟨congrArg₂ List.cons answer others, kept, ?_⟩
    have fits := holds.length_le
    have next := length_le_largest (r.onList vs).2 rest
    rw [List.length_reverse] at fits
    rw [after, grown, holds.capacity_request, largest]
    omega

/-- Whatever capacity a stack is given and whatever is asked of it, it answers as a list that is
empty at first. It is that list at any time, with empty slots above it, and its buffer has as many
slots as were allocated, or as many as the list has needed. A refused look or take changes nothing.
A take of two is two takes, and empties the stack if it is refused. -/
theorem buffer_is_list (capacity : Int) (requests : List (Request α)) :
    let s : Stack α := after Request.onBuffer (allocate capacity) requests
    let vs : List α := after Request.onList [] requests
    answers Request.onBuffer (allocate capacity) requests = answers Request.onList [] requests ∧
      s.toList = vs ∧ s.size = vs.length ∧
      (∀ i, s.size ≤ i → i < s.capacity → s.slots[i]? = some none) ∧
      s.capacity = max capacity.toNat (largest [] requests) ∧
      (∀ r ∈ [Request.pop, .peek], (r.onBuffer s).1.isRefusal → (r.onBuffer s).2 = s) ∧
      (Request.popTwo.onBuffer s).2 = after Request.onBuffer s [.pop, .pop] ∧
      ((Request.popTwo.onBuffer s).1.isRefusal →
        (Request.popTwo.onBuffer s).2.toList = [] ∧ (Request.popTwo.onBuffer s).2.size = 0) := by
  intro s vs
  have start : (allocate capacity : Stack α).Holds [].reverse := holds_withCapacity _
  obtain ⟨same, holds, grown⟩ := start.requests requests
  have allocated : (allocate capacity : Stack α).capacity = capacity.toNat := Array.size_replicate ..
  rw [allocated] at grown
  refine ⟨same, ?list, ?size, fun i => holds.slot_above, grown, ?kept, s.popTwo_snd, ?emptied⟩
  case list => rw [holds.toList, List.reverse_reverse]
  case size => exact holds.1.trans List.length_reverse
  case kept =>
    intro r given refused
    simp only [List.mem_cons, List.not_mem_nil, or_false] at given
    rcases given with rfl | rfl
    · exact pop_of_refused refused
    · rfl
  case emptied =>
    intro refused
    have nothing := holds.empty_of_refused refused
    exact ⟨nothing.toList, nothing.1⟩

example :
    answers Request.onBuffer (allocate (-1)) [.push 'a', .push 'b', .popTwo, .push 'c', .popTwo,
      .peek, .size] =
      [.done, .done, .pair 'a' 'b', .done, .refused .pop, .refused .peek, .count 0] := by
  decide

end Postfix.Stack
