import Mathlib.Data.List.Dedup
import Mathlib.Data.List.DropRight
import Mathlib.Data.List.Forall2

/-! Facts on results, options and lists of any kind.
A run over a list comes to a result if each of its steps does, and otherwise ends with the failure
of one of them. The last distinct elements of a list change in one of two ways when one more element
comes behind it. -/
namespace Postfix

variable {ε ζ α β γ : Type}

/-! ### Results -/

theorem Except.bind_eq_ok {x : Except ε α} {f : α → Except ε β} {b : β} :
    (x >>= f) = .ok b ↔ ∃ a, x = .ok a ∧ f a = .ok b := by
  cases x with
  | error e =>
    constructor
    · intro h; cases h
    · rintro ⟨a, h, _⟩; cases h
  | ok a =>
    constructor
    · intro h; exact ⟨a, rfl, h⟩
    · rintro ⟨_, h, hb⟩; cases h; exact hb

theorem Except.map_map (f : α → β) (g : β → γ) (x : Except ε α) :
    (x.map f).map g = x.map fun a => g (f a) := by
  cases x <;> rfl

theorem Except.map_eq_ok {f : α → β} {x : Except ε α} {b : β} :
    x.map f = .ok b ↔ ∃ a, x = .ok a ∧ f a = b := by
  cases x <;> simp [Except.map]

theorem Except.map_injective {f : α → β} (injective : Function.Injective f) :
    Function.Injective fun x : Except ε α => x.map f := by
  intro x y same
  cases x with
  | error e => cases y <;> cases same; rfl
  | ok a =>
    cases y with
    | error e => cases same
    | ok b => exact congrArg _ (injective (Except.ok.inj same))

theorem Except.mapError_eq_ok {f : ε → ζ} {x : Except ε α} {a : α} :
    x.mapError f = .ok a ↔ x = .ok a := by
  cases x <;> simp [Except.mapError]

theorem Except.mapError_eq_error {f : ε → ζ} {x : Except ε α} {e : ζ} :
    x.mapError f = .error e ↔ ∃ a, x = .error a ∧ f a = e := by
  cases x <;> simp [Except.mapError]

/-! ### Runs over lists -/

theorem Except.mapM_eq_ok {f : α → Except ε β} {xs : List α} {ys : List β} :
    xs.mapM f = .ok ys ↔ List.Forall₂ (fun x y => f x = .ok y) xs ys := by
  induction xs generalizing ys with
  | nil =>
    rw [List.mapM_nil, List.forall₂_nil_left_iff]
    constructor
    · intro h; cases h; rfl
    · rintro rfl; rfl
  | cons x xs ih =>
    rw [List.mapM_cons, Except.bind_eq_ok, List.forall₂_cons_left_iff]
    constructor
    · rintro ⟨y, first, h⟩
      obtain ⟨rest, hrest, h⟩ := Except.bind_eq_ok.mp h
      cases h
      exact ⟨y, rest, first, ih.mp hrest, rfl⟩
    · rintro ⟨y, rest, first, hrest, rfl⟩
      exact ⟨y, first, Except.bind_eq_ok.mpr ⟨rest, ih.mpr hrest, rfl⟩⟩

theorem Except.exists_mapM_eq_ok {f : α → Except ε β} {xs : List α}
    (all : ∀ x ∈ xs, ∃ y, f x = .ok y) : ∃ ys, xs.mapM f = .ok ys := by
  induction xs with
  | nil => exact ⟨[], rfl⟩
  | cons x xs ih =>
    obtain ⟨y, first⟩ := all x List.mem_cons_self
    obtain ⟨ys, rest⟩ := ih fun z hz => all z (List.mem_cons_of_mem x hz)
    exact ⟨y :: ys, by rw [List.mapM_cons, first, rest]; rfl⟩

theorem Except.mapM_eq_error {f : α → Except ε β} {done rest : List α} {x : α} {e : ε}
    (before : ∀ y ∈ done, ∃ z, f y = .ok z) (failed : f x = .error e) :
    (done ++ x :: rest).mapM f = .error e := by
  obtain ⟨ys, read⟩ := exists_mapM_eq_ok before
  rw [List.mapM_append, read, List.mapM_cons, failed]
  rfl

theorem Except.exists_of_mapM_eq_error {f : α → Except ε β} {xs : List α} {e : ε}
    (failed : xs.mapM f = .error e) : ∃ x ∈ xs, f x = .error e := by
  induction xs with
  | nil => cases failed
  | cons x xs ih =>
    rw [List.mapM_cons] at failed
    cases first : f x with
    | error e' =>
      rw [first] at failed
      cases failed
      exact ⟨x, List.mem_cons_self, first⟩
    | ok y =>
      rw [first] at failed
      cases later : xs.mapM f with
      | ok ys => rw [later] at failed; cases failed
      | error e' =>
        rw [later] at failed
        cases failed
        obtain ⟨z, member, h⟩ := ih later
        exact ⟨z, List.mem_cons_of_mem x member, h⟩

theorem Option.exists_of_mapM {f : α → Option β} {xs : List α} {ys : List β}
    (all : xs.mapM f = some ys) {x : α} (member : x ∈ xs) : ∃ y ∈ ys, f x = some y := by
  induction xs generalizing ys with
  | nil => cases member
  | cons z xs ih =>
    rw [List.mapM_cons] at all
    obtain ⟨y, first, all⟩ := Option.bind_eq_some_iff.mp all
    obtain ⟨rest, later, all⟩ := Option.bind_eq_some_iff.mp all
    cases all
    rcases List.mem_cons.mp member with rfl | member
    · exact ⟨y, List.mem_cons_self, first⟩
    · obtain ⟨w, hw, found⟩ := ih later member
      exact ⟨w, List.mem_cons_of_mem y hw, found⟩

/-! ### Lists -/

theorem List.exists_of_forall₂_mem {R : α → β → Prop} {xs : List α} {ys : List β}
    (related : List.Forall₂ R xs ys) {y : β} (member : y ∈ ys) : ∃ x ∈ xs, R x y := by
  induction related with
  | nil => cases member
  | @cons x _ xs _ first _ ih =>
    rcases List.mem_cons.mp member with rfl | member
    · exact ⟨x, List.mem_cons_self, first⟩
    · obtain ⟨x', mem, h⟩ := ih member
      exact ⟨x', List.mem_cons_of_mem x mem, h⟩

theorem List.foldl_replicate {op : α → α → α} {a : α} (idempotent : op a a = a) (n : Nat) :
    (List.replicate n a).foldl op a = a := by
  induction n with
  | zero => rfl
  | succ n ih => rw [List.replicate_succ, List.foldl_cons, idempotent, ih]

/-- Where no two elements are both picked, at most one is. -/
theorem List.filter_cases {p : α → Bool} {xs : List α}
    (apart : xs.Pairwise fun x y => ¬ (p x ∧ p y)) :
    xs.filter p = [] ∨ ∃ x ∈ xs, p x ∧ xs.filter p = [x] := by
  induction apart with
  | nil => exact .inl rfl
  | @cons x xs here _ ih =>
    by_cases picked : p x
    · have others : xs.filter p = [] :=
        List.filter_eq_nil_iff.mpr fun y hy again => here y hy ⟨picked, again⟩
      refine .inr ⟨x, List.mem_cons_self, picked, ?_⟩
      rw [List.filter_cons_of_pos picked, others]
    · rw [List.filter_cons_of_neg picked]
      rcases ih with none | ⟨y, hy, chosen, only⟩
      · exact .inl none
      · exact .inr ⟨y, List.mem_cons_of_mem x hy, chosen, only⟩

/-! ### The last distinct elements -/

theorem List.rtake_append {m : Nat} {front back : List α} (enough : m ≤ back.length) :
    (front ++ back).rtake m = back.rtake m := by
  have past : front.length ≤ (front ++ back).length - m := by
    rw [List.length_append]
    omega
  rw [List.rtake, List.rtake, List.drop_append, List.drop_eq_nil_of_le past, List.nil_append,
    List.length_append]
  congr 1
  omega

variable [DecidableEq α]

theorem List.dedup_concat (xs : List α) (x : α) :
    (xs ++ [x]).dedup = xs.dedup.filter (· ≠ x) ++ [x] := by
  induction xs with
  | nil => rfl
  | cons first rest ih =>
    by_cases again : first ∈ rest
    · rw [List.cons_append, List.dedup_cons_of_mem (List.mem_append_left _ again),
        List.dedup_cons_of_mem again, ih]
    rw [List.dedup_cons_of_notMem again, List.cons_append]
    by_cases same : first = x
    · have later : first ∈ rest ++ [x] := by simp [same]
      rw [List.dedup_cons_of_mem later, ih, List.filter_cons_of_neg (by simpa using same)]
    · have never : first ∉ rest ++ [x] := by simp [again, same]
      rw [List.dedup_cons_of_notMem never, ih, List.filter_cons_of_pos (by simpa using same),
        List.cons_append]

theorem List.length_filter_ne {xs : List α} (nodup : xs.Nodup) (x : α) :
    xs.length ≤ (xs.filter (· ≠ x)).length + 1 := by
  have erased : xs.filter (· ≠ x) = xs.erase x := by
    rw [nodup.erase_eq_filter]
    exact List.filter_congr fun y _ => by by_cases same : y = x <;> simp [same]
  rw [erased, List.length_erase]
  split <;> omega

theorem List.rtake_filter_ne {xs : List α} (nodup : xs.Nodup) (m : Nat) (x : α) :
    (xs.filter (· ≠ x)).rtake m = ((xs.rtake (m + 1)).filter (· ≠ x)).rtake m := by
  by_cases few : xs.length ≤ m + 1
  · have all : xs.rtake (m + 1) = xs := by
      rw [List.rtake, Nat.sub_eq_zero_of_le few, List.drop_zero]
    rw [all]
  · have full : (xs.rtake (m + 1)).length = m + 1 := by
      rw [List.rtake, List.length_drop]
      omega
    have nodup' : (xs.rtake (m + 1)).Nodup := (List.drop_sublist _ _).nodup nodup
    have enough := length_filter_ne nodup' x
    rw [full] at enough
    conv_lhs => rw [← List.take_append_drop (xs.length - (m + 1)) xs, List.filter_append]
    exact rtake_append (Nat.le_of_succ_le_succ enough)

end Postfix
