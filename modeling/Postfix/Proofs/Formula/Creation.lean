import Postfix.Formula.Engine
import Postfix.Proofs.Prelude

/-! Engines as they are created.
The size of the cache decides neither whether there is an engine nor what else it is like, so the
engine of one size tells those of all others. -/
namespace Postfix.Formula.Engine

variable {settings : Settings} {options : Options} {start : Engine}

/-- Any other size would have been taken too, and is seen in the cache alone. -/
theorem create_resized (created : create settings options = .ok start) (given : Option Int) :
    create settings { options with cacheSize := given } =
      .ok { start with cache := Cache.empty (chosenSize settings given) } := by
  simp only [create] at created ⊢
  split at created
  case h_1 =>
    obtain ⟨operandType, found, created⟩ := Except.bind_eq_ok.mp created
    refine Except.bind_eq_ok.mpr ⟨operandType, found, ?_⟩
    -- The family, named or given, is bound before the rest.
    split at created
    all_goals
      obtain ⟨family, known, created⟩ := Except.bind_eq_ok.mp created
      refine Except.bind_eq_ok.mpr ⟨family, known, ?_⟩
      split at created
      · rename_i accepts
        cases created
        exact if_pos accepts
      · cases created
  case h_2 => cases created

theorem create_sized (created : create settings options = .ok start) :
    start.cache = Cache.empty (chosenSize settings options.cacheSize) := by
  have again : create settings options = _ := create_resized created options.cacheSize
  rw [created] at again
  exact congrArg Engine.cache (Except.ok.inj again)

theorem create_cache (created : create settings options = .ok start) :
    start.cache = Cache.empty start.cache.limit := by
  rw [create_sized created]
  rfl

theorem create_limit {size : Int} (given : options.cacheSize = some size)
    (created : create settings options = .ok start) :
    start.cache.limit = if size = 0 then settings.cacheSize else size := by
  rw [create_sized created, given]
  rfl

/-- The engine of the integer family under the settings as they come, with a cache of the size. -/
def integers (size : Int) : Engine :=
  ⟨.int64, .integer, .name, true, Cache.empty size, 0, []⟩

theorem create_integers : create {} { family := some (.named "int") } = .ok (integers 1000) := by
  with_unfolding_all rfl

theorem create_integers_sized (size : Int) (nonzero : size ≠ 0) :
    create {} { family := some (.named "int"), cacheSize := some size } =
      .ok (integers size) := by
  have resized := create_resized create_integers (some size)
  rw [chosenSize, if_neg nonzero] at resized
  exact resized

end Postfix.Formula.Engine
