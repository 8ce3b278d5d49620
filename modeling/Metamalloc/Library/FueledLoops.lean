import Mathlib.Logic.Basic

/-! Loops whose body goes on with another state or ends with a result. -/
namespace Metamalloc.Library.FueledLoops

variable {α β : Type*}

def run (body : α → α ⊕ β) : Nat → α → Option β
  | 0, _ => none
  | fuel+1, x =>
    match body x with
    | .inl y => run body fuel y
    | .inr b => some b

inductive Reaches (body : α → α ⊕ β) (x : α) : α → Prop
  | refl : Reaches body x x
  | step {y z : α} (h : Reaches body x y) (hz : body y = .inl z) : Reaches body x z

section
variable {body : α → α ⊕ β} {P : α → Prop} {x y : α}

theorem Reaches.invariant (h : Reaches body x y) (hx : P x) (hstep : ∀ y z, P y → body y = .inl z → P z) : P y := by
  induction h with
  | refl => exact hx
  | step _ hz ih => exact hstep _ _ ih hz

/-- A loop that decreases a measure and keeps what it will return ends with that. -/
theorem run_eq {μ : α → Nat} {f : α → β} {fuel : Nat} (hx : P x)
    (hstep : ∀ y z, P y → body y = .inl z → P z ∧ μ z < μ y ∧ f z = f y)
    (hend : ∀ y b, P y → body y = .inr b → f y = b) (hfuel : μ x < fuel) : run body fuel x = some (f x) := by
  induction fuel generalizing x with
  | zero => exact absurd hfuel (Nat.not_lt_zero _)
  | succ fuel ih =>
    rw [run]
    cases hbody : body x with
    | inl y =>
      obtain ⟨hy, hlt, heq⟩ := hstep x y hx hbody
      dsimp only
      rw [ih hy (Nat.lt_of_lt_of_le hlt (Nat.le_of_lt_succ hfuel)), heq]
    | inr b =>
      dsimp only
      rw [hend x b hx hbody]

end
end Metamalloc.Library.FueledLoops
