import Mathlib.Logic.Basic

/-! Transition systems with visible and internal steps, and how one of them implements another. -/
namespace Metamalloc.Library.Refinement

/-- A step shows an event, or nothing when it is internal. -/
structure TransitionSystem (σ ε : Type*) where
  start : σ → Prop
  step : σ → Option ε → σ → Prop

section
variable {σ τ υ ε : Type*} {C : TransitionSystem σ ε} {A : TransitionSystem τ ε} {B : TransitionSystem υ ε}

/-- The events of a run so far, and the state it has led to. -/
inductive Run (S : TransitionSystem σ ε) : List ε → σ → Prop
  | start {s : σ} (h : S.start s) : Run S [] s
  | step {trace : List ε} {s s' : σ} {e : Option ε} (hr : Run S trace s) (h : S.step s e s') :
      Run S (trace ++ e.toList) s'

theorem Run.invariant {P : σ → Prop} {trace : List ε} {s : σ} (hr : Run C trace s) (hstart : ∀ s, C.start s → P s)
    (hstep : ∀ s e s', P s → C.step s e s' → P s') : P s := by
  induction hr with
  | start h => exact hstart _ h
  | step _ h ih => exact hstep _ _ _ ih h

/-- Every step has its counterpart from a related state; an internal step may have none. -/
structure Simulation (C : TransitionSystem σ ε) (A : TransitionSystem τ ε) (R : σ → τ → Prop) : Prop where
  start : ∀ s, C.start s → ∃ t, A.start t ∧ R s t
  step : ∀ s t e s', R s t → C.step s e s' → ∃ t', R s' t' ∧ (A.step t e t' ∨ e = none ∧ t' = t)

/-- What the first system shows the second one can show as well. -/
theorem Simulation.run {R : σ → τ → Prop} {trace : List ε} {s : σ} (h : Simulation C A R) (hr : Run C trace s) :
    ∃ t, Run A trace t ∧ R s t := by
  induction hr with
  | start hs =>
    obtain ⟨t, ht, hrel⟩ := h.start _ hs
    exact ⟨t, .start ht, hrel⟩
  | step _ hs ih =>
    obtain ⟨t, ht, hrel⟩ := ih
    obtain ⟨t', hrel', hstep | ⟨rfl, rfl⟩⟩ := h.step _ t _ _ hrel hs
    · exact ⟨t', ht.step hstep, hrel'⟩
    · refine ⟨t', ?_, hrel'⟩
      rw [Option.toList_none, List.append_nil]
      exact ht

theorem Simulation.comp {R : σ → τ → Prop} {S : τ → υ → Prop} (h : Simulation C A R) (h' : Simulation A B S) :
    Simulation C B fun s u => ∃ t, R s t ∧ S t u := by
  constructor
  · intro s hs
    obtain ⟨t, ht, hst⟩ := h.start s hs
    obtain ⟨u, hu, htu⟩ := h'.start t ht
    exact ⟨u, hu, t, hst, htu⟩
  · rintro s u e s' ⟨t, hst, htu⟩ hs
    obtain ⟨t', hst', hmove | ⟨rfl, rfl⟩⟩ := h.step s t e s' hst hs
    · obtain ⟨u', htu', hmove'⟩ := h'.step t u e t' htu hmove
      exact ⟨u', ⟨t', hst', htu'⟩, hmove'⟩
    · exact ⟨u, ⟨t', hst', htu⟩, .inr ⟨rfl, rfl⟩⟩

end
end Metamalloc.Library.Refinement
