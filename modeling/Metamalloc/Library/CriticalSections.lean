import Mathlib.Logic.Function.Basic
import Metamalloc.Library.Refinement

/-! Threads that call operations of one object. Code that runs step by step behind a lock shows its callers nothing
but an object that performs every operation at once. -/
namespace Metamalloc.Library.CriticalSections
open Refinement

section
variable {ι ω κ ρ σ τ : Type*} [DecidableEq ι]

inductive CallEvent (ι ω ρ : Type*) where
  | called (i : ι) (op : ω)
  | returned (i : ι) (result : ρ)

inductive Call (ω ρ : Type*) where
  | idle
  | pending (op : ω)
  | done (result : ρ)

structure Atomic (ι ω ρ σ : Type*) where
  object : σ
  calls : ι → Call ω ρ

/-- What a step of a thread makes of its call, by the effect that operations have on the object. -/
inductive Atomic.Moves (effect : ω → σ → ρ → σ → Prop) (i : ι) : Call ω ρ → σ → Option (CallEvent ι ω ρ) →
    Call ω ρ → σ → Prop
  | call (op : ω) (s : σ) : Moves effect i .idle s (some (.called i op)) (.pending op) s
  | perform {op : ω} {s s' : σ} {r : ρ} (h : effect op s r s') : Moves effect i (.pending op) s none (.done r) s'
  | answer (r : ρ) (s : σ) : Moves effect i (.done r) s (some (.returned i r)) .idle s

def atomic (start : σ → Prop) (effect : ω → σ → ρ → σ → Prop) :
    TransitionSystem (Atomic ι ω ρ σ) (CallEvent ι ω ρ) where
  start := fun a => start a.object ∧ a.calls = fun _ => .idle
  step := fun a e a' => ∃ i call, Atomic.Moves effect i (a.calls i) a.object e call a'.object ∧
    a'.calls = Function.update a.calls i call

/-- Objects whose states are related have the same calls in progress. -/
def Atomic.Related (R : σ → τ → Prop) (a : Atomic ι ω ρ σ) (b : Atomic ι ω ρ τ) : Prop :=
  R a.object b.object ∧ b.calls = a.calls

theorem atomic_simulates {start : σ → Prop} {start' : τ → Prop} {effect : ω → σ → ρ → σ → Prop}
    {effect' : ω → τ → ρ → τ → Prop} {R : σ → τ → Prop} (hstart : ∀ s, start s → ∃ t, start' t ∧ R s t)
    (heffect : ∀ op s t r s', R s t → effect op s r s' → ∃ t', effect' op t r t' ∧ R s' t') :
    Simulation (atomic (ι := ι) start effect) (atomic start' effect') (Atomic.Related R) := by
  constructor
  · rintro ⟨s, calls⟩ ⟨hs, rfl⟩
    obtain ⟨t, ht, hrel⟩ := hstart s hs
    exact ⟨⟨t, _⟩, ⟨ht, rfl⟩, hrel, rfl⟩
  · rintro ⟨s, calls⟩ ⟨t, calls₁⟩ e ⟨s', calls'⟩ ⟨hrel, hcalls⟩ ⟨i, call, hmove, hcalls'⟩
    dsimp only at hrel hcalls hmove hcalls'
    subst hcalls hcalls'
    generalize hcall : calls₁ i = before at hmove
    suffices hsuff : ∃ t', Atomic.Moves effect' i before t e call t' ∧ R s' t' by
      obtain ⟨t', hmove', hrel'⟩ := hsuff
      subst hcall
      exact ⟨⟨t', _⟩, ⟨hrel', rfl⟩, .inl ⟨i, call, hmove', rfl⟩⟩
    cases hmove with
    | call op => exact ⟨t, .call op t, hrel⟩
    | perform h =>
      obtain ⟨t', h', hrel'⟩ := heffect _ _ t _ _ hrel h
      exact ⟨t', .perform h', hrel'⟩
    | answer r => exact ⟨t, .answer r t, hrel⟩

/-- From a point of the code and a state, a step leads to a state and a point, or to a result. -/
structure Code (ω κ ρ σ : Type*) where
  entry : ω → κ
  next : κ → σ → σ → κ ⊕ ρ → Prop

namespace Code

/-- Where the code can be, if nobody interferes, after it has entered an operation in some state. -/
inductive Within (code : Code ω κ ρ σ) (op : ω) (s : σ) : κ → σ → Prop
  | entry : Within code op s (code.entry op) s
  | next {k k' : κ} {s₁ s₂ : σ} (h : Within code op s k s₁) (hs : code.next k s₁ s₂ (.inl k')) :
      Within code op s k' s₂

def Performs (code : Code ω κ ρ σ) (op : ω) (s : σ) (r : ρ) (s' : σ) : Prop :=
  ∃ k s₁, code.Within op s k s₁ ∧ code.next k s₁ s' (.inr r)

inductive Finishes (code : Code ω κ ρ σ) : κ → σ → Prop
  | last {k : κ} {s s' : σ} {r : ρ} (h : code.next k s s' (.inr r)) : Finishes code k s
  | more {k k' : κ} {s s' : σ} (h : code.next k s s' (.inl k')) (hrest : Finishes code k' s') : Finishes code k s

end Code

inductive Phase (ω κ ρ : Type*) where
  | idle
  | waiting (op : ω)
  | inside (op : ω) (k : κ)
  | leaving (result : ρ)

def Phase.Holds : Phase ω κ ρ → Prop
  | .inside _ _ | .leaving _ => True
  | .idle | .waiting _ => False

structure Locked (ι ω κ ρ σ : Type*) where
  object : σ
  holder : Option ι
  phases : ι → Phase ω κ ρ

/-- A thread takes the lock when nobody has it, and steps through the code while it has it. -/
inductive Locked.Moves (code : Code ω κ ρ σ) (i : ι) : Phase ω κ ρ → Option ι → σ → Option (CallEvent ι ω ρ) →
    Phase ω κ ρ → Option ι → σ → Prop
  | call (op : ω) (holder : Option ι) (s : σ) :
      Moves code i .idle holder s (some (.called i op)) (.waiting op) holder s
  | enter (op : ω) (s : σ) : Moves code i (.waiting op) none s none (.inside op (code.entry op)) (some i) s
  | move {op : ω} {k k' : κ} {holder : Option ι} {s s' : σ} (h : code.next k s s' (.inl k')) :
      Moves code i (.inside op k) holder s none (.inside op k') holder s'
  | finish {op : ω} {k : κ} {r : ρ} {holder : Option ι} {s s' : σ} (h : code.next k s s' (.inr r)) :
      Moves code i (.inside op k) holder s none (.leaving r) holder s'
  | leave (r : ρ) (holder : Option ι) (s : σ) :
      Moves code i (.leaving r) holder s (some (.returned i r)) .idle none s

def locked (start : σ → Prop) (code : Code ω κ ρ σ) :
    TransitionSystem (Locked ι ω κ ρ σ) (CallEvent ι ω ρ) where
  start := fun l => start l.object ∧ l.holder = none ∧ l.phases = fun _ => .idle
  step := fun l e l' => ∃ i phase, Locked.Moves code i (l.phases i) l.holder l.object e phase l'.holder l'.object ∧
    l'.phases = Function.update l.phases i phase

/-- Exactly the holder of the lock is in the code. -/
def Locked.Excludes (l : Locked ι ω κ ρ σ) : Prop := ∀ i, (l.phases i).Holds ↔ l.holder = some i

theorem Locked.excludes_step {start : σ → Prop} {code : Code ω κ ρ σ} {l l' : Locked ι ω κ ρ σ}
    {e : Option (CallEvent ι ω ρ)} (h : l.Excludes) (hs : (locked start code).step l e l') : l'.Excludes := by
  obtain ⟨s, holder, phases⟩ := l
  obtain ⟨s', holder', phases'⟩ := l'
  obtain ⟨i, phase, hmove, hphases⟩ := hs
  dsimp only at hmove hphases
  intro j
  have hi := h i
  have hj := h j
  rw [hphases]
  dsimp only at hi hj ⊢
  generalize phases i = before at hmove hi
  by_cases hji : j = i
  · subst hji
    rw [Function.update_self]
    cases hmove <;> simp_all [Phase.Holds]
  · have hne : (some i : Option ι) ≠ some j := fun he => hji (Option.some.inj he).symm
    rw [Function.update_of_ne hji]
    cases hmove with
    | enter => simpa [hne] using hj
    | leave => simp_all [Phase.Holds]
    | _ => exact hj

def Phase.call : Phase ω κ ρ → Call ω ρ
  | .idle => .idle
  | .waiting op | .inside op _ => .pending op
  | .leaving r => .done r

/-- While a thread is in the code, the object still counts as the thread has found it. -/
structure Locked.Shows (code : Code ω κ ρ σ) (l : Locked ι ω κ ρ σ) (a : Atomic ι ω ρ σ) : Prop where
  calls : a.calls = Phase.call ∘ l.phases
  inside : ∀ i op k, l.phases i = .inside op k → code.Within op a.object k l.object
  outside : (∀ i op k, l.phases i ≠ .inside op k) → a.object = l.object

section
variable {start : σ → Prop} {code : Code ω κ ρ σ} {s s' : σ} {holder holder' : Option ι} {phases : ι → Phase ω κ ρ}
  {a : Atomic ι ω ρ σ} {i j : ι} {op : ω} {k : κ} {phase : Phase ω κ ρ}

omit [DecidableEq ι] in
theorem Locked.Excludes.eq_of_inside (h : Excludes ⟨s, holder, phases⟩) (hi : (phases i).Holds)
    (hj : phases j = .inside op k) : j = i := by
  have hj : (phases j).Holds := by
    rw [hj]
    trivial
  exact Option.some.inj (((h j).mp hj).symm.trans ((h i).mp hi))

namespace Locked.Shows

theorem outside_step (h : Shows code ⟨s, holder, phases⟩ a) (hbefore : ∀ op k, phases i ≠ .inside op k)
    (hphase : ∀ op k, phase ≠ .inside op k) :
    Shows code ⟨s, holder', Function.update phases i phase⟩ ⟨a.object, Function.update a.calls i phase.call⟩ := by
  have hsame : ∀ j op k, Function.update phases i phase j = .inside op k ↔ phases j = .inside op k := by
    intro j op k
    by_cases hji : j = i
    · subst hji
      rw [Function.update_self]
      exact iff_of_false (hphase op k) (hbefore op k)
    · rw [Function.update_of_ne hji]
  refine ⟨?_, fun j op k hj => h.inside j op k ((hsame j op k).mp hj), fun hall => h.outside fun j op k hj => ?_⟩
  · rw [Function.comp_update, h.calls]
  · exact hall j op k ((hsame j op k).mpr hj)

theorem finish_step (h : Shows code ⟨s, holder, phases⟩ a) (halone : ∀ j op k, phases j = .inside op k → j = i)
    (hphase : ∀ op k, phase ≠ .inside op k) :
    Shows code ⟨s', holder', Function.update phases i phase⟩ ⟨s', Function.update a.calls i phase.call⟩ := by
  refine ⟨?_, fun j op k hj => ?_, fun _ => rfl⟩
  · rw [Function.comp_update, h.calls]
  · dsimp only at hj
    by_cases hji : j = i
    · subst hji
      rw [Function.update_self] at hj
      exact absurd hj (hphase op k)
    · rw [Function.update_of_ne hji] at hj
      exact absurd (halone j op k hj) hji

theorem inside_step (h : Shows code ⟨s, holder, phases⟩ a) (halone : ∀ j op k, phases j = .inside op k → j = i)
    (hcall : (phases i).call = .pending op) (hwithin : code.Within op a.object k s') :
    Shows code ⟨s', holder', Function.update phases i (.inside op k)⟩ a := by
  refine ⟨?_, fun j op' k' hj => ?_, fun hall => absurd (Function.update_self i _ _) (hall i op k)⟩
  · have hself : Phase.call (.inside op k : Phase ω κ ρ) = (Phase.call ∘ phases) i := hcall.symm
    rw [Function.comp_update, hself, Function.update_eq_self, h.calls]
  · dsimp only at hj
    by_cases hji : j = i
    · subst hji
      rw [Function.update_self] at hj
      cases hj
      exact hwithin
    · rw [Function.update_of_ne hji] at hj
      exact absurd (halone j op' k' hj) hji

end Locked.Shows

/-- The effect of an operation shows when its thread reaches the end of the code. -/
theorem locked_simulates : Simulation (locked (ι := ι) start code) (atomic start code.Performs)
    fun l a => l.Excludes ∧ l.Shows code a := by
  constructor
  · rintro ⟨s, holder, phases⟩ ⟨hs, hholder, hphases⟩
    dsimp only at hs hholder hphases
    subst hholder hphases
    exact ⟨⟨s, fun _ => .idle⟩, ⟨hs, rfl⟩, fun i => by simp [Phase.Holds], rfl, by simp, fun _ => rfl⟩
  · rintro ⟨s, holder, phases⟩ a e ⟨s', holder', phases'⟩ ⟨hex, hshows⟩ hs
    have hexcludes := Locked.excludes_step hex hs
    obtain ⟨i, phase, hmove, hphases⟩ := hs
    dsimp only at hmove hphases
    subst hphases
    have hcall : a.calls i = (phases i).call := congrFun hshows.calls i
    suffices hsuff : ∃ a', Locked.Shows code ⟨s', holder', Function.update phases i phase⟩ a' ∧
        ((atomic start code.Performs).step a e a' ∨ e = none ∧ a' = a) by
      obtain ⟨a', hshows', hstep⟩ := hsuff
      exact ⟨a', ⟨hexcludes, hshows'⟩, hstep⟩
    have halone : (phases i).Holds → ∀ j op k, phases j = .inside op k → j = i :=
      fun hi j op k hj => hex.eq_of_inside hi hj
    generalize hphase : phases i = before at hmove hcall halone
    cases hmove with
    | call op =>
      refine ⟨_, hshows.outside_step (hphase ▸ nofun) nofun, .inl ⟨i, _, ?_, rfl⟩⟩
      rw [hcall]
      exact .call op a.object
    | enter op =>
      have hnobody : ∀ j op k, phases j ≠ .inside op k := by
        intro j op k hj
        have hholds : (phases j).Holds := by
          rw [hj]
          trivial
        cases (hex j).mp hholds
      refine ⟨a, hshows.inside_step (fun j op k hj => absurd hj (hnobody j op k)) (by rw [hphase]; rfl) ?_,
        .inr ⟨rfl, rfl⟩⟩
      rw [hshows.outside hnobody]
      exact .entry
    | move h =>
      have hwithin := hshows.inside i _ _ hphase
      exact ⟨a, hshows.inside_step (halone trivial) (by rw [hphase]; rfl) (hwithin.next h), .inr ⟨rfl, rfl⟩⟩
    | finish h =>
      have hwithin := hshows.inside i _ _ hphase
      refine ⟨_, hshows.finish_step (halone trivial) nofun, .inl ⟨i, _, ?_, rfl⟩⟩
      rw [hcall]
      exact .perform ⟨_, _, hwithin, h⟩
    | leave r =>
      refine ⟨_, hshows.outside_step (hphase ▸ nofun) nofun, .inl ⟨i, _, ?_, rfl⟩⟩
      rw [hcall]
      exact .answer r a.object

end
end
end Metamalloc.Library.CriticalSections
