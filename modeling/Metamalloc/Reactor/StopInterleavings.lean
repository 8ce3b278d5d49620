import Mathlib.Logic.Basic

/-! Stopping the reactor: the steps of `stop` between those of the reactor thread. -/
namespace Metamalloc.Reactor

inductive LockOwner where
  | reactorThread | stop
  deriving DecidableEq

/-- Where the reactor thread is: before the test of the flag, before it has the lock, in the part that the lock
guards, or behind its loop. -/
inductive ReactorPhase where
  | testing | acquiring | polling | finished
  deriving DecidableEq

/-- Where `stop` is: before each of its steps, or behind the last. -/
inductive StopPhase where
  | loading | storing | acquiring | clearing | joining | closing | releasing | returned
  deriving DecidableEq

structure StopState where
  isStopping : Bool := false
  lock : Option LockOwner := none
  reactor : ReactorPhase := .testing
  stop : StopPhase := .loading
  deriving DecidableEq

inductive StopAction where
  -- the reactor thread
  | testFlag | acquireInReactor | poll | releaseInReactor
  -- `stop`
  | loadFlag | storeFlag | acquireInStop | clearDescriptors | join | closeAllSockets | releaseInStop
  deriving DecidableEq

namespace StopState

/-- The state after a step, if its thread is there and does not have to wait. -/
def step (s : StopState) : StopAction → Option StopState
  | .testFlag =>
    if s.reactor = .testing then some { s with reactor := if s.isStopping then .finished else .acquiring } else none
  | .acquireInReactor =>
    if s.reactor = .acquiring ∧ s.lock = none then some { s with reactor := .polling, lock := some .reactorThread }
    else none
  -- any number of events is handled
  | .poll => if s.reactor = .polling then some s else none
  | .releaseInReactor => if s.reactor = .polling then some { s with reactor := .testing, lock := none } else none
  | .loadFlag =>
    if s.stop = .loading then some { s with stop := if s.isStopping then .returned else .storing } else none
  | .storeFlag => if s.stop = .storing then some { s with stop := .acquiring, isStopping := true } else none
  | .acquireInStop =>
    if s.stop = .acquiring ∧ s.lock = none then some { s with stop := .clearing, lock := some .stop } else none
  | .clearDescriptors => if s.stop = .clearing then some { s with stop := .joining } else none
  -- the join returns when the thread has ended
  | .join => if s.stop = .joining ∧ s.reactor = .finished then some { s with stop := .closing } else none
  | .closeAllSockets => if s.stop = .closing then some { s with stop := .releasing } else none
  | .releaseInStop => if s.stop = .releasing then some { s with stop := .returned, lock := none } else none

/-- `stop` waits for the thread with the lock in its hands, and the thread waits for the lock. -/
def Deadlocked (s : StopState) : Prop :=
  s.stop = .joining ∧ s.lock = some .stop ∧ s.reactor = .acquiring

/-- `stop` does not take the lock from a thread that has seen the flag unset and is about to take it. -/
def Unhindered (s : StopState) (a : StopAction) : Prop := a = .acquireInStop → s.reactor ≠ .acquiring

end StopState

/-- The states reached by steps that meet a condition, in any order. -/
inductive StopRun (condition : StopState → StopAction → Prop) : StopState → Prop
  | start : StopRun condition {}
  | step {s s' : StopState} {a : StopAction} (hs : StopRun condition s) (hc : condition s a)
      (h : s.step a = some s') : StopRun condition s'

section
variable {s s' : StopState} {a : StopAction}
open StopState

/-- Who has the lock, and that a thread for which `stop` waits has only the flag to test. -/
structure StopInv (s : StopState) : Prop where
  polling : s.reactor = .polling ↔ s.lock = some .reactorThread
  holding : s.lock = some .stop ↔
    s.stop = .clearing ∨ s.stop = .joining ∨ s.stop = .closing ∨ s.stop = .releasing
  flag : s.lock = some .stop ∨ s.stop = .acquiring → s.isStopping
  tested : s.lock = some .stop → s.reactor = .testing ∨ s.reactor = .finished

theorem StopInv.step (h : StopInv s) (hc : Unhindered s a) (hs : s.step a = some s') : StopInv s' := by
  obtain ⟨hpolling, hholding, hflag, htested⟩ := h
  cases a with
  | testFlag =>
    obtain ⟨hr, hs⟩ := Option.ite_none_right_eq_some.mp hs
    cases hs
    have hlock : s.lock ≠ some .reactorThread := fun hl => by simp [hpolling.mpr hl] at hr
    refine ⟨iff_of_false ?_ hlock, hholding, hflag, fun hl => .inr (if_pos (hflag (.inl hl)))⟩
    dsimp only
    split <;> simp
  | acquireInReactor =>
    obtain ⟨⟨hr, hl⟩, hs⟩ := Option.ite_none_right_eq_some.mp hs
    cases hs
    rw [hl] at hholding hflag
    exact ⟨by simp, by simpa using hholding, by simpa using hflag, by simp⟩
  | poll =>
    obtain ⟨-, hs⟩ := Option.ite_none_right_eq_some.mp hs
    cases hs
    exact ⟨hpolling, hholding, hflag, htested⟩
  | releaseInReactor =>
    obtain ⟨hr, hs⟩ := Option.ite_none_right_eq_some.mp hs
    cases hs
    rw [hpolling.mp hr] at hholding hflag
    exact ⟨by simp, by simpa using hholding, by simpa using hflag, by simp⟩
  | loadFlag =>
    obtain ⟨hr, hs⟩ := Option.ite_none_right_eq_some.mp hs
    cases hs
    have hlock : s.lock ≠ some .stop := fun hl => by simp [hr] at hholding; exact hholding hl
    refine ⟨hpolling, iff_of_false hlock ?_, fun hf => ?_, htested⟩
    · dsimp only
      split <;> simp
    · rcases hf with hl | hf
      · exact absurd hl hlock
      · dsimp only at hf
        split at hf <;> cases hf
  | storeFlag =>
    obtain ⟨hr, hs⟩ := Option.ite_none_right_eq_some.mp hs
    cases hs
    rw [hr] at hholding
    exact ⟨hpolling, by simpa using hholding, fun _ => rfl, htested⟩
  | acquireInStop =>
    obtain ⟨⟨hr, hl⟩, hs⟩ := Option.ite_none_right_eq_some.mp hs
    cases hs
    have hnot : s.reactor ≠ .polling := fun hp => by simp [hl] at hpolling; exact hpolling hp
    refine ⟨iff_of_false hnot (by simp), by simp, fun _ => hflag (.inr hr), fun _ => ?_⟩
    -- the thread is not about to take the lock either
    cases hreactor : s.reactor with
    | testing => exact .inl rfl
    | finished => exact .inr rfl
    | acquiring => exact absurd hreactor (hc rfl)
    | polling => exact absurd hreactor hnot
  | clearDescriptors =>
    obtain ⟨hr, hs⟩ := Option.ite_none_right_eq_some.mp hs
    cases hs
    have hl := hholding.mpr (.inl hr)
    exact ⟨hpolling, iff_of_true hl (.inr (.inl rfl)), fun _ => hflag (.inl hl), htested⟩
  | join =>
    obtain ⟨⟨hr, -⟩, hs⟩ := Option.ite_none_right_eq_some.mp hs
    cases hs
    have hl := hholding.mpr (.inr (.inl hr))
    exact ⟨hpolling, iff_of_true hl (.inr (.inr (.inl rfl))), fun _ => hflag (.inl hl), htested⟩
  | closeAllSockets =>
    obtain ⟨hr, hs⟩ := Option.ite_none_right_eq_some.mp hs
    cases hs
    have hl := hholding.mpr (.inr (.inr (.inl hr)))
    exact ⟨hpolling, iff_of_true hl (.inr (.inr (.inr rfl))), fun _ => hflag (.inl hl), htested⟩
  | releaseInStop =>
    obtain ⟨hr, hs⟩ := Option.ite_none_right_eq_some.mp hs
    cases hs
    have hl := hholding.mpr (.inr (.inr (.inr hr)))
    refine ⟨iff_of_false ?_ (by simp), by simp, by simp, by simp⟩
    rcases htested hl with h | h <;> simp [h]

theorem StopRun.inv (h : StopRun Unhindered s) : StopInv s := by
  induction h with
  | start => exact ⟨by simp, by simp, by simp, by simp⟩
  | step hs hc h ih => exact ih.step hc h

theorem unhindered_of_ne (ha : a ≠ .acquireInStop) : Unhindered s a := fun h => absurd h ha

/-- As long as `stop` has not returned, one of the threads can go on. -/
theorem StopInv.progress (h : StopInv s) (hs : s.stop ≠ .returned) : ∃ a s', Unhindered s a ∧ s.step a = some s' := by
  cases hstop : s.stop with
  | loading => exact ⟨.loadFlag, _, unhindered_of_ne (by decide), if_pos hstop⟩
  | storing => exact ⟨.storeFlag, _, unhindered_of_ne (by decide), if_pos hstop⟩
  | acquiring =>
    cases hlock : s.lock with
    | none =>
      by_cases hr : s.reactor = .acquiring
      · exact ⟨.acquireInReactor, _, unhindered_of_ne (by decide), if_pos ⟨hr, hlock⟩⟩
      · exact ⟨.acquireInStop, _, fun _ => hr, if_pos ⟨hstop, hlock⟩⟩
    | some owner =>
      cases owner with
      | reactorThread => exact ⟨.releaseInReactor, _, unhindered_of_ne (by decide), if_pos (h.polling.mpr hlock)⟩
      | stop =>
        have hholding := h.holding.mp hlock
        simp [hstop] at hholding
  | clearing => exact ⟨.clearDescriptors, _, unhindered_of_ne (by decide), if_pos hstop⟩
  | joining =>
    rcases h.tested (h.holding.mpr (.inr (.inl hstop))) with hr | hr
    · exact ⟨.testFlag, _, unhindered_of_ne (by decide), if_pos hr⟩
    · exact ⟨.join, _, unhindered_of_ne (by decide), if_pos ⟨hstop, hr⟩⟩
  | closing => exact ⟨.closeAllSockets, _, unhindered_of_ne (by decide), if_pos hstop⟩
  | releasing => exact ⟨.releaseInStop, _, unhindered_of_ne (by decide), if_pos hstop⟩
  | returned => exact absurd hstop hs

theorem StopInv.not_deadlocked (h : StopInv s) : ¬ Deadlocked s := by
  rintro ⟨-, hlock, hr⟩
  rcases h.tested hlock with h | h <;> simp [h] at hr

/-- Where `stop` takes the lock from a thread that is about to take it, both wait for ever. -/
theorem deadlocked_of_hindered (h : s.step .acquireInStop = some s') (hr : s.reactor = .acquiring) :
    ∃ t, s'.step .clearDescriptors = some t ∧ Deadlocked t ∧ ∀ a, t.step a = none := by
  obtain ⟨⟨hstop, hl⟩, hs⟩ := Option.ite_none_right_eq_some.mp h
  cases hs
  refine ⟨{ s with stop := .joining, lock := some .stop }, rfl, ⟨rfl, rfl, hr⟩, fun a => ?_⟩
  cases a <;> simp [StopState.step, hr]

/-- In every run in which `stop` takes the lock only when the thread is not about to take it, no state is a deadlock,
and until `stop` returns there is a next step. Where it takes the lock from a thread that is, both wait for ever. -/
theorem stop_never_deadlocks (h : StopRun Unhindered s) :
    ¬ Deadlocked s ∧ (s.stop ≠ .returned → ∃ a s', Unhindered s a ∧ s.step a = some s') ∧
    ∀ s', s.step .acquireInStop = some s' → s.reactor = .acquiring →
      ∃ t, s'.step .clearDescriptors = some t ∧ Deadlocked t ∧ ∀ a, t.step a = none :=
  ⟨h.inv.not_deadlocked, h.inv.progress, fun _ => deadlocked_of_hindered⟩

end

/-- The thread has polled once; `stop` has the lock, and the thread has the flag to test. -/
theorem stop_never_deadlocks_after_poll : ∃ s, StopRun StopState.Unhindered s ∧ s.stop = .joining ∧
    s.reactor = .testing ∧ ¬ s.Deadlocked := by
  have hpolling := (StopRun.start.step (a := .testFlag) (unhindered_of_ne (by decide)) rfl).step
    (a := .acquireInReactor) (unhindered_of_ne (by decide)) rfl
  have hstored := (hpolling.step (a := .loadFlag) (unhindered_of_ne (by decide)) rfl).step
    (a := .storeFlag) (unhindered_of_ne (by decide)) rfl
  have hreleased := hstored.step (a := .releaseInReactor) (unhindered_of_ne (by decide)) rfl
  have hjoining := (hreleased.step (a := .acquireInStop) (fun _ => by decide) rfl).step
    (a := .clearDescriptors) (unhindered_of_ne (by decide)) rfl
  exact ⟨_, hjoining, rfl, rfl, (stop_never_deadlocks hjoining).1⟩

/-- The thread has seen the flag unset; `stop` sets it, takes the lock and waits. -/
theorem stop_deadlocks_behind_test : ∃ s, StopRun (fun _ _ => True) s ∧ s.Deadlocked ∧ ∀ a, s.step a = none := by
  have hrun : StopRun (fun _ _ => True)
      { stop := .joining, isStopping := true, lock := some .stop, reactor := .acquiring } :=
    ((((StopRun.start.step (a := .testFlag) trivial rfl).step (a := .loadFlag) trivial rfl).step (a := .storeFlag)
      trivial rfl).step (a := .acquireInStop) trivial rfl).step (a := .clearDescriptors) trivial rfl
  refine ⟨_, hrun, ⟨rfl, rfl, rfl⟩, fun a => ?_⟩
  cases a <;> rfl

end Metamalloc.Reactor
