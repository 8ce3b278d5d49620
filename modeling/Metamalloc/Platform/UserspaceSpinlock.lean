import Metamalloc.Library.CriticalSections

/-! `UserspaceSpinlock`, and threads with code between its `lock` and `unlock`. Every access to memory is one step of
a thread, and any thread may come next. -/
namespace Metamalloc.Platform
open Library.Refinement Library.CriticalSections

/-- The value that was there, and the one that is there afterwards. -/
def builtinCas (value oldValue newValue : Nat) : Nat × Nat :=
  (value, if value = oldValue then newValue else value)

namespace UserspaceSpinlock

def unlocked : Nat := 0

def tryLock (flag : Nat) : Bool × Nat :=
  let (value, flag) := builtinCas flag 0 1
  (if value = 1 then false else true, flag)

/-- One round of the loops of `lock`, at a value of the inner counter; there is no next value when the lock has been
taken. Neither the pause nor the yield changes anything. -/
def lockRound (spinCount i flag : Nat) : Option Nat × Nat :=
  if i < spinCount then
    let (taken, flag) := tryLock flag
    (if taken then none else some (i + 1), flag)
  else (some 0, flag)

section
variable {spinCount i i' flag flag' : Nat}

theorem lockRound_failed (hflag : flag = 0 ∨ flag = 1) (h : lockRound spinCount i flag = (some i', flag')) :
    flag' = flag := by
  have hflags := congrArg Prod.snd h
  rcases hflag with rfl | rfl <;> by_cases hi : i < spinCount <;> simp_all [lockRound, tryLock, builtinCas]

theorem lockRound_taken (hflag : flag = 0 ∨ flag = 1) (h : lockRound spinCount i flag = (none, flag')) :
    flag = 0 ∧ flag' = 1 := by
  rcases hflag with rfl | rfl <;> by_cases hi : i < spinCount <;> simp_all [lockRound, tryLock, builtinCas]

end

/-- Exactly one thread has the lock while the flag is set, and nobody while it is not. -/
def Exclusive {ι : Type*} (flag : Nat) (holds : ι → Prop) : Prop :=
  (flag = 0 ∧ ∀ i, ¬ holds i) ∨ (flag = 1 ∧ ∃ i, ∀ j, holds j ↔ j = i)

section
variable {ι : Type*} {spinCount n flag flag' : Nat} {holds holds' : ι → Prop} {i j : ι}

theorem Exclusive.flag_cases (h : Exclusive flag holds) : flag = 0 ∨ flag = 1 := h.imp And.left And.left

theorem Exclusive.eq (h : Exclusive flag holds) (hi : holds i) (hj : holds j) : j = i := by
  rcases h with ⟨-, hnobody⟩ | ⟨-, k, hk⟩
  · exact absurd hi (hnobody i)
  · exact ((hk j).mp hj).trans ((hk i).mp hi).symm

theorem Exclusive.same (h : Exclusive flag holds) (hholds : ∀ j, holds' j ↔ holds j) : Exclusive flag holds' := by
  refine h.imp (And.imp_right fun hnobody j hj => hnobody j ((hholds j).mp hj)) (And.imp_right ?_)
  rintro ⟨i, hi⟩
  exact ⟨i, fun j => (hholds j).trans (hi j)⟩

theorem Exclusive.lock (h : Exclusive flag holds) (hround : lockRound spinCount n flag = (none, flag'))
    (hholds : ∀ j, holds' j ↔ j = i ∨ holds j) : Exclusive flag' holds' := by
  obtain ⟨rfl, rfl⟩ := lockRound_taken h.flag_cases hround
  obtain ⟨-, hnobody⟩ := h.resolve_right fun hone => absurd hone.1 (by decide)
  exact .inr ⟨rfl, i, fun j => (hholds j).trans (or_iff_left (hnobody j))⟩

theorem Exclusive.unlock (h : Exclusive flag holds) (hi : holds i) (hholds : ∀ j, holds' j ↔ j ≠ i ∧ holds j) :
    Exclusive unlocked holds' := by
  refine .inl ⟨rfl, fun j hj => ?_⟩
  obtain ⟨hne, hj⟩ := (hholds j).mp hj
  exact hne (h.eq hi hj)

end
end UserspaceSpinlock
open UserspaceSpinlock

section
variable {ι ω κ ρ σ : Type*} [DecidableEq ι]

/-- Where a thread is: spinning in `lock`, between `lock` and `unlock`, or in front of `unlock` with its result. -/
inductive SpinPhase (ω κ ρ : Type*) where
  | idle
  | spinning (op : ω) (i : Nat)
  | inside (op : ω) (k : κ)
  | leaving (result : ρ)

namespace SpinPhase

def Holds : SpinPhase ω κ ρ → Prop
  | .inside _ _ | .leaving _ => True
  | .idle | .spinning _ _ => False

def phase : SpinPhase ω κ ρ → Phase ω κ ρ
  | .idle => .idle
  | .spinning op _ => .waiting op
  | .inside op k => .inside op k
  | .leaving r => .leaving r

end SpinPhase

structure Spinning (ι ω κ ρ σ : Type*) where
  object : σ
  flag : Nat
  phases : ι → SpinPhase ω κ ρ

inductive Spinning.Moves (spinCount : Nat) (code : Code ω κ ρ σ) (i : ι) : SpinPhase ω κ ρ → Nat → σ →
    Option (CallEvent ι ω ρ) → SpinPhase ω κ ρ → Nat → σ → Prop
  | call (op : ω) (flag : Nat) (s : σ) : Moves spinCount code i .idle flag s (some (.called i op)) (.spinning op 0) flag s
  | spin {op : ω} {n n' flag flag' : Nat} {s : σ} (h : lockRound spinCount n flag = (some n', flag')) :
      Moves spinCount code i (.spinning op n) flag s none (.spinning op n') flag' s
  | lock {op : ω} {n flag flag' : Nat} {s : σ} (h : lockRound spinCount n flag = (none, flag')) :
      Moves spinCount code i (.spinning op n) flag s none (.inside op (code.entry op)) flag' s
  | move {op : ω} {k k' : κ} {flag : Nat} {s s' : σ} (h : code.next k s s' (.inl k')) :
      Moves spinCount code i (.inside op k) flag s none (.inside op k') flag s'
  | finish {op : ω} {k : κ} {r : ρ} {flag : Nat} {s s' : σ} (h : code.next k s s' (.inr r)) :
      Moves spinCount code i (.inside op k) flag s none (.leaving r) flag s'
  | unlock (r : ρ) (flag : Nat) (s : σ) :
      Moves spinCount code i (.leaving r) flag s (some (.returned i r)) .idle unlocked s

def spinning (spinCount : Nat) (start : σ → Prop) (code : Code ω κ ρ σ) :
    TransitionSystem (Spinning ι ω κ ρ σ) (CallEvent ι ω ρ) where
  start := fun c => start c.object ∧ c.flag = unlocked ∧ c.phases = fun _ => .idle
  step := fun c e c' => ∃ i phase, Spinning.Moves spinCount code i (c.phases i) c.flag c.object e phase c'.flag
      c'.object ∧
    c'.phases = Function.update c.phases i phase

structure Spinning.Shows (c : Spinning ι ω κ ρ σ) (l : Locked ι ω κ ρ σ) : Prop where
  object : l.object = c.object
  phases : l.phases = SpinPhase.phase ∘ c.phases
  free : c.flag = 0 ∧ l.holder = none ∨ c.flag = 1 ∧ l.holder ≠ none

variable {spinCount : Nat} {start : σ → Prop} {code : Code ω κ ρ σ}

/-- A failed attempt shows nothing; a successful one takes the lock. -/
theorem spinning_simulates : Simulation (spinning (ι := ι) spinCount start code) (locked start code)
    fun c l => l.Excludes ∧ c.Shows l := by
  constructor
  · rintro ⟨s, flag, phases⟩ ⟨hs, hflag, hphases⟩
    dsimp only at hs hflag hphases
    subst hflag hphases
    exact ⟨⟨s, none, fun _ => .idle⟩, ⟨hs, rfl, rfl⟩, fun i => by simp [Phase.Holds], rfl, rfl, .inl ⟨rfl, rfl⟩⟩
  · rintro ⟨s₀, flag, phases⟩ ⟨s, holder, lockPhases⟩ e ⟨s', flag', phases'⟩ ⟨hex, hobject, hphases, hfree⟩
      ⟨i, phase, hmove, hphases'⟩
    dsimp only at hobject hphases hfree hmove hphases'
    subst hobject hphases hphases'
    have hflag : flag = 0 ∨ flag = 1 := hfree.imp And.left And.left
    suffices hsuff : ∃ holder', (flag' = 0 ∧ holder' = none ∨ flag' = 1 ∧ holder' ≠ none) ∧
        (Locked.Moves code i (phases i).phase holder s e phase.phase holder' s' ∨
          e = none ∧ s' = s ∧ holder' = holder ∧ phase.phase = (phases i).phase) by
      obtain ⟨holder', hfree', hmoves | ⟨rfl, rfl, rfl, hsame⟩⟩ := hsuff
      · have hstep : (locked start code).step ⟨s, holder, SpinPhase.phase ∘ phases⟩ e
            ⟨s', holder', SpinPhase.phase ∘ Function.update phases i phase⟩ :=
          ⟨i, phase.phase, hmoves, Function.comp_update SpinPhase.phase phases i phase⟩
        exact ⟨_, ⟨Locked.excludes_step hex hstep, rfl, rfl, hfree'⟩, .inl hstep⟩
      · refine ⟨_, ⟨hex, rfl, ?_, hfree'⟩, .inr ⟨rfl, rfl⟩⟩
        have hself : phase.phase = (SpinPhase.phase ∘ phases) i := hsame
        dsimp only
        rw [Function.comp_update, hself, Function.update_eq_self]
    generalize phases i = before at hmove
    cases hmove with
    | call op => exact ⟨holder, hfree, .inl (.call op holder s)⟩
    | spin h =>
      obtain rfl := lockRound_failed hflag h
      exact ⟨holder, hfree, .inr ⟨rfl, rfl, rfl, rfl⟩⟩
    | lock h =>
      obtain ⟨rfl, rfl⟩ := lockRound_taken hflag h
      obtain ⟨-, rfl⟩ := hfree.resolve_right fun hone => absurd hone.1 (by decide)
      exact ⟨some i, .inr ⟨rfl, Option.some_ne_none i⟩, .inl (.enter _ s)⟩
    | move h => exact ⟨holder, hfree, .inl (.move h)⟩
    | finish h => exact ⟨holder, hfree, .inl (.finish h)⟩
    | unlock r => exact ⟨none, .inl ⟨rfl, rfl⟩, .inl (.leave r holder s)⟩

/-- Whatever runs behind the lock, its callers see an object that performs their operations at once. -/
theorem spinlock_linearizes {trace : List (CallEvent ι ω ρ)} {c : Spinning ι ω κ ρ σ}
    (h : Run (spinning spinCount start code) trace c) : ∃ a, Run (atomic start code.Performs) trace a := by
  obtain ⟨a, ha, -⟩ := (spinning_simulates.comp locked_simulates).run h
  exact ⟨a, ha⟩

section
variable {trace : List (CallEvent ι ω ρ)} {s : σ} {flag : Nat} {phases : ι → SpinPhase ω κ ρ} {i j : ι} {op : ω} {k : κ}

/-- One thread at most is between `lock` and `unlock`. -/
def Spinning.Excludes (c : Spinning ι ω κ ρ σ) : Prop := Exclusive c.flag fun i => (c.phases i).Holds

theorem SpinPhase.holds_phase (p : SpinPhase ω κ ρ) : p.phase.Holds ↔ p.Holds := by
  cases p <;> exact Iff.rfl

theorem run_excludes {c : Spinning ι ω κ ρ σ} (h : Run (spinning spinCount start code) trace c) : c.Excludes := by
  obtain ⟨l, -, hex, hshows⟩ := spinning_simulates.run h
  have hholds : ∀ j, (c.phases j).Holds ↔ l.holder = some j := by
    intro j
    rw [← hex j, hshows.phases]
    exact (SpinPhase.holds_phase _).symm
  rcases hshows.free with ⟨hflag, hholder⟩ | ⟨hflag, hholder⟩
  · exact .inl ⟨hflag, fun j hj => Option.some_ne_none j (((hholds j).mp hj).symm.trans hholder)⟩
  · obtain ⟨i, hi⟩ := Option.ne_none_iff_exists'.mp hholder
    refine .inr ⟨hflag, i, fun j => (hholds j).trans ?_⟩
    rw [hi]
    exact ⟨fun he => (Option.some.inj he).symm, fun he => congrArg some he.symm⟩

theorem run_moves {e : Option (CallEvent ι ω ρ)} {before phase : SpinPhase ω κ ρ} {flag' : Nat} {s' : σ}
    (h : Run (spinning spinCount start code) trace ⟨s, flag, phases⟩) (hi : phases i = before)
    (hmove : Spinning.Moves spinCount code i before flag s e phase flag' s') :
    Run (spinning spinCount start code) (trace ++ e.toList) ⟨s', flag', Function.update phases i phase⟩ := by
  subst hi
  exact h.step ⟨i, phase, hmove, rfl⟩

theorem run_internal {before phase : SpinPhase ω κ ρ} {flag' : Nat} {s' : σ}
    (h : Run (spinning spinCount start code) trace ⟨s, flag, phases⟩) (hi : phases i = before)
    (hmove : Spinning.Moves spinCount code i before flag s none phase flag' s') :
    Run (spinning spinCount start code) trace ⟨s', flag', Function.update phases i phase⟩ := by
  have hrun := run_moves h hi hmove
  rwa [Option.toList_none, List.append_nil] at hrun

theorem run_leaving {r : ρ} (h : Run (spinning spinCount start code) trace ⟨s, flag, phases⟩)
    (hi : phases i = .leaving r) : ∃ c', Run (spinning spinCount start code) (trace ++ [.returned i r]) c' :=
  ⟨_, run_moves h hi (.unlock r flag s)⟩

/-- The thread in the code runs to its end while the others wait. -/
theorem run_inside (hcode : code.Finishes k s) (h : Run (spinning spinCount start code) trace ⟨s, flag, phases⟩)
    (hi : phases i = .inside op k) :
    ∃ r c', Run (spinning spinCount start code) (trace ++ [.returned i r]) c' := by
  induction hcode generalizing phases with
  | last hlast => exact ⟨_, run_leaving (run_internal h hi (.finish hlast)) (Function.update_self ..)⟩
  | more hmore _ ih => exact ih (run_internal h hi (.move hmore)) (Function.update_self ..)

/-- A thread that finds the flag cleared takes the lock, behind a yield at most. -/
theorem run_spinning {n : Nat} (hspin : 0 < spinCount) (hcode : code.Finishes (code.entry op) s)
    (h : Run (spinning spinCount start code) trace ⟨s, 0, phases⟩) (hi : phases i = .spinning op n) :
    ∃ r c', Run (spinning spinCount start code) (trace ++ [.returned i r]) c' := by
  by_cases hn : n < spinCount
  · have hround : lockRound spinCount n 0 = (none, 1) := by simp [lockRound, hn, tryLock, builtinCas]
    exact run_inside hcode (run_internal h hi (.lock hround)) (Function.update_self ..)
  · have hyield : lockRound spinCount n 0 = (some 0, 0) := by simp [lockRound, hn]
    have hround : lockRound spinCount 0 0 = (none, 1) := by simp [lockRound, hspin, tryLock, builtinCas]
    have hback := run_internal h hi (.spin hyield)
    exact run_inside hcode (run_internal hback (Function.update_self ..) (.lock hround)) (Function.update_self ..)

end

/-- In every run, one thread at most is between `lock` and `unlock`; and as long as somebody is in a call, some call can
still return, if the code behind the lock comes to an end. -/
theorem spinlock_excludes {trace : List (CallEvent ι ω ρ)} {c : Spinning ι ω κ ρ σ}
    (h : Run (spinning spinCount start code) trace c) :
    c.Excludes ∧ (0 < spinCount → (∀ op s k s', code.Within op s k s' → code.Finishes k s') →
      ∀ i, c.phases i ≠ .idle → ∃ j r c', Run (spinning spinCount start code) (trace ++ [.returned j r]) c') := by
  refine ⟨run_excludes h, fun hspin hcode i hi => ?_⟩
  obtain ⟨a, -, l, ⟨-, hshows⟩, -, hatomic⟩ := (spinning_simulates.comp locked_simulates).run h
  obtain ⟨s, flag, phases⟩ := c
  rcases run_excludes h with ⟨hflag, hnobody⟩ | ⟨-, j, hj⟩
  · dsimp only at hflag hnobody hi
    subst hflag
    cases hphase : phases i with
    | idle => exact absurd hphase hi
    | spinning op n =>
      obtain ⟨r, c', hrun⟩ := run_spinning hspin (hcode op s _ s .entry) h hphase
      exact ⟨i, r, c', hrun⟩
    | inside op k => exact absurd (by rw [hphase]; trivial) (hnobody i)
    | leaving r => exact absurd (by rw [hphase]; trivial) (hnobody i)
  · have hholds := (hj j).mpr rfl
    dsimp only at hholds
    cases hphase : phases j with
    | idle =>
      rw [hphase] at hholds
      exact hholds.elim
    | spinning op n =>
      rw [hphase] at hholds
      exact hholds.elim
    | inside op k =>
      have hinside : l.phases j = .inside op k := by
        rw [hshows.phases]
        exact congrArg SpinPhase.phase hphase
      have hwithin := hatomic.inside j op k hinside
      rw [hshows.object] at hwithin
      obtain ⟨r, c', hrun⟩ := run_inside (hcode op a.object k s hwithin) h hphase
      exact ⟨j, r, c', hrun⟩
    | leaving r =>
      obtain ⟨c', hrun⟩ := run_leaving h hphase
      exact ⟨j, r, c', hrun⟩

end

/-- An increment in two steps: a read, and a write of what was read plus one. -/
def countCode : Code Unit (Option Nat) Nat Nat where
  entry := fun _ => none
  next := fun k s s' o =>
    match k with
    | none => s' = s ∧ o = .inl (some s)
    | some n => s' = n + 1 ∧ o = .inr n

theorem countCode_finishes (k : Option Nat) (s : Nat) : countCode.Finishes k s := by
  have hsome : ∀ n s, countCode.Finishes (some n) s := fun n s => .last (r := n) ⟨rfl, rfl⟩
  cases k with
  | none => exact .more ⟨rfl, rfl⟩ (hsome s s)
  | some n => exact hsome n s

/-- One thread has the lock and has read the counter; the other one spins. -/
theorem run_twoCounters : ∃ phases : Bool → SpinPhase Unit (Option Nat) Nat,
    Run (spinning 1024 (· = 0) countCode) [.called false (), .called true ()] ⟨0, 1, phases⟩ ∧
      phases false = .spinning () 1 ∧ phases true = .inside () (some 0) := by
  have htaken : lockRound 1024 0 0 = (none, 1) := by decide
  have hfailed : lockRound 1024 0 1 = (some 1, 1) := by decide
  have h₀ : Run (spinning 1024 (· = 0) countCode) [] ⟨0, 0, fun _ : Bool => .idle⟩ := .start ⟨rfl, rfl, rfl⟩
  have h₁ := run_moves (i := false) h₀ rfl (.call () 0 0)
  have h₂ := run_moves (i := true) h₁ rfl (.call () 0 0)
  have h₃ := run_internal (i := true) h₂ rfl (.lock htaken)
  have h₄ := run_internal (i := true) h₃ rfl (.move ⟨rfl, rfl⟩)
  have h₅ := run_internal (i := false) h₄ rfl (.spin hfailed)
  exact ⟨_, h₅, rfl, rfl⟩

/-- The one with the lock returns first; the other one then counts on from what it has left. -/
theorem run_twoCounters_returned : ∃ c : Spinning Bool Unit (Option Nat) Nat Nat,
    Run (spinning 1024 (· = 0) countCode)
      [.called false (), .called true (), .returned true 0, .returned false 1] c ∧ c.object = 2 := by
  have htaken : lockRound 1024 1 0 = (none, 1) := by decide
  obtain ⟨phases, h, hfalse, htrue⟩ := run_twoCounters
  have hfirst : countCode.next (some 0) 0 1 (.inr 0) := ⟨rfl, rfl⟩
  have hread : countCode.next none 1 1 (.inl (some 1)) := ⟨rfl, rfl⟩
  have hsecond : countCode.next (some 1) 1 2 (.inr 1) := ⟨rfl, rfl⟩
  have h₁ := run_internal (i := true) h htrue (.finish hfirst)
  have h₂ := run_moves (i := true) h₁ (Function.update_self ..) (.unlock 0 1 1)
  have hwaits : Function.update (Function.update phases true (.leaving 0)) true .idle false = .spinning () 1 := by
    simp [hfalse]
  have h₃ := run_internal (i := false) h₂ hwaits (.lock htaken)
  have h₄ := run_internal (i := false) h₃ (Function.update_self ..) (.move hread)
  have h₅ := run_internal (i := false) h₄ (Function.update_self ..) (.finish hsecond)
  exact ⟨_, run_moves (i := false) h₅ (Function.update_self ..) (.unlock 1 1 2), rfl⟩

/-- The calls return in the other order than they were made. -/
theorem twoCounters_linearize : (∃ c : Spinning Bool Unit (Option Nat) Nat Nat,
      Run (spinning 1024 (· = 0) countCode)
        [.called false (), .called true (), .returned true 0, .returned false 1] c) ∧
    ∃ a : Atomic Bool Unit Nat Nat, Run (atomic (· = 0) countCode.Performs)
      [.called false (), .called true (), .returned true 0, .returned false 1] a := by
  obtain ⟨c, h, -⟩ := run_twoCounters_returned
  exact ⟨⟨c, h⟩, spinlock_linearizes h⟩

theorem twoCounters_excluded : ∃ c : Spinning Bool Unit (Option Nat) Nat Nat,
    Run (spinning 1024 (· = 0) countCode) [.called false (), .called true ()] c ∧ c.Excludes ∧
    ∃ j r c', Run (spinning 1024 (· = 0) countCode) ([.called false (), .called true ()] ++ [.returned j r])
      (c' : Spinning Bool Unit (Option Nat) Nat Nat) := by
  obtain ⟨phases, h, hphase, -⟩ := run_twoCounters
  obtain ⟨hex, hreturns⟩ := spinlock_excludes h
  refine ⟨_, h, hex, hreturns (by decide) (fun _ _ k s' _ => countCode_finishes k s') false ?_⟩
  dsimp only
  rw [hphase]
  nofun

end Metamalloc.Platform
