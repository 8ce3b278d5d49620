import Mathlib.Logic.Relation
import Metamalloc.Allocator.AllocationCalls
import Metamalloc.Platform.UserspaceSpinlock

/-! The shared object that is preloaded in front of the allocator of the C library: its first calls of `malloc` create
the allocator, whichever threads they come from. -/
namespace Metamalloc.Allocator
open Library.Refinement Library.CriticalSections Platform Platform.UserspaceSpinlock Pages Segments Heaps

/-- The variables that all threads see; `std::terminate` ends them all. -/
structure SharedData (σ : Type*) where
  allocator : σ
  sharedObjectLoaded : Bool := false
  initialisationLock : Nat := unlocked
  terminated : Bool := false

/-- Where a thread is. Behind the initialisation a thread goes on with its request; the constructor of the shared
object has none. -/
inductive LoadPhase (κ : Type*) where
  | idle
  /-- In front of the test in `malloc`. -/
  | testing (size : Nat)
  /-- In front of the first test in `initialise_shared_object`. -/
  | entering (request : Option Nat)
  | spinning (request : Option Nat) (i : Nat)
  /-- In front of the second test, with the lock. -/
  | checking (request : Option Nat)
  | creating (request : Option Nat) (k : κ)
  | storing (request : Option Nat)
  | unlocking (request : Option Nat)
  | allocating (size : Nat)

namespace LoadPhase
variable {κ : Type*}

def resume : Option Nat → LoadPhase κ
  | none => .idle
  | some size => .allocating size

def Holds : LoadPhase κ → Prop
  | .checking _ | .creating _ _ | .storing _ | .unlocking _ => True
  | _ => False

/-- Between the second test and the store to `shared_object_loaded`. -/
def Working : LoadPhase κ → Prop
  | .creating _ _ | .storing _ => True
  | _ => False

def Ready : LoadPhase κ → Prop
  | .unlocking _ | .allocating _ => True
  | _ => False

end LoadPhase
open LoadPhase

structure SharedObject (ι κ σ : Type*) where
  data : SharedData σ
  phases : ι → LoadPhase κ

section
variable {ι κ σ : Type*} [DecidableEq ι]

/-- The steps of a thread: one access to a shared variable each, and the creation step by step. -/
inductive SharedObject.Moves (spinCount : Nat) (creation : Code Unit κ Bool σ) (call : ι → Nat → σ → σ → Prop) (i : ι) :
    LoadPhase κ → SharedData σ → Option (ι × Nat) → LoadPhase κ → SharedData σ → Prop
  | malloc (size : Nat) (d : SharedData σ) : Moves spinCount creation call i .idle d none (.testing size) d
  | constructor (d : SharedData σ) : Moves spinCount creation call i .idle d none (.entering none) d
  | test (size : Nat) (d : SharedData σ) : Moves spinCount creation call i (.testing size) d none
      (if d.sharedObjectLoaded then .allocating size else .entering (some size)) d
  | enter (request : Option Nat) (d : SharedData σ) : Moves spinCount creation call i (.entering request) d none
      (if d.sharedObjectLoaded then resume request else .spinning request 0) d
  | spin {request : Option Nat} {n n' flag' : Nat} {d : SharedData σ}
      (h : lockRound spinCount n d.initialisationLock = (some n', flag')) :
      Moves spinCount creation call i (.spinning request n) d none (.spinning request n')
        { d with initialisationLock := flag' }
  | lock {request : Option Nat} {n flag' : Nat} {d : SharedData σ}
      (h : lockRound spinCount n d.initialisationLock = (none, flag')) :
      Moves spinCount creation call i (.spinning request n) d none (.checking request)
        { d with initialisationLock := flag' }
  | check (request : Option Nat) (d : SharedData σ) : Moves spinCount creation call i (.checking request) d none
      (if d.sharedObjectLoaded then .unlocking request else .creating request (creation.entry ())) d
  | create {request : Option Nat} {k k' : κ} {d : SharedData σ} {s' : σ}
      (h : creation.next k d.allocator s' (.inl k')) :
      Moves spinCount creation call i (.creating request k) d none (.creating request k') { d with allocator := s' }
  | created {request : Option Nat} {k : κ} {d : SharedData σ} {s' : σ}
      (h : creation.next k d.allocator s' (.inr true)) :
      Moves spinCount creation call i (.creating request k) d none (.storing request) { d with allocator := s' }
  | failed {request : Option Nat} {k : κ} {d : SharedData σ} {s' : σ}
      (h : creation.next k d.allocator s' (.inr false)) :
      Moves spinCount creation call i (.creating request k) d none (.creating request k)
        { d with allocator := s', terminated := true }
  | store (request : Option Nat) (d : SharedData σ) :
      Moves spinCount creation call i (.storing request) d none (.unlocking request)
        { d with sharedObjectLoaded := true }
  | unlock (request : Option Nat) (d : SharedData σ) :
      Moves spinCount creation call i (.unlocking request) d none (resume request)
        { d with initialisationLock := unlocked }
  | allocate {size : Nat} {d : SharedData σ} {s' : σ} (h : call i size d.allocator s') :
      Moves spinCount creation call i (.allocating size) d (some (i, size)) .idle { d with allocator := s' }

/-- Threads of a process that has been started with the shared object; they show their calls of `allocate`. -/
def preloaded (spinCount : Nat) (initial : σ) (creation : Code Unit κ Bool σ) (call : ι → Nat → σ → σ → Prop) :
    TransitionSystem (SharedObject ι κ σ) (ι × Nat) where
  start := fun c => c = ⟨{ allocator := initial }, fun _ => .idle⟩
  step := fun c e c' => c.data.terminated = false ∧ ∃ i phase,
    SharedObject.Moves spinCount creation call i (c.phases i) c.data e phase c'.data ∧
      c'.phases = Function.update c.phases i phase

section
variable (initial : σ) (creation : Code Unit κ Bool σ) (call : ι → Nat → σ → σ → Prop)

def InService (s : σ) : Prop :=
  ∃ s₁, creation.Performs () initial true s₁ ∧ Relation.ReflTransGen (fun s s' => ∃ i size, call i size s s') s₁ s

/-- How far the creation has come. -/
inductive SharedObject.Stage (c : SharedObject ι κ σ) : Prop
  | before (hloaded : c.data.sharedObjectLoaded = false) (h : c.data.allocator = initial)
      (hnobody : ∀ i, ¬ (c.phases i).Working)
  | during {i : ι} {request : Option Nat} {k : κ} (hloaded : c.data.sharedObjectLoaded = false)
      (hi : c.phases i = .creating request k) (h : creation.Within () initial k c.data.allocator)
  | behind {i : ι} {request : Option Nat} (hloaded : c.data.sharedObjectLoaded = false)
      (hi : c.phases i = .storing request) (h : creation.Performs () initial true c.data.allocator)
  | inService (hloaded : c.data.sharedObjectLoaded = true) (h : InService initial creation call c.data.allocator)
      (hnobody : ∀ i, ¬ (c.phases i).Working)
  | terminated (hloaded : c.data.sharedObjectLoaded = false) (hterminated : c.data.terminated = true)
      (h : creation.Performs () initial false c.data.allocator)

structure SharedObject.Inv (c : SharedObject ι κ σ) : Prop where
  exclusive : Exclusive c.data.initialisationLock fun i => (c.phases i).Holds
  ready : ∀ i, (c.phases i).Ready → c.data.sharedObjectLoaded = true
  stage : c.Stage initial creation call

end

variable {spinCount : Nat} {initial : σ} {creation : Code Unit κ Bool σ} {call : ι → Nat → σ → σ → Prop}
  {d d' : SharedData σ} {phases : ι → LoadPhase κ} {i j : ι} {phase : LoadPhase κ} {trace : List (ι × Nat)}

section
omit [DecidableEq ι]

theorem LoadPhase.Working.holds (h : phase.Working) : phase.Holds := by
  cases phase <;> first | exact h | trivial

namespace SharedObject

/-- The second test finds nobody at work, and the allocator as it was at the beginning. -/
theorem Stage.unloaded (h : Stage initial creation call ⟨d, phases⟩) (hloaded : d.sharedObjectLoaded = false)
    (hterminated : d.terminated = false) (halone : ∀ j, (phases j).Working → j = i) (hi : ¬ (phases i).Working) :
    d.allocator = initial := by
  cases h with
  | before _ h _ => exact h
  | @during j request k _ hj h =>
    have hworking : (phases j).Working := by
      rw [show phases j = _ from hj]
      trivial
    exact absurd (halone j hworking ▸ hworking) hi
  | @behind j request _ hj h =>
    have hworking : (phases j).Working := by
      rw [show phases j = _ from hj]
      trivial
    exact absurd (halone j hworking ▸ hworking) hi
  | inService hl h hnobody => exact absurd (hloaded.symm.trans hl) (by decide)
  | terminated hl ht h => exact absurd (hterminated.symm.trans ht) (by decide)

theorem Stage.creating {request : Option Nat} {k : κ} (h : Stage initial creation call ⟨d, phases⟩)
    (hterminated : d.terminated = false) (halone : ∀ j, (phases j).Working → j = i)
    (hi : phases i = .creating request k) :
    d.sharedObjectLoaded = false ∧ creation.Within () initial k d.allocator := by
  have hworking : (phases i).Working := by
    rw [hi]
    trivial
  cases h with
  | before _ _ hnobody => exact absurd hworking (hnobody i)
  | @during j request' k' hl hj h =>
    obtain rfl : j = i := halone j (by rw [show phases j = _ from hj]; trivial)
    cases hi.symm.trans hj
    exact ⟨hl, h⟩
  | @behind j request' hl hj h =>
    obtain rfl : j = i := halone j (by rw [show phases j = _ from hj]; trivial)
    cases hi.symm.trans hj
  | inService _ _ hnobody => exact absurd hworking (hnobody i)
  | terminated hl ht h => exact absurd (hterminated.symm.trans ht) (by decide)

theorem Stage.storing {request : Option Nat} (h : Stage initial creation call ⟨d, phases⟩)
    (hterminated : d.terminated = false) (halone : ∀ j, (phases j).Working → j = i)
    (hi : phases i = .storing request) : creation.Performs () initial true d.allocator := by
  have hworking : (phases i).Working := by
    rw [hi]
    trivial
  cases h with
  | before _ _ hnobody => exact absurd hworking (hnobody i)
  | @during j request' k' hl hj h =>
    obtain rfl : j = i := halone j (by rw [show phases j = _ from hj]; trivial)
    cases hi.symm.trans hj
  | behind hl hj h => exact h
  | inService _ _ hnobody => exact absurd hworking (hnobody i)
  | terminated hl ht h => exact absurd (hterminated.symm.trans ht) (by decide)

theorem Stage.loaded (h : Stage initial creation call ⟨d, phases⟩) (hloaded : d.sharedObjectLoaded = true) :
    InService initial creation call d.allocator ∧ ∀ j, ¬ (phases j).Working := by
  cases h with
  | inService _ h hnobody => exact ⟨h, hnobody⟩
  | before hl => exact absurd (hloaded.symm.trans hl) (by decide)
  | during hl => exact absurd (hloaded.symm.trans hl) (by decide)
  | behind hl => exact absurd (hloaded.symm.trans hl) (by decide)
  | terminated hl => exact absurd (hloaded.symm.trans hl) (by decide)

end SharedObject
end

theorem update_same {P : LoadPhase κ → Prop} (h : P phase ↔ P (phases i)) (j : ι) :
    P (Function.update phases i phase j) ↔ P (phases j) := by
  by_cases hji : j = i
  · subst hji
    rwa [Function.update_self]
  · rw [Function.update_of_ne hji]

theorem update_gained {P : LoadPhase κ → Prop} (h : P phase) (j : ι) :
    P (Function.update phases i phase j) ↔ j = i ∨ P (phases j) := by
  by_cases hji : j = i
  · subst hji
    simpa using h
  · rw [Function.update_of_ne hji]
    simp [hji]

theorem update_lost {P : LoadPhase κ → Prop} (h : ¬ P phase) (j : ι) :
    P (Function.update phases i phase j) ↔ j ≠ i ∧ P (phases j) := by
  by_cases hji : j = i
  · subst hji
    simpa using h
  · rw [Function.update_of_ne hji]
    simp [hji]

theorem resume_idle (request : Option Nat) :
    ¬ (resume request : LoadPhase κ).Holds ∧ ¬ (resume request : LoadPhase κ).Working := by
  cases request <;> exact ⟨id, id⟩

namespace SharedObject

theorem Stage.keep (h : Stage initial creation call ⟨d, phases⟩) (hbefore : ¬ (phases i).Working)
    (hphase : ¬ phase.Working) (hloaded : d'.sharedObjectLoaded = d.sharedObjectLoaded)
    (hallocator : d'.allocator = d.allocator) (hterminated : d'.terminated = d.terminated) :
    Stage initial creation call ⟨d', Function.update phases i phase⟩ := by
  have hsame : ∀ j, (Function.update phases i phase j).Working ↔ (phases j).Working :=
    update_same (iff_of_false hphase hbefore)
  have hother : ∀ j, (phases j).Working → Function.update phases i phase j = phases j := by
    intro j hj
    refine Function.update_of_ne ?_ _ _
    rintro rfl
    exact hbefore hj
  cases h with
  | before hl h hnobody =>
    exact .before (hloaded.trans hl) (hallocator.trans h) fun j hj => hnobody j ((hsame j).mp hj)
  | @during j request k hl hj h =>
    dsimp only at hj h
    refine .during (hloaded.trans hl) ((hother j (by rw [hj]; trivial)).trans hj) ?_
    dsimp only
    rwa [hallocator]
  | @behind j request hl hj h =>
    dsimp only at hj h
    refine .behind (hloaded.trans hl) ((hother j (by rw [hj]; trivial)).trans hj) ?_
    dsimp only
    rwa [hallocator]
  | inService hl h hnobody =>
    refine .inService (hloaded.trans hl) ?_ fun j hj => hnobody j ((hsame j).mp hj)
    dsimp only at h ⊢
    rwa [hallocator]
  | terminated hl ht h =>
    refine .terminated (hloaded.trans hl) (hterminated.trans ht) ?_
    dsimp only at h ⊢
    rwa [hallocator]

theorem ready_update (hready : ∀ j, (phases j).Ready → d.sharedObjectLoaded = true)
    (hphase : phase.Ready → d'.sharedObjectLoaded = true)
    (hkeeps : d.sharedObjectLoaded = true → d'.sharedObjectLoaded = true) :
    ∀ j, (Function.update phases i phase j).Ready → d'.sharedObjectLoaded = true := by
  intro j hj
  by_cases hji : j = i
  · subst hji
    rw [Function.update_self] at hj
    exact hphase hj
  · rw [Function.update_of_ne hji] at hj
    exact hkeeps (hready j hj)

theorem Inv.step {c c' : SharedObject ι κ σ} {e : Option (ι × Nat)} (h : c.Inv initial creation call)
    (hs : (preloaded spinCount initial creation call).step c e c') : c'.Inv initial creation call := by
  obtain ⟨d, phases⟩ := c
  obtain ⟨d', phases'⟩ := c'
  obtain ⟨hterminated, i, phase, hmove, hphases⟩ := hs
  obtain ⟨hex, hready, hstage⟩ := h
  dsimp only at hterminated hmove hphases hex hready
  subst hphases
  have halone : (phases i).Holds → ∀ j, (phases j).Working → j = i := fun hi j hj => hex.eq hi hj.holds
  generalize hbefore : phases i = before at hmove
  have hwas : ∀ {P : LoadPhase κ → Prop}, P (phases i) ↔ P before := by
    intro P
    rw [hbefore]
  cases hmove with
  | malloc size =>
    exact ⟨hex.same (update_same (iff_of_false id (hwas.not.mpr id))), ready_update hready nofun id,
      hstage.keep (hwas.not.mpr id) id rfl rfl rfl⟩
  | constructor =>
    exact ⟨hex.same (update_same (iff_of_false id (hwas.not.mpr id))), ready_update hready nofun id,
      hstage.keep (hwas.not.mpr id) id rfl rfl rfl⟩
  | test size =>
    split
    · next hloaded =>
      exact ⟨hex.same (update_same (iff_of_false id (hwas.not.mpr id))), ready_update hready (fun _ => hloaded) id,
        hstage.keep (hwas.not.mpr id) id rfl rfl rfl⟩
    · exact ⟨hex.same (update_same (iff_of_false id (hwas.not.mpr id))), ready_update hready nofun id,
        hstage.keep (hwas.not.mpr id) id rfl rfl rfl⟩
  | enter request =>
    split
    · next hloaded =>
      exact ⟨hex.same (update_same (iff_of_false (resume_idle request).1 (hwas.not.mpr id))),
        ready_update hready (fun _ => hloaded) id, hstage.keep (hwas.not.mpr id) (resume_idle request).2 rfl rfl rfl⟩
    · exact ⟨hex.same (update_same (iff_of_false id (hwas.not.mpr id))), ready_update hready nofun id,
        hstage.keep (hwas.not.mpr id) id rfl rfl rfl⟩
  | spin hround =>
    obtain rfl := lockRound_failed hex.flag_cases hround
    exact ⟨hex.same (update_same (iff_of_false id (hwas.not.mpr id))), ready_update hready nofun id,
      hstage.keep (hwas.not.mpr id) id rfl rfl rfl⟩
  | lock hround =>
    exact ⟨hex.lock hround (update_gained trivial), ready_update hready nofun id,
      hstage.keep (hwas.not.mpr id) id rfl rfl rfl⟩
  | check request =>
    split
    · next hloaded =>
      exact ⟨hex.same (update_same (iff_of_true trivial (hwas.mpr trivial))), ready_update hready (fun _ => hloaded) id,
        hstage.keep (hwas.not.mpr id) id rfl rfl rfl⟩
    · next hloaded =>
      have hunloaded : d.sharedObjectLoaded = false := Bool.eq_false_iff.mpr hloaded
      have hinitial := hstage.unloaded hunloaded hterminated (halone (hwas.mpr trivial)) (hwas.not.mpr id)
      refine ⟨hex.same (update_same (iff_of_true trivial (hwas.mpr trivial))), ready_update hready nofun id,
        .during hunloaded (Function.update_self ..) ?_⟩
      rw [hinitial]
      exact .entry
  | create hnext =>
    obtain ⟨hunloaded, hwithin⟩ := hstage.creating hterminated (halone (hwas.mpr trivial)) hbefore
    exact ⟨hex.same (update_same (iff_of_true trivial (hwas.mpr trivial))), ready_update hready nofun id,
      .during hunloaded (Function.update_self ..) (hwithin.next hnext)⟩
  | created hnext =>
    obtain ⟨hunloaded, hwithin⟩ := hstage.creating hterminated (halone (hwas.mpr trivial)) hbefore
    exact ⟨hex.same (update_same (iff_of_true trivial (hwas.mpr trivial))), ready_update hready nofun id,
      .behind hunloaded (Function.update_self ..) ⟨_, _, hwithin, hnext⟩⟩
  | failed hnext =>
    obtain ⟨hunloaded, hwithin⟩ := hstage.creating hterminated (halone (hwas.mpr trivial)) hbefore
    exact ⟨hex.same (update_same (iff_of_true trivial (hwas.mpr trivial))), ready_update hready nofun id,
      .terminated hunloaded rfl ⟨_, _, hwithin, hnext⟩⟩
  | store request =>
    have hcreated := hstage.storing hterminated (halone (hwas.mpr trivial)) hbefore
    refine ⟨hex.same (update_same (iff_of_true trivial (hwas.mpr trivial))),
      ready_update hready (fun _ => rfl) fun _ => rfl, .inService rfl ⟨_, hcreated, .refl⟩ fun j hj => ?_⟩
    obtain ⟨hne, hj⟩ := (update_lost id j).mp hj
    exact hne (halone (hwas.mpr trivial) j hj)
  | unlock request =>
    have hloaded := hready i (hwas.mpr trivial)
    exact ⟨hex.unlock (hwas.mpr trivial) (update_lost (resume_idle request).1),
      ready_update hready (fun _ => hloaded) id, hstage.keep (hwas.not.mpr id) (resume_idle request).2 rfl rfl rfl⟩
  | allocate hcall =>
    have hloaded := hready i (hwas.mpr trivial)
    obtain ⟨⟨s₁, hcreated, hserved⟩, hnobody⟩ := hstage.loaded hloaded
    refine ⟨hex.same (update_same (iff_of_false id (hwas.not.mpr id))), ready_update hready nofun id,
      .inService hloaded ⟨s₁, hcreated, hserved.tail ⟨i, _, hcall⟩⟩ fun j hj => ?_⟩
    exact hnobody j ((update_lost id j).mp hj).2

theorem run_inv {c : SharedObject ι κ σ} (h : Run (preloaded spinCount initial creation call) trace c) :
    c.Inv initial creation call := by
  refine h.invariant ?_ fun _ _ _ hinv hs => hinv.step hs
  rintro _ rfl
  exact ⟨.inl ⟨rfl, fun _ => id⟩, fun _ => False.elim, .before rfl rfl fun _ => id⟩

/-- Nothing is allocated before the creation is over. -/
theorem trace_unloaded {c : SharedObject ι κ σ} (h : Run (preloaded spinCount initial creation call) trace c)
    (hunloaded : c.data.sharedObjectLoaded = false) : trace = [] := by
  induction h with
  | start => rfl
  | @step trace c c' e hr hs ih =>
    have hready := (run_inv hr).ready
    obtain ⟨-, i, phase, hmove, -⟩ := hs
    generalize hbefore : c.phases i = before at hmove
    have hkeeps : c.data.sharedObjectLoaded = false ∧ e = none := by
      generalize c.data = d at hmove hready
      generalize c'.data = d' at hmove hunloaded
      cases hmove with
      | store request => cases hunloaded
      | allocate hcall =>
        have hloaded := hready i (by rw [hbefore]; trivial)
        exact absurd (hunloaded.symm.trans hloaded) (by decide)
      | _ => exact ⟨hunloaded, rfl⟩
    rw [ih hkeeps.1, hkeeps.2]
    rfl

theorem run_moves {before : LoadPhase κ} {e : Option (ι × Nat)}
    (h : Run (preloaded spinCount initial creation call) trace ⟨d, phases⟩) (hterminated : d.terminated = false)
    (hi : phases i = before) (hmove : Moves spinCount creation call i before d e phase d') :
    Run (preloaded spinCount initial creation call) (trace ++ e.toList) ⟨d', Function.update phases i phase⟩ := by
  subst hi
  exact h.step ⟨hterminated, i, phase, hmove, rfl⟩

end SharedObject
end

section
variable (A : AllocatorType) (params : ScalableAllocator.CreationParams) (answers : ScalableAllocator.CreationAnswers)

/-- The calls of `set_thread_local_heap_cache_count` and `create`. Nobody sees what is in between. -/
def creationCode (cacheCount : Nat) : Code Unit Unit Bool (ScalableAllocator × Memory) where
  entry := fun _ => ()
  next := fun _ s s' o => ∃ success, o = .inr success ∧
    ScalableAllocator.create A params answers (ScalableAllocator.setThreadLocalHeapCacheCount cacheCount s.1) s.2 =
      some (success, s')

def AllocateCall (thread size : Nat) (s s' : ScalableAllocator × Memory) : Prop :=
  ∃ answers ret central, (∀ live, AllocatorSystem.SoundCall A answers thread size ⟨s.1, s.2, live⟩) ∧
    ScalableAllocator.allocate A answers thread size s.1 s.2 = some (ret, central, s')

end

section
variable {A : AllocatorType} {params : ScalableAllocator.CreationParams} {answers : ScalableAllocator.CreationAnswers}
  {cacheCount : Nat} {mem : Memory} {s : ScalableAllocator × Memory}

theorem run_of_inService (hpolicy : A.localHeap.concurrency = .threadLocal) (hfresh : FreshHeaps params answers)
    (hsound : SoundCreation params answers)
    (h : InService ({}, mem) (creationCode A params answers cacheCount) (AllocateCall A) s) :
    ∃ live, AllocatorRun A params answers (AllocatorSystem.KeepsIntervals A) ⟨s.1, s.2, live⟩ := by
  obtain ⟨s₁, ⟨k, s₀, hwithin, success, hresult, hcreate⟩, hserved⟩ := h
  have hentry : s₀ = ({}, mem) := by
    cases hwithin with
    | entry => rfl
    | next _ hs =>
      obtain ⟨_, hne, -⟩ := hs
      cases hne
  cases hresult
  subst hentry
  induction hserved with
  | refl => exact ⟨[], .create hfresh hcreate⟩
  | tail _ hcall ih =>
    obtain ⟨live, hrun⟩ := ih
    obtain ⟨thread, size, callAnswers, ret, central, hsoundCall, hallocate⟩ := hcall
    obtain ⟨ret', central', a, mem', owner, heq, hnext, -, -⟩ := hrun.allocate_ok hpolicy hsound (hsoundCall live)
    cases hallocate.symm.trans heq
    exact ⟨_, hnext⟩

/-- However many threads make their first call of `malloc` at the same time: one of them creates the allocator, once,
and everybody allocates from it only then, in a state of its runs. -/
theorem malloc_finds_allocator {spinCount : Nat} {trace : List (Nat × Nat)}
    {c : SharedObject Nat Unit (ScalableAllocator × Memory)} (hpolicy : A.localHeap.concurrency = .threadLocal)
    (hfresh : FreshHeaps params answers) (hsound : SoundCreation params answers)
    (h : Run (preloaded spinCount ({}, mem) (creationCode A params answers cacheCount) (AllocateCall A)) trace c) :
    (∀ i j, (c.phases i).Working → (c.phases j).Working → j = i) ∧
    (∀ i, (c.phases i).Working → c.data.sharedObjectLoaded = false) ∧
    (c.data.sharedObjectLoaded = false → trace = [] ∧ ∀ i size, c.phases i ≠ .allocating size) ∧
    (c.data.sharedObjectLoaded = true → ∃ live, AllocatorRun A params answers (AllocatorSystem.KeepsIntervals A)
      ⟨c.data.allocator.1, c.data.allocator.2, live⟩) := by
  have hinv := SharedObject.run_inv h
  refine ⟨fun i j hi hj => hinv.exclusive.eq hi.holds hj.holds, fun i hi => ?_, fun hunloaded => ⟨?_, ?_⟩,
    fun hloaded => ?_⟩
  · by_contra hloaded
    exact (hinv.stage.loaded (Bool.eq_true_of_not_eq_false hloaded)).2 i hi
  · exact SharedObject.trace_unloaded h hunloaded
  · intro i size hi
    have hloaded := hinv.ready i (by rw [hi]; trivial)
    exact absurd (hunloaded.symm.trans hloaded) (by decide)
  · exact run_of_inService hpolicy hfresh hsound (hinv.stage.loaded hloaded).1

end

/-- One thread creates the allocator and gets 16 bytes, while the constructor of the shared object waits for the lock. -/
theorem run_firstMalloc : ∃ c : SharedObject Nat Unit (ScalableAllocator × Memory),
    Run (preloaded 1024 ({}, ⟨fun _ => 0, fun _ => {}, [], []⟩)
      (creationCode oneThreadAllocator cachedHeapParams cachedHeapAnswers 1) (AllocateCall oneThreadAllocator))
      [(7, 16)] c ∧ c.data.sharedObjectLoaded = true := by
  have hok : createCachedHeap.map Prod.fst = some true := by decide +kernel
  obtain ⟨⟨ok, a, mem⟩, hcreate, rfl⟩ := Option.map_eq_some_iff.mp hok
  have hrun : AllocatorRun oneThreadAllocator cachedHeapParams cachedHeapAnswers
      (AllocatorSystem.KeepsIntervals oneThreadAllocator) ⟨a, mem, []⟩ := .create freshHeaps_cached hcreate
  have hsoundCall : AllocatorSystem.SoundCall oneThreadAllocator exhaustedAnswers 7 16 ⟨a, mem, []⟩ :=
    soundCall_exhausted
  obtain ⟨ret, central, a', mem', owner, hallocate, -⟩ := hrun.allocate_ok rfl soundCreation_cached hsoundCall
  have htaken : lockRound 1024 0 0 = (none, 1) := by decide
  have hfailed : lockRound 1024 0 1 = (some 1, 1) := by decide
  have h₀ : Run (preloaded 1024 ({}, ⟨fun _ => 0, fun _ => {}, [], []⟩)
      (creationCode oneThreadAllocator cachedHeapParams cachedHeapAnswers 1) (AllocateCall oneThreadAllocator)) []
      ⟨_, fun _ : Nat => .idle⟩ := .start rfl
  have h₁ := SharedObject.run_moves (i := 7) h₀ rfl rfl (.malloc 16 _)
  have h₂ := SharedObject.run_moves (i := 0) h₁ rfl rfl (.constructor _)
  have h₃ := SharedObject.run_moves (i := 7) h₂ rfl rfl (.test 16 _)
  have h₄ := SharedObject.run_moves (i := 7) h₃ rfl rfl (.enter (some 16) _)
  have h₅ := SharedObject.run_moves (i := 0) h₄ rfl rfl (.enter none _)
  have h₆ := SharedObject.run_moves (i := 7) h₅ rfl rfl (.lock htaken)
  have h₇ := SharedObject.run_moves (i := 0) h₆ rfl rfl (.spin hfailed)
  have h₈ := SharedObject.run_moves (i := 7) h₇ rfl rfl (.check (some 16) _)
  have h₉ := SharedObject.run_moves (i := 7) h₈ rfl rfl (.created ⟨true, rfl, hcreate⟩)
  have h₁₀ := SharedObject.run_moves (i := 7) h₉ rfl rfl (.store (some 16) _)
  have h₁₁ := SharedObject.run_moves (i := 7) h₁₀ rfl rfl (.unlock (some 16) _)
  have h₁₂ := SharedObject.run_moves (i := 7) h₁₁ rfl rfl
    (.allocate ⟨exhaustedAnswers, ret, central, fun _ => soundCall_exhausted, hallocate⟩)
  exact ⟨_, h₁₂, rfl⟩

theorem firstMalloc_finds_allocator : ∃ c : SharedObject Nat Unit (ScalableAllocator × Memory),
    Run (preloaded 1024 ({}, ⟨fun _ => 0, fun _ => {}, [], []⟩)
      (creationCode oneThreadAllocator cachedHeapParams cachedHeapAnswers 1) (AllocateCall oneThreadAllocator))
      [(7, 16)] c ∧
    ∃ live, AllocatorRun oneThreadAllocator cachedHeapParams cachedHeapAnswers
      (AllocatorSystem.KeepsIntervals oneThreadAllocator) ⟨c.data.allocator.1, c.data.allocator.2, live⟩ := by
  obtain ⟨c, h, hloaded⟩ := run_firstMalloc
  have hfinds := malloc_finds_allocator rfl freshHeaps_cached soundCreation_cached h
  exact ⟨c, h, hfinds.2.2.2 hloaded⟩

end Metamalloc.Allocator
