import Metamalloc.Platform.UserspaceSpinlock
import Metamalloc.Segments.DeallocationQueue

/-! Threads at the deallocation queue, statement by statement. The lock of the queue makes every `push` and every `pop`
of any number of threads one step of a stack. -/
namespace Metamalloc.Segments
open Library.ByteMemory Library.LinkedList Library.Refinement Library.CriticalSections
open Platform Platform.UserspaceSpinlock PointerPage

inductive QueueCall where
  | push (pointer : UInt64)
  | pop

structure QueueState where
  queue : DeallocationQueue
  bytes : Mem

/-- The statements of `push` and `pop` between the two calls for the lock. -/
inductive QueueStatement where
  | pushTestFull (pointer : UInt64)
  | pushTestNext (pointer : UInt64)
  | pushAllocate (pointer : UInt64)
  | pushEndChain (pointer : UInt64) (newPage : Nat)
  | pushLinkNext (pointer : UInt64) (newPage : Nat)
  | pushLinkPrev (pointer : UInt64) (newPage : Nat)
  | pushActivateNew (pointer : UInt64) (newPage : Nat)
  | pushActivateNext (pointer : UInt64)
  | pushReset (pointer : UInt64)
  | pushStore (pointer : UInt64)
  | pushCount
  | popTestEmpty
  | popTestFirst
  | popActivatePrev
  | popReset
  | popLoad
  | popCount (ret : Nat)

namespace QueueState

/-- The last page of the chain is full. -/
def NeedsPage (s : QueueState) : Prop :=
  s.queue.activePageUsedCount = pointerCapacity ∧ getNext s.bytes s.queue.activePage = 0

/-- What the allocator may answer, and what the memory may be then: it has given a fresh page, and nobody has written
to the pages of the queue. -/
def Answers (s : QueueState) (newPage : Nat) (bytes : Mem) : Prop :=
  DeallocationQueue.FreshPointerPage s.queue bytes newPage ∧
    ∀ pages, DeallocationQueue.Lists s.queue s.bytes pages → ∀ a ∈ pages,
      AgreeOn s.bytes bytes a (a + pointerPageSize)

/-- One statement, with the answer that it gets if it asks the allocator. `push` returns nothing, here null. -/
def run (newPage : Nat) (bytes : Mem) (s : QueueState) : QueueStatement → QueueState × (QueueStatement ⊕ Nat)
  | .pushTestFull pointer =>
    (s, .inl (if s.queue.activePageUsedCount = pointerCapacity then .pushTestNext pointer else .pushStore pointer))
  | .pushTestNext pointer =>
    (s, .inl (if getNext s.bytes s.queue.activePage = 0 then .pushAllocate pointer else .pushActivateNext pointer))
  | .pushAllocate pointer => ({ s with bytes := bytes }, .inl (.pushEndChain pointer newPage))
  | .pushEndChain pointer page => ({ s with bytes := setNext s.bytes page 0 }, .inl (.pushLinkNext pointer page))
  | .pushLinkNext pointer page =>
    ({ s with bytes := setNext s.bytes s.queue.activePage page }, .inl (.pushLinkPrev pointer page))
  | .pushLinkPrev pointer page =>
    ({ s with bytes := setPrev s.bytes page s.queue.activePage }, .inl (.pushActivateNew pointer page))
  | .pushActivateNew pointer page => ({ s with queue.activePage := page }, .inl (.pushReset pointer))
  | .pushActivateNext pointer =>
    ({ s with queue.activePage := getNext s.bytes s.queue.activePage }, .inl (.pushReset pointer))
  | .pushReset pointer => ({ s with queue.activePageUsedCount := 0 }, .inl (.pushStore pointer))
  | .pushStore pointer =>
    ({ s with bytes := setPointer s.bytes s.queue.activePage s.queue.activePageUsedCount pointer.toNat },
      .inl .pushCount)
  | .pushCount => ({ s with queue.activePageUsedCount := s.queue.activePageUsedCount + 1 }, .inr 0)
  | .popTestEmpty => (s, .inl (if s.queue.activePageUsedCount = 0 then .popTestFirst else .popLoad))
  | .popTestFirst => (s, if s.queue.head = s.queue.activePage then .inr 0 else .inl .popActivatePrev)
  | .popActivatePrev => ({ s with queue.activePage := getPrev s.bytes s.queue.activePage }, .inl .popReset)
  | .popReset => ({ s with queue.activePageUsedCount := pointerCapacity }, .inl .popLoad)
  | .popLoad => (s, .inl (.popCount (getPointer s.bytes s.queue.activePage (s.queue.activePageUsedCount - 1))))
  | .popCount ret => ({ s with queue.activePageUsedCount := s.queue.activePageUsedCount - 1 }, .inr ret)

end QueueState

def queueCode : Code QueueCall QueueStatement Nat QueueState where
  entry
    | .push pointer => .pushTestFull pointer
    | .pop => .popTestEmpty
  next := fun k s s' o => ∃ newPage bytes, ((∃ pointer, k = .pushAllocate pointer) → s.Answers newPage bytes) ∧
    s.run newPage bytes k = (s', o)

/-- A queue that was created with success, by one thread. -/
def QueueState.Created (s : QueueState) : Prop :=
  ∃ allocate count externalBuffer m, s.queue.head + pointerPageSize ≤ 2^64 ∧
    DeallocationQueue.create allocate count externalBuffer {} m = (true, s.queue, s.bytes)

namespace QueueState

/-- The state in which `push` stores the pointer. -/
inductive Ready (s : QueueState) : QueueState → Prop
  | room (h : s.queue.activePageUsedCount ≠ pointerCapacity) : Ready s s
  | next (h : s.queue.activePageUsedCount = pointerCapacity) (hnext : getNext s.bytes s.queue.activePage ≠ 0) :
      Ready s ⟨{ s.queue with activePage := getNext s.bytes s.queue.activePage, activePageUsedCount := 0 }, s.bytes⟩
  | page {newPage : Nat} {m : Mem} (h : s.NeedsPage) (ha : s.Answers newPage m) :
      Ready s ⟨{ s.queue with activePage := newPage, activePageUsedCount := 0 },
        setPrev (setNext (setNext m newPage 0) s.queue.activePage newPage) newPage s.queue.activePage⟩

/-- The state in which `pop` takes the pointer. -/
inductive Loads (s : QueueState) : QueueState → Prop
  | here (h : s.queue.activePageUsedCount ≠ 0) : Loads s s
  | prev (h : s.queue.activePageUsedCount = 0) (hfirst : s.queue.head ≠ s.queue.activePage) :
      Loads s ⟨{ s.queue with activePage := getPrev s.bytes s.queue.activePage
                              activePageUsedCount := pointerCapacity }, s.bytes⟩

def stored (s : QueueState) (pointer : UInt64) : QueueState :=
  { s with bytes := setPointer s.bytes s.queue.activePage s.queue.activePageUsedCount pointer.toNat }

/-- What is true in front of a statement, when the operation has begun in the given state. -/
def Reached (op : QueueCall) (s₀ s : QueueState) : QueueStatement → Prop
  | .pushTestFull pointer => op = .push pointer ∧ s = s₀
  | .pushTestNext pointer => op = .push pointer ∧ s = s₀ ∧ s.queue.activePageUsedCount = pointerCapacity
  | .pushAllocate pointer => op = .push pointer ∧ s = s₀ ∧ s.NeedsPage
  | .pushEndChain pointer page =>
    op = .push pointer ∧ s₀.NeedsPage ∧ s₀.Answers page s.bytes ∧ s.queue = s₀.queue
  | .pushLinkNext pointer page => op = .push pointer ∧ s₀.NeedsPage ∧ ∃ m, s₀.Answers page m ∧
      s = ⟨s₀.queue, setNext m page 0⟩
  | .pushLinkPrev pointer page => op = .push pointer ∧ s₀.NeedsPage ∧ ∃ m, s₀.Answers page m ∧
      s = ⟨s₀.queue, setNext (setNext m page 0) s₀.queue.activePage page⟩
  | .pushActivateNew pointer page => op = .push pointer ∧ s₀.NeedsPage ∧ ∃ m, s₀.Answers page m ∧
      s = ⟨s₀.queue, setPrev (setNext (setNext m page 0) s₀.queue.activePage page) page s₀.queue.activePage⟩
  | .pushActivateNext pointer => op = .push pointer ∧ s = s₀ ∧ s.queue.activePageUsedCount = pointerCapacity ∧
      getNext s.bytes s.queue.activePage ≠ 0
  | .pushReset pointer => op = .push pointer ∧ s₀.Ready { s with queue.activePageUsedCount := 0 }
  | .pushStore pointer => op = .push pointer ∧ s₀.Ready s
  | .pushCount => ∃ pointer s₁, op = .push pointer ∧ s₀.Ready s₁ ∧ s = s₁.stored pointer
  | .popTestEmpty => op = .pop ∧ s = s₀
  | .popTestFirst => op = .pop ∧ s = s₀ ∧ s.queue.activePageUsedCount = 0
  | .popActivatePrev => op = .pop ∧ s = s₀ ∧ s.queue.activePageUsedCount = 0 ∧ s.queue.head ≠ s.queue.activePage
  | .popReset => op = .pop ∧ s₀.Loads { s with queue.activePageUsedCount := pointerCapacity }
  | .popLoad => op = .pop ∧ s₀.Loads s
  | .popCount ret => op = .pop ∧ s₀.Loads s ∧
      ret = getPointer s.bytes s.queue.activePage (s.queue.activePageUsedCount - 1)

section
variable {op : QueueCall} {s₀ s s' : QueueState} {k k' : QueueStatement} {r : Nat}

theorem Reached.next (h : Reached op s₀ s k) (hs : queueCode.next k s s' (.inl k')) : Reached op s₀ s' k' := by
  obtain ⟨newPage, bytes, hanswers, hrun⟩ := hs
  cases k with
  | pushTestFull pointer =>
    obtain ⟨hop, rfl⟩ := h
    simp only [run, Prod.mk.injEq, Sum.inl.injEq] at hrun
    obtain ⟨rfl, rfl⟩ := hrun
    split
    · next hfull => exact ⟨hop, rfl, hfull⟩
    · next hroom => exact ⟨hop, .room hroom⟩
  | pushTestNext pointer =>
    obtain ⟨hop, rfl, hfull⟩ := h
    simp only [run, Prod.mk.injEq, Sum.inl.injEq] at hrun
    obtain ⟨rfl, rfl⟩ := hrun
    split
    · next hlast => exact ⟨hop, rfl, hfull, hlast⟩
    · next hnext => exact ⟨hop, rfl, hfull, hnext⟩
  | pushAllocate pointer =>
    obtain ⟨hop, rfl, hneeds⟩ := h
    cases hrun
    exact ⟨hop, hneeds, hanswers ⟨pointer, rfl⟩, rfl⟩
  | pushEndChain pointer page =>
    obtain ⟨hop, hneeds, ha, hqueue⟩ := h
    cases hrun
    exact ⟨hop, hneeds, s.bytes, ha, by rw [hqueue]⟩
  | pushLinkNext pointer page =>
    obtain ⟨hop, hneeds, m, ha, rfl⟩ := h
    cases hrun
    exact ⟨hop, hneeds, m, ha, rfl⟩
  | pushLinkPrev pointer page =>
    obtain ⟨hop, hneeds, m, ha, rfl⟩ := h
    cases hrun
    exact ⟨hop, hneeds, m, ha, rfl⟩
  | pushActivateNew pointer page =>
    obtain ⟨hop, hneeds, m, ha, rfl⟩ := h
    cases hrun
    exact ⟨hop, .page hneeds ha⟩
  | pushActivateNext pointer =>
    obtain ⟨hop, rfl, hfull, hnext⟩ := h
    cases hrun
    exact ⟨hop, .next hfull hnext⟩
  | pushReset pointer =>
    cases hrun
    exact h
  | pushStore pointer =>
    obtain ⟨hop, hready⟩ := h
    cases hrun
    exact ⟨pointer, s, hop, hready, rfl⟩
  | pushCount => cases hrun
  | popTestEmpty =>
    obtain ⟨hop, rfl⟩ := h
    simp only [run, Prod.mk.injEq, Sum.inl.injEq] at hrun
    obtain ⟨rfl, rfl⟩ := hrun
    split
    · next hempty => exact ⟨hop, rfl, hempty⟩
    · next hused => exact ⟨hop, .here hused⟩
  | popTestFirst =>
    obtain ⟨hop, rfl, hempty⟩ := h
    simp only [run, Prod.mk.injEq] at hrun
    obtain ⟨rfl, hbranch⟩ := hrun
    split at hbranch
    · cases hbranch
    · next hfirst =>
      cases hbranch
      exact ⟨hop, rfl, hempty, hfirst⟩
  | popActivatePrev =>
    obtain ⟨hop, rfl, hempty, hfirst⟩ := h
    cases hrun
    exact ⟨hop, .prev hempty hfirst⟩
  | popReset =>
    cases hrun
    exact h
  | popLoad =>
    obtain ⟨hop, hloads⟩ := h
    cases hrun
    exact ⟨hop, hloads, rfl⟩
  | popCount ret => cases hrun

theorem reached_of_within (h : queueCode.Within op s₀ k s) : Reached op s₀ s k := by
  induction h with
  | entry => cases op <;> exact ⟨rfl, rfl⟩
  | next _ hs ih => exact ih.next hs

/-- What the operations do as a whole. -/
theorem performs_cases (h : queueCode.Performs op s₀ r s') :
    (∃ pointer s₁, op = .push pointer ∧ s₀.Ready s₁ ∧ r = 0 ∧
      s' = { s₁.stored pointer with queue.activePageUsedCount := s₁.queue.activePageUsedCount + 1 }) ∨
    (op = .pop ∧ s₀.queue.activePageUsedCount = 0 ∧ s₀.queue.head = s₀.queue.activePage ∧ r = 0 ∧ s' = s₀) ∨
    (∃ s₁, op = .pop ∧ s₀.Loads s₁ ∧
      r = getPointer s₁.bytes s₁.queue.activePage (s₁.queue.activePageUsedCount - 1) ∧
      s' = { s₁ with queue.activePageUsedCount := s₁.queue.activePageUsedCount - 1 }) := by
  obtain ⟨k, s, hwithin, newPage, bytes, -, hrun⟩ := h
  have hreached := reached_of_within hwithin
  cases k with
  | pushCount =>
    obtain ⟨pointer, s₁, hop, hready, rfl⟩ := hreached
    cases hrun
    exact .inl ⟨pointer, s₁, hop, hready, rfl, rfl⟩
  | popTestFirst =>
    obtain ⟨hop, rfl, hempty⟩ := hreached
    simp only [run, Prod.mk.injEq] at hrun
    obtain ⟨rfl, hbranch⟩ := hrun
    split at hbranch
    · next hfirst =>
      cases hbranch
      exact .inr (.inl ⟨hop, hempty, hfirst, rfl, rfl⟩)
    · cases hbranch
  | popCount ret =>
    obtain ⟨hop, hloads, rfl⟩ := hreached
    cases hrun
    exact .inr (.inr ⟨s, hop, hloads, rfl, rfl⟩)
  | _ => cases hrun

end
end QueueState

namespace DeallocationQueue
variable {q : DeallocationQueue} {m m' : Mem} {l : List Nat} {pointer : Nat}

theorem Represents.push_without_page (newPage : Nat) (h : Represents q m l) (hp : pointer < 2^64)
    (hspare : q.activePageUsedCount = pointerCapacity → getNext m q.activePage ≠ 0) :
    ∃ q' m', DeallocationQueue.push newPage pointer q m = some (q', m') ∧ Represents q' m' (pointer :: l) := by
  obtain ⟨full, unused, hchain, rfl⟩ := h
  unfold DeallocationQueue.push
  split
  · rename_i hused
    have hnext := hspare hused
    rw [if_neg hnext]
    refine ⟨_, _, rfl, ?_⟩
    cases unused with
    | nil => exact absurd (hchain.last _ rfl) hnext
    | cons b unused =>
      have hb : getNext m q.activePage = b := (links_append.mp hchain.links).2.1
      obtain ⟨hadvanced, hsame⟩ := hchain.advance hused
      rw [← hsame, hb]
      exact hadvanced.store (show 0 < pointerCapacity by decide) hp
  · rename_i hused
    exact ⟨_, _, rfl, hchain.store (lt_of_le_of_ne hchain.used hused) hp⟩

theorem Represents.getNext_eq (h : Represents q m l)
    (hm : ∀ pages, Lists q m pages → ∀ a ∈ pages, AgreeOn m m' a (a + pointerPageSize)) :
    getNext m' q.activePage = getNext m q.activePage := by
  obtain ⟨full, unused, hchain, rfl⟩ := h
  apply AgreeOn.read64_eq
  apply (hm _ hchain.lists q.activePage hchain.activePage_mem.1).mono (by omega)
  unfold pointerPageSize
  omega

end DeallocationQueue

/-- What a stack makes of the calls. -/
def stackEffect : QueueCall → List Nat → Nat → List Nat → Prop
  | .push pointer, l, r, l' => l' = pointer.toNat :: l ∧ r = 0
  | .pop, l, r, l' => r = l.headD 0 ∧ l' = l.tail

namespace QueueState
variable {op : QueueCall} {s s₁ s' : QueueState} {l : List Nat} {r : Nat} {pointer : UInt64}

def Represents (s : QueueState) (l : List Nat) : Prop := s.queue.Represents s.bytes l

/-- Along every branch, `push` is the function on the memory that it finds after its request. -/
theorem Ready.push_eq (pointer : UInt64) (h : s.Ready s₁) (hl : s.Represents l) :
    ∃ newPage m, DeallocationQueue.push newPage pointer.toNat s.queue m =
        some ({ s₁.queue with activePageUsedCount := s₁.queue.activePageUsedCount + 1 }, (s₁.stored pointer).bytes) ∧
      (s.NeedsPage ∧ s.Answers newPage m ∨ ¬ s.NeedsPage ∧ m = s.bytes) := by
  cases h with
  | room hroom =>
    refine ⟨0, s.bytes, ?_, .inr ⟨fun hneeds => hroom hneeds.1, rfl⟩⟩
    rw [DeallocationQueue.push, if_neg hroom]
    rfl
  | next hfull hnext =>
    refine ⟨0, s.bytes, ?_, .inr ⟨fun hneeds => hnext hneeds.2, rfl⟩⟩
    rw [DeallocationQueue.push, if_pos hfull, if_neg hnext]
    rfl
  | @page newPage m hneeds ha =>
    refine ⟨newPage, m, ?_, .inl ⟨hneeds, ha⟩⟩
    have hlast : getNext m s.queue.activePage = 0 := (hl.getNext_eq ha.2).trans hneeds.2
    rw [DeallocationQueue.push, if_pos hneeds.1, if_pos hlast, if_neg ha.1.ne_zero]
    rfl

theorem Ready.represents (h : s.Ready s₁) (hl : s.Represents l) :
    Represents { s₁.stored pointer with queue.activePageUsedCount := s₁.queue.activePageUsedCount + 1 }
      (pointer.toNat :: l) := by
  have hp : pointer.toNat < 2^64 := pointer.toNat_lt
  obtain ⟨newPage, m, hpush, ⟨-, ha⟩ | ⟨hspare, rfl⟩⟩ := h.push_eq pointer hl
  · obtain ⟨q', m', heq, hrep⟩ := (hl.congr ha.2).push hp ha.1
    cases hpush.symm.trans heq
    exact hrep
  · obtain ⟨q', m', heq, hrep⟩ := DeallocationQueue.Represents.push_without_page newPage hl hp
      fun hfull hnext => hspare ⟨hfull, hnext⟩
    cases hpush.symm.trans heq
    exact hrep

theorem Loads.pop_eq (h : s.Loads s₁) : DeallocationQueue.pop s.queue s.bytes =
    (getPointer s₁.bytes s₁.queue.activePage (s₁.queue.activePageUsedCount - 1),
      { s₁.queue with activePageUsedCount := s₁.queue.activePageUsedCount - 1 }) ∧ s₁.bytes = s.bytes := by
  cases h with
  | here hused => exact ⟨if_neg hused, rfl⟩
  | prev hempty hfirst =>
    refine ⟨?_, rfl⟩
    rw [DeallocationQueue.pop, if_pos hempty, if_neg hfirst]

theorem performs_stack (h : queueCode.Performs op s r s') (hl : s.Represents l) :
    ∃ l', stackEffect op l r l' ∧ s'.Represents l' := by
  rcases performs_cases h with
    ⟨pointer, s₁, rfl, hready, rfl, rfl⟩ | ⟨rfl, hempty, hfirst, rfl, rfl⟩ | ⟨s₁, rfl, hloads, rfl, rfl⟩
  · exact ⟨_, ⟨rfl, rfl⟩, hready.represents hl⟩
  · obtain ⟨hret, hrest⟩ := DeallocationQueue.Represents.pop hl
    have hpop : DeallocationQueue.pop s'.queue s'.bytes = (0, s'.queue) := by
      rw [DeallocationQueue.pop, if_pos hempty, if_pos hfirst]
    rw [hpop] at hret hrest
    exact ⟨l.tail, ⟨hret, rfl⟩, hrest⟩
  · obtain ⟨hpop, hbytes⟩ := hloads.pop_eq
    obtain ⟨hret, hrest⟩ := DeallocationQueue.Represents.pop hl
    rw [hpop] at hret hrest
    refine ⟨l.tail, ⟨hret, rfl⟩, ?_⟩
    rw [Represents, hbytes]
    exact hrest

end QueueState

section
variable {ι : Type*} [DecidableEq ι] {spinCount : Nat} {trace : List (CallEvent ι QueueCall Nat)}
  {c : Spinning ι QueueCall QueueStatement Nat QueueState}

/-- However the statements of the threads interleave, their calls are answered as by a stack that takes one call after
the other. -/
theorem queue_linearizes (h : Run (spinning spinCount QueueState.Created queueCode) trace c) :
    ∃ a, Run (atomic (· = []) stackEffect) trace a := by
  have hstack : Simulation (atomic (ι := ι) QueueState.Created queueCode.Performs) (atomic (· = []) stackEffect)
      (Atomic.Related QueueState.Represents) := by
    refine atomic_simulates ?_ fun op s l r s' hl h => QueueState.performs_stack h hl
    rintro s ⟨allocate, count, externalBuffer, m, hinside, hcreate⟩
    exact ⟨[], rfl, DeallocationQueue.create_represents hinside hcreate⟩
  obtain ⟨a, ha, -⟩ := (spinning_simulates.comp (locked_simulates.comp hstack)).run h
  exact ⟨a, ha⟩

end

theorem next_of_run {k : QueueStatement} {s s' : QueueState} {o : QueueStatement ⊕ Nat}
    (hk : ∀ pointer, k ≠ .pushAllocate pointer) (h : s.run 0 s.bytes k = (s', o)) : queueCode.next k s s' o :=
  ⟨0, s.bytes, fun ⟨pointer, hask⟩ => absurd hask (hk pointer), h⟩

/-- The consumer calls while the producer has the lock, and gets its pointer. -/
theorem run_producerAndConsumer : ∃ c : Spinning Bool QueueCall QueueStatement Nat QueueState,
    Run (spinning 1024 QueueState.Created queueCode)
      [.called false (.push 8), .called true .pop, .returned false 0, .returned true 8] c := by
  obtain ⟨⟨q, m⟩, hq⟩ : ∃ s : QueueState, s = ⟨(DeallocationQueue.create (fun _ => 65536) 2 0 {} fun _ => 0).2.1,
    (DeallocationQueue.create (fun _ => 65536) 2 0 {} fun _ => 0).2.2⟩ := ⟨_, rfl⟩
  have hcreated : QueueState.Created ⟨q, m⟩ := by
    rw [hq]
    exact ⟨fun _ => 65536, 2, 0, fun _ => 0, by decide, rfl⟩
  have hqueue : q.activePageUsedCount = 0 := by
    rw [show q = _ from congrArg QueueState.queue hq]
    rfl
  have hroom : q.activePageUsedCount ≠ pointerCapacity := by
    rw [hqueue]
    decide
  have htaken : ∀ n < 1024, lockRound 1024 n 0 = (none, 1) := by
    intro n hn
    simp [lockRound, hn, tryLock, builtinCas]
  have hfailed : lockRound 1024 0 1 = (some 1, 1) := by decide
  have h₀ : Run (spinning 1024 QueueState.Created queueCode) [] ⟨⟨q, m⟩, 0, fun _ : Bool => .idle⟩ :=
    .start ⟨hcreated, rfl, rfl⟩
  have h₁ := run_moves (i := false) h₀ rfl (.call (.push 8) _ _)
  have h₂ := run_moves (i := true) h₁ rfl (.call .pop _ _)
  have h₃ := run_internal (i := false) h₂ rfl (.lock (htaken 0 (by decide)))
  have h₄ := run_internal (i := true) h₃ rfl (.spin hfailed)
  have htest : QueueState.run 0 m ⟨q, m⟩ (.pushTestFull 8) = (⟨q, m⟩, .inl (.pushStore 8)) := by
    rw [QueueState.run, if_neg hroom]
  have h₅ := run_internal (i := false) h₄ rfl (.move (next_of_run (by simp [queueCode]) htest))
  have h₆ := run_internal (i := false) h₅ rfl (.move (next_of_run (by simp) rfl))
  have h₇ := run_internal (i := false) h₆ rfl (.finish (next_of_run (by simp) rfl))
  have h₈ := run_moves (i := false) h₇ rfl (.unlock _ _ _)
  have h₉ := run_internal (i := true) h₈ rfl (.lock (htaken 1 (by decide)))
  have h₁₀ := run_internal (i := true) h₉ rfl (.move (next_of_run (by simp [queueCode]) rfl))
  have h₁₁ := run_internal (i := true) h₁₀ rfl (.move (next_of_run (by simp) rfl))
  have h₁₂ := run_internal (i := true) h₁₁ rfl (.finish (next_of_run (by simp) rfl))
  have h₁₃ := run_moves (i := true) h₁₂ rfl (.unlock _ _ _)
  have hpointer : getPointer (setPointer m q.activePage q.activePageUsedCount (8 : UInt64).toNat) q.activePage
      (q.activePageUsedCount + 1 - 1) = 8 := word_setWord_same (by decide)
  exact ⟨_, hpointer ▸ h₁₃⟩

theorem producerAndConsumer_linearize :
    (∃ c : Spinning Bool QueueCall QueueStatement Nat QueueState, Run (spinning 1024 QueueState.Created queueCode)
      [.called false (.push 8), .called true .pop, .returned false 0, .returned true 8] c) ∧
    ∃ a : Atomic Bool QueueCall Nat (List Nat), Run (atomic (· = []) stackEffect)
      [.called false (.push 8), .called true .pop, .returned false 0, .returned true 8] a := by
  obtain ⟨c, h⟩ := run_producerAndConsumer
  exact ⟨⟨c, h⟩, queue_linearizes h⟩

end Metamalloc.Segments
