import Metamalloc.Arenas.AlignedTrimming

/-! The lock of an arena. It is taken and given back by hand around the work of `create` and
`allocate`, and `allocate` has a way out in between. -/
namespace Metamalloc.Arenas
open Library.Word64 Library.Tiling Library.AddressSpace Pages

inductive LockPolicy where
  | noLock | osLock | userspaceLock | userspaceLockCachelineAligned
  deriving DecidableEq, Repr

inductive Outcome (α : Type) where
  | returned (result : α)
  /-- The caller waits for a lock that is held. -/
  | blocked
  /-- A division by zero, or a loop that does not end. -/
  | stuck
  deriving DecidableEq

structure LockingArena where
  arena : Arena
  locked : Bool := false
  deriving DecidableEq

namespace LockingArena
variable (policy : LockPolicy)

/-- Nobody but the caller runs, so a lock that is held stays held. -/
def enterConcurrentContext (s : LockingArena) : Option LockingArena :=
  if policy = .noLock then some s
  else if s.locked then none
  else some { s with locked := true }

def leaveConcurrentContext (s : LockingArena) : LockingArena :=
  if policy = .noLock then s else { s with locked := false }

/-- The alignment is a divisor as soon as the system has given a buffer. -/
def buildCache (fromSystem : Nat → Nat) (size : Nat) (a : Arena) : Option (Bool × Arena × List SystemCall) :=
  if a.pageAlignment = 0 ∧ fromSystem (add64 size a.pageAlignment) ≠ 0 then none
  else some (a.buildCache fromSystem size)

def create (fromSystem : Nat → Nat) (cacheCapacity pageAlignment : Nat) (s : LockingArena) :
    Outcome (Bool × List SystemCall × LockingArena) :=
  if s.arena.pageAlignment &&& (pageAllocationGranularity - 1) ≠ 0 then .returned (false, [], s)
  else
    match s.enterConcurrentContext policy with
    | none => .blocked
    | some s =>
      match buildCache fromSystem cacheCapacity { s.arena with pageAlignment := pageAlignment } with
      | none => .stuck
      | some (success, a, calls) =>
        .returned (success, calls, leaveConcurrentContext policy { s with arena := a })

def serve (size : Nat) (s : LockingArena) (calls : List SystemCall) :
    Outcome (Nat × List SystemCall × LockingArena) :=
  .returned ((s.arena.serve size).1, calls,
    leaveConcurrentContext policy { s with arena := (s.arena.serve size).2 })

def allocate (fromSystem : Nat → Nat) (size : Nat) (s : LockingArena) :
    Outcome (Nat × List SystemCall × LockingArena) :=
  match s.enterConcurrentContext policy with
  | none => .blocked
  | some s =>
    if sub64 s.arena.cacheSize s.arena.cacheUsedSize < add64 size s.arena.pageAlignment then
      match s.arena.destroy with
      | none => .stuck
      | some (a, released) =>
        match buildCache fromSystem size a with
        | none => .stuck
        -- the way out without giving the lock back
        | some (false, a, calls) => .returned (0, released ++ calls, { s with arena := a })
        | some (true, a, calls) => serve policy size { s with arena := a } (released ++ calls)
    else serve policy size s []

end LockingArena

/-- The system refuses the range for a cache, or the first aligned address in it is null. -/
def RefusesCache (fromSystem : Nat → Nat) (size alignment : Nat) : Prop :=
  let buffer := fromSystem (add64 size alignment)
  buffer = 0 ∨ 0 < buffer % alignment ∧ add64 buffer (alignment - buffer % alignment) = 0

/-- The cache has no room for the request, and a new one cannot be built. -/
def FailsToServe (fromSystem : Nat → Nat) (size : Nat) (a : Arena) : Prop :=
  sub64 a.cacheSize a.cacheUsedSize < add64 size a.pageAlignment ∧
    RefusesCache fromSystem size a.pageAlignment

/-- The calls of the users of an arena, with the answers of the system. -/
inductive ArenaCall where
  | create (fromSystem : Nat → Nat) (cacheCapacity pageAlignment : Nat)
  | allocate (fromSystem : Nat → Nat) (size : Nat)
  | destroy

namespace ArenaCall

def perform (policy : LockPolicy) (s : LockingArena) : ArenaCall → Outcome LockingArena
  | .create fromSystem capacity alignment =>
    match s.create policy fromSystem capacity alignment with
    | .returned (_, _, s) => .returned s
    | .blocked => .blocked
    | .stuck => .stuck
  | .allocate fromSystem size =>
    match s.allocate policy fromSystem size with
    | .returned (_, _, s) => .returned s
    | .blocked => .blocked
    | .stuck => .stuck
  | .destroy =>
    match s.arena.destroy with
    | none => .stuck
    | some (a, _) => .returned { s with arena := a }

/-- The call does not take the way out of `allocate`. -/
def Served (s : LockingArena) : ArenaCall → Prop
  | .allocate fromSystem size => ¬ FailsToServe fromSystem size s.arena
  | _ => True

end ArenaCall

/-- A sequence of calls, each of which has returned; every allocation was served. -/
inductive ServedCalls (policy : LockPolicy) (start : LockingArena) : LockingArena → Prop
  | none : ServedCalls policy start start
  | step {s s' : LockingArena} {call : ArenaCall} (h : ServedCalls policy start s) (hc : call.Served s)
      (hp : call.perform policy s = .returned s') : ServedCalls policy start s'

section
variable {policy : LockPolicy} {fromSystem : Nat → Nat} {size capacity alignment ret : Nat} {a a' : Arena}
  {s s' start : LockingArena} {calls : List SystemCall} {success : Bool}

theorem allocateAligned_eq_zero_iff :
    (allocateAligned fromSystem size alignment).1 = 0 ↔ RefusesCache fromSystem size alignment := by
  simp only [allocateAligned, RefusesCache, modulo_eq]
  split
  · rename_i h0
    exact ⟨fun _ => .inl h0, fun _ => rfl⟩
  · rename_i h0
    split
    · rename_i hrem
      exact ⟨fun h => .inr ⟨hrem, h⟩, fun h => (h.resolve_left h0).2⟩
    · rename_i hrem
      exact ⟨fun h => absurd h h0, fun h => absurd (h.resolve_left h0).1 hrem⟩

theorem Arena.buildCache_success : (a.buildCache fromSystem size).1 = true ↔
    ¬ RefusesCache fromSystem size a.pageAlignment := by
  rw [← allocateAligned_eq_zero_iff, Arena.buildCache]
  rcases allocateAligned fromSystem size a.pageAlignment with ⟨buffer, calls⟩
  dsimp only
  split
  · rename_i h0
    simp [h0]
  · rename_i h0
    simp [h0]

theorem Arena.destroy_pageAlignment (h : a.destroy = some (a', calls)) : a'.pageAlignment = a.pageAlignment := by
  obtain ⟨released, -, heq⟩ := Option.map_eq_some_iff.mp h
  cases heq
  rfl

namespace LockingArena

theorem enterConcurrentContext_of_free (hp : policy ≠ .noLock) (h : s.locked = false) :
    s.enterConcurrentContext policy = some { s with locked := true } := by
  rw [enterConcurrentContext, if_neg hp, h]
  rfl

theorem enterConcurrentContext_of_held (hp : policy ≠ .noLock) (h : s.locked = true) :
    s.enterConcurrentContext policy = none := by
  rw [enterConcurrentContext, if_neg hp, if_pos h]

theorem arena_enterConcurrentContext (h : s.enterConcurrentContext policy = some s') : s'.arena = s.arena := by
  unfold enterConcurrentContext at h
  split at h
  · cases h
    rfl
  split at h <;> cases h
  rfl

theorem locked_leaveConcurrentContext (hp : policy ≠ .noLock) : (s.leaveConcurrentContext policy).locked = false := by
  rw [leaveConcurrentContext, if_neg hp]

@[simp] theorem arena_leaveConcurrentContext : (s.leaveConcurrentContext policy).arena = s.arena := by
  unfold leaveConcurrentContext
  split <;> rfl

/-- A call with the lock free does what the arena does, and leaves the lock held on the way out. -/
theorem allocate_of_free (hp : policy ≠ .noLock) (hs : s.locked = false)
    (h : s.allocate policy fromSystem size = .returned (ret, calls, s')) :
    s.arena.allocate fromSystem size = some (ret, s'.arena, calls) ∧
      (s'.locked = false ↔ ¬ FailsToServe fromSystem size s.arena) := by
  rw [allocate, enterConcurrentContext_of_free hp hs] at h
  rw [Arena.allocate, FailsToServe]
  dsimp only at h ⊢
  split at h
  · rename_i hshort
    rw [if_pos hshort]
    rcases hdestroy : s.arena.destroy with _ | ⟨a, released⟩
    · rw [hdestroy] at h
      cases h
    rw [hdestroy] at h
    dsimp only at h ⊢
    have hsuccess := @Arena.buildCache_success fromSystem size a
    rw [Arena.destroy_pageAlignment hdestroy] at hsuccess
    unfold buildCache at h
    by_cases hzero : a.pageAlignment = 0 ∧ fromSystem (add64 size a.pageAlignment) ≠ 0
    · rw [if_pos hzero] at h
      cases h
    rw [if_neg hzero] at h
    rcases hbuild : a.buildCache fromSystem size with ⟨success, a', calls'⟩
    rw [hbuild] at h hsuccess
    cases success with
    | false =>
      cases h
      refine ⟨rfl, ?_⟩
      simpa using ⟨hshort, by simpa using hsuccess⟩
    | true =>
      cases h
      refine ⟨by simp, ?_⟩
      rw [locked_leaveConcurrentContext hp]
      exact ⟨fun _ hfails => hsuccess.mp rfl hfails.2, fun _ => rfl⟩
  · rename_i hroom
    rw [if_neg hroom]
    cases h
    refine ⟨by simp, ?_⟩
    rw [locked_leaveConcurrentContext hp]
    exact ⟨fun _ hfails => hroom hfails.1, fun _ => rfl⟩

theorem allocate_of_held (hp : policy ≠ .noLock) (hs : s.locked = true) :
    s.allocate policy fromSystem size = .blocked := by
  rw [allocate, enterConcurrentContext_of_held hp hs]

theorem create_of_free (hp : policy ≠ .noLock) (hs : s.locked = false)
    (h : s.create policy fromSystem capacity alignment = .returned (success, calls, s')) : s'.locked = false := by
  unfold create at h
  split at h
  · cases h
    exact hs
  rw [enterConcurrentContext_of_free hp hs] at h
  dsimp only at h
  split at h
  · cases h
  · cases h
    exact locked_leaveConcurrentContext hp

/-- Only a lock that is held makes an allocation wait. -/
theorem allocate_ne_blocked (hp : policy ≠ .noLock) (hs : s.locked = false) :
    s.allocate policy fromSystem size ≠ .blocked := by
  rw [allocate, enterConcurrentContext_of_free hp hs]
  dsimp only
  split
  · split
    · simp
    · split <;> simp [serve]
  · simp [serve]

theorem create_ne_blocked (hp : policy ≠ .noLock) (hs : s.locked = false) :
    s.create policy fromSystem capacity alignment ≠ .blocked := by
  rw [create, enterConcurrentContext_of_free hp hs]
  dsimp only
  split
  · simp
  · split <;> simp

end LockingArena

namespace ArenaCall
variable {call : ArenaCall}

theorem perform_ne_blocked (hp : policy ≠ .noLock) (hs : s.locked = false) : call.perform policy s ≠ .blocked := by
  cases call with
  | create fromSystem capacity alignment =>
    have h := @LockingArena.create_ne_blocked policy fromSystem capacity alignment s hp hs
    rw [perform]
    split
    · simp
    · exact fun _ => h ‹_›
    · simp
  | allocate fromSystem size =>
    have h := @LockingArena.allocate_ne_blocked policy fromSystem size s hp hs
    rw [perform]
    split
    · simp
    · exact fun _ => h ‹_›
    · simp
  | destroy =>
    rw [perform]
    split <;> simp

/-- With a free lock every call but an allocation that is not served gives the lock back. -/
theorem locked_of_perform (hp : policy ≠ .noLock) (hs : s.locked = false) (hc : call.Served s)
    (h : call.perform policy s = .returned s') : s'.locked = false := by
  cases call with
  | create fromSystem capacity alignment =>
    rw [perform] at h
    split at h
    · rename_i hcreate
      cases h
      exact LockingArena.create_of_free hp hs hcreate
    · cases h
    · cases h
  | allocate fromSystem size =>
    rw [perform] at h
    split at h
    · rename_i hallocate
      cases h
      exact (LockingArena.allocate_of_free hp hs hallocate).2.mpr hc
    · cases h
    · cases h
  | destroy =>
    rw [perform] at h
    split at h
    · cases h
    · cases h
      exact hs

end ArenaCall

theorem ServedCalls.locked (hp : policy ≠ .noLock) (hs : start.locked = false) (h : ServedCalls policy start s) :
    s.locked = false := by
  induction h with
  | none => exact hs
  | step _ hc hperform ih => exact ArenaCall.locked_of_perform hp ih hc hperform

theorem forall_perform_ne_blocked_iff (hp : policy ≠ .noLock) :
    (∀ call : ArenaCall, call.perform policy s ≠ .blocked) ↔ s.locked = false := by
  constructor
  · intro h
    by_contra hheld
    have hallocate := @LockingArena.allocate_of_held policy (fun _ => 0) 0 s hp (by simpa using hheld)
    apply h (.allocate (fun _ => 0) 0)
    rw [ArenaCall.perform, hallocate]
  · exact fun hs call => ArenaCall.perform_ne_blocked hp hs

/-- An allocation gives the lock back unless a new cache was needed and could not be built, and as long as
none goes that way no call waits for a lock that nobody gives back. -/
theorem lock_released_iff (hp : policy ≠ .noLock) :
    (∀ (s s' : LockingArena) fromSystem size ret calls, s.locked = false →
      s.allocate policy fromSystem size = .returned (ret, calls, s') →
      (s'.locked = false ↔ ¬ FailsToServe fromSystem size s.arena) ∧
      ((∀ call : ArenaCall, call.perform policy s' ≠ .blocked) ↔ ¬ FailsToServe fromSystem size s.arena)) ∧
    (∀ start s : LockingArena, start.locked = false → ServedCalls policy start s →
      s.locked = false ∧ ∀ call : ArenaCall, call.perform policy s ≠ .blocked) := by
  refine ⟨fun s s' fromSystem size ret calls hs h => ?_, fun start s hs h => ?_⟩
  · have hlock := (LockingArena.allocate_of_free hp hs h).2
    exact ⟨hlock, (forall_perform_ne_blocked_iff hp).trans hlock⟩
  · have hlock := h.locked hp hs
    exact ⟨hlock, (forall_perform_ne_blocked_iff hp).mpr hlock⟩

end

def freshArena : LockingArena := ⟨⟨4096, 4096, 0, 0, 0⟩, false⟩

/-- A cache of 128 KB is built, and half of it is handed out with the lock free again. -/
theorem lock_released_iff_of_granted :
    LockPolicy.userspaceLock ≠ .noLock ∧
    ServedCalls .userspaceLock freshArena ⟨⟨4096, 65536, 65536, 131072, 65536⟩, false⟩ ∧
    (∀ call : ArenaCall,
      call.perform .userspaceLock ⟨⟨4096, 65536, 65536, 131072, 65536⟩, false⟩ ≠ .blocked) := by
  have hcreate : ServedCalls .userspaceLock freshArena ⟨⟨4096, 65536, 65536, 131072, 0⟩, false⟩ :=
    @ServedCalls.step _ _ _ _ (.create (fun _ => 65536) 131072 65536) .none trivial (by decide +kernel)
  have hroom : ¬ FailsToServe (fun _ => 0) 65536 ⟨4096, 65536, 65536, 131072, 0⟩ :=
    fun hfails => absurd hfails.1 (by decide +kernel)
  have hallocate : ServedCalls .userspaceLock freshArena ⟨⟨4096, 65536, 65536, 131072, 65536⟩, false⟩ :=
    @ServedCalls.step _ _ _ _ (.allocate (fun _ => 0) 65536) hcreate hroom (by decide +kernel)
  exact ⟨by decide, hallocate, ((lock_released_iff (by decide)).2 _ _ rfl hallocate).2⟩

/-- The system refuses: the allocation returns null and keeps the lock, and the next one waits for ever. -/
theorem lock_kept_after_refusal :
    ∃ s' : LockingArena, freshArena.allocate .userspaceLock (fun _ => 0) 65536 = .returned (0, [], s') ∧
      freshArena.locked = false ∧ s'.locked = true ∧
      ∀ fromSystem size, s'.allocate .userspaceLock fromSystem size = .blocked := by
  refine ⟨⟨⟨4096, 4096, 0, 0, 0⟩, true⟩, by decide +kernel, rfl, rfl, fun fromSystem size => ?_⟩
  exact LockingArena.allocate_of_held (by decide) rfl

end Metamalloc.Arenas
