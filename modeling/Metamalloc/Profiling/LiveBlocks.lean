import Mathlib.Data.Finset.Card
import Mathlib.Data.Int.ModEq
import Metamalloc.Profiling.Profiler

/-! What the counters of the profiler say about the blocks that are live in the C library. -/
namespace Metamalloc.Profiling
open Library.Word64

/-- A block of the C library, with what `malloc_usable_size` says of it. -/
structure HeapBlock where
  address : Nat
  usableSize : Nat
  deriving DecidableEq

structure State where
  profiler : Profiler := {}
  live : List HeapBlock := []

/-- `realloc` with a size of zero may release the block and return null. -/
inductive ReallocAnswer where
  | block (b : HeapBlock) | failed | released

/-- A call through a proxy, with the answer of the C library. -/
inductive Call where
  | malloc (size : Nat) (answer : Option HeapBlock)
  | calloc (count size : Nat) (answer : Option HeapBlock)
  | realloc (address size : Nat) (answer : ReallocAnswer)
  | alignedAlloc (size alignment : Nat) (answer : Option HeapBlock)
  | free (address : Nat)

def returned (answer : Option HeapBlock) : Nat := (answer.map HeapBlock.address).getD 0

def ReallocAnswer.returned : ReallocAnswer → Nat
  | .block b => b.address
  | _ => 0

def release (address : Nat) (live : List HeapBlock) : List HeapBlock :=
  live.eraseP fun b => b.address == address

def mallocUsableSize (address : Nat) (live : List HeapBlock) : Nat :=
  ((live.find? fun b => b.address == address).map HeapBlock.usableSize).getD 0

def liveAfter (live : List HeapBlock) : Call → List HeapBlock
  | .malloc _ answer | .calloc _ _ answer | .alignedAlloc _ _ answer => answer.toList ++ live
  | .realloc address _ answer =>
    match answer with
    | .block b => b :: release address live
    | .failed => live
    | .released => release address live
  | .free address => release address live

def perform (thread : Nat) (s : State) (call : Call) : State where
  live := liveAfter s.live call
  profiler := match call with
    | .malloc size answer => (s.profiler.proxyMalloc thread size (returned answer)).2
    | .calloc count size answer => (s.profiler.proxyCalloc thread count size (returned answer)).2
    | .realloc address size answer => (s.profiler.proxyRealloc thread address size answer.returned).2
    | .alignedAlloc size _ answer => (s.profiler.proxyAlignedAlloc thread size (returned answer)).2
    | .free address => s.profiler.proxyFree thread address (mallocUsableSize address s.live)

/-- A block of a size may be handed out next to the live ones. Its usable size stays within
the captured range. -/
structure Grantable (size : Nat) (live : List HeapBlock) (b : HeapBlock) : Prop where
  ne_zero : b.address ≠ 0
  lt : b.address < 2^64
  fresh : ∀ c ∈ live, c.address ≠ b.address
  size_le : size ≤ b.usableSize
  captured : Profiler.findStatsIndexFromSize b.usableSize < maxSizeClassCount

def IsLive (address : Nat) (live : List HeapBlock) : Prop := ∃ b ∈ live, b.address = address

def Allowed (live : List HeapBlock) : Call → Prop
  | .malloc size answer | .alignedAlloc size _ answer => ∀ b ∈ answer, Grantable size live b
  | .calloc count size answer => ∀ b ∈ answer, Grantable (count * size) live b
  | .realloc address size answer => (address = 0 ∨ IsLive address live) ∧
    match answer with
    | .block b => Grantable size (release address live) b
    | .failed => True
    | .released => size = 0 ∧ address ≠ 0
  | .free address => address = 0 ∨ IsLive address live

/-- The states reached by calls of the given threads that meet a condition. -/
inductive CallRun (threads : Finset Nat) (condition : Call → Prop) : State → Prop
  | start : CallRun threads condition {}
  | call {s : State} {thread : Nat} {call : Call} (hs : CallRun threads condition s)
      (hthread : thread ∈ threads) (ha : Allowed s.live call) (hc : condition call) :
      CallRun threads condition (perform thread s call)

/-- A size `capture_allocation` counts. -/
def Counted (size : Nat) : Prop :=
  size ≠ 0 ∧ Profiler.findStatsIndexFromSize size < maxSizeClassCount

instance : DecidablePred Counted := fun _ => inferInstanceAs (Decidable (_ ∧ _))

/-- A call whose capture agrees with what it does: an allocation is counted just when it
succeeds, and a block that is reallocated stays one block and is not counted again. -/
def Balanced : Call → Prop
  | .malloc size answer | .alignedAlloc size _ answer => answer.isSome ↔ Counted size
  | .calloc count size answer => answer.isSome ↔ Counted (mul64 count size)
  | .realloc address size answer =>
    if address = 0 then (∃ b, answer = .block b) ↔ Counted size
    else ¬ Counted size ∧ answer ≠ .released
  | .free _ => True

/-- Allocations less frees, over all threads and size classes, are the live blocks. -/
def CountsLive (s : State) : Prop :=
  sub64 (s.profiler.total SizeClassStats.allocCount) (s.profiler.total SizeClassStats.freeCount) =
    s.live.length

section
variable {threads : Finset Nat} {thread size : Nat} {p : Profiler}
  {count : SizeClassStats → Nat} {f : SizeClassStats → SizeClassStats}

/-- As many entries are in use as threads have one. -/
def ThreadsObserved (threads : Finset Nat) (p : Profiler) : Prop :=
  (threads.filter fun t => (p.threadLocalStorage t).isSome).card = p.observedThreadCount

theorem getThreadLocalStats_spec (h : ThreadsObserved threads p) (hle : threads.card ≤ maxThreadCount)
    (hthread : thread ∈ threads) :
    ∃ i q, p.getThreadLocalStats thread = (some i, q) ∧ ThreadsObserved threads q ∧
      ∀ k, (q.stats k).sizeClassStats = (p.stats k).sizeClassStats := by
  rw [Profiler.getThreadLocalStats]
  cases hstorage : p.threadLocalStorage thread with
  | some i => exact ⟨i, p, rfl, h, fun _ => rfl⟩
  | none =>
    have hnot : thread ∉ threads.filter fun t => (p.threadLocalStorage t).isSome := by
      simp [hstorage]
    have hlt : p.observedThreadCount < maxThreadCount := by
      rw [← h]
      refine Nat.lt_of_lt_of_le (Finset.card_lt_card ?_) hle
      refine Finset.ssubset_iff_subset_ne.mpr ⟨Finset.filter_subset _ _, fun he => hnot ?_⟩
      rw [he]
      exact hthread
    dsimp only
    rw [dif_pos (Nat.ne_of_lt hlt)]
    refine ⟨_, _, rfl, ?_, ?_⟩
    · rw [ThreadsObserved]
      dsimp only
      have hinsert : (threads.filter fun t => (Function.update p.threadLocalStorage thread
          (some ⟨p.observedThreadCount, hlt⟩) t).isSome) =
          insert thread (threads.filter fun t => (p.threadLocalStorage t).isSome) := by
        ext t
        by_cases ht : t = thread
        · simp [ht, hthread]
        · simp [ht]
      rw [hinsert, Finset.card_insert_of_notMem hnot, h]
    · intro k
      dsimp only
      by_cases hk : k = ⟨p.observedThreadCount, hlt⟩
      · rw [hk, Function.update_self]
      · rw [Function.update_of_ne hk]

theorem capture_spec {d : Nat} (h : ThreadsObserved threads p) (hle : threads.card ≤ maxThreadCount)
    (hthread : thread ∈ threads) (hf : ∀ s, count (f s) ≡ count s + d [MOD 2^64]) :
    ThreadsObserved threads (p.capture f thread size) ∧
      (p.capture f thread size).total count ≡
        p.total count + if Profiler.findStatsIndexFromSize size < maxSizeClassCount then d else 0 [MOD 2^64] := by
  rw [Profiler.capture]
  by_cases hindex : Profiler.findStatsIndexFromSize size < maxSizeClassCount
  · rw [dif_pos hindex, if_pos hindex]
    obtain ⟨i, q, he, hq, hstats⟩ := getThreadLocalStats_spec h hle hthread
    have htotal : q.total count = p.total count := by
      simp only [Profiler.total, hstats]
    have hupdate := @Profiler.total_updateStats q count f i ⟨Profiler.findStatsIndexFromSize size, hindex⟩
    have hcell := hf ((q.stats i).sizeClassStats ⟨Profiler.findStatsIndexFromSize size, hindex⟩)
    rw [htotal] at hupdate
    rw [he]
    refine ⟨hq, ?_⟩
    dsimp only [Nat.ModEq] at hcell ⊢
    omega
  · rw [dif_neg hindex, if_neg hindex, Nat.add_zero]
    exact ⟨h, .refl _⟩

theorem allocCount_addAllocation (s : SizeClassStats) :
    s.addAllocation.allocCount ≡ s.allocCount + 1 [MOD 2^64] := by
  simp only [SizeClassStats.addAllocation]
  unfold add64
  exact Nat.mod_modEq _ _

theorem freeCount_addDeallocation (s : SizeClassStats) :
    s.addDeallocation.freeCount ≡ s.freeCount + 1 [MOD 2^64] := by
  simp only [SizeClassStats.addDeallocation]
  unfold add64
  exact Nat.mod_modEq _ _

theorem captureAllocation_spec {address : Nat} (h : ThreadsObserved threads p)
    (hle : threads.card ≤ maxThreadCount) (hthread : thread ∈ threads) :
    ThreadsObserved threads (p.captureAllocation thread address size) ∧
      (p.captureAllocation thread address size).total SizeClassStats.allocCount ≡
        p.total SizeClassStats.allocCount + if Counted size then 1 else 0 [MOD 2^64] ∧
      (p.captureAllocation thread address size).total SizeClassStats.freeCount ≡
        p.total SizeClassStats.freeCount + 0 [MOD 2^64] := by
  rw [Profiler.captureAllocation]
  by_cases h0 : size = 0
  · rw [if_pos h0, if_neg fun hc => hc.1 h0, Nat.add_zero, Nat.add_zero]
    exact ⟨h, .refl _, .refl _⟩
  · obtain ⟨hobs, halloc⟩ := @capture_spec threads thread size p _ _ 1 h hle hthread allocCount_addAllocation
    obtain ⟨_, hfree⟩ := @capture_spec threads thread size p SizeClassStats.freeCount
      SizeClassStats.addAllocation 0 h hle hthread fun s => .refl _
    have hcounted : (if Counted size then 1 else 0) =
        if Profiler.findStatsIndexFromSize size < maxSizeClassCount then 1 else 0 :=
      if_congr (by simp [Counted, h0]) rfl rfl
    rw [if_neg h0, hcounted]
    rw [ite_self] at hfree
    exact ⟨hobs, halloc, hfree⟩

theorem captureDeallocation_spec {address : Nat} (h : ThreadsObserved threads p)
    (hle : threads.card ≤ maxThreadCount) (hthread : thread ∈ threads) (ha : address ≠ 0)
    (hsize : Profiler.findStatsIndexFromSize size < maxSizeClassCount) :
    ThreadsObserved threads (p.captureDeallocation thread address size) ∧
      (p.captureDeallocation thread address size).total SizeClassStats.allocCount ≡
        p.total SizeClassStats.allocCount + 0 [MOD 2^64] ∧
      (p.captureDeallocation thread address size).total SizeClassStats.freeCount ≡
        p.total SizeClassStats.freeCount + 1 [MOD 2^64] := by
  obtain ⟨hobs, hfree⟩ := @capture_spec threads thread size p _ _ 1 h hle hthread freeCount_addDeallocation
  obtain ⟨_, halloc⟩ := @capture_spec threads thread size p SizeClassStats.allocCount
    SizeClassStats.addDeallocation 0 h hle hthread fun s => .refl _
  rw [if_pos hsize] at hfree
  rw [ite_self] at halloc
  rw [Profiler.captureDeallocation, if_neg ha]
  exact ⟨hobs, halloc, hfree⟩

end

section
variable {live : List HeapBlock} {b : HeapBlock} {address : Nat}

/-- The blocks are at addresses of their own, and of sizes that are captured. -/
structure Blocks (live : List HeapBlock) : Prop where
  nodup : (live.map HeapBlock.address).Nodup
  ne_zero : ∀ b ∈ live, b.address ≠ 0
  lt : ∀ b ∈ live, b.address < 2^64
  captured : ∀ b ∈ live, Profiler.findStatsIndexFromSize b.usableSize < maxSizeClassCount

theorem Blocks.length_lt (h : Blocks live) : live.length < 2^64 := by
  have hsub : (live.map HeapBlock.address).toFinset ⊆ (Finset.range (2^64)).erase 0 := by
    intro a ha
    obtain ⟨b, hb, rfl⟩ := List.mem_map.mp (List.mem_toFinset.mp ha)
    exact Finset.mem_erase.mpr ⟨h.ne_zero b hb, Finset.mem_range.mpr (h.lt b hb)⟩
  have hcard := Finset.card_le_card hsub
  rw [List.toFinset_card_of_nodup h.nodup, List.length_map,
    Finset.card_erase_of_mem (Finset.mem_range.mpr (Nat.two_pow_pos 64)), Finset.card_range] at hcard
  omega

theorem Blocks.sublist {live' : List HeapBlock} (h : Blocks live) (hs : live'.Sublist live) : Blocks live' :=
  ⟨h.nodup.sublist (hs.map _), fun b hb => h.ne_zero b (hs.subset hb), fun b hb => h.lt b (hs.subset hb),
    fun b hb => h.captured b (hs.subset hb)⟩

theorem Blocks.cons {size : Nat} (h : Blocks live) (hb : Grantable size live b) : Blocks (b :: live) := by
  refine ⟨?_, ?_, ?_, ?_⟩
  · rw [List.map_cons, List.nodup_cons]
    refine ⟨fun hm => ?_, h.nodup⟩
    obtain ⟨c, hc, he⟩ := List.mem_map.mp hm
    exact hb.fresh c hc he
  · exact List.forall_mem_cons.mpr ⟨hb.ne_zero, h.ne_zero⟩
  · exact List.forall_mem_cons.mpr ⟨hb.lt, h.lt⟩
  · exact List.forall_mem_cons.mpr ⟨hb.captured, h.captured⟩

theorem Blocks.grant {size : Nat} {answer : Option HeapBlock} (h : Blocks live)
    (ha : ∀ b ∈ answer, Grantable size live b) : Blocks (answer.toList ++ live) := by
  cases answer with
  | none => exact h
  | some b => exact h.cons (ha b rfl)

theorem Blocks.release (h : Blocks live) (address : Nat) : Blocks (release address live) :=
  h.sublist (List.eraseP_sublist)

theorem length_release (h : IsLive address live) : (release address live).length + 1 = live.length := by
  obtain ⟨b, hb, rfl⟩ := h
  have hlen := List.length_eraseP_of_mem hb (p := fun c => c.address == b.address) (beq_self_eq_true _)
  have hpos := List.length_pos_of_mem hb
  rw [Profiling.release, hlen]
  omega

theorem release_zero (h : Blocks live) : release 0 live = live :=
  List.eraseP_of_forall_not fun b hb => by simpa using h.ne_zero b hb

theorem mallocUsableSize_of_isLive (h : IsLive address live) :
    ∃ c ∈ live, c.address = address ∧ mallocUsableSize address live = c.usableSize := by
  obtain ⟨b, hb, rfl⟩ := h
  rw [mallocUsableSize]
  cases hfind : live.find? fun c => c.address == b.address with
  | none => exact absurd (List.find?_eq_none.mp hfind b hb) (by simp)
  | some c => exact ⟨c, List.mem_of_find?_eq_some hfind, by simpa using List.find?_some hfind, rfl⟩

theorem captured_mallocUsableSize (h : Blocks live) (ha : IsLive address live) :
    Profiler.findStatsIndexFromSize (mallocUsableSize address live) < maxSizeClassCount := by
  obtain ⟨c, hc, -, husable⟩ := mallocUsableSize_of_isLive ha
  rw [husable]
  exact h.captured c hc

end

section
variable {threads : Finset Nat} {condition : Call → Prop} {s s' : State} {thread : Nat} {call : Call}

structure RunInv (threads : Finset Nat) (s : State) : Prop where
  observed : ThreadsObserved threads s.profiler
  blocks : Blocks s.live

theorem RunInv.countsLive_iff (h : RunInv threads s) : CountsLive s ↔
    s.profiler.total SizeClassStats.allocCount ≡
      s.profiler.total SizeClassStats.freeCount + s.live.length [MOD 2^64] := by
  have hlt := h.blocks.length_lt
  rw [CountsLive, Nat.ModEq]
  unfold sub64
  omega

/-- By how much a call moves the two sums and the number of live blocks. -/
structure Moves (s s' : State) (allocated freed added removed : Nat) : Prop where
  alloc : s'.profiler.total SizeClassStats.allocCount ≡
    s.profiler.total SizeClassStats.allocCount + allocated [MOD 2^64]
  free : s'.profiler.total SizeClassStats.freeCount ≡
    s.profiler.total SizeClassStats.freeCount + freed [MOD 2^64]
  live : s'.live.length + removed = s.live.length + added
  small : allocated + freed + added + removed < 2^63

theorem Moves.countsLive_iff {allocated freed added removed : Nat}
    (hm : Moves s s' allocated freed added removed) (h : RunInv threads s) (h' : RunInv threads s')
    (hc : CountsLive s) : CountsLive s' ↔ allocated + removed = freed + added := by
  obtain ⟨halloc, hfree, hlive, hsmall⟩ := hm
  rw [h.countsLive_iff] at hc
  rw [h'.countsLive_iff]
  simp only [Nat.ModEq] at halloc hfree hc ⊢
  omega

/-- An allocation is counted by its size and adds a block if it succeeds. -/
theorem RunInv.allocated {size : Nat} {answer : Option HeapBlock} (address : Nat) (h : RunInv threads s)
    (hle : threads.card ≤ maxThreadCount) (hthread : thread ∈ threads) {n : Nat}
    (ha : ∀ b ∈ answer, Grantable n s.live b)
    (hs : s' = ⟨s.profiler.captureAllocation thread address size, answer.toList ++ s.live⟩) :
    RunInv threads s' ∧ (CountsLive s → (CountsLive s' ↔ (answer.isSome ↔ Counted size))) := by
  subst hs
  obtain ⟨hobs, halloc, hfree⟩ := @captureAllocation_spec threads thread size s.profiler address h.observed hle hthread
  have hinv : RunInv threads ⟨s.profiler.captureAllocation thread address size, answer.toList ++ s.live⟩ :=
    ⟨hobs, h.blocks.grant ha⟩
  refine ⟨hinv, fun hc => ?_⟩
  have hmoves : Moves s ⟨s.profiler.captureAllocation thread address size, answer.toList ++ s.live⟩
      (if Counted size then 1 else 0) 0 answer.toList.length 0 := by
    refine ⟨halloc, hfree, ?_, ?_⟩
    · rw [List.length_append]
      omega
    · cases answer <;> simp only [Option.toList, List.length_nil, List.length_singleton] <;> split <;> omega
  rw [hmoves.countsLive_iff h hinv hc]
  cases answer with
  | none =>
    simp [Option.toList]
  | some b =>
    simp [Option.toList]

/-- A live block that is reallocated is counted by its new size, and given up if it is released. -/
theorem RunInv.reallocated {address size : Nat} {answer : ReallocAnswer} (h : RunInv threads s)
    (hle : threads.card ≤ maxThreadCount) (hthread : thread ∈ threads) (h0 : address ≠ 0)
    (ha : Allowed s.live (.realloc address size answer)) :
    RunInv threads (perform thread s (.realloc address size answer)) ∧
      (CountsLive s → (CountsLive (perform thread s (.realloc address size answer)) ↔
        ¬ Counted size ∧ answer ≠ .released)) := by
  obtain ⟨hobs, halloc, hfree⟩ := @captureAllocation_spec threads thread size s.profiler address h.observed hle hthread
  have hlive := ha.1.resolve_left h0
  have hlength := length_release hlive
  have hblocks := h.blocks.release address
  have hsmall : (if Counted size then 1 else 0) ≤ 1 := by split <;> omega
  cases answer with
  | block b =>
    have hinv : RunInv threads (perform thread s (.realloc address size (.block b))) := ⟨hobs, hblocks.cons ha.2⟩
    refine ⟨hinv, fun hc => ?_⟩
    have hmoves : Moves s (perform thread s (.realloc address size (.block b)))
        (if Counted size then 1 else 0) 0 1 1 := by
      refine ⟨halloc, hfree, ?_, by omega⟩
      change (b :: release address s.live).length + 1 = _
      rw [List.length_cons, hlength]
    rw [hmoves.countsLive_iff h hinv hc]
    simp
  | failed =>
    have hinv : RunInv threads (perform thread s (.realloc address size .failed)) := ⟨hobs, h.blocks⟩
    refine ⟨hinv, fun hc => ?_⟩
    have hmoves : Moves s (perform thread s (.realloc address size .failed))
        (if Counted size then 1 else 0) 0 0 0 := ⟨halloc, hfree, rfl, by omega⟩
    rw [hmoves.countsLive_iff h hinv hc]
    simp
  | released =>
    have hinv : RunInv threads (perform thread s (.realloc address size .released)) := ⟨hobs, hblocks⟩
    refine ⟨hinv, fun hc => ?_⟩
    have hmoves : Moves s (perform thread s (.realloc address size .released))
        (if Counted size then 1 else 0) 0 0 1 := ⟨halloc, hfree, hlength, by omega⟩
    rw [hmoves.countsLive_iff h hinv hc]
    simp

theorem RunInv.freed {address : Nat} (h : RunInv threads s) (hle : threads.card ≤ maxThreadCount)
    (hthread : thread ∈ threads) (ha : Allowed s.live (.free address)) :
    RunInv threads (perform thread s (.free address)) ∧
      (CountsLive s → CountsLive (perform thread s (.free address))) := by
  by_cases h0 : address = 0
  · subst h0
    have he : perform thread s (.free 0) = s := by
      simp only [perform, liveAfter, release_zero h.blocks, Profiler.proxyFree, Profiler.captureDeallocation,
        if_true]
    rw [he]
    exact ⟨h, id⟩
  · have hlive := ha.resolve_left h0
    obtain ⟨hobs, halloc, hfree⟩ := @captureDeallocation_spec threads thread _ s.profiler address h.observed hle
      hthread h0 (captured_mallocUsableSize h.blocks hlive)
    have hinv : RunInv threads (perform thread s (.free address)) := ⟨hobs, h.blocks.release address⟩
    have hmoves : Moves s (perform thread s (.free address)) 0 1 0 1 :=
      ⟨halloc, hfree, length_release hlive, by omega⟩
    exact ⟨hinv, fun hc => (hmoves.countsLive_iff h hinv hc).mpr rfl⟩

theorem RunInv.perform (h : RunInv threads s) (hle : threads.card ≤ maxThreadCount)
    (hthread : thread ∈ threads) (ha : Allowed s.live call) :
    RunInv threads (perform thread s call) ∧
      (CountsLive s → (CountsLive (perform thread s call) ↔ Balanced call)) := by
  cases call with
  | malloc size answer => exact h.allocated (returned answer) hle hthread ha rfl
  | calloc count size answer => exact h.allocated (returned answer) hle hthread ha rfl
  | alignedAlloc size alignment answer => exact h.allocated (returned answer) hle hthread ha rfl
  | realloc address size answer =>
    rw [Balanced]
    by_cases h0 : address = 0
    · subst h0
      rw [if_pos rfl]
      have hzero := release_zero h.blocks
      cases answer with
      | block b =>
        have hgrant : ∀ c ∈ some b, Grantable size s.live c := by
          intro c hc
          cases hc
          rw [← hzero]
          exact ha.2
        have hs : Profiling.perform thread s (.realloc 0 size (.block b)) =
            ⟨s.profiler.captureAllocation thread 0 size, (some b).toList ++ s.live⟩ := by
          simp only [Profiling.perform, liveAfter, Profiler.proxyRealloc, hzero]
          rfl
        obtain ⟨hinv, hc⟩ := h.allocated 0 hle hthread hgrant hs
        exact ⟨hinv, fun h => (hc h).trans (by simp)⟩
      | failed =>
        obtain ⟨hinv, hc⟩ := @RunInv.allocated threads s _ thread size none 0 h hle hthread 0 (by simp) rfl
        exact ⟨hinv, fun h => (hc h).trans (by simp)⟩
      | released => exact absurd rfl ha.2.2
    · rw [if_neg h0]
      exact h.reallocated hle hthread h0 ha
  | free address =>
    obtain ⟨hinv, hc⟩ := h.freed hle hthread ha
    exact ⟨hinv, fun h => iff_of_true (hc h) trivial⟩

theorem CallRun.inv (h : CallRun threads condition s) (hle : threads.card ≤ maxThreadCount) :
    RunInv threads s := by
  induction h with
  | start => exact ⟨by simp [ThreadsObserved], by constructor <;> simp⟩
  | call _ hthread ha _ ih => exact (ih.perform hle hthread ha).1

theorem countsLive_start : CountsLive {} := by
  simp [CountsLive, Profiler.total, sub64_of_le]

/-- In every run of balanced calls by at most 64 threads the counters give the number of live
blocks, and the first call that is not balanced puts them out of step. -/
theorem balanced_runs_count_live (hle : threads.card ≤ maxThreadCount) (h : CallRun threads Balanced s) :
    CountsLive s ∧ ∀ thread ∈ threads, ∀ call, Allowed s.live call →
      (CountsLive (perform thread s call) ↔ Balanced call) := by
  have hcounts : CountsLive s := by
    induction h with
    | start => exact countsLive_start
    | call hs hthread ha hc ih => exact (((hs.inv hle).perform hle hthread ha).2 ih).mpr hc
  exact ⟨hcounts, fun thread hthread call ha => ((h.inv hle).perform hle hthread ha).2 hcounts⟩

end

/-- Two threads: a block is allocated by the one and freed by the other. -/
theorem balanced_runs_count_live_of_two : ∃ s, CallRun {1, 2} Balanced s ∧ CountsLive s ∧
    s.profiler.total SizeClassStats.freeCount = 1 := by
  have hmalloc : Allowed [] (.malloc 100 (some ⟨4096, 104⟩)) := by
    intro b hb
    cases hb
    exact ⟨by decide, by decide, by simp, by decide, by decide +kernel⟩
  have hbalanced : Balanced (.malloc 100 (some ⟨4096, 104⟩)) := iff_of_true rfl (by decide +kernel)
  have hfree : Allowed [⟨4096, 104⟩] (.free 4096) := .inr ⟨_, List.mem_singleton.mpr rfl, rfl⟩
  have hrun : CallRun {1, 2} Balanced (perform 2 (perform 1 {} (.malloc 100 (some ⟨4096, 104⟩))) (.free 4096)) :=
    ((CallRun.start).call (by decide) hmalloc hbalanced).call (by decide) hfree trivial
  exact ⟨_, hrun, (balanced_runs_count_live (by decide) hrun).1, by decide +kernel⟩

/-- A block of 16 bytes that is reallocated to 32 is counted as two. -/
theorem realloc_counts_twice : ∃ s, CallRun {1} (fun _ => True) s ∧ s.live.length = 1 ∧
    s.profiler.total SizeClassStats.allocCount = 2 ∧ s.profiler.total SizeClassStats.freeCount = 0 ∧
    ¬ CountsLive s := by
  have hmalloc : Allowed [] (.malloc 16 (some ⟨4096, 24⟩)) := by
    intro b hb
    cases hb
    exact ⟨by decide, by decide, by simp, by decide, by decide +kernel⟩
  have hrealloc : Allowed [⟨4096, 24⟩] (.realloc 4096 32 (.block ⟨8192, 40⟩)) :=
    ⟨.inr ⟨_, List.mem_singleton.mpr rfl, rfl⟩, by decide, by decide, by decide, by decide, by decide +kernel⟩
  have hrun : CallRun {1} (fun _ => True) (perform 1 (perform 1 {} (.malloc 16 (some ⟨4096, 24⟩)))
      (.realloc 4096 32 (.block ⟨8192, 40⟩))) :=
    ((CallRun.start).call (by decide) hmalloc trivial).call (by decide) hrealloc trivial
  have halloc : (perform 1 (perform 1 {} (.malloc 16 (some ⟨4096, 24⟩)))
      (.realloc 4096 32 (.block ⟨8192, 40⟩))).profiler.total SizeClassStats.allocCount = 2 := by decide +kernel
  have hfree : (perform 1 (perform 1 {} (.malloc 16 (some ⟨4096, 24⟩)))
      (.realloc 4096 32 (.block ⟨8192, 40⟩))).profiler.total SizeClassStats.freeCount = 0 := by decide +kernel
  refine ⟨_, hrun, rfl, halloc, hfree, ?_⟩
  rw [CountsLive, halloc, hfree]
  decide +kernel

end Metamalloc.Profiling
