import Mathlib.Order.Bounds.Basic
import Metamalloc.Profiling.SizeClassAgreement

/-! The usage and peak counters of the profiler along runs, and what a reset leaves of the counters. -/
namespace Metamalloc.Profiling
open Library.Word64 Profiler

namespace Profiler

def counters (p : Profiler) (i : Fin maxThreadCount) (j : Fin maxSizeClassCount) : SizeClassStats :=
  (p.stats i).sizeClassStats j

section
variable {p : Profiler} {f : SizeClassStats → SizeClassStats} {thread : Nat}
  {i k : Fin maxThreadCount} {j l : Fin maxSizeClassCount}

theorem counters_getThreadLocalStats : (p.getThreadLocalStats thread).2.counters i j = p.counters i j := by
  rw [getThreadLocalStats]
  cases p.threadLocalStorage thread with
  | some k => rfl
  | none =>
    dsimp only
    split
    · rw [counters, counters]
      dsimp only
      rw [Function.update_apply]
      split
      · next hi => rw [hi]
      · rfl
    · rfl

theorem counters_updateStats : (p.updateStats f k l).counters i j =
    if i = k ∧ j = l then f (p.counters k l) else p.counters i j := by
  by_cases hi : i = k
  · subst hi
    by_cases hj : j = l
    · subst hj
      simp [counters, updateStats]
    · simp [counters, updateStats, hj]
  · simp [counters, updateStats, hi]

/-- One count changes the counters of one class in the entry of the thread, if the thread gets an entry. -/
theorem counters_countIn {c : Option (Fin maxSizeClassCount)} : (p.countIn f thread c).counters i j =
    if (p.getThreadLocalStats thread).1 = some i ∧ c = some j then f (p.counters i j) else p.counters i j := by
  cases c with
  | none => simp [countIn]
  | some l =>
    have hsame (k : Fin maxThreadCount) (m : Fin maxSizeClassCount) :=
      @counters_getThreadLocalStats p thread k m
    rw [countIn]
    rcases hentry : p.getThreadLocalStats thread with ⟨entry, q⟩
    rw [hentry] at hsame
    cases entry with
    | none => simpa using hsame i j
    | some k =>
      dsimp only at hsame ⊢
      rw [counters_updateStats, hsame, hsame]
      by_cases h : i = k ∧ j = l
      · obtain ⟨rfl, rfl⟩ := h
        simp
      · rw [if_neg h, if_neg]
        rintro ⟨hk, hl⟩
        exact h ⟨(Option.some.inj hk).symm, (Option.some.inj hl).symm⟩

end
end Profiler

/-- The states reached by calls of any threads that meet a condition, with the profiler after each of them. -/
inductive HistoryRun (condition : Nat → State → Call → Prop) : State → List Profiler → Prop
  | start : HistoryRun condition {} [{}]
  | call {s : State} {history : List Profiler} {thread : Nat} {call : Call} (hs : HistoryRun condition s history)
      (hp : Permitted s.live call) (hc : condition thread s call) :
      HistoryRun condition (perform thread s call) ((perform thread s call).profiler :: history)

/-- The counter that a call moves can follow: a free finds fewer frees than allocations in the entry of the freeing
thread, and an allocation does not bring the number of allocations to the end of the word. -/
def CounterFollows (thread : Nat) (s : State) (call : Call) : Prop :=
  ∀ i j, (s.profiler.getThreadLocalStats thread).1 = some i → countedClass s.live call = some j →
    match call with
    | .free _ => (s.profiler.counters i j).freeCount < (s.profiler.counters i j).allocCount
    | _ => (s.profiler.counters i j).allocCount + 1 < 2^64

instance (thread : Nat) (s : State) : (call : Call) → Decidable (CounterFollows thread s call)
  | .free _ => inferInstanceAs (Decidable (∀ _ _, _ → _ → _ < _))
  | .malloc .. | .calloc .. | .realloc .. | .alignedAlloc .. => inferInstanceAs (Decidable (∀ _ _, _ → _ → _ < _))

def usages (history : List Profiler) (i : Fin maxThreadCount) (j : Fin maxSizeClassCount) : Set Nat :=
  {n | ∃ p ∈ history, (p.counters i j).usageCount = n}

/-- The counters of a class are exact, for the values that its usage has had. -/
structure Exact (values : Set Nat) (c : SizeClassStats) : Prop where
  usage : c.usageCount + c.freeCount = c.allocCount
  peak : IsGreatest values c.peakUsageCount
  alloc_lt : c.allocCount < 2^64

section
variable {condition : Nat → State → Call → Prop} {values : Set Nat} {c : SizeClassStats} {s : State}
  {history : List Profiler} {thread : Nat} {call : Call} {i : Fin maxThreadCount} {j : Fin maxSizeClassCount}

theorem usages_cons {p : Profiler} :
    usages (p :: history) i j = insert (p.counters i j).usageCount (usages history i j) := by
  ext n
  simp [usages, eq_comm]

theorem usage_mem_usages (h : HistoryRun condition s history) :
    (s.profiler.counters i j).usageCount ∈ usages history i j := by
  cases h with
  | start => exact ⟨_, List.mem_singleton.mpr rfl, rfl⟩
  | call => exact ⟨_, List.mem_cons_self, rfl⟩

theorem Exact.addAllocation (h : Exact values c) (hroom : c.allocCount + 1 < 2^64) :
    Exact (insert c.addAllocation.usageCount values) c.addAllocation := by
  obtain ⟨husage, hpeak, -⟩ := h
  have hup : c.addAllocation.usageCount = c.usageCount + 1 := add64_of_lt (by omega)
  have halloc : c.addAllocation.allocCount = c.allocCount + 1 := add64_of_lt hroom
  have hmax : c.addAllocation.peakUsageCount = max c.addAllocation.usageCount c.peakUsageCount := by
    change (if c.peakUsageCount < c.addAllocation.usageCount then c.addAllocation.usageCount
      else c.peakUsageCount) = _
    split
    · exact (max_eq_left (by omega)).symm
    · exact (max_eq_right (by omega)).symm
  refine ⟨?_, ?_, ?_⟩
  · rw [hup, halloc]
    change c.usageCount + 1 + c.freeCount = _
    omega
  · rw [hmax]
    exact hpeak.insert _
  · rw [halloc]
    exact hroom

theorem Exact.addDeallocation (h : Exact values c) (hroom : c.freeCount < c.allocCount)
    (hmem : c.usageCount ∈ values) :
    Exact (insert c.addDeallocation.usageCount values) c.addDeallocation := by
  obtain ⟨husage, hpeak, hlt⟩ := h
  have hdown : c.addDeallocation.usageCount = c.usageCount - 1 := sub64_of_le (by omega) (by omega)
  have hfree : c.addDeallocation.freeCount = c.freeCount + 1 := add64_of_lt (by omega)
  refine ⟨?_, ?_, hlt⟩
  · rw [hdown, hfree]
    change _ = c.allocCount
    omega
  · have hbelow : c.addDeallocation.usageCount ≤ c.peakUsageCount := by
      have hle := hpeak.2 hmem
      omega
    have hgreatest := hpeak.insert c.addDeallocation.usageCount
    rwa [max_eq_right hbelow] at hgreatest

theorem Exact.unchanged (h : Exact values c) (hmem : c.usageCount ∈ values) :
    Exact (insert c.usageCount values) c := by
  rw [Set.insert_eq_of_mem hmem]
  exact h

theorem Exact.perform (hmem : (s.profiler.counters i j).usageCount ∈ usages history i j)
    (h : Exact (usages history i j) (s.profiler.counters i j)) (hc : CounterFollows thread s call) :
    Exact (usages ((perform thread s call).profiler :: history) i j)
      ((Profiling.perform thread s call).profiler.counters i j) := by
  rw [usages_cons, perform_profiler, counters_countIn]
  by_cases hcell : (s.profiler.getThreadLocalStats thread).1 = some i ∧ countedClass s.live call = some j
  · rw [if_pos hcell]
    have hroom := hc i j hcell.1 hcell.2
    cases call with
    | free address => exact h.addDeallocation hroom hmem
    | malloc size answer | calloc count size answer | realloc address size answer
    | alignedAlloc size alignment answer => exact h.addAllocation hroom
  · rw [if_neg hcell]
    exact h.unchanged hmem

theorem HistoryRun.exact (h : HistoryRun CounterFollows s history) :
    Exact (usages history i j) (s.profiler.counters i j) := by
  induction h with
  | start =>
    refine ⟨rfl, ?_, Nat.two_pow_pos 64⟩
    have hzero : usages [{}] i j = {0} := by
      ext n
      simp [usages, Profiler.counters, eq_comm]
    rw [hzero]
    exact isGreatest_singleton
  | call hs hp hc ih => exact ih.perform (usage_mem_usages hs) hc

/-- In every run whose calls the counters can follow, the usage of each class is its allocations less its frees, the
peak is the largest usage there has been, and a further free takes a usage below zero just when the counters cannot
follow it. -/
theorem usage_and_peak_of_run (h : HistoryRun CounterFollows s history) :
    (∀ i j, (s.profiler.counters i j).freeCount ≤ (s.profiler.counters i j).allocCount ∧
      (s.profiler.counters i j).usageCount =
        (s.profiler.counters i j).allocCount - (s.profiler.counters i j).freeCount ∧
      IsGreatest (usages history i j) (s.profiler.counters i j).peakUsageCount) ∧
    ∀ thread address, CounterFollows thread s (.free address) ↔
      ∀ i j, (s.profiler.getThreadLocalStats thread).1 = some i → countedClass s.live (.free address) = some j →
        (s.profiler.counters i j).usageCount ≠ 0 := by
  refine ⟨fun i j => ?_, fun thread address => ?_⟩
  · obtain ⟨husage, hpeak, -⟩ := h.exact (i := i) (j := j)
    exact ⟨by omega, by omega, hpeak⟩
  · refine forall_congr' fun i => forall_congr' fun j => forall_congr' fun _ => forall_congr' fun _ => ?_
    have husage := (h.exact (i := i) (j := j)).usage
    dsimp only
    omega

end

/-- One thread allocates two blocks and frees the first: one is in use, and at most two have been. -/
theorem usage_and_peak_of_two_blocks : ∃ s history, HistoryRun CounterFollows s history ∧
    (s.profiler.counters 0 7).usageCount = 1 ∧ IsGreatest (usages history 0 7) 2 := by
  have hfirst : Permitted [] (.malloc 100 (some ⟨4096, 104⟩)) :=
    permitted_malloc ⟨by decide, by simp, by decide, by decide⟩
  have hsecond : Permitted [⟨4096, 104⟩] (.malloc 100 (some ⟨8192, 104⟩)) :=
    permitted_malloc ⟨by decide, by decide, by decide, by decide⟩
  have hfree : Permitted [⟨8192, 104⟩, ⟨4096, 104⟩] (.free 4096) := .inr ⟨⟨4096, 104⟩, by simp, rfl⟩
  have hrun : HistoryRun CounterFollows (perform 1 (perform 1 (perform 1 {} (.malloc 100 (some ⟨4096, 104⟩)))
      (.malloc 100 (some ⟨8192, 104⟩))) (.free 4096)) _ :=
    ((HistoryRun.start.call hfirst (by decide +kernel)).call hsecond (by decide +kernel)).call hfree
      (by decide +kernel)
  obtain ⟨-, -, hpeak⟩ := (usage_and_peak_of_run hrun).1 0 7
  have hpeak' : ((perform 1 (perform 1 (perform 1 {} (.malloc 100 (some ⟨4096, 104⟩)))
      (.malloc 100 (some ⟨8192, 104⟩))) (.free 4096)).profiler.counters 0 7).peakUsageCount = 2 := by
    decide +kernel
  rw [hpeak'] at hpeak
  exact ⟨_, _, hrun, by decide +kernel, hpeak⟩

/-- A block that one thread allocates and another frees: the usage of the second wraps around. -/
theorem usage_wraps_across_threads : ∃ s history, HistoryRun (fun _ _ _ => True) s history ∧
    (s.profiler.counters 1 7).allocCount = 0 ∧ (s.profiler.counters 1 7).freeCount = 1 ∧
    (s.profiler.counters 1 7).usageCount = 2^64 - 1 ∧ (s.profiler.counters 1 7).peakUsageCount = 0 := by
  have hmalloc : Permitted [] (.malloc 100 (some ⟨4096, 104⟩)) :=
    permitted_malloc ⟨by decide, by simp, by decide, by decide⟩
  have hfree : Permitted [⟨4096, 104⟩] (.free 4096) := .inr ⟨_, List.mem_singleton.mpr rfl, rfl⟩
  have hrun : HistoryRun (fun _ _ _ => True)
      (perform 2 (perform 1 {} (.malloc 100 (some ⟨4096, 104⟩))) (.free 4096)) _ :=
    (HistoryRun.start.call hmalloc trivial).call hfree trivial
  refine ⟨_, _, hrun, ?_, ?_, ?_, ?_⟩
  · decide +kernel
  · decide +kernel
  · decide +kernel
  · decide +kernel

/-- A captured allocation or deallocation of a thread. -/
inductive Capture where
  | allocation (thread address size : Nat)
  | deallocation (thread address usableSize : Nat)

namespace Capture

def thread : Capture → Nat
  | allocation thread _ _ | deallocation thread _ _ => thread

def applyTo (p : Profiler) : Capture → Profiler
  | allocation thread address size => p.captureAllocation thread address size
  | deallocation thread address usableSize => p.captureDeallocation thread address usableSize

end Capture

def Profiler.zeroed (p : Profiler) : Profiler :=
  { p with stats := fun i => { p.stats i with sizeClassStats := fun _ => {} } }

/-- The reset does nothing. -/
theorem Profiler.resetStats_eq (p : Profiler) : p.resetStats = p := by
  -- the inner loop hands the profiler on
  have hinner (i : Fin maxThreadCount) (l : List (Fin maxSizeClassCount)) (x : Profiler × SizeClassStats) :
      (l.foldl (fun x j => (x.1, ((x.1.stats i).sizeClassStats j).reset)) x).1 = x.1 := by
    induction l generalizing x with
    | nil => rfl
    | cons j l ih => exact ih _
  exact List.foldl_fixed' (fun i => hinner i _ _) _

/-- After a reset the counters go on as from zero just when they were zero before. -/
theorem reset_forgets_iff (p : Profiler) :
    (∀ captures : List Capture, (∀ c ∈ captures, (p.threadLocalStorage c.thread).isSome) → ∀ i j,
      (captures.foldl Capture.applyTo p.resetStats).counters i j =
        (captures.foldl Capture.applyTo p.zeroed).counters i j) ↔
    ∀ i j, p.counters i j = {} := by
  rw [resetStats_eq]
  constructor
  · intro h
    exact h [] (by simp)
  · intro h captures _ i j
    have hzeroed : p.zeroed = p := by
      have hstats : (fun i => { p.stats i with sizeClassStats := fun _ => {} }) = p.stats := by
        funext i
        rw [← show (p.stats i).sizeClassStats = fun _ => {} from funext (h i)]
      rw [zeroed, hstats]
    rw [hzeroed]

/-- One allocation, a reset, and another allocation of the same thread. -/
theorem reset_keeps_allocation : ∃ p : Profiler, p = captureAllocation 1 4096 100 {} ∧
    p.threadLocalStorage 1 = some 0 ∧
    (([.allocation 1 8192 100].foldl Capture.applyTo p.resetStats).counters 0 7).allocCount = 2 ∧
    (([.allocation 1 8192 100].foldl Capture.applyTo p.zeroed).counters 0 7).allocCount = 1 := by
  refine ⟨_, rfl, ?_, ?_, ?_⟩
  · decide +kernel
  · decide +kernel
  · decide +kernel

end Metamalloc.Profiling
