import Mathlib.Algebra.BigOperators.Fin
import Metamalloc.Heaps.SizeClasses

/-! The profiler behind the allocation proxies: for each thread and size class it counts what
goes through them. -/
namespace Metamalloc.Profiling
open Library.Word64 Heaps

abbrev maxSizeClassCount : Nat := 21
abbrev maxThreadCount : Nat := 64

structure SizeClassStats where
  allocCount : Nat := 0
  freeCount : Nat := 0
  peakUsageCount : Nat := 0
  usageCount : Nat := 0
  deriving DecidableEq

namespace SizeClassStats

def addAllocation (s : SizeClassStats) : SizeClassStats :=
  let usageCount := add64 s.usageCount 1
  { s with
    usageCount := usageCount
    peakUsageCount := if s.peakUsageCount < usageCount then usageCount else s.peakUsageCount
    allocCount := add64 s.allocCount 1 }

def addDeallocation (s : SizeClassStats) : SizeClassStats :=
  { s with usageCount := sub64 s.usageCount 1, freeCount := add64 s.freeCount 1 }

def reset (s : SizeClassStats) : SizeClassStats :=
  { s with allocCount := 0, freeCount := 0, peakUsageCount := 0, usageCount := 0 }

end SizeClassStats

structure ThreadStats where
  tlsId : Nat := 0
  sizeClassStats : Fin maxSizeClassCount → SizeClassStats := fun _ => {}

structure Profiler where
  observedThreadCount : Nat := 0
  stats : Fin maxThreadCount → ThreadStats := fun _ => {}
  /-- The entry each thread has stored. -/
  threadLocalStorage : Nat → Option (Fin maxThreadCount) := fun _ => none
  observed_le : observedThreadCount ≤ maxThreadCount := by decide

namespace Profiler

/-- The entry of a thread; threads beyond the last entry get none. -/
def getThreadLocalStats (thread : Nat) (p : Profiler) : Option (Fin maxThreadCount) × Profiler :=
  match p.threadLocalStorage thread with
  | some i => (some i, p)
  | none =>
    if h : p.observedThreadCount ≠ maxThreadCount then
      let i : Fin maxThreadCount := ⟨p.observedThreadCount, Nat.lt_of_le_of_ne p.observed_le h⟩
      (some i,
        { observedThreadCount := p.observedThreadCount + 1
          stats := Function.update p.stats i { p.stats i with tlsId := thread }
          threadLocalStorage := Function.update p.threadLocalStorage thread (some i)
          observed_le := i.isLt })
    else (none, p)

def findStatsIndexFromSize (size : Nat) : Nat := log2 (getFirstPow2Of size)

def updateStats (f : SizeClassStats → SizeClassStats) (i : Fin maxThreadCount) (j : Fin maxSizeClassCount)
    (p : Profiler) : Profiler :=
  { p with stats := Function.update p.stats i { p.stats i with
      sizeClassStats := Function.update (p.stats i).sizeClassStats j (f ((p.stats i).sizeClassStats j)) } }

/-- The two captures, once their size is known: sizes above the last class are left out. -/
def capture (f : SizeClassStats → SizeClassStats) (thread size : Nat) (p : Profiler) : Profiler :=
  if h : findStatsIndexFromSize size < maxSizeClassCount then
    match p.getThreadLocalStats thread with
    | (none, p) => p
    | (some i, p) => p.updateStats f i ⟨findStatsIndexFromSize size, h⟩
  else p

/-- The address is not looked at. -/
def captureAllocation (thread _address size : Nat) (p : Profiler) : Profiler :=
  if size = 0 then p else p.capture .addAllocation thread size

/-- The size is what `malloc_usable_size` says of the address. -/
def captureDeallocation (thread address usableSize : Nat) (p : Profiler) : Profiler :=
  if address = 0 then p else p.capture .addDeallocation thread usableSize

/-- The loop variable of the inner loop is a copy of the element, and it is the copy that is reset. -/
def resetStats (p : Profiler) : Profiler :=
  (List.finRange maxThreadCount).foldl (fun p i =>
    ((List.finRange maxSizeClassCount).foldl (fun (p, (_ : SizeClassStats)) j =>
      let stats := (p.stats i).sizeClassStats j
      (p, stats.reset)) (p, {})).1) p

def proxyMalloc (thread size answer : Nat) (p : Profiler) : Nat × Profiler :=
  (answer, p.captureAllocation thread answer size)

def proxyCalloc (thread count size answer : Nat) (p : Profiler) : Nat × Profiler :=
  (answer, p.captureAllocation thread answer (mul64 count size))

/-- The capture is given the old address. -/
def proxyRealloc (thread address size answer : Nat) (p : Profiler) : Nat × Profiler :=
  (answer, p.captureAllocation thread address size)

def proxyAlignedAlloc (thread size answer : Nat) (p : Profiler) : Nat × Profiler :=
  (answer, p.captureAllocation thread answer size)

def proxyFree (thread address usableSize : Nat) (p : Profiler) : Profiler :=
  p.captureDeallocation thread address usableSize

def total (count : SizeClassStats → Nat) (p : Profiler) : Nat :=
  ∑ i, ∑ j, count ((p.stats i).sizeClassStats j)

section
variable {p : Profiler} {count : SizeClassStats → Nat} {f : SizeClassStats → SizeClassStats}

theorem sum_add_of_eq_off {ι : Type*} [Fintype ι] [DecidableEq ι] (g h : ι → Nat) (a : ι)
    (he : ∀ i, i ≠ a → h i = g i) : ∑ i, h i + g a = ∑ i, g i + h a := by
  rw [← Finset.add_sum_erase _ h (Finset.mem_univ a), ← Finset.add_sum_erase _ g (Finset.mem_univ a)]
  have hrest : ∑ i ∈ Finset.univ.erase a, h i = ∑ i ∈ Finset.univ.erase a, g i := by
    apply Finset.sum_congr rfl
    intro i hi
    exact he i (Finset.ne_of_mem_erase hi)
  omega

theorem total_updateStats (i : Fin maxThreadCount) (j : Fin maxSizeClassCount) :
    total count (p.updateStats f i j) + count ((p.stats i).sizeClassStats j) =
      total count p + count (f ((p.stats i).sizeClassStats j)) := by
  have hrow := sum_add_of_eq_off (fun k => count ((p.stats i).sizeClassStats k))
    (fun k => count (((p.updateStats f i j).stats i).sizeClassStats k)) j fun k hk => by
      simp only [updateStats, Function.update_self]
      rw [Function.update_of_ne hk]
  have hrows := sum_add_of_eq_off (fun k => ∑ l, count ((p.stats k).sizeClassStats l))
    (fun k => ∑ l, count (((p.updateStats f i j).stats k).sizeClassStats l)) i fun k hk => by
      simp only [updateStats]
      rw [Function.update_of_ne hk]
  have hcell : ((p.updateStats f i j).stats i).sizeClassStats j = f ((p.stats i).sizeClassStats j) := by
    simp only [updateStats, Function.update_self]
  rw [hcell] at hrow
  rw [total, total]
  omega

end
end Profiler
end Metamalloc.Profiling
