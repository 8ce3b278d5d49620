import Metamalloc.Library.AddressSpace
import Metamalloc.Pages.LogicalPageHeader

/-! The arena: memory of the system, cached and handed out in order at aligned addresses. -/
namespace Metamalloc.Arenas
open Library.Word64 Library.Tiling Library.AddressSpace Pages

inductive VirtualMemoryPolicy where
  | default | hugePage
  deriving DecidableEq, Repr

/-- What the system answers during one call, by the size asked for; null is a refusal. -/
structure SystemAnswers where
  regular : Nat → Nat
  hugePage : Nat → Nat

/-- A refused huge page is asked for as regular pages. -/
def allocateFromSystem (policy : VirtualMemoryPolicy) (answers : SystemAnswers) (size : Nat) : Nat :=
  match policy with
  | .default => answers.regular size
  | .hugePage => if answers.hugePage size = 0 then answers.regular size else answers.hugePage size

def modulo (first second : Nat) : Nat := first - first / second * second

theorem modulo_eq (first second : Nat) : modulo first second = first % second := by
  have := Nat.div_add_mod' first second
  unfold modulo
  omega

theorem dvd_add_sub_mod {alignment b : Nat} (ha : 0 < alignment) : alignment ∣ b + (alignment - b % alignment) := by
  have hdiv := Nat.div_add_mod b alignment
  have hmod := Nat.mod_lt b ha
  refine ⟨b / alignment + 1, ?_⟩
  rw [Nat.mul_add]
  omega

def allocateAligned (fromSystem : Nat → Nat) (size alignment : Nat) : Nat × List SystemCall :=
  let actualSize := add64 size alignment
  let buffer := fromSystem actualSize
  if buffer = 0 then (0, [])
  else
    let remainder := modulo buffer alignment
    if 0 < remainder then
      let delta := alignment - remainder
      (add64 buffer delta, [.map ⟨buffer, actualSize⟩, .unmap ⟨buffer, delta⟩])
    else
      (buffer, [.map ⟨buffer, actualSize⟩,
        .unmap ⟨sub64 (add64 buffer actualSize) alignment, alignment⟩])

structure Arena where
  vmPageSize : Nat
  pageAlignment : Nat := pageAllocationGranularity
  cacheBuffer : Nat := 0
  cacheSize : Nat := 0
  cacheUsedSize : Nat := 0
  deriving DecidableEq

namespace Arena

def buildCache (fromSystem : Nat → Nat) (size : Nat) (a : Arena) : Bool × Arena × List SystemCall :=
  match allocateAligned fromSystem size a.pageAlignment with
  | (buffer, calls) =>
    if buffer = 0 then (false, a, calls)
    else (true, { a with cacheBuffer := buffer, cacheUsedSize := 0, cacheSize := size }, calls)

/-- The alignment that is checked is the one the arena had before. -/
def create (fromSystem : Nat → Nat) (cacheCapacity pageAlignment : Nat) (a : Arena) :
    Bool × Arena × List SystemCall :=
  if a.pageAlignment &&& (pageAllocationGranularity - 1) ≠ 0 then (false, a, [])
  else buildCache fromSystem cacheCapacity { a with pageAlignment := pageAlignment }

/-- Page by page, up to the end; `none` when the loop does not end. -/
def releasePages (vmPageSize releaseEndAddress : Nat) : (fuel releaseStartAddress : Nat) →
    Option (List SystemCall)
  | 0, _ => none
  | fuel+1, start =>
    if start < releaseEndAddress then
      (releasePages vmPageSize releaseEndAddress fuel (add64 start vmPageSize)).map
        (.unmap ⟨start, vmPageSize⟩ :: ·)
    else some []

/-- Only what was never handed out goes back to the system. -/
def destroy (a : Arena) : Option (Arena × List SystemCall) :=
  let released :=
    if a.cacheUsedSize < a.cacheSize then
      releasePages a.vmPageSize (add64 a.cacheBuffer a.cacheSize) (a.cacheSize + 1)
        (add64 a.cacheBuffer a.cacheUsedSize)
    else some []
  released.map fun calls => ({ a with cacheSize := 0, cacheUsedSize := 0, cacheBuffer := 0 }, calls)

def serve (size : Nat) (a : Arena) : Nat × Arena :=
  (add64 a.cacheBuffer a.cacheUsedSize, { a with cacheUsedSize := add64 a.cacheUsedSize size })

def allocate (fromSystem : Nat → Nat) (size : Nat) (a : Arena) : Option (Nat × Arena × List SystemCall) :=
  if sub64 a.cacheSize a.cacheUsedSize < add64 size a.pageAlignment then
    match a.destroy with
    | none => none
    | some (a, released) =>
      match a.buildCache fromSystem size with
      | (false, a, calls) => some (0, a, released ++ calls)
      | (true, a, calls) => some ((a.serve size).1, (a.serve size).2, released ++ calls)
  else some ((a.serve size).1, (a.serve size).2, [])

end Arena
end Metamalloc.Arenas
