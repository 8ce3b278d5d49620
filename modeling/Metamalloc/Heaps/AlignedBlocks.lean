import Metamalloc.Heaps.HeapBase
import Metamalloc.Heaps.HeapRuns

/-! Whether an aligned allocation lies inside the block that was asked for it. The request for the
block is the sum of the size and the alignment, as a 64-bit word. -/
namespace Metamalloc.Heaps
open Library.Word64 Pages Segments

/-- The heap itself has given out a block of `length` bytes, no fewer than it was asked for. -/
structure GivesBlock {σ : Type} (allocate : Nat → σ → Option (Nat × σ)) (request : Nat) (s s' : σ)
    (p length : Nat) : Prop where
  answer : allocate request s = some (p, s')
  ne_zero : p ≠ 0
  enough : request ≤ length
  inside : p + length < 2^64

/-- The result is aligned, and the bytes that were asked for lie in the block. -/
structure FitsInBlock (r size alignment p length : Nat) : Prop where
  aligned : alignment ∣ r
  above : p ≤ r
  inside : r + size ≤ p + length

/-- Whatever heap gives the block out, the aligned allocation fits into it. -/
def AlwaysFits (size alignment : Nat) : Prop :=
  ∀ (σ : Type) (allocate : Nat → σ → Option (Nat × σ)) (s s' : σ) (p length : Nat),
    GivesBlock allocate (add64 size alignment) s s' p length →
      ∃ r, HeapBase.allocateAligned allocate size alignment s = some (r, s') ∧
        FitsInBlock r size alignment p length

section
variable {σ : Type} {allocate : Nat → σ → Option (Nat × σ)} {s s' : σ} {size p length k : Nat}

theorem dvd_alignedPointer (hk : k < 64) (h : p + 2^k < 2^64) : 2^k ∣ HeapBase.alignedPointer p (2^k) := by
  have hmod : p % 2^k < 2^k := Nat.mod_lt _ (Nat.two_pow_pos k)
  have hdiv := Nat.div_add_mod p (2^k)
  rw [alignedPointer_eq hk h]
  refine ⟨p / 2^k + 1, ?_⟩
  rw [Nat.mul_add]
  omega

theorem alignedPointer_fits (hk : k < 64) (hlength : size + 2^k ≤ length) (hinside : p + length < 2^64) :
    FitsInBlock (HeapBase.alignedPointer p (2^k)) size (2^k) p length := by
  obtain ⟨hlo, hhi⟩ := alignedPointer_bounds (p := p) hk (by omega)
  exact ⟨dvd_alignedPointer hk (by omega), hlo.le, by omega⟩

theorem GivesBlock.allocateAligned (h : GivesBlock allocate (add64 size (2^k)) s s' p length)
    (hk : 16 < 2^k) :
    HeapBase.allocateAligned allocate size (2^k) s = some (HeapBase.alignedPointer p (2^k), s') := by
  have hgt : ¬ 2^k ≤ minimumAlignment := Nat.not_le.mpr hk
  have hanswer := h.answer
  rw [HeapBase.allocateAligned, if_neg hgt]
  dsimp only
  rw [hanswer]
  rfl

end

/-- The aligned allocation fits exactly when the request for its block does not wrap around. -/
theorem allocateAligned_alwaysFits_iff {size k : Nat} (hsize : size < 2^64) (hk : k < 64) (h16 : 16 < 2^k) :
    AlwaysFits size (2^k) ↔ size + 2^k < 2^64 := by
  have hpow : 2^k ≤ 2^63 := Nat.pow_le_pow_right (by decide) (by omega)
  constructor
  · intro h
    by_contra hwrap
    -- a block of exactly the bytes that are left of the request
    have hrequest : add64 size (2^k) = size + 2^k - 2^64 := by
      unfold add64
      omega
    obtain ⟨r, -, hfits⟩ := h Unit (fun _ _ => some (16, ())) () () 16 (size + 2^k - 2^64)
      ⟨rfl, by decide, hrequest.le, by omega⟩
    have habove := hfits.above
    have hinside := hfits.inside
    omega
  · intro hlt σ allocate s s' p length h
    refine ⟨_, h.allocateAligned h16, alignedPointer_fits hk ?_ h.inside⟩
    have henough := h.enough
    rwa [add64_of_lt hlt] at henough

theorem allocateAligned_alwaysFits_at_32 : AlwaysFits 1000 32 :=
  (allocateAligned_alwaysFits_iff (k := 5) (by decide) (by decide) (by decide)).mpr (by decide)

/-- A request for all but 16 bytes of the address space, on a multiple of 32, is served from a chunk
of 16 bytes. -/
theorem allocateAligned_beyond_block : ¬ AlwaysFits (2^64 - 16) 32 ∧
    ∃ sys, afterRequests [] = some sys ∧
      (SimpleHeapPow2.allocate singleThreadHeap refusingArena (add64 (2^64 - 16) 32) sys.heap
        sys.memory).map (fun r => r.1) = some 1052656 ∧
      (HeapBase.allocateAligned (fun size (heap, mem) =>
        SimpleHeapPow2.allocate singleThreadHeap refusingArena size heap mem) (2^64 - 16) 32
        (sys.heap, sys.memory)).map (fun r => r.1) = some 1052672 := by
  constructor
  · intro h
    obtain ⟨r, -, hfits⟩ := h Unit (fun _ _ => some (4096, ())) () () 4096 16
      ⟨rfl, by decide, by decide +kernel, by decide⟩
    have habove := hfits.above
    have hinside := hfits.inside
    omega
  · have he : (afterRequests []).map (fun sys =>
        ((SimpleHeapPow2.allocate singleThreadHeap refusingArena (add64 (2^64 - 16) 32) sys.heap
          sys.memory).map (fun r => r.1),
        (HeapBase.allocateAligned (fun size (heap, mem) =>
          SimpleHeapPow2.allocate singleThreadHeap refusingArena size heap mem) (2^64 - 16) 32
          (sys.heap, sys.memory)).map (fun r => r.1))) = some (some 1052656, some 1052672) := by decide +kernel
    obtain ⟨sys, hsys, heq⟩ := Option.map_eq_some_iff.mp he
    exact ⟨sys, hsys, congrArg Prod.fst heq, congrArg Prod.snd heq⟩

end Metamalloc.Heaps
