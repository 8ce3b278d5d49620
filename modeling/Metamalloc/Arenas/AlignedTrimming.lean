import Metamalloc.Arenas.Arena

/-! What `allocate_aligned` gives back of the range it has asked the system for.
The request is one alignment longer than the result. Of the two ends that are too much, the
code gives back one: the front when it has to skip to an aligned address, the back otherwise. -/
namespace Metamalloc.Arenas
open Library.Word64 Library.Tiling Library.AddressSpace

def systemRange (fromSystem : Nat → Nat) (size alignment : Nat) : Block :=
  ⟨fromSystem (size + alignment), size + alignment⟩

def Keeps (mapped : Mapped) (fromSystem : Nat → Nat) (size alignment x : Nat) : Prop :=
  (systemRange fromSystem size alignment).Holds x ∧
    performAll mapped (allocateAligned fromSystem size alignment).2 x = true

/-- The result is aligned, and the mapped part of the range is the result. -/
def TrimmedExactly (mapped : Mapped) (fromSystem : Nat → Nat) (size alignment : Nat) : Prop :=
  alignment ∣ (allocateAligned fromSystem size alignment).1 ∧
    ∀ x, Keeps mapped fromSystem size alignment x ↔
      (⟨(allocateAligned fromSystem size alignment).1, size⟩ : Block).Holds x

def fixedAnswer (buffer : Nat) : Nat → Nat := fun _ => buffer

section
variable {mapped : Mapped} {fromSystem : Nat → Nat} {size alignment buffer : Nat}

/-- Of a range that was just mapped, what is left is what was not unmapped again. -/
theorem performAll_map_unmap (whole part : Block) (x : Nat) (hx : whole.Holds x) :
    performAll mapped [.map whole, .unmap part] x = true ↔ ¬ part.Holds x := by
  unfold Block.Holds at *
  simp only [performAll, List.foldl_cons, List.foldl_nil, SystemCall.perform, if_pos hx]
  split <;> simp_all

/-- A range at an aligned address loses its back. -/
theorem allocateAligned_of_dvd (hbuffer : fromSystem (size + alignment) = buffer) (hne : buffer ≠ 0)
    (ha : 0 < alignment) (hsum : size + alignment < 2^64) (hend : buffer + (size + alignment) ≤ 2^64)
    (hdvd : alignment ∣ buffer) :
    allocateAligned fromSystem size alignment =
      (buffer, [.map ⟨buffer, size + alignment⟩, .unmap ⟨buffer + size, alignment⟩]) := by
  have hmod : buffer % alignment = 0 := Nat.mod_eq_zero_of_dvd hdvd
  -- the end of the range may be the end of the address space
  have hback : sub64 (add64 buffer (size + alignment)) alignment = buffer + size := by
    unfold sub64 add64
    omega
  unfold allocateAligned
  rw [add64_of_lt hsum]
  dsimp only
  rw [hbuffer, if_neg hne, modulo_eq, hmod, if_neg (lt_irrefl 0), hback]

/-- Any other range loses what is in front of the first aligned address. -/
theorem allocateAligned_of_not_dvd (hbuffer : fromSystem (size + alignment) = buffer) (hne : buffer ≠ 0)
    (ha : 0 < alignment) (hs : 0 < size) (hsum : size + alignment < 2^64)
    (hend : buffer + (size + alignment) ≤ 2^64) (hdvd : ¬ alignment ∣ buffer) :
    allocateAligned fromSystem size alignment =
      (buffer + (alignment - buffer % alignment), [.map ⟨buffer, size + alignment⟩,
        .unmap ⟨buffer, alignment - buffer % alignment⟩]) := by
  have hmod : 0 < buffer % alignment := Nat.pos_of_ne_zero fun h => hdvd (Nat.dvd_of_mod_eq_zero h)
  unfold allocateAligned
  rw [add64_of_lt hsum]
  dsimp only
  rw [hbuffer, if_neg hne, modulo_eq, if_pos hmod, add64_of_lt (by omega)]

/-- The result is aligned, and behind it as many bytes stay mapped as the system's address
is above an aligned one. -/
theorem allocateAligned_keeps (hne : fromSystem (size + alignment) ≠ 0) (ha : 0 < alignment)
    (hs : 0 < size) (hsum : size + alignment < 2^64)
    (hend : fromSystem (size + alignment) + (size + alignment) ≤ 2^64) :
    alignment ∣ (allocateAligned fromSystem size alignment).1 ∧
      ∀ x, Keeps mapped fromSystem size alignment x ↔
        (⟨(allocateAligned fromSystem size alignment).1,
          size + fromSystem (size + alignment) % alignment⟩ : Block).Holds x := by
  obtain ⟨buffer, hbuffer⟩ : ∃ b, fromSystem (size + alignment) = b := ⟨_, rfl⟩
  unfold Keeps systemRange
  rw [hbuffer] at hne hend ⊢
  have hlt := Nat.mod_lt buffer ha
  by_cases hdvd : alignment ∣ buffer
  · rw [allocateAligned_of_dvd hbuffer hne ha hsum hend hdvd]
    refine ⟨hdvd, fun x => ?_⟩
    have hmod : buffer % alignment = 0 := Nat.mod_eq_zero_of_dvd hdvd
    rw [and_congr_right fun hx => performAll_map_unmap _ _ x hx]
    simp only [Block.Holds]
    omega
  · rw [allocateAligned_of_not_dvd hbuffer hne ha hs hsum hend hdvd]
    refine ⟨dvd_add_sub_mod ha, fun x => ?_⟩
    rw [and_congr_right fun hx => performAll_map_unmap _ _ x hx]
    simp only [Block.Holds]
    omega

/-- Nothing but the result stays mapped exactly when the system's address was aligned. -/
theorem allocateAligned_trimmedExactly_iff (mapped : Mapped) (hne : fromSystem (size + alignment) ≠ 0)
    (ha : 0 < alignment) (hs : 0 < size) (hsum : size + alignment < 2^64)
    (hend : fromSystem (size + alignment) + (size + alignment) ≤ 2^64) :
    TrimmedExactly mapped fromSystem size alignment ↔ alignment ∣ fromSystem (size + alignment) := by
  obtain ⟨haligned, hkeeps⟩ := @allocateAligned_keeps mapped fromSystem size alignment hne ha hs hsum hend
  unfold TrimmedExactly
  simp only [Block.Holds] at hkeeps ⊢
  constructor
  · rintro ⟨-, hexact⟩
    -- the first byte behind the result would be mapped
    by_contra hdvd
    have hmod : 0 < fromSystem (size + alignment) % alignment :=
      Nat.pos_of_ne_zero fun h => hdvd (Nat.dvd_of_mod_eq_zero h)
    have hbehind := (hkeeps ((allocateAligned fromSystem size alignment).1 + size)).mpr ⟨by omega, by omega⟩
    have hinside := (hexact _).mp hbehind
    omega
  · intro hdvd
    have hmod : fromSystem (size + alignment) % alignment = 0 := Nat.mod_eq_zero_of_dvd hdvd
    refine ⟨haligned, fun x => ?_⟩
    rw [hkeeps x, hmod, Nat.add_zero]

end

theorem allocateAligned_trimmedExactly_at_granularity :
    TrimmedExactly (fun _ => false) (fixedAnswer 65536) 65536 65536 ↔ 65536 ∣ 65536 :=
  allocateAligned_trimmedExactly_iff _ (by decide) (by decide) (by decide) (by decide) (by decide)

/-- One page of 4096 bytes too low for an alignment of 65536: the page behind the result is leaked. -/
theorem allocateAligned_leaks_back :
    allocateAligned (fixedAnswer 4096) 65536 65536 =
        (65536, [.map ⟨4096, 131072⟩, .unmap ⟨4096, 61440⟩]) ∧
      ¬ TrimmedExactly (fun _ => false) (fixedAnswer 4096) 65536 65536 := by
  have hcall : allocateAligned (fixedAnswer 4096) 65536 65536 =
      (65536, [.map ⟨4096, 131072⟩, .unmap ⟨4096, 61440⟩]) := by decide +kernel
  refine ⟨hcall, fun h => ?_⟩
  obtain ⟨-, hexact⟩ := h
  have hleak := hexact 131072
  unfold Keeps systemRange Block.Holds at hleak
  rw [hcall] at hleak
  revert hleak
  decide +kernel

end Metamalloc.Arenas
