import Metamalloc.Arenas.ArenaLock

/-! What `create` lets through. The alignment it checks is the one the arena had before, so the
one it is given is used as it comes. -/
namespace Metamalloc.Arenas
open Library.Word64 Library.Tiling Library.AddressSpace Pages

/-- The pages a release takes from the process, by number: whole pages, the length rounded up. The system
refuses an address that does not start a page. -/
def ReleasesPage (vmPageSize : Nat) (b : Block) (page : Nat) : Prop :=
  vmPageSize ∣ b.start ∧ b.start / vmPageSize ≤ page ∧
    page < b.start / vmPageSize + (b.size + vmPageSize - 1) / vmPageSize

def KeepsRange (vmPageSize : Nat) (range : Block) (calls : List SystemCall) : Prop :=
  ∀ b page x, .unmap b ∈ calls → ReleasesPage vmPageSize b page → range.Holds x → x < 2^64 →
    x / vmPageSize ≠ page

/-- The cache starts at a multiple of a valid alignment and is all there. -/
@[mk_iff] structure ValidCache (a : Arena) (calls : List SystemCall) : Prop where
  granular : pageAllocationGranularity ∣ a.pageAlignment
  aligned : a.pageAlignment ∣ a.cacheBuffer
  kept : KeepsRange a.vmPageSize ⟨a.cacheBuffer, a.cacheSize⟩ calls

/-- The alignment is valid, the first aligned address of the buffer is one of the address space, and the
excess behind an aligned buffer does not wrap around into it. -/
def ValidRequest (vmPageSize buffer cacheCapacity pageAlignment : Nat) : Prop :=
  pageAllocationGranularity ∣ pageAlignment ∧
  (¬ pageAlignment ∣ buffer → buffer + (pageAlignment - buffer % pageAlignment) < 2^64) ∧
  (pageAlignment ∣ buffer → cacheCapacity + pageAlignment ≤ 2^64 ∨ ¬ vmPageSize ∣ cacheCapacity)

section
variable {policy : LockPolicy} {fromSystem : Nat → Nat} {vmPageSize size capacity alignment buffer start page x : Nat}
  {a a' : Arena} {s s' : LockingArena} {calls : List SystemCall} {b range : Block}

/-- The release of whole pages takes the bytes of its range. -/
theorem releasesPage_div_iff (hvm : 0 < vmPageSize) (hstart : vmPageSize ∣ b.start) (hsize : vmPageSize ∣ b.size) :
    ReleasesPage vmPageSize b (x / vmPageSize) ↔ b.Holds x := by
  obtain ⟨first, hfirst⟩ := hstart
  obtain ⟨count, hcount⟩ := hsize
  have hround : (b.size + vmPageSize - 1) / vmPageSize = count := by
    rw [hcount, Nat.add_sub_assoc hvm, Nat.mul_add_div hvm, Nat.div_eq_of_lt (by omega), Nat.add_zero]
  have hend : b.start + b.size = vmPageSize * (first + count) := by rw [hfirst, hcount, Nat.mul_add]
  rw [ReleasesPage, Block.Holds, hround, hend, hfirst, Nat.mul_div_cancel_left _ hvm,
    Nat.le_div_iff_mul_le hvm, Nat.div_lt_iff_lt_mul hvm, Nat.mul_comm first, Nat.mul_comm (first + count)]
  exact ⟨fun h => h.2, fun h => ⟨⟨first, rfl⟩, h⟩⟩

theorem not_releasesPage (hstart : ¬ vmPageSize ∣ b.start) : ¬ ReleasesPage vmPageSize b page :=
  fun h => hstart h.1

/-- What a release of whole pages behind a mapping keeps. -/
theorem keepsRange_map_unmap_iff {whole : Block} (hvm : 0 < vmPageSize) (hstart : vmPageSize ∣ b.start)
    (hsize : vmPageSize ∣ b.size) :
    KeepsRange vmPageSize range [.map whole, .unmap b] ↔ ∀ x, range.Holds x → x < 2^64 → ¬ b.Holds x := by
  constructor
  · intro h x hx hlt hb
    exact h b _ x (by simp) ((releasesPage_div_iff hvm hstart hsize).mpr hb) hx hlt rfl
  · intro h b' page x hmem hpage hx hlt heq
    obtain rfl : b' = b := by simpa using hmem
    rw [← heq, releasesPage_div_iff hvm hstart hsize] at hpage
    exact h x hx hlt hpage

/-- What is released is behind an aligned buffer, and in front of the first aligned address of any other. -/
theorem allocateAligned_cases (hne : (allocateAligned fromSystem size alignment).1 ≠ 0)
    (hbuffer : fromSystem (add64 size alignment) = buffer) :
    (alignment ∣ buffer ∧ allocateAligned fromSystem size alignment = (buffer,
      [.map ⟨buffer, add64 size alignment⟩, .unmap ⟨(buffer + size) % 2^64, alignment⟩])) ∨
    (¬ alignment ∣ buffer ∧ allocateAligned fromSystem size alignment =
      (add64 buffer (alignment - buffer % alignment), [.map ⟨buffer, add64 size alignment⟩,
        .unmap ⟨buffer, alignment - buffer % alignment⟩])) := by
  have hback : sub64 (add64 buffer (add64 size alignment)) alignment = (buffer + size) % 2^64 := by
    unfold sub64 add64
    omega
  unfold allocateAligned at hne ⊢
  dsimp only at hne ⊢
  rw [hbuffer] at hne ⊢
  split at hne
  · exact absurd rfl hne
  rename_i h0
  rw [if_neg h0, modulo_eq, hback]
  by_cases hdvd : alignment ∣ buffer
  · rw [if_neg (by rw [Nat.mod_eq_zero_of_dvd hdvd]; exact lt_irrefl 0)]
    exact .inl ⟨hdvd, rfl⟩
  · rw [if_pos (Nat.pos_of_ne_zero fun h => hdvd (Nat.dvd_of_mod_eq_zero h))]
    exact .inr ⟨hdvd, rfl⟩

/-- A cache that was created is what the system's range was trimmed to, for the alignment that was given. -/
theorem LockingArena.create_returned
    (hp : s.create policy fromSystem capacity alignment = .returned (true, calls, s')) :
    0 < alignment ∧ (allocateAligned fromSystem capacity alignment).1 ≠ 0 ∧
      calls = (allocateAligned fromSystem capacity alignment).2 ∧
      s'.arena = { s.arena with
        pageAlignment := alignment, cacheBuffer := (allocateAligned fromSystem capacity alignment).1,
        cacheUsedSize := 0, cacheSize := capacity } := by
  unfold create at hp
  split at hp
  · cases hp
  rcases henter : s.enterConcurrentContext policy with _ | entered
  · rw [henter] at hp
    cases hp
  have harena : entered.arena = s.arena := arena_enterConcurrentContext henter
  rw [henter] at hp
  dsimp only at hp
  unfold buildCache at hp
  rw [harena] at hp
  by_cases hzero : alignment = 0 ∧ fromSystem (add64 capacity alignment) ≠ 0
  · rw [if_pos hzero] at hp
    cases hp
  rw [if_neg hzero] at hp
  unfold Arena.buildCache at hp
  dsimp only at hp
  by_cases h0 : (allocateAligned fromSystem capacity alignment).1 = 0
  · rw [if_pos h0] at hp
    cases hp
  rw [if_neg h0] at hp
  cases hp
  refine ⟨Nat.pos_of_ne_zero fun ha => h0 ?_, h0, rfl, by simp⟩
  rw [allocateAligned_eq_zero_iff]
  exact .inl (by simpa using not_and.mp hzero ha)

/-- The excess behind an aligned buffer misses it, unless it wraps around. -/
theorem excess_disjoint_iff (hle : alignment ≤ buffer) (hlt : buffer < 2^64) (hcapacity : capacity < 2^64) :
    (∀ x, (⟨buffer, capacity⟩ : Block).Holds x → x < 2^64 →
      ¬ (⟨(buffer + capacity) % 2^64, alignment⟩ : Block).Holds x) ↔ capacity + alignment ≤ 2^64 := by
  unfold Block.Holds
  dsimp only
  constructor
  · intro h
    by_contra hwrap
    have hfirst := h buffer ⟨le_refl buffer, by omega⟩ hlt
    omega
  · intro hsum x hx hx64
    omega

/-- An address that wraps around is not aligned any more. -/
theorem dvd_add64_padding_iff (hpos : 0 < alignment) (hlt : buffer < 2^64) (halignment : alignment < 2^64)
    (hne : add64 buffer (alignment - buffer % alignment) ≠ 0) :
    alignment ∣ add64 buffer (alignment - buffer % alignment) ↔
      buffer + (alignment - buffer % alignment) < 2^64 := by
  constructor
  · intro hdvd
    by_contra hwrap
    have hle := Nat.le_of_dvd (Nat.pos_of_ne_zero hne) hdvd
    unfold add64 at hle
    omega
  · intro hsum
    rw [add64_of_lt hsum]
    exact dvd_add_sub_mod hpos

/-- The cache that `create` has built is valid exactly when the request was. -/
theorem create_valid_iff (hvm : s.arena.vmPageSize ∣ pageAllocationGranularity)
    (hbuffer : fromSystem (add64 capacity alignment) = buffer) (hpage : s.arena.vmPageSize ∣ buffer)
    (hlt : buffer < 2^64) (hcapacity : capacity < 2^64) (halignment : alignment < 2^64)
    (h : s.create policy fromSystem capacity alignment = .returned (true, calls, s')) :
    ValidCache s'.arena calls ↔ ValidRequest s.arena.vmPageSize buffer capacity alignment := by
  obtain ⟨hpos, hne, hcalls, harena⟩ := LockingArena.create_returned h
  have hvm0 : 0 < s.arena.vmPageSize := Nat.pos_of_dvd_of_pos hvm (by decide)
  rw [validCache_iff, ValidRequest, harena, hcalls]
  refine and_congr_right fun hgranular => ?_
  have hvmAlignment : s.arena.vmPageSize ∣ alignment := hvm.trans hgranular
  dsimp only
  obtain ⟨hdvd, hcall⟩ | ⟨hdvd, hcall⟩ := allocateAligned_cases hne hbuffer
  · rw [hcall] at hne ⊢
    dsimp only at hne ⊢
    simp only [hdvd, true_and, not_true_eq_false, false_implies, true_implies]
    by_cases hwhole : s.arena.vmPageSize ∣ capacity
    · have hstart : s.arena.vmPageSize ∣ (buffer + capacity) % 2^64 :=
        (Nat.dvd_mod_iff (hvm.trans (by decide))).mpr (Nat.dvd_add hpage hwhole)
      rw [keepsRange_map_unmap_iff hvm0 hstart hvmAlignment,
        excess_disjoint_iff (Nat.le_of_dvd (Nat.pos_of_ne_zero hne) hdvd) hlt hcapacity]
      simp [hwhole]
    · -- the system refuses the address behind the last byte
      have hstart : ¬ s.arena.vmPageSize ∣ (buffer + capacity) % 2^64 := by
        rw [Nat.dvd_mod_iff (hvm.trans (by decide)), Nat.dvd_add_right hpage]
        exact hwhole
      refine ⟨fun _ => .inr hwhole, fun _ b page x hmem hpage _ _ => ?_⟩
      obtain rfl : b = _ := by simpa using hmem
      exact absurd hpage (not_releasesPage hstart)
  · rw [hcall] at hne ⊢
    dsimp only at hne ⊢
    simp only [hdvd, not_false_eq_true, true_implies, false_implies, and_true]
    rw [dvd_add64_padding_iff hpos hlt halignment hne]
    refine ⟨fun h => h.1, fun hsum => ⟨hsum, ?_⟩⟩
    have hpadding : s.arena.vmPageSize ∣ alignment - buffer % alignment :=
      Nat.dvd_sub hvmAlignment ((Nat.dvd_mod_iff hvmAlignment).mpr hpage)
    rw [keepsRange_map_unmap_iff hvm0 hpage hpadding, add64_of_lt hsum]
    intro x hx _ hreleased
    exact absurd hreleased.2 (not_lt.mpr hx.1)

end

theorem create_valid_iff_at_granularity :
    ValidRequest 4096 65536 131072 65536 ∧
    ValidCache ⟨4096, 65536, 65536, 131072, 0⟩ [.map ⟨65536, 196608⟩, .unmap ⟨196608, 65536⟩] := by
  have hrequest : ValidRequest 4096 65536 131072 65536 :=
    ⟨by decide, fun h => absurd (by decide) h, fun _ => .inl (by decide)⟩
  have hcreate : freshArena.create .userspaceLock (fun _ => 65536) 131072 65536 =
      .returned (true, [.map ⟨65536, 196608⟩, .unmap ⟨196608, 65536⟩],
        ⟨⟨4096, 65536, 65536, 131072, 0⟩, false⟩) := by decide +kernel
  exact ⟨hrequest, (create_valid_iff (by decide) rfl (by decide) (by decide) (by decide) (by decide) hcreate).mpr
    hrequest⟩

/-- An alignment of 6000 is let through by a fresh arena, and the page its cache starts in is released. -/
theorem create_releases_cache_page :
    ∃ s', freshArena.create .userspaceLock (fun _ => 4096) 65536 6000 =
        .returned (true, [.map ⟨4096, 71536⟩, .unmap ⟨4096, 1904⟩], s') ∧
      ¬ pageAllocationGranularity ∣ 6000 ∧ s'.arena.cacheBuffer = 6000 ∧
      ReleasesPage 4096 ⟨4096, 1904⟩ (6000 / 4096) ∧
      ¬ ValidCache s'.arena [.map ⟨4096, 71536⟩, .unmap ⟨4096, 1904⟩] := by
  refine ⟨⟨⟨4096, 6000, 6000, 65536, 0⟩, false⟩, by decide +kernel, by decide, rfl, ?_, fun h => ?_⟩
  · unfold ReleasesPage
    decide
  · exact absurd h.granular (by decide)

end Metamalloc.Arenas
