import Metamalloc.Profiling.LiveBlocks
import Metamalloc.Profiling.StatsIndex

/-! The size classes in which the profiler counts a block: that of the size asked for when it is allocated, and that
of the size the C library reports when it is freed. -/
namespace Metamalloc.Profiling
open Library.Word64 Heaps

namespace Profiler

/-- The class in which a capture counts a size; sizes above the last class have none. -/
def usedClass (size : Nat) : Option (Fin maxSizeClassCount) :=
  if h : findStatsIndexFromSize size < maxSizeClassCount then some ⟨findStatsIndexFromSize size, h⟩ else none

def countIn (f : SizeClassStats → SizeClassStats) (thread : Nat) :
    Option (Fin maxSizeClassCount) → Profiler → Profiler
  | none, p => p
  | some j, p =>
    match p.getThreadLocalStats thread with
    | (none, p) => p
    | (some i, p) => p.updateStats f i j

theorem capture_eq (f : SizeClassStats → SizeClassStats) (thread size : Nat) (p : Profiler) :
    p.capture f thread size = p.countIn f thread (usedClass size) := by
  rw [capture, usedClass]
  split
  · rfl
  · rfl

end Profiler
open Profiler

section
variable {size usable k : Nat}

theorem usedClass_eq_some (h0 : 0 < size) (h20 : size ≤ 2^20) :
    ∃ h, usedClass size = some ⟨findStatsIndexFromSize size, h⟩ := by
  have hle := (findStatsIndexFromSize_le_iff (k := 20) h0 (by omega)).mpr h20
  exact ⟨Nat.lt_succ_of_le hle, dif_pos (Nat.lt_succ_of_le hle)⟩

/-- Above the last class nothing is counted, but for sizes whose rounding wraps around to zero: these are counted
as single bytes. -/
theorem usedClass_of_large (h20 : 2^20 < size) (hword : size < 2^64) :
    (NoZeroRun (size - 1) ∧ usedClass size = some 0) ∨ (¬ NoZeroRun (size - 1) ∧ usedClass size = none) := by
  rcases getFirstPow2Of_cases (by omega : 1 < size) hword with ⟨hrun, hzero⟩ | ⟨hrun, hle, hlt⟩
  · have hindex : findStatsIndexFromSize size = 0 := by
      rw [findStatsIndexFromSize, hzero]
      decide +kernel
    refine .inl ⟨hrun, ?_⟩
    rw [usedClass, dif_pos (by rw [hindex]; decide)]
    exact congrArg some (Fin.ext hindex)
  · refine .inr ⟨hrun, dif_neg ?_⟩
    change ¬ findStatsIndexFromSize size < 21
    rcases Nat.lt_or_ge (2^32) size with h32 | h32
    · have hlog : 32 ≤ Nat.log2 (getFirstPow2Of size) := (Nat.le_log2 (by omega)).mpr (by omega)
      rw [findStatsIndexFromSize, log2_eq hlt]
      omega
    · have hindex := findStatsIndexFromSize_le_iff (k := 20) (by omega) h32
      omega

/-- The classes of the size that was asked for and of the one that is reported are the same: no power of two lies
between them, or both are above the last class. The last parts are about the sizes that wrap around. -/
def SharesClass (size usable : Nat) : Prop :=
  (usable ≤ 2^20 ∧ ∀ k, size ≤ 2^k → usable ≤ 2^k) ∨
  (2^20 < size ∧ (NoZeroRun (size - 1) ↔ NoZeroRun (usable - 1))) ∨
  (size = 1 ∧ NoZeroRun (usable - 1))

theorem not_noZeroRun (h : size ≤ 2^63) (h0 : 0 < size) : ¬ NoZeroRun (size - 1) := by
  intro hrun
  obtain ⟨j, -, hbit⟩ := hrun 63 (by decide)
  have hle : 2^(63 + j) ≤ size - 1 := Nat.ge_two_pow_of_testBit hbit
  have hpow : 2^63 ≤ 2^(63 + j) := Nat.pow_le_pow_right (by decide) (by omega)
  omega

theorem usedClass_eq_iff (h0 : 0 < size) (hle : size ≤ usable) (hword : usable < 2^64) :
    usedClass usable = usedClass size ↔ SharesClass size usable := by
  rcases Nat.lt_or_ge (2^20) size with hsize | hsize
  · have hnone : ¬ usable ≤ 2^20 := by omega
    rw [SharesClass, or_iff_right fun h => hnone h.1, or_iff_left fun h => by omega, and_iff_right hsize]
    rcases usedClass_of_large hsize (hle.trans_lt hword) with ⟨hrun, hclass⟩ | ⟨hrun, hclass⟩
    · rcases usedClass_of_large (hsize.trans_le hle) hword with ⟨hrun', hclass'⟩ | ⟨hrun', hclass'⟩
      · simp [hclass, hclass', hrun, hrun']
      · simp [hclass, hclass', hrun, hrun']
    · rcases usedClass_of_large (hsize.trans_le hle) hword with ⟨hrun', hclass'⟩ | ⟨hrun', hclass'⟩
      · simp [hclass, hclass', hrun, hrun']
      · simp [hclass, hclass', hrun, hrun']
  · obtain ⟨hlt, hclass⟩ := usedClass_eq_some h0 hsize
    have hindex (k : Nat) := findStatsIndexFromSize_le_iff (k := k) h0 (by omega : size ≤ 2^32)
    rcases Nat.lt_or_ge (2^20) usable with husable | husable
    · rw [SharesClass, or_iff_right fun h => by omega, or_iff_right fun h => by omega, hclass]
      rcases usedClass_of_large husable hword with ⟨hrun, hclass'⟩ | ⟨hrun, hclass'⟩
      · rw [hclass', and_iff_left hrun, Option.some.injEq, Fin.ext_iff]
        have hzero := hindex 0
        change 0 = findStatsIndexFromSize size ↔ _
        omega
      · rw [hclass']
        exact iff_of_false (Option.some_ne_none _).symm fun h => hrun h.2
    · obtain ⟨hlt', hclass'⟩ := usedClass_eq_some (h0.trans_le hle) husable
      have hindex' (k : Nat) := findStatsIndexFromSize_le_iff (k := k) (h0.trans_le hle) (by omega : usable ≤ 2^32)
      rw [hclass, hclass', Option.some.injEq, Fin.mk.injEq, SharesClass, or_iff_left, and_iff_right husable]
      · constructor
        · intro heq k hk
          rw [← hindex', heq, hindex]
          exact hk
        · intro hall
          refine Nat.le_antisymm ((hindex' _).mpr (hall _ ((hindex _).mp le_rfl))) ?_
          exact (hindex _).mpr (hle.trans ((hindex' _).mp le_rfl))
      · rintro (h | h)
        · omega
        · exact not_noZeroRun (by omega) (h0.trans_le hle) h.2

end

/-- The block that a call returns, with the size that was asked for. -/
def Call.result : Call → Option (HeapBlock × Nat)
  | .malloc size answer | .alignedAlloc size _ answer => answer.map fun b => (b, size)
  | .calloc count size answer => answer.map fun b => (b, count * size)
  | .realloc _ size (.block b) => some (b, size)
  | .realloc .. | .free _ => none

/-- A block of a size may be handed out next to the live ones, whatever its usable size is. -/
structure HandsOut (size : Nat) (live : List HeapBlock) (b : HeapBlock) : Prop where
  ne_zero : b.address ≠ 0
  fresh : ∀ c ∈ live, c.address ≠ b.address
  size_le : size ≤ b.usableSize
  lt : b.usableSize < 2^64

/-- The contract of the C library and of its callers: only live blocks are given back. -/
def Permitted (live : List HeapBlock) : Call → Prop
  | .malloc size answer | .alignedAlloc size _ answer => ∀ b ∈ answer, HandsOut size live b
  | .calloc count size answer => ∀ b ∈ answer, HandsOut (count * size) live b
  | .realloc address size answer => (address = 0 ∨ IsLive address live) ∧
    match answer with
    | .block b => HandsOut size (release address live) b
    | .failed => True
    | .released => size = 0 ∧ address ≠ 0
  | .free address => address = 0 ∨ IsLive address live

def sizesAfter (sizes : Nat → Nat) (call : Call) : Nat → Nat :=
  match call.result with
  | some (b, n) => Function.update sizes b.address n
  | none => sizes

/-- The states reached by calls of any threads, with the size that was last asked for at each address. -/
inductive SizedRun : State → (Nat → Nat) → Prop
  | start : SizedRun {} fun _ => 0
  | call {s : State} {sizes : Nat → Nat} {thread : Nat} {call : Call} (hs : SizedRun s sizes)
      (hp : Permitted s.live call) :
      SizedRun (perform thread s call) (sizesAfter sizes call)

def Call.counting : Call → SizeClassStats → SizeClassStats
  | .free _ => .addDeallocation
  | _ => .addAllocation

def countedClass (live : List HeapBlock) : Call → Option (Fin maxSizeClassCount)
  | .malloc size _ | .realloc _ size _ | .alignedAlloc size _ _ => if size = 0 then none else usedClass size
  | .calloc count size _ => if mul64 count size = 0 then none else usedClass (mul64 count size)
  | .free address => if address = 0 then none else usedClass (mallocUsableSize address live)

section
variable {s : State} {sizes : Nat → Nat} {thread n : Nat} {call : Call}
  {b : HeapBlock} {live : List HeapBlock}

theorem permitted_malloc {size : Nat} (h : HandsOut size live b) : Permitted live (.malloc size (some b)) := by
  intro c hc
  cases hc
  exact h

theorem release_subset {address : Nat} (hb : b ∈ release address live) : b ∈ live :=
  List.eraseP_sublist.subset hb

/-- A live block was live before, at another address than the one that is handed out, or it is handed out. -/
theorem liveAfter_cases (hp : Permitted live call) (hb : b ∈ liveAfter live call) :
    (b ∈ live ∧ ∀ c n, call.result = some (c, n) → b.address ≠ c.address) ∨
      ∃ n, call.result = some (b, n) ∧ b.address ≠ 0 ∧ n ≤ b.usableSize ∧ b.usableSize < 2^64 := by
  have hgrant (size : Nat) (answer : Option HeapBlock) (ha : ∀ c ∈ answer, HandsOut size live c)
      (hb : b ∈ answer.toList ++ live) :
      (b ∈ live ∧ ∀ c n, (answer.map fun c => (c, size)) = some (c, n) → b.address ≠ c.address) ∨
        ∃ n, (answer.map fun c => (c, size)) = some (b, n) ∧ b.address ≠ 0 ∧ n ≤ b.usableSize ∧
          b.usableSize < 2^64 := by
    cases answer with
    | none => exact .inl ⟨hb, by simp⟩
    | some c =>
      obtain ⟨h0, hfresh, hle, hlt⟩ := ha c rfl
      rcases List.mem_cons.mp hb with rfl | hb
      · exact .inr ⟨size, rfl, h0, hle, hlt⟩
      · refine .inl ⟨hb, fun d n hd => ?_⟩
        cases hd
        exact hfresh b hb
  cases call with
  | malloc size answer => exact hgrant size answer hp hb
  | calloc count size answer => exact hgrant (count * size) answer hp hb
  | alignedAlloc size alignment answer => exact hgrant size answer hp hb
  | realloc address size answer =>
    cases answer with
    | block c =>
      obtain ⟨h0, hfresh, hle, hlt⟩ := hp.2
      rcases List.mem_cons.mp hb with rfl | hb
      · exact .inr ⟨size, rfl, h0, hle, hlt⟩
      · refine .inl ⟨release_subset hb, fun d n hd => ?_⟩
        cases hd
        exact hfresh b hb
    | failed => exact .inl ⟨hb, by simp [Call.result]⟩
    | released => exact .inl ⟨release_subset hb, by simp [Call.result]⟩
  | free address => exact .inl ⟨release_subset hb, by simp [Call.result]⟩

theorem sizesAfter_result (hresult : call.result = some (b, n)) : sizesAfter sizes call b.address = n := by
  rw [sizesAfter, hresult]
  exact Function.update_self _ _ _

/-- What is known of a live block: freeing it is captured, and its usable size has room for what was asked for. -/
structure Sized (sizes : Nat → Nat) (b : HeapBlock) : Prop where
  ne_zero : b.address ≠ 0
  size_le : sizes b.address ≤ b.usableSize
  lt : b.usableSize < 2^64

theorem SizedRun.sized (h : SizedRun s sizes) : ∀ b ∈ s.live, Sized sizes b := by
  induction h with
  | start => simp
  | @call s sizes thread call hs hp ih =>
    intro b hb
    rcases liveAfter_cases hp hb with ⟨hlive, hne⟩ | ⟨n, hresult, h0, hle, hlt⟩
    · have hsame : sizesAfter sizes call b.address = sizes b.address := by
        rw [sizesAfter]
        cases hresult : call.result with
        | none => rfl
        | some r => exact Function.update_of_ne (hne r.1 r.2 hresult) _ _
      obtain ⟨h0, hle, hlt⟩ := ih b hlive
      rw [← hsame] at hle
      exact ⟨h0, hle, hlt⟩
    · rw [← sizesAfter_result hresult] at hle
      exact ⟨h0, hle, hlt⟩

theorem perform_profiler : (perform thread s call).profiler =
    s.profiler.countIn call.counting thread (countedClass s.live call) := by
  have hcapture (address size : Nat) : s.profiler.captureAllocation thread address size =
      s.profiler.countIn .addAllocation thread (if size = 0 then none else usedClass size) := by
    rw [captureAllocation, capture_eq]
    split
    · rfl
    · rfl
  cases call with
  | malloc size answer => exact hcapture (returned answer) size
  | calloc count size answer => exact hcapture (returned answer) (mul64 count size)
  | realloc address size answer => exact hcapture address size
  | alignedAlloc size alignment answer => exact hcapture (returned answer) size
  | free address =>
    change s.profiler.captureDeallocation thread address _ =
      s.profiler.countIn .addDeallocation thread (if _ then _ else _)
    rw [captureDeallocation, capture_eq]
    split
    · rfl
    · rfl

/-- An allocation through a proxy is counted by the size that was asked for. -/
theorem perform_result (hresult : call.result = some (b, n)) (hn : 0 < n) (hword : n < 2^64) :
    (perform thread s call).profiler = s.profiler.countIn .addAllocation thread (usedClass n) := by
  rw [perform_profiler]
  cases call with
  | malloc size answer | alignedAlloc size alignment answer =>
    obtain ⟨c, rfl, hc⟩ := Option.map_eq_some_iff.mp hresult
    cases hc
    rw [countedClass, if_neg hn.ne']
    rfl
  | calloc count size answer =>
    obtain ⟨c, rfl, hc⟩ := Option.map_eq_some_iff.mp hresult
    cases hc
    have hmul : mul64 count size = count * size := by
      unfold mul64
      exact Nat.mod_eq_of_lt hword
    rw [countedClass, hmul, if_neg hn.ne']
    rfl
  | realloc address size answer =>
    cases answer with
    | block c =>
      cases hresult
      rw [countedClass, if_neg hn.ne']
      rfl
    | failed | released => cases hresult
  | free address => cases hresult

theorem result_mem_liveAfter (hresult : call.result = some (b, n)) : b ∈ liveAfter live call := by
  cases call with
  | malloc size answer | alignedAlloc size alignment answer | calloc count size answer =>
    obtain ⟨c, rfl, hc⟩ := Option.map_eq_some_iff.mp hresult
    cases hc
    exact List.mem_cons_self
  | realloc address size answer =>
    cases answer with
    | block c =>
      cases hresult
      exact List.mem_cons_self
    | failed | released => cases hresult
  | free address => cases hresult

theorem perform_free {address : Nat} (h0 : address ≠ 0) : (perform thread s (.free address)).profiler =
    s.profiler.countIn .addDeallocation thread (usedClass (mallocUsableSize address s.live)) := by
  rw [perform_profiler, countedClass, if_neg h0]
  rfl

/-- In every run, an allocation is counted in the class of the size that is asked for, a free in that of the usable
size, and for a live block the two are the same just when the sizes share a class. -/
theorem free_class_eq_allocation_class_iff (h : SizedRun s sizes) :
    (∀ thread call b n, Permitted s.live call → call.result = some (b, n) → 0 < n →
      (perform thread s call).profiler = s.profiler.countIn .addAllocation thread (usedClass n)) ∧
    ∀ address, IsLive address s.live → 0 < sizes address →
      (∀ thread, (perform thread s (.free address)).profiler =
        s.profiler.countIn .addDeallocation thread (usedClass (mallocUsableSize address s.live))) ∧
      (usedClass (mallocUsableSize address s.live) = usedClass (sizes address) ↔
        SharesClass (sizes address) (mallocUsableSize address s.live)) := by
  constructor
  · intro thread call b n hp hresult hn
    have hsized := (@SizedRun.call s sizes thread call h hp).sized b (result_mem_liveAfter hresult)
    have hle := hsized.size_le
    rw [sizesAfter_result hresult] at hle
    exact perform_result hresult hn (hle.trans_lt hsized.lt)
  · intro address hlive hpos
    obtain ⟨c, hc, rfl, husable⟩ := mallocUsableSize_of_isLive hlive
    obtain ⟨h0, hle, hlt⟩ := h.sized c hc
    refine ⟨fun thread => perform_free h0, ?_⟩
    rw [husable]
    exact usedClass_eq_iff hpos hle hlt

end

/-- A block of 100 bytes with 104 usable ones is counted in the class of 128 bytes both times. -/
theorem free_class_of_hundred_bytes : ∃ s sizes, SizedRun s sizes ∧ IsLive 4096 s.live ∧ sizes 4096 = 100 ∧
    usedClass (mallocUsableSize 4096 s.live) = some 7 ∧ usedClass 100 = some 7 := by
  have hp : Permitted [] (.malloc 100 (some ⟨4096, 104⟩)) :=
    permitted_malloc ⟨by decide, by simp, by decide, by decide⟩
  have hrun : SizedRun (perform 1 {} (.malloc 100 (some ⟨4096, 104⟩))) _ := SizedRun.start.call hp
  have hlive : IsLive 4096 (perform 1 {} (.malloc 100 (some ⟨4096, 104⟩))).live :=
    ⟨_, List.mem_singleton.mpr rfl, rfl⟩
  have hshares : SharesClass 100 104 := by
    refine .inl ⟨by decide, fun k hk => ?_⟩
    have hk7 : 7 ≤ k := by
      by_contra hlt
      have hpow : 2^k ≤ 2^6 := Nat.pow_le_pow_right (by decide) (by omega)
      omega
    exact le_trans (by decide) (Nat.pow_le_pow_right (by decide) hk7)
  have hclass : usedClass 100 = some 7 := by decide +kernel
  have heq := (((free_class_eq_allocation_class_iff hrun).2 4096 hlive (by decide)).2).mpr hshares
  exact ⟨_, _, hrun, hlive, rfl, heq.trans hclass, hclass⟩

/-- `malloc(16)` returns a block with 24 usable bytes: it is counted as allocated among the blocks of up to 16 bytes
and as freed among those of up to 32. -/
theorem malloc_sixteen_freed_in_other_class : ∃ s sizes, SizedRun s sizes ∧ IsLive 4096 s.live ∧
    sizes 4096 = 16 ∧ mallocUsableSize 4096 s.live = 24 ∧ usedClass 16 = some 4 ∧ usedClass 24 = some 5 ∧
    ((s.profiler.stats 0).sizeClassStats 5).allocCount = 0 ∧
    (((perform 1 s (.free 4096)).profiler.stats 0).sizeClassStats 5).freeCount = 1 := by
  have hp : Permitted [] (.malloc 16 (some ⟨4096, 24⟩)) :=
    permitted_malloc ⟨by decide, by simp, by decide, by decide⟩
  have hrun : SizedRun (perform 1 {} (.malloc 16 (some ⟨4096, 24⟩))) _ := SizedRun.start.call hp
  refine ⟨_, _, hrun, ⟨_, List.mem_singleton.mpr rfl, rfl⟩, rfl, rfl, ?_, ?_, ?_, ?_⟩
  · decide +kernel
  · decide +kernel
  · decide +kernel
  · decide +kernel

end Metamalloc.Profiling
