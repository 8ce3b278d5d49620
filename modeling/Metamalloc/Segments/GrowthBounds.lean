import Metamalloc.Segments.LookupAgreement
import Metamalloc.Library.Tiling

/-! The pages a growth makes, and the buffer the arena has returned for them. The number of
pages is the desired one, the buffer that of whichever request was granted. -/
namespace Metamalloc.Segments
open Library.Word64 Library.ByteMemory Library.LinkedList Library.Tiling Pages

/-- The length of the request whose answer `requestBuffer` is. -/
def requestLength (arena : ArenaAnswers) (s : Segment) (desired minimum : Nat) : Nat :=
  if arena.request (mul64 s.logicalPageSize desired) = 0 ∧ minimum < desired then
    mul64 s.logicalPageSize minimum
  else mul64 s.logicalPageSize desired

/-- `allocate_internal` up to its call of `grow`: the buffer, the number of pages asked of
`grow`, and the memory the search has left. -/
def growthCall (T : SegmentType) (arena : ArenaAnswers) (size : Nat) (s : Segment) (mem : Memory) :
    Option (Block × Nat × Memory) :=
  if s.maxObjectSize < size then none
  else
    match Segment.searchListed T size s mem with
    | some (none, mem) =>
      if T.concurrency = .threadLocal then none
      else
        match Segment.calculateQuantities T size s with
        | none => none
        | some (desired, minimum) =>
          let newBuffer := Segment.requestBuffer arena s desired minimum
          if newBuffer = 0 then none
          else some (⟨newBuffer, requestLength arena s desired minimum⟩, desired, mem)
    | _ => none

/-- The pages a call links into the list, latest first, and the buffer it was given for them. -/
def LinkedInCall (T : SegmentType) (arena : ArenaAnswers) (size : Nat) (s : Segment) (mem : Memory)
    (buffer : Block) (new : List Nat) : Prop :=
  ∃ n mem₁ first s' mem', growthCall T arena size s mem = some (buffer, n, mem₁) ∧
    Segment.grow T buffer.start n s mem₁ = some (first, s', mem') ∧ mem'.created = new ++ mem.created

def PageInside (pageSize : Nat) (buffer : Block) (a : Nat) : Prop :=
  buffer.start ≤ a ∧ a + pageSize ≤ buffer.start + buffer.size

/-- Where a call gets as far as growing, its first request was granted and did not wrap. -/
def GrantedAsDesired (T : SegmentType) (arena : ArenaAnswers) (size : Nat) (s : Segment) (mem : Memory) :
    Prop :=
  ∀ buffer n mem₁, growthCall T arena size s mem = some (buffer, n, mem₁) →
    arena.request (mul64 s.logicalPageSize n) ≠ 0 ∧ s.logicalPageSize * n < 2^64

/-- A buffer of so many bytes starts at a page boundary and ends before the address space does. -/
def IsBuffer (address length : Nat) : Prop :=
  address % 4096 = 0 ∧ address < 2^64 ∧ address + length ≤ 2^64

structure ArenaBuffers (arena : ArenaAnswers) : Prop where
  request : ∀ n, arena.request n ≠ 0 → IsBuffer (arena.request n) n
  retry : ∀ n, arena.retry n ≠ 0 → IsBuffer (arena.retry n) n

section
variable {T : SegmentType} {L : PageLaws T.page} {s s' : Segment} {mem mem' mem₁ : Memory}
  {arena : ArenaAnswers} {size n m k b t x ret first fuel iter stop : Nat} {buffer : Block} {new : List Nat}

theorem searchPages_created {served : Option (Nat × Nat)}
    (h : Segment.searchPages T size stop fuel iter mem = some (served, mem')) :
    mem'.created = mem.created := by
  induction fuel generalizing iter mem with
  | zero => cases h
  | succ fuel ih =>
    rw [Segment.searchPages] at h
    split at h
    · cases h
      rfl
    split at h
    · cases h
    split at h
    · cases h
    dsimp only at h
    split at h
    · cases h
      rfl
    · have hrest := ih h
      exact hrest

theorem searchListed_created {served : Option (Nat × Nat)}
    (h : Segment.searchListed T size s mem = some (served, mem')) : mem'.created = mem.created := by
  unfold Segment.searchListed at h
  split at h
  · rename_i hfirst
    have hsame := searchPages_created hfirst
    split at h
    · exact (searchPages_created h).trans hsame
    · cases h
      exact hsame
  · exact searchPages_created h

/-- The pages a growth makes, at addresses that wrap. -/
def pageAddresses (pageSize b k m : Nat) : List Nat := (List.range' k m).map fun i => add64 b (mul64 i pageSize)

theorem length_pageAddresses (pageSize : Nat) : (pageAddresses pageSize b k m).length = m := by
  rw [pageAddresses, List.length_map, List.length_range']

theorem add64_mod_granularity (hx : x % 4096 = 0) (hk : k % 4096 = 0) : add64 x k % 4096 = 0 := by
  unfold add64
  omega

theorem mul64_mod_granularity (hk : k % 4096 = 0) : mul64 n k % 4096 = 0 := by
  obtain ⟨q, rfl⟩ := Nat.dvd_of_mod_eq_zero hk
  have hdvd : 4096 ∣ n * (4096 * q) := ⟨n * q, by ring⟩
  unfold mul64
  omega

theorem createNewLogicalPage_fst :
    (Segment.createNewLogicalPage T b x s mem).1 =
      (T.page.create (add64 x T.page.objectSize) (sub64 s.logicalPageSize T.page.objectSize) s.sizeClass
        mem.bytes).isSome := by
  unfold Segment.createNewLogicalPage
  split
  · next h => rw [h]; rfl
  · next h => rw [h]; rfl

theorem createNewLogicalPage_some
    (h : Segment.createNewLogicalPage T b x s mem = (true, s', mem')) :
    ∃ p, T.page.create (add64 x T.page.objectSize) (sub64 s.logicalPageSize T.page.objectSize) s.sizeClass
        mem.bytes = some p ∧
      s' = { s with logicalPageCount := add64 s.logicalPageCount 1 } ∧ mem' = mem.placePage x p := by
  unfold Segment.createNewLogicalPage at h
  split at h
  · cases h
  · rename_i p hp
    cases h
    exact ⟨p, hp, rfl, rfl⟩

theorem createNewLogicalPage_aligned (L : PageLaws T.page) (hg : Geometry T s.toSegmentConfig) (hx : x % 4096 = 0)
    (hlt : x < 2^64) : ∃ p, Segment.createNewLogicalPage T b x s mem =
      (true, { s with logicalPageCount := add64 s.logicalPageCount 1 }, mem.placePage x p) := by
  have hobject := L.objectSize_eq
  have hsize := hg.object_lt
  have hword := hg.word
  unfold logicalPageHeaderSize at hobject
  obtain ⟨buffer, m, hc⟩ := hg.creatable
  have hsome := L.create_aligned hc (x + T.page.objectSize) mem.bytes (by omega) (by omega) (by omega)
    (by rwa [Nat.add_sub_cancel])
  obtain ⟨p, hp⟩ := Option.isSome_iff_exists.mp hsome
  refine ⟨p, ?_⟩
  rw [Segment.createNewLogicalPage, add64_of_lt (by omega), sub64_of_le hsize.le hword, hp]

/-- The pages are in the record of the pages obtained, and in the page count. -/
structure PagesMade (s : Segment) (mem : Memory) (pages : List Nat) (s' : Segment) (mem' : Memory) : Prop where
  created : mem'.created = pages.reverse ++ mem.created
  count : s'.logicalPageCount % 2^64 = (s.logicalPageCount + pages.length) % 2^64

theorem add64_count (c j : Nat) : (add64 c 1 + j) % 2^64 = (c + (j + 1)) % 2^64 := by
  unfold add64
  omega

/-- The loop behind the first page ends with its last page. -/
theorem growRest_isSome {indices : List Nat}
    (h : ∀ i ∈ indices, ∀ s' mem', s'.toSegmentConfig = s.toSegmentConfig →
      (Segment.createNewLogicalPage T b (add64 b (mul64 i s.logicalPageSize)) s' mem').1 = true)
    (hconfig : s'.toSegmentConfig = s.toSegmentConfig) : (Segment.growRest T b indices t s' mem').1.isSome := by
  induction indices generalizing t s' mem' with
  | nil => rfl
  | cons i indices ih =>
    rw [List.forall_mem_cons] at h
    have hnew := h.1 s' mem' hconfig
    rw [Segment.growRest, show s'.logicalPageSize = s.logicalPageSize by rw [hconfig]]
    rcases hcreate : Segment.createNewLogicalPage T b (add64 b (mul64 i s.logicalPageSize)) s' mem' with
      ⟨success, s₁, mem₁⟩
    rw [hcreate] at hnew
    obtain rfl : success = true := hnew
    obtain ⟨p, -, rfl, rfl⟩ := createNewLogicalPage_some hcreate
    exact ih h.2 hconfig

theorem growRest_pagesMade {last : Nat} (h : Segment.growRest T b (List.range' k m) t s mem = (some last, s', mem')) :
    PagesMade s mem (pageAddresses s.logicalPageSize b k m) s' mem' := by
  induction m generalizing k t s mem with
  | zero =>
    cases h
    exact ⟨rfl, rfl⟩
  | succ m ih =>
    rw [List.range'_succ, Segment.growRest] at h
    rcases hcreate : Segment.createNewLogicalPage T b (add64 b (mul64 k s.logicalPageSize)) s mem with
      ⟨_ | _, s₁, mem₁⟩
    · rw [hcreate] at h
      cases h
    · rw [hcreate] at h
      obtain ⟨p, -, rfl, rfl⟩ := createNewLogicalPage_some hcreate
      obtain ⟨hcreated, hcount⟩ := ih h
      refine ⟨?_, ?_⟩
      · rw [hcreated, pageAddresses, pageAddresses, List.range'_succ, List.map_cons, List.reverse_cons,
          List.append_assoc]
        rfl
      · rw [hcount, length_pageAddresses, length_pageAddresses]
        exact add64_count _ _

theorem growRest_made (L : PageLaws T.page) (hg : Geometry T s.toSegmentConfig) (hb : b % 4096 = 0) :
    ∃ last s' mem', Segment.growRest T b (List.range' k m) t s mem = (some last, s', mem') ∧
      PagesMade s mem (pageAddresses s.logicalPageSize b k m) s' mem' := by
  have hnew : ∀ i ∈ List.range' k m, ∀ s' mem', s'.toSegmentConfig = s.toSegmentConfig →
      (Segment.createNewLogicalPage T b (add64 b (mul64 i s.logicalPageSize)) s' mem').1 = true := by
    intro i _ s' mem' hconfig
    have hx : add64 b (mul64 i s.logicalPageSize) % 4096 = 0 :=
      add64_mod_granularity hb (mul64_mod_granularity hg.multiple)
    have hlt : add64 b (mul64 i s.logicalPageSize) < 2^64 := by
      unfold add64
      exact Nat.mod_lt _ (by decide)
    obtain ⟨p, hp⟩ := @createNewLogicalPage_aligned T s' mem' b _ L (hconfig ▸ hg) hx hlt
    rw [hp]
  have hsome := @growRest_isSome T s s mem b t _ hnew rfl
  rcases hrest : Segment.growRest T b (List.range' k m) t s mem with ⟨_ | last, s', mem'⟩
  · rw [hrest] at hsome
    cases hsome
  · exact ⟨last, s', mem', rfl, growRest_pagesMade hrest⟩

theorem grow_made (L : PageLaws T.page) (hg : Geometry T s.toSegmentConfig) (hlist : s.head ≠ 0 → s.tail ≠ 0)
    (hb : b % 4096 = 0) (hlt : b < 2^64) :
    ∃ s' mem', Segment.grow T b (m + 1) s mem = some (b, s', mem') ∧
      PagesMade s mem (pageAddresses s.logicalPageSize b 0 (m + 1)) s' mem' := by
  obtain ⟨p, hp⟩ := @createNewLogicalPage_aligned T s mem b b L hg hb hlt
  have hfirst : add64 b (mul64 0 s.logicalPageSize) = b := by
    unfold add64 mul64
    rw [Nat.zero_mul, Nat.zero_mod, Nat.add_zero, Nat.mod_eq_of_lt hlt]
  have haddresses : pageAddresses s.logicalPageSize b 0 (m + 1) = b :: pageAddresses s.logicalPageSize b 1 m := by
    rw [pageAddresses, List.range'_succ, List.map_cons, hfirst]
    rfl
  have hmade : ∀ {s₁ s₂ : Segment} {mem₁ mem₂ : Memory} (n : Nat),
      s₁.logicalPageCount = add64 s.logicalPageCount 1 → mem₁.created = b :: mem.created →
      PagesMade s₁ mem₁ (pageAddresses s.logicalPageSize b 1 m) s₂ mem₂ →
      PagesMade s mem (b :: pageAddresses s.logicalPageSize b 1 m) { s₂ with tail := n } mem₂ := by
    intro s₁ s₂ mem₁ mem₂ n hcount hcreated h
    refine ⟨?_, ?_⟩
    · rw [h.created, hcreated, List.reverse_cons, List.append_assoc]
      rfl
    · rw [List.length_cons, ← add64_count, ← hcount]
      exact h.count
  rw [haddresses, Segment.grow, hp, Nat.add_sub_cancel]
  dsimp only
  rw [if_neg fun hc => hlist hc.1 hc.2]
  by_cases hhead : s.head = 0
  · obtain ⟨last, s', mem', he, h⟩ := @growRest_made T
      { s with head := b, tail := b, logicalPageCount := add64 s.logicalPageCount 1 } (mem.placePage b p) m 1 b b
      L hg hb
    refine ⟨{ s' with tail := last }, mem', ?_, hmade last rfl rfl h⟩
    rw [if_pos hhead]
    dsimp only
    rw [he]
  · obtain ⟨last, s', mem', he, h⟩ := @growRest_made T
      { s with logicalPageCount := add64 s.logicalPageCount 1 } (Segment.linkAfter s.tail b (mem.placePage b p))
      m 1 b b L hg hb
    refine ⟨{ s' with tail := last }, mem', ?_, hmade last rfl rfl h⟩
    rw [if_neg hhead]
    dsimp only
    rw [he]

theorem growthCall_some (h : growthCall T arena size s mem = some (buffer, n, mem₁)) :
    ∃ m, Segment.calculateQuantities T size s = some (n, m) ∧ buffer.start ≠ 0 ∧
      buffer = ⟨Segment.requestBuffer arena s n m, requestLength arena s n m⟩ ∧
      Segment.searchListed T size s mem = some (none, mem₁) ∧ mem₁.created = mem.created := by
  unfold growthCall at h
  split at h
  · cases h
  split at h
  · rename_i hsearch
    split at h
    · cases h
    split at h
    · cases h
    rename_i hq
    dsimp only at h
    split at h
    · cases h
    · rename_i hne
      cases h
      exact ⟨_, hq, hne, rfl, hsearch, searchListed_created hsearch⟩
  · cases h

/-- A growth that is reached is carried out by `allocate_internal`, with its buffer and page count. -/
theorem allocateInternal_of_growthCall (h : growthCall T arena size s mem = some (buffer, n, mem₁))
    (he : Segment.allocateInternal T arena size s mem = some (ret, s', mem')) :
    ∃ first s₂ mem₂, Segment.grow T buffer.start n s mem₁ = some (first, s₂, mem₂) ∧
      mem'.created = mem₂.created := by
  obtain ⟨m, hq, hne, rfl, hsearch, _⟩ := growthCall_some h
  unfold growthCall at h
  unfold Segment.allocateInternal at he
  split at h
  · cases h
  rename_i hguard
  rw [if_neg hguard, hsearch] at he
  rw [hsearch] at h
  dsimp only at h he
  split at h
  · cases h
  rename_i hdirect
  rw [if_neg hdirect, Segment.growAndAllocate, hq] at he
  dsimp only at he hne ⊢
  rw [if_neg hne] at he
  rcases hg : Segment.grow T (Segment.requestBuffer arena s n m) n s mem₁ with _ | ⟨first, s₂, mem₂⟩
  · rw [hg] at he
    cases he
  · refine ⟨first, s₂, mem₂, rfl, ?_⟩
    rw [hg] at he
    dsimp only at he
    split at he
    · cases he
      rfl
    · split at he
      · cases he
      · cases he
        rfl

/-- Without a growth, a call makes no page. -/
theorem allocateInternal_of_no_growthCall (h : growthCall T arena size s mem = none)
    (he : Segment.allocateInternal T arena size s mem = some (ret, s', mem')) :
    mem'.created = mem.created := by
  unfold growthCall at h
  unfold Segment.allocateInternal at he
  split at he
  · cases he
    rfl
  rename_i hguard
  rw [if_neg hguard] at h
  split at he
  · cases he
  · rename_i hsearch
    cases he
    exact searchListed_created hsearch
  · rename_i hsearch
    rw [hsearch] at h
    dsimp only at h
    split at he
    · cases he
      exact searchListed_created hsearch
    · rename_i hdirect
      rw [if_neg hdirect] at h
      rw [Segment.growAndAllocate] at he
      split at he
      · cases he
      rename_i hq
      rw [hq] at h
      dsimp only at h he
      split at he
      · cases he
        exact searchListed_created hsearch
      · rename_i hne
        rw [if_neg hne] at h
        cases h

theorem ArenaBuffers.requestBuffer (h : ArenaBuffers arena) (hne : Segment.requestBuffer arena s n m ≠ 0) :
    IsBuffer (Segment.requestBuffer arena s n m) (requestLength arena s n m) := by
  unfold Segment.requestBuffer requestLength at *
  dsimp only at *
  split at hne
  · rename_i hretry
    rw [if_pos hretry, if_pos hretry]
    exact h.retry _ hne
  · rename_i hfirst
    rw [if_neg hfirst, if_neg hfirst]
    exact h.request _ hne

/-- The buffer is as long as the pages to be made of it exactly when the first request was
granted and did not wrap. -/
theorem requestLength_iff (hP : 0 < s.logicalPageSize) (hmn : m ≤ n)
    (hne : Segment.requestBuffer arena s n m ≠ 0) :
    (arena.request (mul64 s.logicalPageSize n) ≠ 0 ∧ s.logicalPageSize * n < 2^64 ↔
        requestLength arena s n m = s.logicalPageSize * n) ∧
      requestLength arena s n m ≤ s.logicalPageSize * n := by
  have hle : ∀ k, mul64 s.logicalPageSize k ≤ s.logicalPageSize * k := by
    intro k
    unfold mul64
    exact Nat.mod_le _ _
  have hlt : ∀ k, mul64 s.logicalPageSize k < 2^64 := by
    intro k
    unfold mul64
    exact Nat.mod_lt _ (by decide)
  have hminimum : s.logicalPageSize * m ≤ s.logicalPageSize * n := Nat.mul_le_mul_left _ hmn
  unfold Segment.requestBuffer at hne
  unfold requestLength
  dsimp only at hne
  split at hne
  · rename_i hretry
    have hstrict : s.logicalPageSize * m < s.logicalPageSize * n := Nat.mul_lt_mul_of_pos_left hretry.2 hP
    rw [if_pos hretry]
    refine ⟨⟨fun hc => absurd hretry.1 hc.1, fun heq => ?_⟩, (hle m).trans hminimum⟩
    have hm := hle m
    omega
  · rename_i hfirst
    rw [if_neg hfirst]
    refine ⟨⟨fun hc => mul64_of_lt hc.2, fun heq => ⟨hne, ?_⟩⟩, hle n⟩
    rw [← heq]
    exact hlt n

/-- Whatever a call adds to the created pages it has linked in its growth. -/
theorem allocateInternal_links (L : PageLaws T.page) (hg : Geometry T s.toSegmentConfig)
    (hlist : s.head ≠ 0 → s.tail ≠ 0) (harena : ArenaBuffers arena)
    (he : Segment.allocateInternal T arena size s mem = some (ret, s', mem')) :
    ∃ new, mem'.created = new ++ mem.created ∧ (new = [] ∨ ∃ buffer, LinkedInCall T arena size s mem buffer new) := by
  rcases hcall : growthCall T arena size s mem with _ | ⟨buffer, n, mem₁⟩
  · exact ⟨[], allocateInternal_of_no_growthCall hcall he, .inl rfl⟩
  · obtain ⟨m, hq, hne, rfl, _, hcreated₁⟩ := growthCall_some hcall
    obtain ⟨hm, hmn⟩ := calculateQuantities_bounds hq
    obtain ⟨haligned, hlt, _⟩ := harena.requestBuffer hne
    obtain ⟨k, rfl⟩ : ∃ k, n = k + 1 := ⟨n - 1, by omega⟩
    obtain ⟨first, s₂, mem₂, hgrow, hsame⟩ := allocateInternal_of_growthCall hcall he
    obtain ⟨s₃, mem₃, hgrow', hcreated, _⟩ := @grow_made T s mem₁ k _ L hg hlist haligned hlt
    rw [hgrow] at hgrow'
    cases hgrow'
    rw [hcreated₁] at hcreated
    exact ⟨_, hsame.trans hcreated, .inr ⟨_, _, _, _, _, _, hcall, hgrow, hcreated⟩⟩

theorem mem_pageAddresses {P a : Nat} : a ∈ pageAddresses P b 0 n ↔ ∃ i < n, a = add64 b (mul64 i P) := by
  simp only [pageAddresses, List.mem_map, List.mem_range'_1, Nat.zero_le, Nat.zero_add, true_and]
  exact exists_congr fun i => and_congr_right fun _ => eq_comm

theorem pages_inside {P a : Nat} (hP : 0 < P) (hend : b + P * n ≤ 2^64) (ha : a ∈ pageAddresses P b 0 n) :
    PageInside P ⟨b, P * n⟩ a := by
  obtain ⟨i, hi, rfl⟩ := mem_pageAddresses.mp ha
  have hstep : (i + 1) * P ≤ P * n := by
    rw [Nat.mul_comm P n]
    exact Nat.mul_le_mul_right P hi
  rw [Nat.succ_mul] at hstep
  unfold PageInside
  rw [mul64_of_lt (by omega), add64_of_lt (by omega)]
  dsimp only
  omega

theorem exists_page_outside {P length : Nat} (hP : 0 < P) (hb : 0 < b) (hend : b + length ≤ 2^64)
    (hshort : length < P * n) : ∃ a ∈ pageAddresses P b 0 n, ¬ PageInside P ⟨b, length⟩ a := by
  -- the page that would start at the last page boundary of the buffer
  refine ⟨_, mem_pageAddresses.mpr ⟨length / P, (Nat.div_lt_iff_lt_mul hP).mpr ?_, rfl⟩, ?_⟩
  · rwa [Nat.mul_comm]
  · have hdiv := Nat.div_add_mod' length P
    have hmod := Nat.mod_lt length hP
    unfold PageInside
    dsimp only
    rw [mul64_of_lt (by omega)]
    by_cases hwrap : b + length / P * P = 2^64
    · rw [add64_of_eq hwrap]
      omega
    · rw [add64_of_lt (by omega)]
      omega

end

/-- Every page a call links lies in the buffer it was given exactly when the growth, where it is
reached, is granted by its first request. -/
theorem linked_inside_iff {T : SegmentType} {s : Segment} {mem : Memory} {arena : ArenaAnswers} {size : Nat}
    (L : PageLaws T.page) (hg : Geometry T s.toSegmentConfig) (hlist : s.head ≠ 0 → s.tail ≠ 0)
    (harena : ArenaBuffers arena) :
    (∀ buffer new, LinkedInCall T arena size s mem buffer new →
        ∀ a ∈ new, PageInside s.logicalPageSize buffer a) ↔ GrantedAsDesired T arena size s mem := by
  have hP : 0 < s.logicalPageSize := by
    have := hg.object_lt
    omega
  constructor
  · intro hinside buffer n mem₁ hcall
    obtain ⟨m, hq, hne, rfl, _, hcreated₁⟩ := growthCall_some hcall
    obtain ⟨hm, hmn⟩ := calculateQuantities_bounds hq
    obtain ⟨haligned, hlt, hend⟩ := harena.requestBuffer hne
    obtain ⟨hiff, hle⟩ := requestLength_iff hP hmn hne
    rw [hiff]
    by_contra hlength
    have hshort := Nat.lt_of_le_of_ne hle hlength
    obtain ⟨k, rfl⟩ : ∃ k, n = k + 1 := ⟨n - 1, by omega⟩
    obtain ⟨s', mem', hgrow, hcreated, _⟩ := @grow_made T s mem₁ k _ L hg hlist haligned hlt
    rw [hcreated₁] at hcreated
    obtain ⟨a, ha, hout⟩ := exists_page_outside hP (Nat.pos_of_ne_zero hne) hend hshort
    exact hout (hinside _ _ ⟨_, _, _, _, _, hcall, hgrow, hcreated⟩ a (List.mem_reverse.mpr ha))
  · rintro hgranted buffer new ⟨n, mem₁, first, s', mem', hcall, hgrow, hcreated⟩ a ha
    obtain ⟨m, hq, hne, rfl, _, hcreated₁⟩ := growthCall_some hcall
    obtain ⟨hm, hmn⟩ := calculateQuantities_bounds hq
    obtain ⟨haligned, hlt, hend⟩ := harena.requestBuffer hne
    have hlength := ((requestLength_iff hP hmn hne).1).mp (hgranted _ _ _ hcall)
    rw [hlength] at hend ⊢
    obtain ⟨k, rfl⟩ : ∃ k, n = k + 1 := ⟨n - 1, by omega⟩
    obtain ⟨s'', mem'', hgrow', hcreated', _⟩ := @grow_made T s mem₁ k _ L hg hlist haligned hlt
    rw [hgrow] at hgrow'
    cases hgrow'
    rw [hcreated', hcreated₁] at hcreated
    have hnew := List.append_cancel_right hcreated
    refine pages_inside hP hend ?_
    rw [← List.mem_reverse, hnew]
    exact ha

theorem onePageArena_buffers : ArenaBuffers onePageArena := by
  constructor <;> intro n hne <;> simp only [onePageArena] at hne ⊢ <;> split at hne
  · rename_i hn
    rw [if_pos hn, hn]
    exact ⟨by decide, by decide, by decide⟩
  · exact absurd rfl hne
  · rename_i hn
    rw [if_pos hn, hn]
    exact ⟨by decide, by decide, by decide⟩
  · exact absurd rfl hne

theorem oneChunkTaken_state {sys : System} (h : oneChunkTaken = some sys) :
    Geometry oneChunkType sys.segment.toSegmentConfig ∧ (sys.segment.head ≠ 0 → sys.segment.tail ≠ 0) := by
  have hrun : HonestRun oneChunkType LogicalPage.laws (KeepsPages oneChunkType) sys :=
    honestRun_oneChunkTaken (fun _ => ⟨.inl trivial, refusingArena_grantedInFull, trivial⟩) h
  obtain ⟨g, hg⟩ := (hrun.reachable fun _ _ hc => hc.growsInFull).keepsPages
  have htail : oneChunkTaken.map (fun sys => sys.segment.tail) = some 12288 := by decide +kernel
  rw [h] at htail
  simp only [Option.map_some, Option.some.injEq] at htail
  exact ⟨hg.segment.geometry, fun _ => htail ▸ by decide⟩

theorem linked_inside_iff_of_one : ∃ sys, oneChunkTaken = some sys ∧
    ((∀ buffer new, LinkedInCall oneChunkType onePageArena 4032 sys.segment sys.memory buffer new →
        ∀ a ∈ new, PageInside sys.segment.logicalPageSize buffer a) ↔
      GrantedAsDesired oneChunkType onePageArena 4032 sys.segment sys.memory) := by
  obtain ⟨sys, hsys⟩ := Option.isSome_iff_exists.mp (by decide +kernel : oneChunkTaken.isSome = true)
  obtain ⟨hg, hlist⟩ := oneChunkTaken_state hsys
  exact ⟨sys, hsys, linked_inside_iff LogicalPage.laws hg hlist onePageArena_buffers⟩

/-- Two pages are wanted, the arena has room for one, and the second page is linked behind its end. -/
theorem page_linked_outside :
    ∃ sys ret s' mem', HonestRun oneChunkType LogicalPage.laws UntilDestroyed sys ∧
      ArenaHonest oneChunkType sys.segment [12288] onePageArena 4032 ∧
      Segment.allocateInternal oneChunkType onePageArena 4032 sys.segment sys.memory = some (ret, s', mem') ∧
      LinkedInCall oneChunkType onePageArena 4032 sys.segment sys.memory ⟨8192, 4096⟩ [12288, 8192] ∧
      mem'.created = [12288, 8192] ++ sys.memory.created ∧
      ¬ PageInside sys.segment.logicalPageSize ⟨8192, 4096⟩ 12288 := by
  obtain ⟨sys, hsys⟩ := Option.isSome_iff_exists.mp (by decide +kernel : oneChunkTaken.isSome = true)
  have hsize : oneChunkTaken.map (fun sys => sys.segment.logicalPageSize) = some 4096 := by decide +kernel
  have hcreated : oneChunkTaken.map (fun sys => sys.memory.created) = some [12288] := by decide +kernel
  have hcall : (oneChunkTaken.bind fun sys => (Segment.allocateInternal oneChunkType onePageArena 4032 sys.segment
      sys.memory).map fun r => r.2.2.created) = some [12288, 8192, 12288] := by decide +kernel
  have hgrowth : (oneChunkTaken.bind fun sys => (growthCall oneChunkType onePageArena 4032 sys.segment
      sys.memory).bind fun r => (Segment.grow oneChunkType r.1.start r.2.1 sys.segment r.2.2).map fun q =>
        (r.1, q.2.2.created)) = some (⟨8192, 4096⟩, [12288, 8192, 12288]) := by decide +kernel
  rw [hsys] at hsize hcreated hcall hgrowth
  simp only [Option.map_some, Option.some.injEq] at hsize hcreated
  rw [Option.bind_some] at hcall hgrowth
  obtain ⟨⟨ret, s', mem'⟩, he, hresult⟩ := Option.map_eq_some_iff.mp hcall
  obtain ⟨⟨buffer, n, mem₁⟩, hreached, hgrown⟩ := Option.bind_eq_some_iff.mp hgrowth
  obtain ⟨⟨first, s₂, mem₂⟩, hgrow, hpair⟩ := Option.map_eq_some_iff.mp hgrown
  obtain ⟨rfl, hpages⟩ := Prod.mk.inj hpair
  refine ⟨sys, ret, s', mem', honestRun_oneChunkTaken (fun _ => .inl trivial) hsys, onePageArena_honest hsys, he,
    ⟨n, mem₁, first, s₂, mem₂, hreached, hgrow, ?_⟩, ?_, ?_⟩
  · rw [hcreated]
    exact hpages
  · rw [hcreated]
    exact hresult
  · rw [hsize]
    unfold PageInside
    decide

end Metamalloc.Segments
