import Metamalloc.Pages.AnySizeLaws

/-! When the coalescing any-size page keeps its free blocks in address order and merged. -/
namespace Metamalloc.Pages.LogicalPageAnySize
open Library.Word64 Library.ByteMemory Library.LinkedList Library.Tiling

/-- The free list is strictly increasing and no free block ends where one starts. -/
def FullyCoalesced (p : Page) : Prop :=
  ∃ nodes, Path (getNextPointer p.bytes) p.header.head nodes 0 ∧ 0 ∉ nodes ∧
    nodes.Pairwise (· < ·) ∧ ∀ a ∈ nodes, ∀ b ∈ nodes, a + getBlockSize p.bytes a ≠ b

/-- A deallocation that finds a single free block puts the freed one behind it and merges
nothing, which is right only above that block and not next to it. -/
def KeepsOrder (s : State) : Operation → Prop
  | .deallocate x =>
    s.page.header.head ≠ 0 → getNextPointer s.page.bytes s.page.header.head = 0 →
      s.page.header.head + getBlockSize s.page.bytes s.page.header.head <
        (liveBlock s.page.bytes x.ptr).start
  | _ => True

/-- Runs of a coalescing page in which every deallocation keeps the order. -/
inductive OrderedRun : State → Prop
  | create {buffer size sizeClass : Nat} {m : Mem} {p : Page} (hb : buffer + size < 2^64)
      (h : create buffer size sizeClass m = some p) : OrderedRun ⟨p, []⟩
  | step {s s' : State} {op : Operation} (hs : OrderedRun s) (ha : Allowed s op)
      (ho : KeepsOrder s op) (hp : perform .coalesce s op = some s') : OrderedRun s'

theorem OrderedRun.reachable {s : State} (h : OrderedRun s) : Reachable .coalesce s := by
  induction h with
  | create hb h => exact .create hb h
  | step _ ha _ hp ih => exact ih.step ha hp

section
variable {p : Page} {free pre post rest : List Block} {taken : List TakenBlock} {b c : Block}
  {ptr previous : Nat}

theorem separated_mergeNext (hpost : Separated post) (hb : ∀ c ∈ post, b.start + b.size ≤ c.start) :
    Separated (mergeNext b post) := by
  cases post with
  | nil => exact List.pairwise_singleton _ _
  | cons c post =>
    obtain ⟨hc, htail⟩ := List.pairwise_cons.mp hpost
    have hbc := hb c List.mem_cons_self
    rw [mergeNext]
    split
    · apply List.pairwise_cons.mpr
      refine ⟨fun d hd => ?_, htail⟩
      have := hc d hd
      dsimp only
      omega
    · apply List.pairwise_cons.mpr
      refine ⟨fun d hd => ?_, hpost⟩
      rcases List.mem_cons.mp hd with rfl | hd
      · omega
      · have := hc d hd
        omega

theorem start_le_of_mem_mergeNext {n : Nat} (hn : n ≤ b.start) (hpost : ∀ c ∈ post, n ≤ c.start) :
    ∀ d ∈ mergeNext b post, n ≤ d.start := by
  intro d hd
  cases post with
  | nil => exact List.mem_singleton.mp hd ▸ hn
  | cons c post =>
    rw [mergeNext] at hd
    split at hd
    · rcases List.mem_cons.mp hd with rfl | hd
      · exact hn
      · exact hpost d (List.mem_cons_of_mem c hd)
    · rcases List.mem_cons.mp hd with rfl | hd
      · exact hn
      · exact hpost d hd

theorem separated_mergePrevious (hpre : Separated pre) (hrest : Separated rest)
    (hgap : ∀ c ∈ pre, ∀ d ∈ rest, c.start + c.size ≤ d.start) : Separated (mergePrevious pre rest) := by
  rcases List.eq_nil_or_concat' pre with rfl | ⟨pre, c, rfl⟩
  · exact hrest
  · rw [mergePrevious_concat]
    obtain ⟨hpre, _, hc⟩ := List.pairwise_append.mp hpre
    have hcd := hgap c (by simp)
    refine List.pairwise_append.mpr ⟨hpre, separated_mergeNext hrest hcd, fun a ha d hd => ?_⟩
    have hac := hc a ha c (List.mem_singleton.mpr rfl)
    have hle := start_le_of_mem_mergeNext le_rfl (fun d hd => (Nat.le_add_right _ _).trans (hcd d hd)) d hd
    omega

/-- Where a freed block goes by address, the merged list has gaps between all blocks; past a
single free block it has them just when the freed block lies above with a gap. -/
theorem InsertPlace.separated_iff (hplace : InsertPlace ptr pre post previous)
    (hsep : Separated (pre ++ post)) (hholds : b.Holds ptr) (hap : ∀ c ∈ pre ++ post, c.Apart b)
    (hpos : ∀ c ∈ pre ++ post, 0 < c.size) (hne : ∀ c ∈ pre ++ post, c.start ≠ 0) :
    Separated (releasedFree .coalesce previous pre b post) ↔
      ∀ c, pre ++ post = [c] → c.start + c.size < b.start := by
  cases hplace with
  | only c =>
    simp [releasedFree, mergeNext, Separated]
  | ordered hl hpre hpost =>
    obtain ⟨hseppre, hseppost, _⟩ := List.pairwise_append.mp hsep
    refine iff_of_true ?_ fun c hc => absurd (congrArg List.length hc) hl
    simp only [Block.Holds] at hholds
    have hbelow : ∀ c ∈ pre, c.start + c.size ≤ b.start := by
      intro c hc
      have hle := hpre c hc
      have := hap c (List.mem_append_left _ hc)
      simp only [Block.Apart] at this
      omega
    have habove : ∀ c ∈ post, b.start + b.size ≤ c.start := by
      have hhead : ∀ c ∈ post, ptr < c.start := by
        cases post with
        | nil => simp
        | cons d post =>
          have hd := hpost d rfl
          intro c hc
          rcases List.mem_cons.mp hc with rfl | hc
          · exact hd
          · have := (List.pairwise_cons.mp hseppost).1 c hc
            omega
      intro c hc
      have hlt := hhead c hc
      have := hap c (List.mem_append_right _ hc)
      simp only [Block.Apart] at this
      omega
    have hnext := separated_mergeNext hseppost habove
    have hgap : ∀ c ∈ pre, ∀ d ∈ mergeNext b post, c.start + c.size ≤ d.start := by
      intro c hc
      have hcb := hbelow c hc
      refine start_le_of_mem_mergeNext hcb fun d hd => ?_
      have := habove d hd
      omega
    rw [releasedFree]
    by_cases h0 : lastStart pre = 0
    · rcases List.eq_nil_or_concat' pre with rfl | ⟨pre, c, rfl⟩
      · exact hnext
      · rw [lastStart_concat] at h0
        exact absurd h0 (hne c (by simp))
    · rw [if_neg h0]
      exact separated_mergePrevious hseppre hnext hgap

theorem Represents.fullyCoalesced_iff (h : Represents p free taken) :
    FullyCoalesced p ↔ Separated free := by
  have h0 : 0 ∉ free.map Block.start := by
    intro h0
    obtain ⟨b, hb, he⟩ := List.mem_map.mp h0
    exact h.placed.ne_zero b hb he
  have hsizes : ∀ b ∈ free, getBlockSize p.bytes b.start = b.size := h.freeList.sizes
  have hfree := (List.pairwise_append.mp h.tiles.apart).1
  constructor
  · rintro ⟨nodes, hpath, hn0, hlt, hgap⟩
    obtain rfl : nodes = free.map Block.start := hpath.unique h.freeList.path hn0 h0
    rw [List.pairwise_map] at hlt
    refine (hlt.and hfree).imp_of_mem fun {b c} hb hc hbc => ?_
    have hne := hgap _ (List.mem_map_of_mem hb) _ (List.mem_map_of_mem hc)
    rw [hsizes b hb] at hne
    obtain ⟨hlt, hap⟩ := hbc
    simp only [Block.Apart] at hap
    omega
  · intro hsep
    refine ⟨free.map Block.start, h.freeList.path, h0, ?_, ?_⟩
    · exact List.pairwise_map.mpr (hsep.imp fun hbc => by omega)
    · intro a ha a' ha' he
      obtain ⟨b, hb, rfl⟩ := List.mem_map.mp ha
      obtain ⟨c, hc, rfl⟩ := List.mem_map.mp ha'
      rw [hsizes b hb] at he
      have hbsize := h.node_fits b hb
      have hcsize := h.node_fits c hc
      by_cases hbc : b = c
      · subst hbc
        omega
      · have hgaps : free.Pairwise fun b c => b.start + b.size ≠ c.start ∧ c.start + c.size ≠ b.start :=
          hsep.imp fun hlt => by omega
        have hsymm : Std.Symm fun b c : Block =>
            b.start + b.size ≠ c.start ∧ c.start + c.size ≠ b.start := ⟨fun _ _ h => h.symm⟩
        exact (hgaps.forall hb hc hbc).1 he

theorem Represents.keepsOrder_iff {live : List Allocation} {y : TakenBlock} (h : Represents p free taken)
    (hy : y ∈ taken) : KeepsOrder ⟨p, live⟩ (.deallocate y.allocation) ↔
      ∀ c, free = [c] → c.start + c.size < y.start := by
  have hstart : (liveBlock p.bytes y.allocation.ptr).start = y.start :=
    congrArg Block.start (h.liveBlock_eq hy)
  simp only [KeepsOrder, hstart]
  cases free with
  | nil =>
    have h0 : p.header.head = 0 := (h.freeList.head_eq_zero_iff h.placed).mpr rfl
    simp [h0]
  | cons b free =>
    have hb : p.header.head = b.start := h.freeList.path.1
    have hb0 : b.start ≠ 0 := h.placed.ne_zero b List.mem_cons_self
    have hnext : getNextPointer p.bytes b.start = (free.head?.map Block.start).getD 0 :=
      @FreeList.next_eq _ _ [] free b h.freeList
    rw [hb, hnext, getBlockSize, h.freeList.sizes b List.mem_cons_self]
    cases free with
    | nil => simp [hb0]
    | cons c free =>
      have hc0 : c.start ≠ 0 := h.placed.ne_zero c (by simp)
      simp [hc0]

theorem separated_carved {needed total : Nat} (hsep : Separated (pre ++ b :: post))
    (hcarve : Carved b needed total rest) (hle : needed ≤ b.size) : Separated (pre ++ (rest ++ post)) := by
  obtain ⟨hpre, hbpost, hcross⟩ := List.pairwise_append.mp hsep
  obtain ⟨hb, hpost⟩ := List.pairwise_cons.mp hbpost
  rcases hcarve with ⟨_, _, rfl⟩ | ⟨_, _, rfl⟩
  · refine List.pairwise_append.mpr ⟨hpre, List.pairwise_cons.mpr ⟨fun d hd => ?_, hpost⟩, ?_⟩
    · have := hb d hd
      dsimp only
      omega
    · intro a ha d hd
      rcases List.mem_cons.mp hd with rfl | hd
      · have := hcross a ha b List.mem_cons_self
        dsimp only
        omega
      · exact hcross a ha d (List.mem_cons_of_mem b hd)
  · exact List.pairwise_append.mpr ⟨hpre, hpost, fun a ha d hd => hcross a ha d (List.mem_cons_of_mem b hd)⟩

/-- An idle page with gaps between its free blocks is one free block. -/
theorem Represents.free_eq_of_unused (h : Represents p free []) (hsep : Separated free) :
    free = [⟨p.header.logicalPageStartAddress, p.header.logicalPageSize⟩] := by
  have ht := h.tiles
  rw [List.map_nil, List.append_nil] at ht
  have hpos := h.size_pos
  have hlt : p.header.logicalPageStartAddress < p.header.bufferEnd := by
    rw [LogicalPageHeader.bufferEnd]
    omega
  have he := ht.eq_singleton hsep hlt
  rwa [LogicalPageHeader.bufferEnd, Nat.add_sub_cancel_left] at he

end

variable {s s' : State}

theorem allocate_fullyCoalesced {size : Nat} (h : Sound s) (hc : FullyCoalesced s.page)
    (ha : Allowed s (.allocate size)) (hp : perform .coalesce s (.allocate size) = some s') :
    FullyCoalesced s'.page := by
  have hs := h.request_lt ha
  obtain ⟨⟨free, taken, hr, _⟩, _⟩ := h
  obtain ⟨⟨ptr, q⟩, he, rfl⟩ := Option.map_eq_some_iff.mp hp
  rcases hr.allocate_spec hs with ⟨hnone, _⟩ |
    ⟨pre, b, post, rest, q', y, rfl, hfit, _, hsome, hcarve, _, hpad, _, hr', _⟩
  · rw [hnone] at he
    cases he
    exact hc
  · rw [hsome] at he
    cases he
    have hle : max size 16 + 16 + y.padding ≤ b.size := by
      rw [hpad]
      exact hfit
    exact hr'.fullyCoalesced_iff.mpr (separated_carved (hr.fullyCoalesced_iff.mp hc) hcarve hle)

theorem deallocate_fullyCoalesced {x : Allocation} (h : Sound s) (hc : FullyCoalesced s.page)
    (hx : x ∈ s.live) (hp : perform .coalesce s (.deallocate x) = some s') :
    FullyCoalesced s'.page ↔ KeepsOrder s (.deallocate x) := by
  obtain ⟨hi, _⟩ := h
  have howns := hi.ownsPointer hx
  obtain ⟨free, taken, hr, hl⟩ := hi.perm (List.perm_cons_erase hx)
  obtain ⟨y, rest, rfl, hr, _⟩ := hr.front hl
  obtain ⟨q, he, rfl⟩ := Option.map_eq_some_iff.mp hp
  have hblock := hr.freedBlock_ptr List.mem_cons_self
  obtain ⟨pre, post, previous, q', rfl, hplace, he', hr', _⟩ := hr.deallocate_through .coalesce howns hblock
  obtain rfl : q' = q := Option.some.inj (he'.symm.trans he)
  have hfit := hr.fits y List.mem_cons_self
  have hholds : y.block.Holds y.ptr := by
    simp only [Block.Holds, TakenBlock.block, TakenBlock.ptr]
    omega
  rw [hr'.fullyCoalesced_iff, hr.keepsOrder_iff List.mem_cons_self]
  refine hplace.separated_iff (hr.fullyCoalesced_iff.mp hc) hholds ?_ ?_ hr.placed.ne_zero
  · exact fun c hc => hr.free_apart_taken hc List.mem_cons_self
  · intro c hc
    have := hr.node_fits c hc
    omega

theorem store_fullyCoalesced {address : Nat} {value : UInt8} (h : Sound s)
    (hc : FullyCoalesced s.page) (ha : Allowed s (.store address value)) :
    FullyCoalesced { s.page with bytes := Function.update s.page.bytes address value } := by
  obtain ⟨⟨free, taken, hr, hl⟩, _⟩ := h
  obtain ⟨x, hx, hxb⟩ := ha
  obtain ⟨y, hy, rfl⟩ := Represents.mem_live hl hx
  refine (hr.congr (.refl _) fun b _ _ hb => ?_).fullyCoalesced_iff.mpr (hr.fullyCoalesced_iff.mp hc)
  apply Function.update_of_ne
  rintro rfl
  exact hb y hy hxb

theorem OrderedRun.fullyCoalesced (h : OrderedRun s) : FullyCoalesced s.page := by
  induction h with
  | create hb h =>
    obtain ⟨hr, _⟩ := create_represents h hb
    exact hr.fullyCoalesced_iff.mpr (List.pairwise_singleton _ _)
  | @step s s' op hs ha ho hp ih =>
    have hsound := hs.reachable.sound
    cases op with
    | allocate size => exact allocate_fullyCoalesced hsound ih ha hp
    | deallocate x => exact (deallocate_fullyCoalesced hsound ih ha hp).mpr ho
    | store address value =>
      obtain rfl := Option.some.inj hp
      exact store_fullyCoalesced hsound ih ha

theorem perform_sameFrame {policy : CoalescePolicy} {op : Operation} (h : Sound s) (ha : Allowed s op)
    (hp : perform policy s op = some s') : s.page.header.SameFrame s'.page.header := by
  cases op with
  | allocate size =>
    obtain ⟨ptr, q, he, hq⟩ := h.1.allocate_spec (h.request_lt ha)
    rw [perform, he] at hp
    obtain rfl := Option.some.inj hp
    rcases hq with ⟨_, rfl⟩ | ⟨_, _, hc⟩
    · exact .refl _
    · exact hc.frame
  | deallocate x =>
    obtain ⟨q, he, _, hc, _⟩ :=
      (h.1.perm (List.perm_cons_erase ha)).deallocate_spec policy (h.1.ownsPointer ha) rfl
    rw [perform, he] at hp
    obtain rfl := Option.some.inj hp
    exact hc.frame
  | store address value =>
    obtain rfl := Option.some.inj hp
    exact .refl _

theorem Reachable.start_mod {policy : CoalescePolicy} (h : Reachable policy s) :
    s.page.header.logicalPageStartAddress % 16 = 0 := by
  induction h with
  | @create buffer size sizeClass m p hb h =>
    obtain ⟨_, hh, _⟩ := create_represents h hb
    obtain ⟨_, _, hne, ha⟩ := create_isSome_iff.mp (Option.isSome_iff_exists.mpr ⟨p, h⟩)
    rw [hh]
    change buffer % 16 = 0
    unfold sub64 at ha
    simp only [objectSize] at ha
    omega
  | step hs ha hp ih =>
    rw [(perform_sameFrame hs.sound ha hp).start]
    exact ih

/-- With the whole buffer free, the largest request is granted if a smallest one fits at all. -/
theorem Represents.allocate_whole {p : Page}
    (h : Represents p [⟨p.header.logicalPageStartAddress, p.header.logicalPageSize⟩] [])
    (hmod : p.header.logicalPageStartAddress % 16 = 0) (hs : p.header.logicalPageSize + 16 < 2^64) :
    ∃ ptr q, allocate (p.header.logicalPageSize - 16) p = some (ptr, q) ∧
      (ptr ≠ 0 ↔ 32 ≤ p.header.logicalPageSize) := by
  have hsize := h.size_pos
  have hin := h.bound
  rw [LogicalPageHeader.bufferEnd] at hin
  have hpad : calculatePaddingNeeded p.header.logicalPageStartAddress minAlignmentSize = 0 := by
    have hlt := calculatePaddingNeeded_lt p.header.logicalPageStartAddress
    have hpad := calculatePaddingNeeded_mod (show p.header.logicalPageStartAddress + 16 < 2^64 by omega)
    omega
  have hfits : Fits (max (p.header.logicalPageSize - 16) 16)
      ⟨p.header.logicalPageStartAddress, p.header.logicalPageSize⟩ ↔ 32 ≤ p.header.logicalPageSize := by
    rw [Fits, hpad]
    dsimp only
    omega
  rcases h.allocate_spec (show p.header.logicalPageSize - 16 + 32 < 2^64 by omega) with
    ⟨he, hno⟩ | ⟨pre, b, post, rest, q, y, hfree, hfit, _, he, _⟩
  · refine ⟨0, p, he, iff_of_false (fun hne => hne rfl) ?_⟩
    rw [← hfits]
    exact hno _ (List.mem_singleton.mpr rfl)
  · refine ⟨y.ptr, q, he, iff_of_true ?_ ?_⟩
    · simp only [TakenBlock.ptr]
      omega
    · have hb : b ∈ [(⟨p.header.logicalPageStartAddress, p.header.logicalPageSize⟩ : Block)] := by
        rw [hfree]
        simp
      rw [List.mem_singleton.mp hb] at hfit
      exact hfits.mp hfit

/-- As long as no deallocation goes below or right behind a single free block, the free list is
in address order with all neighbours merged, and an idle page is one free block that serves the
largest request again. The first deallocation that does so breaks the order. -/
theorem ordered_runs_coalesce (h : OrderedRun s) :
    FullyCoalesced s.page ∧
    (s.page.header.usedSize = 0 →
      Path (getNextPointer s.page.bytes) s.page.header.head [s.page.header.logicalPageStartAddress] 0 ∧
      getBlockSize s.page.bytes s.page.header.logicalPageStartAddress = s.page.header.logicalPageSize ∧
      ∃ ptr q, allocate (s.page.header.logicalPageSize - 16) s.page = some (ptr, q) ∧
        (ptr ≠ 0 ↔ 32 ≤ s.page.header.logicalPageSize)) ∧
    ∀ x ∈ s.live, ∃ s', perform .coalesce s (.deallocate x) = some s' ∧
      (FullyCoalesced s'.page ↔ KeepsOrder s (.deallocate x)) := by
  have hsound := h.reachable.sound
  have hc := h.fullyCoalesced
  refine ⟨hc, fun hused => ?_, fun x hx => ?_⟩
  · have hlive := hsound.1.used_eq_zero.mp hused
    have hlt := hsound.request_lt (le_refl s.page.header.logicalPageSize)
    obtain ⟨⟨free, taken, hr, hl⟩, _⟩ := hsound
    rw [hlive, List.perm_nil, List.map_eq_nil_iff] at hl
    subst hl
    obtain rfl := hr.free_eq_of_unused (hr.fullyCoalesced_iff.mp hc)
    have hwhole := hr.freeList.sizes _ (List.mem_singleton.mpr rfl)
    refine ⟨hr.freeList.path, hwhole, ?_⟩
    exact hr.allocate_whole h.reachable.start_mod (by omega)
  · obtain ⟨s', hs', _⟩ := hsound.perform .coalesce (show Allowed s (.deallocate x) from hx)
    exact ⟨s', hs', deallocate_fullyCoalesced hsound hc hx hs'⟩

def ordered (s : State) : Operation → Bool
  | .allocate size => size ≤ s.page.header.logicalPageSize
  | .deallocate x => x ∈ s.live ∧ (s.page.header.head ≠ 0 → getNextPointer s.page.bytes s.page.header.head = 0 →
      s.page.header.head + getBlockSize s.page.bytes s.page.header.head < (liveBlock s.page.bytes x.ptr).start)
  | .store _ _ => false

def orderedSteps : List Operation → State → Option State
  | [], s => some s
  | op :: rest, s => if ordered s op then (perform .coalesce s op).bind (orderedSteps rest) else none

theorem OrderedRun.steps {s' : State} {ops : List Operation} (h : OrderedRun s)
    (hp : orderedSteps ops s = some s') : OrderedRun s' := by
  induction ops generalizing s with
  | nil =>
    cases hp
    exact h
  | cons op rest ih =>
    rw [orderedSteps] at hp
    split at hp
    · rename_i htest
      obtain ⟨s₁, h₁, h₂⟩ := Option.bind_eq_some_iff.mp hp
      cases op with
      | allocate size =>
        have hsize := of_decide_eq_true htest
        have ha : Allowed s (.allocate size) := hsize
        exact ih (h.step ha trivial h₁) h₂
      | deallocate x =>
        obtain ⟨hx, horder⟩ := of_decide_eq_true htest
        have ha : Allowed s (.deallocate x) := hx
        exact ih (h.step ha horder h₁) h₂
      | store address value => cases htest
    · cases hp

/-- The page is cut into four blocks, and they are freed from outside inwards: the second one is
merged with the first, and the third one with both of its neighbours. -/
def fourBlocks : List Operation :=
  List.replicate 4 (.allocate 992) ++
    [.deallocate ⟨4112, 992⟩, .deallocate ⟨7136, 992⟩, .deallocate ⟨5120, 992⟩, .deallocate ⟨6128, 992⟩]

theorem ordered_runs_coalesce_of_four : ∃ s : State, OrderedRun s ∧ s.live = [] ∧ s.page.header.usedSize = 0 ∧
    FullyCoalesced s.page ∧ getBlockSize s.page.bytes 4096 = 4032 ∧
    ∃ ptr q, allocate 4016 s.page = some (ptr, q) ∧ ptr ≠ 0 := by
  have hrun : ((create 4096 4032 0 fun _ => 0).bind fun p => (orderedSteps fourBlocks ⟨p, []⟩).map fun s =>
      (s.live, s.page.header.usedSize, s.page.header.logicalPageStartAddress, s.page.header.logicalPageSize)) =
      some ([], 0, 4096, 4032) := by
    decide +kernel
  obtain ⟨p, hp, hrun⟩ := Option.bind_eq_some_iff.mp hrun
  obtain ⟨s, hs, heq⟩ := Option.map_eq_some_iff.mp hrun
  simp only [Prod.mk.injEq] at heq
  obtain ⟨hlive, hused, hstart, hsize⟩ := heq
  have h := (OrderedRun.create (by decide) hp).steps hs
  obtain ⟨hc, hidle, _⟩ := ordered_runs_coalesce h
  obtain ⟨_, hwhole, ptr, q, he, hne⟩ := hidle hused
  rw [hstart, hsize] at hwhole
  rw [hsize] at he hne
  exact ⟨s, h, hlive, hused, hc, hwhole, ptr, q, he, hne.mpr (by decide)⟩

/-- One block allocated and freed on a fresh page: the block ends up behind the rest of the page
in the list, unmerged, and the page no longer serves its largest request. -/
theorem deallocate_breaks_order : ∃ s x s', Reachable .coalesce s ∧ x ∈ s.live ∧
    perform .coalesce s (.deallocate x) = some s' ∧ ¬ FullyCoalesced s'.page ∧
    s'.page.header.usedSize = 0 ∧ s'.page.header.logicalPageSize = 4032 ∧
    (allocate (4032 - 16) s'.page).map Prod.fst = some 0 := by
  have hrun : ((create 4096 4032 0 fun _ => 0).bind fun p =>
      (perform .coalesce ⟨p, []⟩ (.allocate 16)).bind fun s =>
      (perform .coalesce s (.deallocate ⟨4112, 16⟩)).bind fun s' =>
      some ((p.header.logicalPageSize, s.live), (s'.page.header.usedSize, s'.page.header.logicalPageSize),
        s'.page.header.head, getNextPointer s'.page.bytes 4128,
        (allocate (4032 - 16) s'.page).map Prod.fst)) =
      some ((4032, [⟨4112, 16⟩]), (0, 4032), 4128, 4096, some 0) := by
    decide +kernel
  obtain ⟨p, hp, hrun⟩ := Option.bind_eq_some_iff.mp hrun
  obtain ⟨s, hs, hrun⟩ := Option.bind_eq_some_iff.mp hrun
  obtain ⟨s', hs', hrun⟩ := Option.bind_eq_some_iff.mp hrun
  simp only [Option.some.injEq, Prod.mk.injEq] at hrun
  obtain ⟨⟨hsize, hlive⟩, ⟨hused, hsize'⟩, hhead, hnext, halloc⟩ := hrun
  have ha : Allowed ⟨p, []⟩ (.allocate 16) := by
    rw [Allowed, hsize]
    decide
  have hx : (⟨4112, 16⟩ : Allocation) ∈ s.live := by
    rw [hlive]
    exact List.mem_singleton.mpr rfl
  have hbroken : ¬ FullyCoalesced s'.page := by
    rintro ⟨nodes, hpath, _, hlt, _⟩
    rw [hhead] at hpath
    obtain ⟨nodes, rfl⟩ := hpath.ne_nil (by decide)
    obtain ⟨_, hpath⟩ := hpath
    rw [hnext] at hpath
    obtain ⟨nodes, rfl⟩ := hpath.ne_nil (by decide)
    have := (List.pairwise_cons.mp hlt).1 4096 List.mem_cons_self
    omega
  have hrun := (Reachable.create (by decide) hp).step ha hs
  exact ⟨s, ⟨4112, 16⟩, s', hrun, hx, hs', hbroken, hused, hsize', halloc⟩

end Metamalloc.Pages.LogicalPageAnySize
