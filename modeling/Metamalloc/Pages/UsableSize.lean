import Metamalloc.Pages.AnySizeLaws

/-! The size a page reports for a live pointer. The header stores the size of the whole block,
the padding included; the report takes off the header only. -/
namespace Metamalloc.Pages.LogicalPageAnySize
open Library.Word64 Library.ByteMemory Library.LinkedList Library.Tiling

def UsableInside (p : Page) (ptr : Nat) : Prop :=
  ptr + getUsableSize ptr p ≤ (liveBlock p.bytes ptr).start + (liveBlock p.bytes ptr).size

/-- No reported byte belongs to another live block or to a free one. -/
def TouchesNoNeighbour (s : State) (x : Allocation) : Prop :=
  ∀ address, x.ptr ≤ address → address < x.ptr + getUsableSize x.ptr s.page →
    (∀ y ∈ s.live, y ≠ x → ¬ (liveBlock s.page.bytes y.ptr).Holds address) ∧
    ∀ nodes, Path (getNextPointer s.page.bytes) s.page.header.head nodes 0 → 0 ∉ nodes →
      ∀ node ∈ nodes, ¬ (freeBlock s.page.bytes node).Holds address

/-- The first node that fits, if there is one, starts where a payload may start. -/
def CarvesAligned (s : State) : Operation → Prop
  | .allocate size => ∀ previousNode node padding,
      find (if size < nodeSize then nodeSize else size) minAlignmentSize s.page =
        some (some (previousNode, node, padding)) → node % minAlignmentSize = 0
  | _ => True

/-- Runs in which no allocation is carved from an unaligned node. -/
inductive AlignedRun (policy : CoalescePolicy) : State → Prop
  | create {buffer size sizeClass : Nat} {m : Mem} {p : Page} (hb : buffer + size < 2^64)
      (h : create buffer size sizeClass m = some p) : AlignedRun policy ⟨p, []⟩
  | step {s s' : State} {op : Operation} (hs : AlignedRun policy s) (ha : Allowed s op)
      (hc : CarvesAligned s op) (hp : perform policy s op = some s') : AlignedRun policy s'

theorem AlignedRun.reachable {policy : CoalescePolicy} {s : State} (h : AlignedRun policy s) :
    Reachable policy s := by
  induction h with
  | create hb h => exact .create hb h
  | step _ ha _ hp ih => exact ih.step ha hp

section
variable {policy : CoalescePolicy} {p q : Page} {free : List Block} {taken : List TakenBlock} {y : TakenBlock}
  {live : List Allocation} {x : Allocation} {s s' : State} {size ptr : Nat}

theorem Represents.usable_eq (h : Represents p free taken) (hy : y ∈ taken) :
    getUsableSize y.ptr p = y.size - 16 := by
  have hin := h.taken_inside hy
  have hfit := (h.fits y hy).1
  have hbound := h.bound
  have hheader : sub64 y.ptr nodeSize = y.header := by
    have hle : nodeSize ≤ y.ptr := Nat.le_add_left _ _
    have hlt : y.ptr < 2^64 := by
      unfold TakenBlock.ptr
      omega
    rw [sub64_of_le hle hlt]
    exact Nat.add_sub_cancel _ _
  rw [getUsableSize, hheader, (h.stored y hy).2]
  exact sub64_of_le (by unfold nodeSize; omega) (by omega)

theorem Represents.usableInside_iff (h : Represents p free taken) (hy : y ∈ taken) :
    UsableInside p y.ptr ↔ y.padding = 0 := by
  have hfit := (h.fits y hy).1
  rw [UsableInside, h.usable_eq hy, h.liveBlock_eq hy]
  simp only [TakenBlock.ptr, TakenBlock.block]
  omega

theorem Represents.padding_eq (h : Represents p free taken) (hy : y ∈ taken) :
    getPaddingSize p.bytes (y.ptr - 16) = y.padding := by
  rw [show y.ptr - 16 = y.header from Nat.add_sub_cancel _ _]
  exact (h.stored y hy).1

theorem calculatePaddingNeeded_eq_zero_iff {a : Nat} (h : a + 16 < 2^64) :
    calculatePaddingNeeded a minAlignmentSize = 0 ↔ a % minAlignmentSize = 0 := by
  unfold calculatePaddingNeeded minAlignmentSize nodeSize
  dsimp only
  rw [add64_of_lt h]
  split <;> omega

/-- An unpadded block keeps its reported bytes away from the others. -/
theorem Represents.touchesNoNeighbour (h : Represents p free taken)
    (hl : (taken.map TakenBlock.allocation).Perm live) (hy : y ∈ taken) (hpad : y.padding = 0) :
    TouchesNoNeighbour ⟨p, live⟩ y.allocation := by
  intro address hlo hhi
  have hfit := (h.fits y hy).1
  simp only [TakenBlock.allocation, h.usable_eq hy] at hlo hhi
  have hblock : y.block.Holds address := by
    simp only [TakenBlock.ptr] at hlo hhi
    simp only [Block.Holds, TakenBlock.block]
    omega
  constructor
  · intro x hx hne hholds
    obtain ⟨z, hz, rfl⟩ := Represents.mem_live hl hx
    have hzy : y ≠ z := fun e => hne (e ▸ rfl)
    rw [show z.allocation.ptr = z.ptr from rfl, h.liveBlock_eq hz] at hholds
    have hap := List.pairwise_map.mp (List.pairwise_append.mp h.tiles.apart).2.1
    have : Std.Symm fun y z : TakenBlock => y.block.Apart z.block := ⟨fun _ _ h => h.symm⟩
    have hyz := hap.forall hy hz hzy
    simp only [Block.Holds, Block.Apart] at hblock hholds hyz
    omega
  · intro nodes hpath h0 node hnode hholds
    have hfree0 : 0 ∉ free.map Block.start := by
      intro hm
      obtain ⟨b, hb, he⟩ := List.mem_map.mp hm
      exact h.placed.ne_zero b hb he
    obtain rfl := hpath.unique h.freeList.path h0 hfree0
    obtain ⟨b, hb, rfl⟩ := List.mem_map.mp hnode
    have hap := h.free_apart_taken hb hy
    have hsize : getBlockSize p.bytes b.start = b.size := h.freeList.sizes b hb
    simp only [Block.Holds, Block.Apart, freeBlock, hsize] at hblock hholds hap
    omega

/-- The search finds the first block that fits. -/
theorem Represents.find_eq {pre post : List Block} {b : Block} (h : Represents p (pre ++ b :: post) taken)
    (hs : size + 32 < 2^64) (hfit : Fits (max size 16) b) (hno : ∀ c ∈ pre, ¬ Fits (max size 16) c) :
    ∃ previousNode, find (if size < nodeSize then nodeSize else size) minAlignmentSize p =
      some (some (previousNode, b.start, calculatePaddingNeeded b.start minAlignmentSize)) := by
  have hmax : (if size < nodeSize then nodeSize else size) = max size 16 := by
    simp only [nodeSize]
    split <;> omega
  have hfind := @findInternal_spec p.bytes [] _ _ _ _ (by omega : max size 16 + 32 < 2^64) h.freeList.path
    h.freeList.sizes h.placed.ne_zero h.length_lt
  rw [lastStart_nil] at hfind
  rw [hmax]
  rcases hfind with ⟨_, hnone⟩ | ⟨l, c, r, hsplit, hfitc, hnol, he⟩
  · exact absurd hfit (hnone b (by simp))
  · classical
    -- both splits put the first block that fits in the middle
    have hfirst : ∀ {l r : List Block} {c : Block}, Fits (max size 16) c →
        (∀ d ∈ l, ¬ Fits (max size 16) d) →
        (l ++ c :: r).find? (fun d => decide (Fits (max size 16) d)) = some c := by
      intro l r c hc hl
      refine List.find?_eq_some_iff_append.mpr ⟨by simpa using hc, l, r, rfl, fun d hd => ?_⟩
      simpa using hl d hd
    have hbc := hfirst (r := post) hfit hno
    rw [hsplit, hfirst hfitc hnol] at hbc
    obtain rfl := Option.some.inj hbc
    exact ⟨_, he⟩

/-- A block is carved without padding exactly when its node was aligned. -/
theorem Represents.allocate_padding (h : Represents s.page free taken) (hs : size + 32 < 2^64)
    (he : allocate size s.page = some (ptr, q)) (hne : ptr ≠ 0) :
    ∃ free' y, Represents q free' (y :: taken) ∧ y.allocation = ⟨ptr, max size 16⟩ ∧
      (y.padding = 0 ↔ CarvesAligned s (.allocate size)) := by
  rcases h.allocate_spec hs with ⟨hnone, _⟩ |
    ⟨pre, b, post, rest, q', y, rfl, hfit, hno, hsome, _, _, hpad, hpayload, hr, _⟩
  · rw [hnone] at he
    cases he
    exact absurd rfl hne
  · rw [hsome] at he
    cases he
    obtain ⟨previous, hfind⟩ := h.find_eq hs hfit hno
    have hin := h.free_inside (show b ∈ pre ++ b :: post by simp)
    have hnode := h.node_fits b (by simp)
    have hbound := h.bound
    refine ⟨_, y, hr, by rw [TakenBlock.allocation, hpayload], ?_⟩
    rw [hpad, calculatePaddingNeeded_eq_zero_iff (by omega), CarvesAligned, hfind]
    constructor
    · intro hmod _ _ _ hc
      cases hc
      exact hmod
    · exact fun hc => hc _ _ _ rfl

def Unpadded (s : State) : Prop :=
  ∃ free taken, Represents s.page free taken ∧ (taken.map TakenBlock.allocation).Perm s.live ∧
    ∀ y ∈ taken, y.padding = 0

theorem allocate_unpadded (h : Unpadded s) (hs : size + 32 < 2^64) (hc : CarvesAligned s (.allocate size))
    (hp : perform policy s (.allocate size) = some s') : Unpadded s' := by
  obtain ⟨free, taken, hr, hl, hpad⟩ := h
  obtain ⟨⟨ptr, q⟩, he, rfl⟩ := Option.map_eq_some_iff.mp hp
  by_cases hne : ptr = 0
  · obtain ⟨ptr', q', he', hq⟩ := Inv.allocate_spec ⟨free, taken, hr, hl⟩ hs
    rw [he] at he'
    cases he'
    rcases hq with ⟨_, rfl⟩ | ⟨hptr, _⟩
    · refine ⟨free, taken, hr, ?_, hpad⟩
      dsimp only
      rwa [if_pos hne]
    · exact absurd hne hptr
  · obtain ⟨free', y, hr', hy, hiff⟩ := hr.allocate_padding hs he hne
    refine ⟨free', y :: taken, hr', ?_, List.forall_mem_cons.mpr ⟨hiff.mpr hc, hpad⟩⟩
    dsimp only
    rw [if_neg hne, List.map_cons, hy]
    exact hl.cons _

theorem deallocate_unpadded (h : Unpadded s) (hx : x ∈ s.live)
    (hp : perform policy s (.deallocate x) = some s') : Unpadded s' := by
  obtain ⟨free, taken, hr, hl, hpad⟩ := h
  have howns := Inv.ownsPointer ⟨free, taken, hr, hl⟩ hx
  obtain ⟨y, hy, rfl⟩ := Represents.mem_live hl hx
  obtain ⟨l, r, rfl⟩ := List.append_of_mem hy
  have hperm := (@List.perm_middle _ y l r).map TakenBlock.allocation
  have hr := hr.perm List.perm_middle
  obtain ⟨q, he, rfl⟩ := Option.map_eq_some_iff.mp hp
  obtain ⟨pre, post, previous, q', _, _, he', hr', _⟩ :=
    hr.deallocate_through policy howns (hr.freedBlock_ptr List.mem_cons_self)
  obtain rfl : q' = q := Option.some.inj (he'.symm.trans he)
  refine ⟨_, l ++ r, hr', ?_, fun z hz => hpad z ?_⟩
  · have herase := (hperm.symm.trans hl).erase y.allocation
    rwa [List.map_cons, List.erase_cons_head] at herase
  · rcases List.mem_append.mp hz with hz | hz
    · exact List.mem_append_left _ hz
    · exact List.mem_append_right _ (List.mem_cons_of_mem _ hz)

theorem store_unpadded {address : Nat} {value : UInt8} (h : Unpadded s) (ha : Allowed s (.store address value)) :
    Unpadded { s with page.bytes := Function.update s.page.bytes address value } := by
  obtain ⟨free, taken, hr, hl, hpad⟩ := h
  obtain ⟨x, hx, hxb⟩ := ha
  obtain ⟨y, hy, rfl⟩ := Represents.mem_live hl hx
  refine ⟨free, taken, hr.congr (.refl _) fun b _ _ hb => ?_, hl, hpad⟩
  apply Function.update_of_ne
  rintro rfl
  exact hb y hy hxb

theorem AlignedRun.unpadded (h : AlignedRun policy s) : Unpadded s := by
  induction h with
  | create hb h =>
    obtain ⟨hr, _⟩ := create_represents h hb
    exact ⟨_, [], hr, .nil, by simp⟩
  | @step s s' op hs ha hc hp ih =>
    cases op with
    | allocate size => exact allocate_unpadded ih (hs.reachable.sound.request_lt ha) hc hp
    | deallocate x => exact deallocate_unpadded ih ha hp
    | store address value =>
      obtain rfl := Option.some.inj hp
      exact store_unpadded ih ha

end

/-- The reported size stays in the block exactly where no padding is stored: never beyond it in
runs whose allocations are carved from aligned nodes, and beyond it with the first one that is not. -/
theorem usableSize_inside (policy : CoalescePolicy) :
    (∀ s, Reachable policy s → ∀ x ∈ s.live,
      (UsableInside s.page x.ptr ↔ getPaddingSize s.page.bytes (x.ptr - 16) = 0)) ∧
    ∀ s, AlignedRun policy s →
      (∀ x ∈ s.live, UsableInside s.page x.ptr ∧ TouchesNoNeighbour s x) ∧
      ∀ size ptr q, Allowed s (.allocate size) → allocate size s.page = some (ptr, q) → ptr ≠ 0 →
        (UsableInside q ptr ↔ CarvesAligned s (.allocate size)) := by
  refine ⟨fun s h x hx => ?_, fun s h => ⟨fun x hx => ?_, fun size ptr q ha he hne => ?_⟩⟩
  · obtain ⟨⟨free, taken, hr, hl⟩, _⟩ := h.sound
    obtain ⟨y, hy, rfl⟩ := Represents.mem_live hl hx
    exact (hr.usableInside_iff hy).trans (by rw [← hr.padding_eq hy]; rfl)
  · obtain ⟨free, taken, hr, hl, hpad⟩ := h.unpadded
    obtain ⟨y, hy, rfl⟩ := Represents.mem_live hl hx
    exact ⟨(hr.usableInside_iff hy).mpr (hpad y hy), hr.touchesNoNeighbour hl hy (hpad y hy)⟩
  · obtain ⟨free, taken, hr, hl, hpad⟩ := h.unpadded
    obtain ⟨free', y, hr', hy, hiff⟩ := hr.allocate_padding (h.reachable.sound.request_lt ha) he hne
    have hptr : y.ptr = ptr := congrArg Allocation.ptr hy
    rw [← hiff, ← hptr]
    exact hr'.usableInside_iff List.mem_cons_self

theorem usableSize_inside_of_fresh : ∃ s : State, AlignedRun .coalesce s ∧ s.live = [⟨4112, 100⟩] ∧
    UsableInside s.page 4112 ∧ ∃ ptr q, allocate 200 s.page = some (ptr, q) ∧ ptr = 4240 ∧
      (UsableInside q ptr ↔ CarvesAligned s (.allocate 200)) := by
  have hrun : ((create 4096 4032 0 fun _ => 0).bind fun p =>
      (perform .coalesce ⟨p, []⟩ (.allocate 100)).bind fun s =>
      (allocate 200 s.page).map fun r => (p.header.logicalPageSize, (s.page.header.logicalPageSize, s.live),
        r.1)) = some (4032, (4032, [⟨4112, 100⟩]), 4240) := by
    decide +kernel
  obtain ⟨p, hp, hrun⟩ := Option.bind_eq_some_iff.mp hrun
  obtain ⟨s, hs, hrun⟩ := Option.bind_eq_some_iff.mp hrun
  obtain ⟨⟨ptr, q⟩, he, hrun⟩ := Option.map_eq_some_iff.mp hrun
  simp only [Prod.mk.injEq] at hrun
  obtain ⟨hsize, ⟨hsize', hlive⟩, rfl⟩ := hrun
  have ha : Allowed ⟨p, []⟩ (.allocate 100) := by
    rw [Allowed, hsize]
    decide
  have ha' : Allowed s (.allocate 200) := by
    rw [Allowed, hsize']
    decide
  have hcarves : CarvesAligned ⟨p, []⟩ (.allocate 100) := by
    have hfind : ((create 4096 4032 0 fun _ => 0).bind fun p => find 100 minAlignmentSize p) =
        some (some (0, 4096, 0)) := by decide +kernel
    rw [hp, Option.bind_some] at hfind
    intro previous node padding hc
    rw [show (if 100 < nodeSize then nodeSize else 100) = 100 from rfl, hfind] at hc
    cases hc
    rfl
  have hrun := (AlignedRun.create (by decide) hp).step ha hcarves hs
  obtain ⟨hinside, hnext⟩ := (usableSize_inside .coalesce).2 s hrun
  exact ⟨s, hrun, hlive, (hinside ⟨4112, 100⟩ (by simp [hlive])).1, 4240, q, he, rfl,
    hnext 200 4240 q ha' he (by decide)⟩

/-- The second of two blocks starts behind an odd size; twelve of the bytes reported for it
belong to the block behind it. -/
theorem usable_size_beyond_block : ∃ s : State, Reachable .coalesce s ∧ ⟨4240, 200⟩ ∈ s.live ∧
    getUsableSize 4240 s.page = 212 ∧ liveBlock s.page.bytes 4240 = ⟨4212, 228⟩ ∧
    ¬ UsableInside s.page 4240 := by
  have hrun : ((create 4096 4032 0 fun _ => 0).bind fun p =>
      (perform .coalesce ⟨p, []⟩ (.allocate 100)).bind fun s =>
      (perform .coalesce s (.allocate 200)).map fun s' =>
        ((p.header.logicalPageSize, s.page.header.logicalPageSize), s'.live, getUsableSize 4240 s'.page,
          liveBlock s'.page.bytes 4240)) =
      some ((4032, 4032), [⟨4240, 200⟩, ⟨4112, 100⟩], 212, ⟨4212, 228⟩) := by
    decide +kernel
  obtain ⟨p, hp, hrun⟩ := Option.bind_eq_some_iff.mp hrun
  obtain ⟨s, hs, hrun⟩ := Option.bind_eq_some_iff.mp hrun
  obtain ⟨s', hs', hrun⟩ := Option.map_eq_some_iff.mp hrun
  simp only [Prod.mk.injEq] at hrun
  obtain ⟨⟨hsize, hsize'⟩, hlive, husable, hblock⟩ := hrun
  have ha : Allowed ⟨p, []⟩ (.allocate 100) := by
    rw [Allowed, hsize]
    decide
  have ha' : Allowed s (.allocate 200) := by
    rw [Allowed, hsize']
    decide
  refine ⟨s', ((Reachable.create (by decide) hp).step ha hs).step ha' hs', by simp [hlive], husable, hblock, ?_⟩
  rw [UsableInside, husable, hblock]
  decide

end Metamalloc.Pages.LogicalPageAnySize
