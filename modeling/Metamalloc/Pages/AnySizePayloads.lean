import Metamalloc.Pages.AnySizeLaws

/-! What a client of an any-size page may write: its payload is aligned, lies in the page
and meets neither another allocation nor the page's own bookkeeping. -/
namespace Metamalloc.Pages.LogicalPageAnySize
open Library.Word64 Library.ByteMemory Library.LinkedList Library.Tiling

/-- Neither payload meets the other payload or the header in front of it. -/
def PayloadsApart (x y : Allocation) : Prop := x.ptr + x.size + 16 ≤ y.ptr ∨ y.ptr + y.size + 16 ≤ x.ptr

theorem PayloadsApart.symm {x y : Allocation} (h : PayloadsApart x y) : PayloadsApart y x := Or.symm h

/-- The clients of a page are by themselves. -/
structure Exclusive (s : State) (nodes : List Nat) : Prop where
  freeList : Path (getNextPointer s.page.bytes) s.page.header.head nodes 0 ∧ 0 ∉ nodes
  aligned : ∀ x ∈ s.live, x.ptr % 16 = 0
  inside : ∀ x ∈ s.live, 16 ≤ x.size ∧ s.page.header.logicalPageStartAddress + 16 ≤ x.ptr ∧
    x.ptr + x.size ≤ s.page.header.bufferEnd
  apart : s.live.Pairwise PayloadsApart
  apart_nodes : ∀ x ∈ s.live, ∀ node ∈ nodes, x.ptr + x.size ≤ node ∨ node + 16 ≤ x.ptr - 16
  /-- A write to a payload changes no node of the free list and no header of an allocation. -/
  writes : ∀ x ∈ s.live, ∀ address value, x.Holds address →
    (∀ node ∈ nodes,
      getNextPointer (Function.update s.page.bytes address value) node = getNextPointer s.page.bytes node ∧
      getBlockSize (Function.update s.page.bytes address value) node = getBlockSize s.page.bytes node) ∧
    ∀ y ∈ s.live,
      getPaddingSize (Function.update s.page.bytes address value) (y.ptr - 16) =
        getPaddingSize s.page.bytes (y.ptr - 16) ∧
      getBlockSize (Function.update s.page.bytes address value) (y.ptr - 16) =
        getBlockSize s.page.bytes (y.ptr - 16)

section
variable {p : Page} {free : List Block} {taken : List TakenBlock}

theorem Represents.payloads_apart (h : Represents p free taken) :
    (taken.map TakenBlock.allocation).Pairwise PayloadsApart := by
  have hblocks := (List.pairwise_append.mp h.tiles.apart).2.1
  rw [List.pairwise_map] at hblocks ⊢
  refine hblocks.imp_of_mem fun {y z} hy hz hap => ?_
  have hfy := (h.fits y hy).1
  have hfz := (h.fits z hz).1
  simp only [Block.Apart, TakenBlock.block] at hap
  simp only [PayloadsApart, TakenBlock.allocation, TakenBlock.ptr]
  omega

theorem words_update {m : Mem} {a address : Nat} {value : UInt8} (h : address < a ∨ a + 16 ≤ address) :
    read64 (Function.update m address value) a = read64 m a ∧
      read64 (Function.update m address value) (a + 8) = read64 m (a + 8) := by
  have hagree : AgreeOn m (Function.update m address value) a (a + 16) := by
    intro x hlo hhi
    apply Function.update_of_ne
    omega
  exact ⟨(hagree.mono le_rfl (by omega)).read64_eq, (hagree.mono (by omega) (by omega)).read64_eq⟩

theorem Represents.node_apart (h : Represents p free taken) {b : Block} {y : TakenBlock} (hb : b ∈ free)
    (hy : y ∈ taken) : y.ptr + y.payload ≤ b.start ∨ b.start + 16 ≤ y.ptr - 16 := by
  have hap := h.free_apart_taken hb hy
  have hnode := h.node_fits b hb
  have hfits := (h.fits y hy).1
  simp only [Block.Apart, TakenBlock.block] at hap
  simp only [TakenBlock.ptr]
  omega

theorem Represents.exclusive {live : List Allocation} (h : Represents p free taken)
    (hlive : (taken.map TakenBlock.allocation).Perm live) :
    Exclusive ⟨p, live⟩ (free.map Block.start) := by
  have hmem : ∀ x ∈ live, ∃ y ∈ taken, y.allocation = x := fun x hx => Represents.mem_live hlive hx
  have hapart : live.Pairwise PayloadsApart := (hlive.pairwise_iff PayloadsApart.symm).mp h.payloads_apart
  have hinside : ∀ x ∈ live, 16 ≤ x.size ∧ p.header.logicalPageStartAddress + 16 ≤ x.ptr ∧
      x.ptr + x.size ≤ p.header.bufferEnd := by
    intro x hx
    obtain ⟨y, hy, rfl⟩ := hmem x hx
    exact ⟨(h.fits y hy).2.1, h.payload_inside hy⟩
  have hnodes : ∀ x ∈ live, ∀ node ∈ free.map Block.start,
      x.ptr + x.size ≤ node ∨ node + 16 ≤ x.ptr - 16 := by
    intro x hx node hnode
    obtain ⟨y, hy, rfl⟩ := hmem x hx
    obtain ⟨b, hb, rfl⟩ := List.mem_map.mp hnode
    exact h.node_apart hb hy
  refine ⟨⟨h.freeList.path, ?_⟩, ?_, hinside, hapart, hnodes, fun x hx address value hholds => ⟨?_, ?_⟩⟩
  · intro h0
    obtain ⟨b, hb, he⟩ := List.mem_map.mp h0
    exact h.placed.ne_zero b hb he
  · intro x hx
    obtain ⟨y, hy, rfl⟩ := hmem x hx
    exact (h.fits y hy).2.2
  · intro node hnode
    have hap := hnodes x hx node hnode
    obtain ⟨hlo, hhi⟩ := hholds
    exact words_update (by omega)
  · intro y hy
    obtain ⟨hlo, hhi⟩ := hholds
    have hy16 := (hinside y hy).2.1
    have hmiss : address < y.ptr - 16 ∨ y.ptr - 16 + 16 ≤ address := by
      by_cases hxy : x = y
      · subst hxy
        omega
      · have hsymm : Std.Symm PayloadsApart := ⟨fun _ _ => PayloadsApart.symm⟩
        have hap := hapart.forall hx hy hxy
        simp only [PayloadsApart] at hap
        omega
    exact words_update hmiss

end

/-- In every state of every run the payload of every live allocation is aligned, inside the
page and exclusive; the result of an `allocate` is live in the next state. -/
theorem payloads_exclusive {policy : CoalescePolicy} {s : State} (h : Reachable policy s) :
    (∃ nodes, Exclusive s nodes) ∧
      ∀ size ptr q, Allowed s (.allocate size) → allocate size s.page = some (ptr, q) → ptr ≠ 0 →
        ∃ nodes, Exclusive ⟨q, ⟨ptr, max size 16⟩ :: s.live⟩ nodes := by
  have hstate : ∀ s, Reachable policy s → ∃ nodes, Exclusive s nodes := by
    intro s h
    obtain ⟨⟨free, taken, hrep, hlive⟩, _⟩ := h.sound
    exact ⟨_, hrep.exclusive hlive⟩
  refine ⟨hstate s h, fun size ptr q ha halloc hne => ?_⟩
  have hnext : perform policy s (.allocate size) = some ⟨q, ⟨ptr, max size 16⟩ :: s.live⟩ := by
    simp [perform, halloc, hne]
  exact hstate _ (h.step ha hnext)

theorem payloads_exclusive_of_two : ∃ s : State, s.live = [⟨4240, 200⟩, ⟨4112, 100⟩] ∧
    ∃ nodes, Exclusive s nodes := by
  obtain ⟨s, hr, hlive, _⟩ := exists_reachable_of_two
  exact ⟨s, hlive, (payloads_exclusive hr).1⟩

end Metamalloc.Pages.LogicalPageAnySize
