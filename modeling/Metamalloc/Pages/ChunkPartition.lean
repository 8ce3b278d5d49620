import Metamalloc.Pages.LogicalPage

/-! Runs of a page of one size class: its chunks are always shared out between the free
list and the clients. -/
namespace Metamalloc.Pages.LogicalPage
open Library.Word64 Library.ByteMemory Library.LinkedList

structure State where
  page : Page
  live : List Allocation

inductive Operation where
  | allocate (size : Nat)
  | deallocate (x : Allocation)
  /-- A client writes a byte of its own. -/
  | store (address : Nat) (value : UInt8)

def Allowed (s : State) : Operation → Prop
  | .allocate _ => True
  | .deallocate x => x ∈ s.live
  | .store address _ => ∃ x ∈ s.live, x.Holds address

def perform (s : State) : Operation → State
  | .allocate size =>
    let (ptr, p) := allocate size s.page
    ⟨p, if ptr = 0 then s.live else ⟨ptr, p.header.sizeClass⟩ :: s.live⟩
  | .deallocate x => ⟨deallocate x.ptr s.page, s.live.erase x⟩
  | .store address value => { s with page.bytes := Function.update s.page.bytes address value }

inductive Reachable (buffer bufferSize sizeClass : Nat) : State → Prop
  | create {m : Mem} {p : Page} (hb : buffer + bufferSize < 2^64)
      (h : create buffer bufferSize sizeClass m = some p) : Reachable buffer bufferSize sizeClass ⟨p, []⟩
  | step {s : State} {op : Operation} (h : Reachable buffer bufferSize sizeClass s) (ha : Allowed s op) :
      Reachable buffer bufferSize sizeClass (perform s op)

structure Sound (buffer bufferSize sizeClass : Nat) (s : State) : Prop where
  inv : Inv s.page s.live
  start : s.page.header.logicalPageStartAddress = buffer
  size : s.page.header.logicalPageSize = bufferSize
  sizeClass : s.page.header.sizeClass = sizeClass

section
variable {buffer bufferSize sizeClass : Nat} {s : State}

theorem Sound.of_frame {p : Page} {live : List Allocation} (h : Sound buffer bufferSize sizeClass s)
    (hinv : Inv p live) (hframe : s.page.header.SameFrame p.header) :
    Sound buffer bufferSize sizeClass ⟨p, live⟩ :=
  ⟨hinv, hframe.start.trans h.start, hframe.size.trans h.size, hframe.sizeClass.trans h.sizeClass⟩

theorem Sound.perform {op : Operation} (h : Sound buffer bufferSize sizeClass s) (ha : Allowed s op) :
    Sound buffer bufferSize sizeClass (perform s op) := by
  cases op with
  | allocate size =>
    obtain ⟨ptr, p, halloc, hcase⟩ := h.inv.allocate_spec size
    simp only [LogicalPage.perform, halloc]
    rcases hcase with ⟨rfl, rfl⟩ | ⟨hne, hinv, hconfined⟩
    · exact h
    · rw [if_neg hne, hconfined.frame.sizeClass]
      exact h.of_frame hinv hconfined.frame
  | deallocate x =>
    obtain ⟨hinv, hconfined⟩ := (h.inv.perm (List.perm_cons_erase ha)).deallocate_spec
    exact h.of_frame hinv hconfined.frame
  | store address value =>
    obtain ⟨x, hx, hholds⟩ := ha
    have hbytes : ∀ b, s.page.header.logicalPageStartAddress ≤ b → b < s.page.header.bufferEnd →
        (∀ x ∈ s.live, ¬ x.Holds b) → Function.update s.page.bytes address value b = s.page.bytes b := by
      intro b _ _ hb
      apply Function.update_of_ne
      rintro rfl
      exact hb x hx hholds
    exact h.of_frame (h.inv.congr (.refl _) hbytes) (.refl _)

theorem Reachable.sound (h : Reachable buffer bufferSize sizeClass s) :
    Sound buffer bufferSize sizeClass s := by
  induction h with
  | create hb h =>
    obtain ⟨hinv, _, _, hclass, hstart, hsize, _⟩ := create_inv h hb
    exact ⟨hinv, hstart, hsize, hclass⟩
  | step _ ha ih => exact ih.perform ha

/-- A page gives null exactly when every chunk is out. -/
theorem Inv.allocate_eq_zero_iff {p : Page} {live : List Allocation} (h : Inv p live) (size : Nat) :
    (allocate size p).1 = 0 ↔ live.length = chunkCount p.header := by
  obtain ⟨nodes, hpath, hperm⟩ := h.partition
  have hlength := hperm.length_eq
  simp only [List.length_append, List.length_map, chunks, List.length_range] at hlength
  have h0 : 0 ∉ nodes := fun hmem => chunk_pos h.start_pos (hperm.subset (List.mem_append_left _ hmem)) rfl
  have hret : (allocate size p).1 = p.header.head := by
    by_cases hhead : p.header.head = 0
    · simp [allocate, pop, hhead]
    · rw [allocate_of_ne hhead]
  rw [hret, ← hlength]
  cases nodes with
  | nil => simpa using hpath
  | cons a nodes =>
    obtain ⟨rfl, _⟩ := hpath
    simp only [List.mem_cons, not_or] at h0
    simp [Ne.symm h0.1]

/-- The chunk put back is the next one given out. -/
theorem Inv.allocate_deallocate {p : Page} {live : List Allocation} {x : Allocation} (h : Inv p live)
    (hx : x ∈ live) (size : Nat) : (allocate size (deallocate x.ptr p)).1 = x.ptr := by
  have hin := chunk_inside (h.mem_chunks hx)
  have h8 := h.eight_le
  have howns : p.header.ownsPointer x.ptr = true :=
    (LogicalPageHeader.ownsPointer_eq_true h.bound).mpr ⟨hin.1, by omega⟩
  have hne : x.ptr ≠ 0 := chunk_pos h.start_pos (h.mem_chunks hx)
  simp [deallocate, howns, allocate, pop, push, hne]

/-- Free chunks and live pointers partition the chunks of the buffer in every state of every run. -/
theorem chunk_partition (h : Reachable buffer bufferSize sizeClass s) :
    (∃ nodes, Path (read64 s.page.bytes) s.page.header.head nodes 0 ∧ nodes.Nodup ∧ 0 ∉ nodes ∧
      (s.live.map Allocation.ptr).Nodup ∧ (∀ a ∈ nodes, a ∉ s.live.map Allocation.ptr) ∧
      ∀ a, a ∈ nodes ∨ a ∈ s.live.map Allocation.ptr ↔
        ∃ i < bufferSize / sizeClass, a = buffer + i * sizeClass) ∧
    (∀ i < bufferSize / sizeClass, buffer + i * sizeClass + sizeClass ≤ buffer + bufferSize) ∧
    s.page.header.usedSize = sizeClass * s.live.length ∧
    (∀ size, (allocate size s.page).1 = 0 ↔ s.live.length = bufferSize / sizeClass) ∧
    ∀ x ∈ s.live, ∀ size, (allocate size (deallocate x.ptr s.page)).1 = x.ptr := by
  obtain ⟨hinv, hstart, hsize, hclass⟩ := h.sound
  have hmem : ∀ a, a ∈ chunks s.page.header ↔ ∃ i < bufferSize / sizeClass, a = buffer + i * sizeClass := by
    intro a
    rw [mem_chunks, chunkCount, hstart, hsize, hclass]
  refine ⟨?_, ?_, hclass ▸ hinv.used, ?_, fun x hx size => hinv.allocate_deallocate hx size⟩
  · obtain ⟨nodes, hpath, hperm⟩ := hinv.partition
    have hnodup := List.nodup_append.mp (hinv.nodup hperm)
    refine ⟨nodes, hpath, hnodup.1, ?_, hnodup.2.1, fun a ha hlive => hnodup.2.2 a ha a hlive rfl, ?_⟩
    · intro h0
      exact chunk_pos hinv.start_pos (hperm.subset (List.mem_append_left _ h0)) rfl
    · intro a
      rw [← List.mem_append, hperm.mem_iff]
      exact hmem a
  · intro i hi
    have hinside := (chunk_inside ((hmem _).mpr ⟨i, hi, rfl⟩)).2
    rwa [hclass, LogicalPageHeader.bufferEnd, hstart, hsize] at hinside
  · intro size
    rw [hinv.allocate_eq_zero_iff, chunkCount, hsize, hclass]

end

theorem chunk_partition_of_one : ∃ s : State, s.live = [⟨4160, 64⟩] ∧ s.page.header.usedSize = 64 ∧
    ∀ size, (allocate size s.page).1 = 0 ↔ s.live.length = 160 / 64 := by
  obtain ⟨p, hp⟩ := Option.isSome_iff_exists.mp
    (by decide : (create 4096 160 64 fun _ => 0).isSome)
  have hreach : Reachable 4096 160 64 (perform ⟨p, []⟩ (.allocate 64)) :=
    (Reachable.create (by decide) hp).step trivial
  obtain rfl : grow 4096 160 ⟨.ofBuffer 4096 160 64, fun _ => 0⟩ = p := (create_eq_some hp).2.2.2.symm
  exact ⟨_, rfl, by decide +kernel, (chunk_partition hreach).2.2.2.1⟩

end Metamalloc.Pages.LogicalPage
