import Metamalloc.Segments.PageList

/-! The invariant of a segment: a well-formed list of disjoint pages, each of which
keeps its own invariant for the allocations taken from it. -/
namespace Metamalloc.Segments
open Library.Word64 Library.ByteMemory Library.LinkedList Pages

/-- A change of links only. -/
structure Relinked (mem mem' : Memory) : Prop where
  bytes : mem'.bytes = mem.bytes
  created : mem'.created = mem.created
  released : mem'.released = mem.released
  pages : ∀ a, ∃ next previous, mem'.pages a =
    { mem.pages a with nextLogicalPagePtr := next, prevLogicalPagePtr := previous }

/-- The members of a header that place its page in memory and in the list. -/
structure SamePlace (h h' : LogicalPageHeader) : Prop where
  next : h'.nextLogicalPagePtr = h.nextLogicalPagePtr
  prev : h'.prevLogicalPagePtr = h.prevLogicalPagePtr
  sizeClass : h'.sizeClass = h.sizeClass
  start : h'.logicalPageStartAddress = h.logicalPageStartAddress
  size : h'.logicalPageSize = h.logicalPageSize

theorem SamePlace.refl (h : LogicalPageHeader) : SamePlace h h := ⟨rfl, rfl, rfl, rfl, rfl⟩

theorem SamePlace.of_frame {h h' : LogicalPageHeader} (hf : h.SameFrame h') : SamePlace h h' :=
  ⟨hf.next, hf.prev, hf.sizeClass, hf.start, hf.size⟩

/-- Headers and bytes outside a set of addresses are as before. -/
structure Within (mem mem' : Memory) (R : Nat → Prop) : Prop where
  pages : ∀ a, ¬ R a → mem'.pages a = mem.pages a
  bytes : ∀ b, ¬ R b → mem'.bytes b = mem.bytes b

def Spares (mem mem' : Memory) (held : List Allocation) : Prop :=
  ∀ x ∈ held, ∀ b, x.Holds b → mem'.bytes b = mem.bytes b

def region (pageSize : Nat) (l : List Nat) (b : Nat) : Prop := ∃ a ∈ l, a ≤ b ∧ b < a + pageSize

section
variable {mem mem' mem'' : Memory} {R R' : Nat → Prop} {a v : Nat} {l l' : List Nat} {n : Nat}

theorem Relinked.refl (mem : Memory) : Relinked mem mem := ⟨rfl, rfl, rfl, fun _ => ⟨_, _, rfl⟩⟩

theorem Relinked.trans (h : Relinked mem mem') (h' : Relinked mem' mem'') : Relinked mem mem'' := by
  refine ⟨h'.bytes.trans h.bytes, h'.created.trans h.created, h'.released.trans h.released, ?_⟩
  intro a
  obtain ⟨n, p, he⟩ := h.pages a
  obtain ⟨n', p', he'⟩ := h'.pages a
  exact ⟨n', p', by rw [he', he]⟩

theorem relinked_setNext : Relinked mem (mem.setNext a v) := by
  refine ⟨rfl, rfl, rfl, fun b => ?_⟩
  by_cases hb : b = a
  · subst hb
    exact ⟨v, (mem.pages b).prevLogicalPagePtr, Function.update_self ..⟩
  · exact ⟨_, _, Function.update_of_ne hb ..⟩

theorem relinked_setPrevious : Relinked mem (mem.setPrevious a v) := by
  refine ⟨rfl, rfl, rfl, fun b => ?_⟩
  by_cases hb : b = a
  · subst hb
    exact ⟨(mem.pages b).nextLogicalPagePtr, v, Function.update_self ..⟩
  · exact ⟨_, _, Function.update_of_ne hb ..⟩

theorem Within.refl (mem : Memory) (R : Nat → Prop) : Within mem mem R :=
  ⟨fun _ _ => rfl, fun _ _ => rfl⟩

theorem Within.trans (h : Within mem mem' R) (h' : Within mem' mem'' R) : Within mem mem'' R :=
  ⟨fun a ha => (h'.pages a ha).trans (h.pages a ha), fun b hb => (h'.bytes b hb).trans (h.bytes b hb)⟩

theorem Within.mono (h : Within mem mem' R) (hR : ∀ a, R a → R' a) : Within mem mem' R' :=
  ⟨fun a ha => h.pages a fun hr => ha (hR a hr), fun b hb => h.bytes b fun hr => hb (hR b hr)⟩

theorem Spares.of_bytes (h : mem'.bytes = mem.bytes) (held : List Allocation) : Spares mem mem' held :=
  fun _ _ b _ => congrFun h b

theorem Spares.trans {held : List Allocation} (h : Spares mem mem' held) (h' : Spares mem' mem'' held) :
    Spares mem mem'' held :=
  fun x hx b hb => (h' x hx b hb).trans (h x hx b hb)

theorem region_mono (hl : ∀ a ∈ l, a ∈ l') (b : Nat) (h : region n l b) : region n l' b := by
  obtain ⟨a, ha, hb⟩ := h
  exact ⟨a, hl a ha, hb⟩

theorem region_self (hn : 0 < n) (ha : a ∈ l) : region n l a := ⟨a, ha, le_rfl, by omega⟩

theorem within_setHeader {h : LogicalPageHeader} (ha : R a) : Within mem (mem.setHeader a h) R := by
  refine ⟨fun b hb => ?_, fun _ _ => rfl⟩
  have hne : b ≠ a := by
    rintro rfl
    exact hb ha
  exact Function.update_of_ne hne ..

theorem within_setNext (ha : R a) : Within mem (mem.setNext a v) R := within_setHeader ha
theorem within_setPrevious (ha : R a) : Within mem (mem.setPrevious a v) R := within_setHeader ha

theorem relinked_linkAfter {t x : Nat} : Relinked mem (Segment.linkAfter t x mem) :=
  relinked_setNext.trans relinked_setPrevious

theorem within_linkAfter {t x : Nat} (ht : R t) (hx : R x) : Within mem (Segment.linkAfter t x mem) R :=
  (within_setNext ht).trans (within_setPrevious hx)

theorem relinked_removeLogicalPage {s : Segment} {x : Nat} :
    Relinked mem (Segment.removeLogicalPage x s mem).2 := by
  by_cases hp : mem.getPrevious x = 0
  · by_cases hn : mem.getNext x = 0
    · simpa [Segment.removeLogicalPage, hp, hn] using Relinked.refl mem
    · simpa [Segment.removeLogicalPage, hp, hn] using relinked_setPrevious
  · by_cases hn : mem.getNext x = 0
    · simpa [Segment.removeLogicalPage, hp, hn] using relinked_setNext
    · simpa [Segment.removeLogicalPage, hp, hn] using relinked_setNext.trans relinked_setPrevious

theorem within_removeLogicalPage {s : Segment} {x : Nat} (hp : mem.getPrevious x ≠ 0 → R (mem.getPrevious x))
    (hn : mem.getNext x ≠ 0 → R (mem.getNext x)) :
    Within mem (Segment.removeLogicalPage x s mem).2 R := by
  by_cases hp0 : mem.getPrevious x = 0
  · by_cases hn0 : mem.getNext x = 0
    · simpa [Segment.removeLogicalPage, hp0, hn0] using Within.refl mem R
    · simpa [Segment.removeLogicalPage, hp0, hn0] using within_setPrevious (hn hn0)
  · by_cases hn0 : mem.getNext x = 0
    · simpa [Segment.removeLogicalPage, hp0, hn0] using within_setNext (hp hp0)
    · simpa [Segment.removeLogicalPage, hp0, hn0] using
        (within_setNext (hp hp0)).trans (within_setPrevious (hn hn0))

theorem config_removeLogicalPage {s : Segment} {x : Nat} :
    (Segment.removeLogicalPage x s mem).1.toSegmentConfig = s.toSegmentConfig ∧
      (Segment.removeLogicalPage x s mem).1.deallocationQueue = s.deallocationQueue := by
  by_cases hp : mem.getPrevious x = 0 <;> simp [Segment.removeLogicalPage, hp]

end

/-- What a successful `create` has checked and set for good. -/
structure Geometry (T : SegmentType) (c : SegmentConfig) : Prop where
  multiple : c.logicalPageSize % 4096 = 0
  word : c.logicalPageSize < 2^64
  object_lt : T.page.objectSize < c.logicalPageSize
  maxObject : c.maxObjectSize + logicalPageHeaderSize = c.logicalPageSize
  creatable : ∃ buffer m,
    (T.page.create buffer (c.logicalPageSize - T.page.objectSize) c.sizeClass m).isSome
  /-- The promise of a caller that asks for the constant-time lookup. -/
  powerOfTwo : T.bufferAlignedToLogicalPageSize = true → ∃ k ≤ 64, c.logicalPageSize = 2^k

def PagesApart (pageSize a b : Nat) : Prop := a + pageSize ≤ b ∨ b + pageSize ≤ a

theorem PagesApart.symm {n a b : Nat} (h : PagesApart n a b) : PagesApart n b a := Or.symm h

/-- `owned` gives, page by page, the allocations that are not in the page's free store. -/
structure SegmentInv (T : SegmentType) (L : PageLaws T.page) (s : Segment) (mem : Memory)
    (l : List Nat) (owned : Nat → List Allocation) : Prop where
  listed : Listed s mem l
  geometry : Geometry T s.toSegmentConfig
  inside : ∀ a ∈ l, a + s.logicalPageSize < 2^64
  aligned : T.bufferAlignedToLogicalPageSize = true → ∀ a ∈ l, s.logicalPageSize ∣ a
  apart : l.Pairwise (PagesApart s.logicalPageSize)
  frame : ∀ a ∈ l, (mem.pages a).logicalPageStartAddress = a + T.page.objectSize ∧
    (mem.pages a).logicalPageSize = s.logicalPageSize - T.page.objectSize ∧
    (mem.pages a).sizeClass = s.sizeClass
  page : ∀ a ∈ l, L.Inv (mem.page a) (owned a)
  outside : ∀ a, a ∉ l → owned a = []

namespace SegmentInv
variable {T : SegmentType} {L : PageLaws T.page} {s s' : Segment} {mem mem' : Memory}
  {l l₁ l₂ : List Nat} {owned owned' : Nat → List Allocation} {a b n size : Nat} {x : Allocation}

theorem mem_of_owned (h : SegmentInv T L s mem l owned) (hx : x ∈ owned a) : a ∈ l := by
  by_contra ha
  rw [h.outside a ha] at hx
  cases hx

theorem bufferEnd (h : SegmentInv T L s mem l owned) (ha : a ∈ l) :
    (mem.pages a).bufferEnd = a + s.logicalPageSize := by
  have hlt := h.geometry.object_lt
  obtain ⟨h1, h2, _⟩ := h.frame a ha
  rw [LogicalPageHeader.bufferEnd, h1, h2]
  omega

theorem owned_inside (h : SegmentInv T L s mem l owned) (hx : x ∈ owned a) :
    0 < x.size ∧ a + T.page.objectSize ≤ x.ptr ∧ x.ptr + x.size ≤ a + s.logicalPageSize := by
  have ha := h.mem_of_owned hx
  have hin := L.inside (h.page a ha) hx
  rw [show (mem.page a).header = mem.pages a from rfl, h.bufferEnd ha, (h.frame a ha).1] at hin
  exact hin

theorem apart_of_ne (h : SegmentInv T L s mem l owned) (ha : a ∈ l) (hb : b ∈ l) (hne : a ≠ b) :
    PagesApart s.logicalPageSize a b := by
  have : Std.Symm (PagesApart s.logicalPageSize) := ⟨fun _ _ h => h.symm⟩
  exact h.apart.forall ha hb hne

theorem owned_apart (h : SegmentInv T L s mem l owned) {y : Allocation} (hx : x ∈ owned a)
    (hy : y ∈ owned b) (hne : a ≠ b ∨ x ≠ y) : x.Apart y := by
  by_cases hab : a = b
  · subst hab
    have : Std.Symm Allocation.Apart := ⟨fun _ _ h => h.symm⟩
    exact (L.apart (h.page a (h.mem_of_owned hx))).forall hx hy (hne.resolve_left (· rfl))
  · have hp := h.apart_of_ne (h.mem_of_owned hx) (h.mem_of_owned hy) hab
    have h1 := h.owned_inside hx
    have h2 := h.owned_inside hy
    simp only [PagesApart] at hp
    simp only [Allocation.Apart]
    omega

theorem out_apart (h : SegmentInv T L s mem l owned) :
    (l.flatMap owned).Pairwise Allocation.Apart := by
  refine List.pairwise_flatMap.mpr ⟨fun a ha => L.apart (h.page a ha), ?_⟩
  refine h.listed.ring.nodup_list.imp fun {a b} hab x hx y hy => ?_
  exact h.owned_apart hx hy (.inl hab)

theorem out_nodup (h : SegmentInv T L s mem l owned) :
    ((l.flatMap owned).map Allocation.ptr).Nodup := by
  refine List.pairwise_map.mpr (h.out_apart.imp_of_mem fun {x y} hx hy hxy => ?_)
  obtain ⟨a, _, hxa⟩ := List.mem_flatMap.mp hx
  obtain ⟨b, _, hyb⟩ := List.mem_flatMap.mp hy
  have h1 := (h.owned_inside hxa).1
  have h2 := (h.owned_inside hyb).1
  simp only [Allocation.Apart] at hxy
  omega

theorem used_eq_zero (h : SegmentInv T L s mem l owned) (ha : a ∈ l) :
    (mem.pages a).usedSize = 0 ↔ owned a = [] := L.used_eq_zero (h.page a ha)

theorem pageSize_pos (h : SegmentInv T L s mem l owned) : 0 < s.logicalPageSize := by
  have := h.geometry.object_lt
  omega

/-- New contents for pages whose links and geometry stay as they are. -/
theorem update (h : SegmentInv T L s mem l owned)
    (hframe : ∀ a ∈ l, SamePlace (mem.pages a) (mem'.pages a))
    (hpage : ∀ a ∈ l, L.Inv (mem'.page a) (owned' a)) (hout : ∀ a, a ∉ l → owned' a = []) :
    SegmentInv T L s mem' l owned' := by
  refine ⟨?_, h.geometry, h.inside, h.aligned, h.apart, ?_, hpage, hout⟩
  · exact h.listed.congr rfl rfl rfl h.listed.lastUsed fun a ha => ⟨(hframe a ha).next, (hframe a ha).prev⟩
  · intro a ha
    obtain ⟨h1, h2, h3⟩ := h.frame a ha
    exact ⟨(hframe a ha).start.trans h1, (hframe a ha).size.trans h2, (hframe a ha).sizeClass.trans h3⟩

theorem releaseToSystem (h : SegmentInv T L s mem l owned) (address n : Nat) :
    SegmentInv T L s (mem.releaseToSystem address n) l owned :=
  h.update (fun _ _ => .refl _) h.page h.outside

/-- The frame rule: what happens away from the pages of a segment does not concern it. -/
theorem of_within {R : Nat → Prop} (h : SegmentInv T L s mem l owned) (hw : Within mem mem' R)
    (hR : ∀ b, region s.logicalPageSize l b → ¬ R b) : SegmentInv T L s mem' l owned := by
  have hlt := h.pageSize_pos
  have hpages : ∀ a ∈ l, mem'.pages a = mem.pages a := fun a ha =>
    hw.pages a (hR a (region_self hlt ha))
  refine h.update (fun a ha => ?_) (fun a ha => ?_) h.outside
  · rw [hpages a ha]
    exact .refl _
  · refine L.congr (h.page a ha) ?_ fun b hlo hhi _ => hw.bytes b (hR b ⟨a, ha, ?_, ?_⟩)
    · rw [hpages a ha]
      exact .refl _
    · have := (h.frame a ha).1
      simp only [Memory.page] at hlo
      omega
    · rw [← h.bufferEnd ha]
      exact hhi

theorem write (h : SegmentInv T L s mem l owned) (hx : x ∈ owned a) {bytes : Mem}
    (hb : ∀ y, ¬ x.Holds y → bytes y = mem.bytes y) : SegmentInv T L s { mem with bytes := bytes } l owned := by
  have ha := h.mem_of_owned hx
  have hin := h.owned_inside hx
  refine h.update (fun c _ => .refl _) (fun c hc => ?_) h.outside
  refine L.congr (h.page c hc) (.refl _) fun y hlo hhi hy => hb y fun hholds => ?_
  by_cases hca : c = a
  · subst hca
    exact hy x hx hholds
  · have hp := h.apart_of_ne hc ha hca
    have hend := h.bufferEnd hc
    have hstart := (h.frame c hc).1
    simp only [Memory.page, PagesApart, Allocation.Holds] at hlo hhi hp hholds
    omega

theorem store (h : SegmentInv T L s mem l owned) (hx : x ∈ owned a) {address : Nat}
    (hb : x.Holds address) (value : UInt8) :
    SegmentInv T L s { mem with bytes := Function.update mem.bytes address value } l owned := by
  refine h.write hx fun y hy => Function.update_of_ne ?_ _ _
  rintro rfl
  exact hy hb

end SegmentInv
end Metamalloc.Segments
