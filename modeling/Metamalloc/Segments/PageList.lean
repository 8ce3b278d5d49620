import Metamalloc.Segments.Segment

/-! The page list of a segment: what linking and unlinking a page does to it, and
what becomes of two lists when one is transferred to the other. -/
namespace Metamalloc.Segments
open Library.Word64 Library.ByteMemory Library.LinkedList Pages

namespace Memory
variable (mem : Memory) (a b v : Nat) (h : LogicalPageHeader) (p : Page)

@[simp] theorem pages_setHeader_self : (mem.setHeader a h).pages a = h := Function.update_self ..
@[simp] theorem pages_setPage_self : (mem.setPage a p).pages a = p.header := Function.update_self ..

variable {a b} in
theorem pages_setHeader_of_ne (hb : b ≠ a) : (mem.setHeader a h).pages b = mem.pages b :=
  Function.update_of_ne hb ..

variable {a b} in
theorem pages_setPage_of_ne (hb : b ≠ a) : (mem.setPage a p).pages b = mem.pages b :=
  Function.update_of_ne hb ..

@[simp] theorem getNext_setNext :
    (mem.setNext a v).getNext b = Function.update mem.getNext a v b := by
  by_cases hb : b = a <;> simp [getNext, setNext, setHeader, Function.update, hb,
    LogicalPageHeader.setNextLogicalPage]

@[simp] theorem getPrevious_setNext : (mem.setNext a v).getPrevious b = mem.getPrevious b := by
  by_cases hb : b = a <;> simp [getPrevious, setNext, setHeader, Function.update, hb,
    LogicalPageHeader.setNextLogicalPage]

@[simp] theorem getNext_setPrevious : (mem.setPrevious a v).getNext b = mem.getNext b := by
  by_cases hb : b = a <;> simp [getNext, setPrevious, setHeader, Function.update, hb,
    LogicalPageHeader.setPreviousLogicalPage]

@[simp] theorem getPrevious_setPrevious :
    (mem.setPrevious a v).getPrevious b = Function.update mem.getPrevious a v b := by
  by_cases hb : b = a <;> simp [getPrevious, setPrevious, setHeader, Function.update, hb,
    LogicalPageHeader.setPreviousLogicalPage]

@[simp] theorem getNext_releaseToSystem : (mem.releaseToSystem a v).getNext b = mem.getNext b := rfl
@[simp] theorem getPrevious_releaseToSystem :
    (mem.releaseToSystem a v).getPrevious b = mem.getPrevious b := rfl

end Memory

/-- The next page, with the head of the list behind null. -/
def nextOf (s : Segment) (mem : Memory) (a : Nat) : Nat := if a = 0 then s.head else mem.getNext a
/-- The previous page, with the tail of the list in front of null. -/
def prevOf (s : Segment) (mem : Memory) (a : Nat) : Nat := if a = 0 then s.tail else mem.getPrevious a

@[simp] theorem nextOf_zero (s : Segment) (mem : Memory) : nextOf s mem 0 = s.head := rfl
@[simp] theorem prevOf_zero (s : Segment) (mem : Memory) : prevOf s mem 0 = s.tail := rfl

theorem nextOf_of_ne {s : Segment} {mem : Memory} {a : Nat} (h : a ≠ 0) :
    nextOf s mem a = mem.getNext a := if_neg h
theorem prevOf_of_ne {s : Segment} {mem : Memory} {a : Nat} (h : a ≠ 0) :
    prevOf s mem a = mem.getPrevious a := if_neg h

structure Listed (s : Segment) (mem : Memory) (l : List Nat) : Prop where
  ring : Ring (nextOf s mem) (prevOf s mem) 0 l
  address : ∀ a ∈ l, a < 2^64
  count : s.logicalPageCount = l.length
  lastUsed : s.lastUsed = 0 ∨ s.lastUsed ∈ l

section
variable {s : Segment} {mem : Memory} {l l₁ l₂ : List Nat} {x : Nat}

theorem Listed.ne_zero (h : Listed s mem l) (hx : x ∈ l) : x ≠ 0 :=
  fun e => h.ring.sentinel_not_mem (e ▸ hx)

theorem length_lt_of_nodup (hn : (0 :: l).Nodup) (ha : ∀ a ∈ l, a < 2^64) : l.length < 2^64 := by
  obtain ⟨h0, hn⟩ := List.nodup_cons.mp hn
  have hsub : l.toFinset ⊆ Finset.Ioo 0 (2^64) := by
    intro a hm
    rw [List.mem_toFinset] at hm
    have hne : a ≠ 0 := fun e => h0 (e ▸ hm)
    exact Finset.mem_Ioo.mpr ⟨Nat.pos_of_ne_zero hne, ha a hm⟩
  have hcard := Finset.card_le_card hsub
  rw [List.toFinset_card_of_nodup hn, Nat.card_Ioo] at hcard
  omega

theorem erase_middle (hn : (l₁ ++ x :: l₂).Nodup) : (l₁ ++ x :: l₂).erase x = l₁ ++ l₂ := by
  have hnot : x ∉ l₁ := fun hm => (List.nodup_append.mp hn).2.2 x hm x List.mem_cons_self rfl
  rw [List.erase_append_right _ hnot, List.erase_cons_head]

theorem Listed.length_lt (h : Listed s mem l) : l.length < 2^64 :=
  length_lt_of_nodup h.ring.nodup h.address

/-- The list as the code walks it, from either end. -/
theorem Listed.paths (h : Listed s mem l) : Path mem.getNext s.head l 0 ∧
    Path mem.getPrevious s.tail l.reverse 0 := by
  have hn : ∀ x ∈ l, x ≠ 0 := fun x hx => h.ne_zero hx
  refine ⟨h.ring.forward.congr fun x hx => (nextOf_of_ne (hn x hx)).symm,
    h.ring.backward.congr fun x hx => (prevOf_of_ne (hn x (List.mem_reverse.mp hx))).symm⟩

theorem Listed.path_behind {a : Nat} (h : Listed s mem (l₁ ++ [a] ++ l₂)) :
    Path mem.getNext (mem.getNext a) l₂ 0 := by
  have hp := h.paths.1
  rw [List.append_assoc, path_append] at hp
  obtain ⟨b, _, hb⟩ := hp
  exact hb.2

theorem Listed.head_eq_zero_iff (h : Listed s mem l) : s.head = 0 ↔ l = [] := by
  have hp := h.paths.1
  constructor
  · intro h0
    rw [h0] at hp
    exact hp.eq_of_end h.ring.sentinel_not_mem
  · rintro rfl
    exact hp

theorem Listed.tail_eq_zero_iff (h : Listed s mem l) : s.tail = 0 ↔ l = [] := by
  have hp := h.paths.2
  constructor
  · intro h0
    rw [h0] at hp
    have hn : 0 ∉ l.reverse := fun hm => h.ring.sentinel_not_mem (List.mem_reverse.mp hm)
    simpa using hp.eq_of_end hn
  · rintro rfl
    exact hp

theorem Listed.congr {s' : Segment} {mem' : Memory} (h : Listed s mem l) (hh : s'.head = s.head)
    (ht : s'.tail = s.tail) (hc : s'.logicalPageCount = s.logicalPageCount)
    (hu : s'.lastUsed = 0 ∨ s'.lastUsed ∈ l)
    (hn : ∀ x ∈ l, mem'.getNext x = mem.getNext x ∧ mem'.getPrevious x = mem.getPrevious x) :
    Listed s' mem' l := by
  refine ⟨h.ring.congr (fun x hx => ?_) (fun x hx => ?_), h.address, hc.trans h.count, hu⟩
  · rcases List.mem_cons.mp hx with rfl | hx
    · exact hh
    · rw [nextOf_of_ne (h.ne_zero hx), nextOf_of_ne (h.ne_zero hx)]
      exact (hn x hx).1
  · rcases List.mem_cons.mp hx with rfl | hx
    · exact ht
    · rw [prevOf_of_ne (h.ne_zero hx), prevOf_of_ne (h.ne_zero hx)]
      exact (hn x hx).2

section
variable (h : Ring (nextOf s mem) (prevOf s mem) 0 l) (hx : x ∈ l)
include h hx

private theorem next_eq_zero_iff : mem.getNext x = 0 ↔ s.tail = x := by
  have hx0 : x ≠ 0 := fun e => h.sentinel_not_mem (e ▸ hx)
  have hp := (h.prev_next (List.mem_cons_of_mem _ hx)).2
  have hn := (h.next_prev (List.mem_cons_self (a := 0))).2
  rw [nextOf_of_ne hx0] at hp
  rw [prevOf_zero] at hn
  constructor
  · intro h0
    rwa [h0, prevOf_zero] at hp
  · intro ht
    rwa [ht, nextOf_of_ne hx0] at hn

/-- Both link functions after the removal, as the ring lemma states them. -/
theorem links_removeLogicalPage :
    nextOf (Segment.removeLogicalPage x s mem).1 (Segment.removeLogicalPage x s mem).2 =
        Function.update (nextOf s mem) (prevOf s mem x) (nextOf s mem x) ∧
      prevOf (Segment.removeLogicalPage x s mem).1 (Segment.removeLogicalPage x s mem).2 =
        Function.update (prevOf s mem) (nextOf s mem x) (prevOf s mem x) := by
  have hx0 : x ≠ 0 := fun e => h.sentinel_not_mem (e ▸ hx)
  have hlast := next_eq_zero_iff h hx
  have hnext := h.prev_next (List.mem_cons_of_mem _ hx)
  rw [nextOf_of_ne hx0] at hnext ⊢
  rw [prevOf_of_ne hx0]
  have hsecond : mem.getNext x ≠ 0 → mem.getNext (mem.getNext x) = 0 → s.tail = mem.getNext x := by
    intro hne hz
    have hm : mem.getNext x ∈ l := (List.mem_cons.mp hnext.1).resolve_left hne
    exact (next_eq_zero_iff h hm).mp hz
  constructor
  · funext a
    by_cases hp : mem.getPrevious x = 0
    · by_cases ha : a = 0
      · subst ha
        by_cases hn : mem.getNext x = 0 <;> simp [Segment.removeLogicalPage, hp, hn]
      · by_cases hn : mem.getNext x = 0 <;>
          simp [Segment.removeLogicalPage, hp, hn, nextOf_of_ne ha, Function.update_of_ne ha]
    · by_cases ha : a = 0
      · subst ha
        rw [Function.update_of_ne (Ne.symm hp)]
        by_cases hn : mem.getNext x = 0 <;> simp [Segment.removeLogicalPage, hp, hn]
      · by_cases hap : a = mem.getPrevious x
        · subst hap
          by_cases hn : mem.getNext x = 0 <;>
            simp [Segment.removeLogicalPage, hp, hn, nextOf_of_ne ha]
        · by_cases hn : mem.getNext x = 0 <;>
            simp [Segment.removeLogicalPage, hp, hn, nextOf_of_ne ha, Function.update_of_ne hap]
  · funext a
    by_cases hn : mem.getNext x = 0
    · have ht := hlast.mp hn
      by_cases ha : a = 0
      · subst ha
        by_cases hp : mem.getPrevious x = 0 <;> simp [Segment.removeLogicalPage, hp, hn, ht]
      · by_cases hp : mem.getPrevious x = 0 <;>
          simp [Segment.removeLogicalPage, hp, hn, prevOf_of_ne ha, Function.update_of_ne ha]
    · have ht : s.tail ≠ x := fun e => hn (hlast.mpr e)
      by_cases ha : a = 0
      · subst ha
        rw [Function.update_of_ne (Ne.symm hn)]
        by_cases hp : mem.getPrevious x = 0
        · by_cases hnn : mem.getNext (mem.getNext x) = 0
          · simp [Segment.removeLogicalPage, hp, hn, hnn, hsecond hn hnn]
          · simp [Segment.removeLogicalPage, hp, hn, hnn]
        · simp [Segment.removeLogicalPage, hp, hn, ht]
      · by_cases han : a = mem.getNext x
        · subst han
          by_cases hp : mem.getPrevious x = 0 <;>
            simp [Segment.removeLogicalPage, hp, hn, prevOf_of_ne ha]
        · by_cases hp : mem.getPrevious x = 0 <;>
            simp [Segment.removeLogicalPage, hp, hn, prevOf_of_ne ha, Function.update_of_ne han]

end

theorem Listed.removeLogicalPage (h : Listed s mem (l₁ ++ x :: l₂)) :
    Listed (Segment.removeLogicalPage x s mem).1 (Segment.removeLogicalPage x s mem).2 (l₁ ++ l₂) := by
  have hx : x ∈ l₁ ++ x :: l₂ := by simp
  have hx0 := h.ne_zero hx
  have hlt := h.length_lt
  obtain ⟨hn, hp⟩ := links_removeLogicalPage h.ring hx
  obtain ⟨p, q, hprev, hnext⟩ := h.ring.split
  rw [prevOf_of_ne hx0] at hprev
  rw [nextOf_of_ne hx0] at hnext
  have hsub : ∀ a ∈ l₁ ++ l₂, a ∈ l₁ ++ x :: l₂ := fun a ha =>
    List.perm_middle.mem_iff.mpr (List.mem_cons_of_mem _ ha)
  refine ⟨?_, fun a ha => h.address a (hsub a ha), ?_, ?_⟩
  · rw [hn, hp]
    exact h.ring.unlink
  · have hc : (Segment.removeLogicalPage x s mem).1.logicalPageCount =
        sub64 s.logicalPageCount 1 := by
      by_cases hp : mem.getPrevious x = 0 <;> simp [Segment.removeLogicalPage, hp]
    rw [List.length_append, List.length_cons] at hlt
    rw [hc, h.count, List.length_append, List.length_cons, List.length_append,
      sub64_of_le (by omega) (by omega)]
    omega
  · have hl : (Segment.removeLogicalPage x s mem).1.lastUsed =
        if x = s.lastUsed then
          if mem.getPrevious x ≠ 0 then mem.getPrevious x
          else if mem.getNext x ≠ 0 then mem.getNext x else 0
        else s.lastUsed := by
      by_cases hp : mem.getPrevious x = 0 <;> simp [Segment.removeLogicalPage, hp]
    rw [hl]
    split
    · split
      · have hm : mem.getPrevious x ∈ 0 :: l₁ := by simp [hprev]
        rename_i hp0
        exact .inr (List.mem_append_left _ ((List.mem_cons.mp hm).resolve_left hp0))
      · split
        · have hm : mem.getNext x ∈ l₂ ++ [0] := by simp [hnext]
          rename_i hn0
          refine .inr (List.mem_append_right _ ((List.mem_append.mp hm).resolve_right ?_))
          exact fun he => hn0 (List.mem_singleton.mp he)
        · exact .inl rfl
    · rename_i hne
      refine h.lastUsed.imp_right fun hm => ?_
      exact (List.mem_cons.mp (List.perm_middle.mem_iff.mp hm)).resolve_left (Ne.symm hne)

/-- The first page of a list. The page object is fresh, so its own links are null. -/
theorem Listed.singleton (h : Listed s mem []) (hx : x ≠ 0) (hlt : x < 2^64)
    {mem' : Memory} (hn : mem'.getNext x = 0) (hp : mem'.getPrevious x = 0) :
    Listed { s with
      head := x
      tail := x
      logicalPageCount := add64 s.logicalPageCount 1 } mem' [x] := by
  refine ⟨⟨⟨rfl, ?_, ?_, rfl, trivial⟩, by simpa using Ne.symm hx⟩, by simpa using hlt, ?_, ?_⟩
  · rwa [prevOf_of_ne hx]
  · rwa [nextOf_of_ne hx]
  · rw [h.count, List.length_nil, add64_of_lt (by omega)]
    rfl
  · exact .inl (h.lastUsed.resolve_right (List.not_mem_nil))

theorem Listed.link {t : Nat} (h : Listed { s with tail := t } mem l) (ht : t ≠ 0) (hx : x ∉ 0 :: l)
    (hlt : x < 2^64) {mem' : Memory} (hnx : mem'.getNext x = 0)
    (hm : ∀ a ∈ l, mem'.getNext a = mem.getNext a ∧ mem'.getPrevious a = mem.getPrevious a) :
    Listed { s with tail := x, logicalPageCount := add64 s.logicalPageCount 1 }
      (Segment.linkAfter t x mem') (l ++ [x]) := by
  have hx0 : x ≠ 0 := fun e => hx (by simp [e])
  have htl : t ∈ l := (List.mem_cons.mp (h.ring.next_prev List.mem_cons_self).1).resolve_left ht
  have hxt : x ≠ t := fun e => hx (List.mem_cons_of_mem _ (e ▸ htl))
  have hl : ∀ a ∈ 0 :: (l ++ [x]), a = 0 ∨ a ∈ l ∨ a = x := by simp
  have hring := h.ring.link hx
  have haddr : ∀ a ∈ l ++ [x], a < 2^64 := by
    intro a ha
    rcases List.mem_append.mp ha with ha | ha
    · exact h.address a ha
    · rwa [List.mem_singleton.mp ha]
  refine ⟨hring.congr ?_ ?_, haddr, ?_, ?_⟩
  · intro a ha
    rw [prevOf_zero]
    rcases hl a ha with rfl | ha | rfl
    · rw [Function.update_of_ne (Ne.symm ht), Function.update_of_ne (Ne.symm hx0)]
      rfl
    · have ha0 := h.ne_zero ha
      have hax : a ≠ x := fun e => hx (List.mem_cons_of_mem _ (e ▸ ha))
      rw [nextOf_of_ne ha0]
      by_cases hat : a = t
      · simp [Segment.linkAfter, hat]
      · simp [nextOf_of_ne ha0, Segment.linkAfter, Function.update_of_ne hat,
          Function.update_of_ne hax, (hm a ha).1]
    · rw [nextOf_of_ne hx0]
      simp [Segment.linkAfter, Function.update_of_ne hxt, hnx]
  · intro a ha
    rw [prevOf_zero]
    rcases hl a ha with rfl | ha | rfl
    · rw [Function.update_of_ne (Ne.symm hx0), Function.update_self]
      rfl
    · have ha0 := h.ne_zero ha
      have hax : a ≠ x := fun e => hx (List.mem_cons_of_mem _ (e ▸ ha))
      simp [prevOf_of_ne ha0, Segment.linkAfter, Function.update_of_ne hax,
        Function.update_of_ne ha0, (hm a ha).2]
    · rw [prevOf_of_ne hx0]
      simp [Segment.linkAfter]
  · have hc : s.logicalPageCount = l.length := h.count
    have hlen := length_lt_of_nodup hring.nodup haddr
    rw [List.length_append, List.length_singleton] at hlen ⊢
    rw [hc]
    exact add64_of_lt hlen
  · exact h.lastUsed.imp_right (List.mem_append_left _)

end
end Metamalloc.Segments
