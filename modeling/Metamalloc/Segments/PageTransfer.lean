import Metamalloc.Segments.PageList

/-! When a transfer moves the pages of one segment to the end of another's list. -/
namespace Metamalloc.Segments
open Library.Word64 Library.ByteMemory Library.LinkedList Pages

/-- What a transfer is for: the first list has taken over the second, which is empty. -/
structure Transferred (s source : Segment) (mem : Memory) (l l' : List Nat) : Prop where
  forward : Path mem.getNext s.head (l ++ l') 0
  backward : Path mem.getPrevious s.tail (l ++ l').reverse 0
  count : s.logicalPageCount = l.length + l'.length
  source_head : source.head = 0
  source_tail : source.tail = 0
  source_lastUsed : source.lastUsed = 0
  source_count : source.logicalPageCount = 0

namespace Segment
variable {s s' source source' : Segment} {mem mem' : Memory} {l l' : List Nat} {fuel iter x : Nat}

theorem walkLimit_eq : ∃ n, walkLimit = n + 2 := ⟨2^64 - 2, by unfold walkLimit; omega⟩

theorem transferLoop_zero : transferLoop (fuel+1) 0 s source mem = some (s, source, mem) := by
  rw [transferLoop, if_pos rfl]

theorem transferLoop_succ (h : iter ≠ 0) : transferLoop (fuel+1) iter s source mem =
    transferLoop fuel (mem.getNext iter) (addLogicalPage iter s mem).1
      (removeLogicalPage iter source (addLogicalPage iter s mem).2).1
      (removeLogicalPage iter source (addLogicalPage iter s mem).2).2 := by
  rw [transferLoop, if_neg h]

/-- Adding a page to a list with a tail makes the tail its previous page and leaves the
ends of the list alone; unlinking it from the other list then finds that tail. -/
theorem addLogicalPage_of_tail (ht : s.tail ≠ 0) :
    (addLogicalPage iter s mem).1 =
        { s with logicalPageCount := add64 s.logicalPageCount 1 } ∧
      (addLogicalPage iter s mem).2.getPrevious iter = s.tail ∧
      (addLogicalPage iter s mem).2.getNext iter = 0 := by
  simp [addLogicalPage, ht, linkAfter]

theorem removeLogicalPage_of_prev {y : Nat} (hp : mem.getPrevious x = y) (hy : y ≠ 0)
    (hn : mem.getNext x = 0) : (removeLogicalPage x source mem).1.head = source.head ∧
      (removeLogicalPage x source mem).2.getNext y = 0 := by
  subst hp
  simp [removeLogicalPage, hy, hn]

/-- Onto a list that has a tail, every page is unlinked again and the other list keeps its head. -/
theorem transferLoop_keeps_head (ht : s.tail ≠ 0)
    (h : transferLoop fuel iter s source mem = some (s', source', mem')) :
    source'.head = source.head := by
  induction fuel generalizing iter s source mem with
  | zero => cases h
  | succ fuel ih =>
    by_cases hi : iter = 0
    · subst hi
      rw [transferLoop_zero] at h
      cases h
      rfl
    · rw [transferLoop_succ hi] at h
      obtain ⟨hs, hp, hn⟩ := @addLogicalPage_of_tail s mem iter ht
      rw [ih (by rw [hs]; exact ht) h]
      exact (removeLogicalPage_of_prev hp ht hn).1

/-- Once the receiving list is one page, it stays that one page. -/
theorem transferLoop_keeps_single (hx : x ≠ 0) (hh : s.head = x) (ht : s.tail = x)
    (hn : mem.getNext x = 0) (h : transferLoop fuel iter s source mem = some (s', source', mem')) :
    s'.head = x ∧ mem'.getNext x = 0 := by
  induction fuel generalizing iter s source mem with
  | zero => cases h
  | succ fuel ih =>
    by_cases hi : iter = 0
    · subst hi
      rw [transferLoop_zero] at h
      cases h
      exact ⟨hh, hn⟩
    · rw [transferLoop_succ hi] at h
      obtain ⟨hs, hp, hn⟩ := @addLogicalPage_of_tail s mem iter (by rwa [ht])
      rw [ht] at hp
      refine ih ?_ ?_ (removeLogicalPage_of_prev hp hx hn).2 h
      · rw [hs]
        exact hh
      · rw [hs]
        exact ht

theorem addLogicalPage_of_empty (ht : s.tail = 0) :
    addLogicalPage iter s mem = ({ s with
      head := iter
      tail := iter
      logicalPageCount := add64 s.logicalPageCount 1 }, mem.setNext iter 0) := by
  simp [addLogicalPage, ht]

theorem removeLogicalPage_of_only (hp : mem.getPrevious x = 0) (hn : mem.getNext x = 0) :
    removeLogicalPage x source mem = ({ source with
      head := 0
      tail := 0
      lastUsed := if x = source.lastUsed then 0 else source.lastUsed
      logicalPageCount := sub64 source.logicalPageCount 1 }, mem) := by
  simp [removeLogicalPage, hp, hn]

theorem transferLoop_from_empty (hs : s.tail = 0) (h' : Listed source mem (x :: l')) :
    transferLoop (fuel+1) x s source mem = transferLoop fuel (mem.getNext x)
      { s with
        head := x
        tail := x
        logicalPageCount := add64 s.logicalPageCount 1 }
      { source with
        head := 0
        tail := 0
        lastUsed := if x = source.lastUsed then 0 else source.lastUsed
        logicalPageCount := sub64 source.logicalPageCount 1 }
      (mem.setNext x 0) := by
  have hx : x ≠ 0 := h'.ne_zero List.mem_cons_self
  have hp : mem.getPrevious x = 0 := by
    have hr := h'.ring.links.2.1
    rwa [prevOf_of_ne hx] at hr
  rw [transferLoop_succ hx, addLogicalPage_of_empty hs]
  rw [removeLogicalPage_of_only (by simpa using hp) (by simp)]

/-- The transfer does its work exactly when there is nothing to move, or one page to an
empty list: the tail of the receiving list is never advanced, and a page is unlinked
from its old list by links that already belong to the new one. -/
theorem transferLogicalPagesFrom_iff (h : Listed s mem l) (h' : Listed source mem l') :
    (∃ s' source' mem', transferLogicalPagesFrom source s mem = some (s', source', mem') ∧
      Transferred s' source' mem' l l') ↔ l' = [] ∨ l = [] ∧ l'.length = 1 := by
  obtain ⟨n, hlimit⟩ := walkLimit_eq
  rw [transferLogicalPagesFrom, hlimit]
  constructor
  · rintro ⟨s', source', mem', he, ht⟩
    cases l' with
    | nil => exact .inl rfl
    | cons x l' =>
      have hx : x ≠ 0 := h'.ne_zero List.mem_cons_self
      have hhead : source.head = x := h'.paths.1.1
      by_cases hl : l = []
      · subst hl
        have hs : s.tail = 0 := h.tail_eq_zero_iff.mpr rfl
        rw [hhead, transferLoop_from_empty hs h'] at he
        have hk := transferLoop_keeps_single hx rfl rfl (by simp) he
        refine .inr ⟨rfl, ?_⟩
        cases l' with
        | nil => rfl
        | cons y l' =>
          have hy : y ≠ 0 := h'.ne_zero (by simp)
          have hf := ht.forward
          rw [List.nil_append, hk.1] at hf
          exact absurd (hf.2.1.symm.trans hk.2) hy
      · have hs : s.tail ≠ 0 := fun e => hl (h.tail_eq_zero_iff.mp e)
        have hk := transferLoop_keeps_head hs he
        rw [ht.source_head, hhead] at hk
        exact absurd hk.symm hx
  · rintro (rfl | ⟨rfl, hl⟩)
    · have hs := h'.head_eq_zero_iff.mpr rfl
      refine ⟨s, source, mem, by rw [hs, transferLoop_zero], ?_⟩
      have hu := h'.lastUsed.resolve_right List.not_mem_nil
      refine ⟨?_, ?_, ?_, hs, h'.tail_eq_zero_iff.mpr rfl, hu, h'.count⟩
      · rw [List.append_nil]
        exact h.paths.1
      · rw [List.append_nil]
        exact h.paths.2
      · exact h.count
    · obtain ⟨x, rfl⟩ := List.length_eq_one_iff.mp hl
      have hx : x ≠ 0 := h'.ne_zero List.mem_cons_self
      have hs : s.tail = 0 := h.tail_eq_zero_iff.mpr rfl
      have hp := h'.paths
      have hn : mem.getNext x = 0 := hp.1.2
      refine ⟨_, _, _, by rw [hp.1.1, transferLoop_from_empty hs h', hn, transferLoop_zero], ?_⟩
      refine ⟨⟨rfl, by simp⟩, ⟨rfl, ?_⟩, ?_, rfl, rfl, ?_, ?_⟩
      · have hb : mem.getPrevious x = 0 := hp.2.2
        simpa using hb
      · rw [h.count]
        exact add64_of_lt (by norm_num)
      · rcases h'.lastUsed with hu | hu
        · simp [hu, hx]
        · simp [List.mem_singleton.mp hu]
      · rw [h'.count]
        exact sub64_of_le le_rfl (by norm_num)

def onePage (a : Nat) : Segment := { head := a, tail := a, logicalPageCount := 1 }

/-- Page objects whose links are null. -/
def unlinked : Memory := { bytes := fun _ => 0, pages := fun _ => {} }

theorem listed_onePage {a : Nat} (h0 : a ≠ 0) (ha : a < 2^64) : Listed (onePage a) unlinked [a] := by
  refine ⟨⟨⟨rfl, ?_, ?_, rfl, trivial⟩, by simpa using Ne.symm h0⟩, by simpa using ha, rfl, .inl rfl⟩
  · rw [prevOf_of_ne h0]
    rfl
  · rw [nextOf_of_ne h0]
    rfl

theorem listed_empty : Listed {} unlinked [] := ⟨.empty rfl rfl, by simp, rfl, .inl rfl⟩

theorem transferLogicalPagesFrom_to_empty :
    ∃ s' source' mem', transferLogicalPagesFrom (onePage 8192) {} unlinked = some (s', source', mem') ∧
      Transferred s' source' mem' [] [8192] :=
  (transferLogicalPagesFrom_iff listed_empty (listed_onePage (by decide) (by decide))).mpr (.inr ⟨rfl, rfl⟩)

/-- One page on each side: the source keeps its head, and the page it lists is lost to the target. -/
theorem transfer_onto_page_not_transferred :
    Listed (onePage 4096) unlinked [4096] ∧ Listed (onePage 8192) unlinked [8192] ∧
      List.Disjoint [4096] [8192] ∧
      ¬ ∃ s' source' mem',
        transferLogicalPagesFrom (onePage 8192) (onePage 4096) unlinked = some (s', source', mem') ∧
          Transferred s' source' mem' [4096] [8192] := by
  refine ⟨listed_onePage (by decide) (by decide), listed_onePage (by decide) (by decide), by simp, ?_⟩
  rintro ⟨s', source', mem', he, ht⟩
  have hk := transferLoop_keeps_head (s := onePage 4096) (by decide) he
  rw [ht.source_head] at hk
  exact absurd hk (by decide)

end Segment
end Metamalloc.Segments
