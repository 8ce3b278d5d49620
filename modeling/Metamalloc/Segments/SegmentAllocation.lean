import Metamalloc.Segments.SegmentDeallocation

/-! The next-fit search of a segment over its listed pages. -/
namespace Metamalloc.Segments
open Library.Word64 Library.ByteMemory Library.LinkedList Pages

def serves (T : SegmentType) (size : Nat) (mem : Memory) (a : Nat) : Bool :=
  match T.page.allocate size (mem.page a) with
  | some (ret, _) => ret != 0
  | none => false

/-- The order in which a search asks the listed pages. -/
def searchOrder (s : Segment) (l : List Nat) : List Nat :=
  if s.lastUsed = 0 then l
  else l.dropWhile (· != s.lastUsed) ++ l.takeWhile (· != s.lastUsed)

/-- A listed page has given out a pointer. -/
structure Served (T : SegmentType) (L : PageLaws T.page) (s : Segment) (mem : Memory) (l : List Nat)
    (owned : Nat → List Allocation) (size a ret : Nat) (mem' : Memory) : Prop where
  ne_zero : ret ≠ 0
  page : a ∈ l
  inv : SegmentInv T L { s with lastUsed := a } mem' l
    (Function.update owned a (⟨ret, L.granted s.sizeClass size⟩ :: owned a))
  within : Within mem mem' (region s.logicalPageSize l)
  payload : ∀ c, Spares mem mem' (owned c)
  created : mem'.created = mem.created
  released : mem'.released = mem.released
  flags : ∀ b, (mem'.pages b).canBeRecycled = (mem.pages b).canBeRecycled

theorem Memory.setPage_page (mem : Memory) (a : Nat) : mem.setPage a (mem.page a) = mem := by
  simp [Memory.setPage, Memory.page]

section
variable {T : SegmentType} {L : PageLaws T.page} {s s' : Segment} {mem mem' : Memory}
  {l post : List Nat} {owned : Nat → List Allocation} {a b n size fuel iter stop : Nat} {p : Page}

theorem SegmentInv.setLastUsed (h : SegmentInv T L s mem l owned) (ha : a ∈ l) :
    SegmentInv T L { s with lastUsed := a } mem l owned :=
  ⟨h.listed.congr rfl rfl rfl (.inr ha) fun _ _ => ⟨rfl, rfl⟩, h.geometry, h.inside, h.aligned, h.apart,
    h.frame, h.page, h.outside⟩

theorem SegmentInv.allocateOn (h : SegmentInv T L s mem l owned) (ha : a ∈ l)
    (hs : size + 32 < 2^64) :
    ∃ ret p, T.page.allocate size (mem.page a) = some (ret, p) ∧
      (ret = 0 ∧ mem.setPage a p = mem ∧ serves T size mem a = false ∨
        serves T size mem a = true ∧ Served T L s mem l owned size a ret (mem.setPage a p)) := by
  obtain ⟨ret, p, he, hp⟩ := L.allocate_spec (h.page a ha) hs
  refine ⟨ret, p, he, ?_⟩
  rcases hp with ⟨rfl, rfl⟩ | ⟨hne, hinv, hc⟩
  · exact .inl ⟨rfl, mem.setPage_page a, by simp [serves, he]⟩
  · rw [show (mem.page a).header.sizeClass = s.sizeClass from (h.frame a ha).2.2] at hinv
    refine .inr ⟨by simp [serves, he, hne], hne, ha, (h.setPage ha hc hinv).setLastUsed ha,
      h.within_setPage ha hc, fun c => ?_, rfl, rfl, fun b => LogicalPageHeader.canBeRecycled_congr ?_⟩
    · have hspares := h.spares_setPage ha hc c
      rwa [Function.update_eq_self] at hspares
    by_cases hba : b = a
    · subst hba
      rw [Memory.pages_setPage_self]
      exact hc.frame.flags
    · rw [Memory.pages_setPage_of_ne _ _ hba]

theorem searchPages_spec (h : SegmentInv T L s mem l owned) (hs : size + 32 < 2^64)
    (hpath : Path mem.getNext iter post stop) (hsub : ∀ a ∈ post, a ∈ l) (hstop : stop ∉ post)
    (hfuel : post.length < fuel) :
    (post.find? (serves T size mem) = none ∧
        Segment.searchPages T size stop fuel iter mem = some (none, mem)) ∨
      ∃ a ret mem', post.find? (serves T size mem) = some a ∧
        Segment.searchPages T size stop fuel iter mem = some (some (a, ret), mem') ∧
        Served T L s mem l owned size a ret mem' := by
  induction post generalizing iter fuel with
  | nil =>
    obtain ⟨fuel, rfl⟩ := Nat.exists_eq_succ_of_ne_zero (by omega : fuel ≠ 0)
    exact .inl ⟨rfl, by rw [Segment.searchPages, if_pos (path_nil.mp hpath)]⟩
  | cons c post ih =>
    obtain ⟨fuel, rfl⟩ := Nat.exists_eq_succ_of_ne_zero (by omega : fuel ≠ 0)
    obtain ⟨rfl, hpath⟩ := hpath
    have hc : iter ∈ l := hsub iter List.mem_cons_self
    have hstop' : iter ≠ stop := fun e => hstop (e ▸ List.mem_cons_self)
    obtain ⟨ret, p, he, hp⟩ := h.allocateOn hc hs
    rw [Segment.searchPages, if_neg hstop', if_neg (h.listed.ne_zero hc), he]
    dsimp only
    rcases hp with ⟨rfl, hmem, hno⟩ | ⟨hyes, hserved⟩
    · rw [hmem, if_neg (not_not.mpr rfl), List.find?_cons_of_neg (by simp [hno])]
      rw [List.length_cons] at hfuel
      exact ih hpath (fun a ha => hsub a (List.mem_cons_of_mem _ ha))
        (fun hm => hstop (List.mem_cons_of_mem _ hm)) (by omega)
    · rw [if_pos hserved.ne_zero, List.find?_cons_of_pos hyes]
      exact .inr ⟨iter, ret, _, rfl, rfl, hserved⟩

private theorem dropWhile_ne {pre : List Nat} (ha : a ∉ pre) :
    (pre ++ a :: post).dropWhile (· != a) = a :: post ∧
      (pre ++ a :: post).takeWhile (· != a) = pre := by
  induction pre with
  | nil => simp
  | cons c pre ih =>
    have hca : c ≠ a := fun e => ha (e ▸ List.mem_cons_self)
    obtain ⟨hd, ht⟩ := ih fun hm => ha (List.mem_cons_of_mem _ hm)
    simp [hca, hd, ht]

theorem Listed.searchOrder_split (h : Listed s mem l) (hu : s.lastUsed ≠ 0) :
    ∃ pre post, l = pre ++ s.lastUsed :: post ∧ searchOrder s l = (s.lastUsed :: post) ++ pre ∧
      s.lastUsed ∉ pre ∧ Path mem.getNext s.head pre s.lastUsed ∧
      Path mem.getNext s.lastUsed (s.lastUsed :: post) 0 := by
  have hul : s.lastUsed ∈ l := h.lastUsed.resolve_left hu
  obtain ⟨pre, post, hl⟩ := List.append_of_mem hul
  have hnd := h.ring.nodup_list
  have hpath := h.paths.1
  rw [hl] at hnd
  have hupre : s.lastUsed ∉ pre := fun hm =>
    (List.nodup_append.mp hnd).2.2 _ hm _ List.mem_cons_self rfl
  obtain ⟨hdrop, htake⟩ := @dropWhile_ne post s.lastUsed pre hupre
  rw [hl, path_append] at hpath
  obtain ⟨c, hpre, hpost⟩ := hpath
  obtain rfl : c = s.lastUsed := hpost.1
  refine ⟨pre, post, hl, ?_, hupre, hpre, hpost⟩
  rw [searchOrder, if_neg hu, hl, hdrop, htake]

theorem Listed.searchOrder_perm (h : Listed s mem l) : (searchOrder s l).Perm l := by
  by_cases hu : s.lastUsed = 0
  · rw [searchOrder, if_pos hu]
  · obtain ⟨pre, post, hl, horder, _⟩ := h.searchOrder_split hu
    rw [horder]
    exact List.perm_append_comm.trans (by rw [← hl])

/-- The search serves from the first page in its order that can serve. -/
theorem searchListed_spec (h : SegmentInv T L s mem l owned) (hs : size + 32 < 2^64) :
    ((searchOrder s l).find? (serves T size mem) = none ∧
        Segment.searchListed T size s mem = some (none, mem)) ∨
      ∃ a ret mem', (searchOrder s l).find? (serves T size mem) = some a ∧
        Segment.searchListed T size s mem = some (some (a, ret), mem') ∧
        Served T L s mem l owned size a ret mem' := by
  have hlen := h.length_lt_walkLimit
  unfold Segment.searchListed
  by_cases hu : s.lastUsed = 0
  · rw [if_neg (not_not.mpr hu), searchOrder, if_pos hu]
    rcases searchPages_spec h hs h.listed.paths.1 (fun _ ha => ha) h.listed.ring.sentinel_not_mem hlen with
      ⟨hf, he⟩ | ⟨a, ret, mem', hf, he, hserved⟩
    · exact .inl ⟨hf, by rw [he]; simp [hu]⟩
    · exact .inr ⟨a, ret, mem', hf, by rw [he], hserved⟩
  · obtain ⟨pre, post, hl, horder, hupre, hpre, hpost⟩ := h.listed.searchOrder_split hu
    have hsub : ∀ a, a ∈ pre ∨ a ∈ s.lastUsed :: post → a ∈ l := by
      intro a ha
      rw [hl]
      exact List.mem_append.mpr ha
    have h0 : 0 ∉ s.lastUsed :: post := fun hm => h.listed.ne_zero (hsub 0 (.inr hm)) rfl
    rw [hl, List.length_append] at hlen
    have hlenPre : pre.length < walkLimit := by omega
    have hlenPost : (s.lastUsed :: post).length < walkLimit := by omega
    rw [if_pos hu, horder, List.find?_append]
    rcases searchPages_spec h hs hpost (fun a ha => hsub a (.inr ha)) h0 hlenPost with
      ⟨hf, he⟩ | ⟨a, ret, mem', hf, he, hserved⟩
    · rw [he, hf, Option.none_or]
      dsimp only
      rw [if_pos hu]
      exact searchPages_spec h hs hpre (fun a ha => hsub a (.inl ha)) hupre hlenPre
    · rw [he, hf, Option.some_or]
      exact .inr ⟨a, ret, mem', rfl, rfl, hserved⟩

end
end Metamalloc.Segments
