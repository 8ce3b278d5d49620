import Metamalloc.Segments.LookupAgreement

/-! The next-fit search with a record of the pages it asks. -/
namespace Metamalloc.Segments
open Library.Word64 Library.ByteMemory Library.LinkedList Pages

/-- `searchPages`, with the pages that were asked in front of its result. -/
def askPages (T : SegmentType) (size stop : Nat) : (fuel iter : Nat) → Memory →
    Option (List Nat × Option (Nat × Nat) × Memory)
  | 0, _, _ => none
  | fuel+1, iter, mem =>
    if iter = stop then some ([], none, mem)
    else if iter = 0 then none
    else
      match T.page.allocate size (mem.page iter) with
      | none => none
      | some (ret, p) =>
        let mem := mem.setPage iter p
        if ret ≠ 0 then some ([iter], some (iter, ret), mem)
        else (askPages T size stop fuel (mem.getNext iter) mem).map fun r => (iter :: r.1, r.2)

/-- `searchListed`, with the pages that were asked in both of its loops. -/
def askListed (T : SegmentType) (size : Nat) (s : Segment) (mem : Memory) :
    Option (List Nat × Option (Nat × Nat) × Memory) :=
  match askPages T size 0 walkLimit (if s.lastUsed ≠ 0 then s.lastUsed else s.head) mem with
  | some (asked, none, mem) =>
    if s.lastUsed ≠ 0 then
      (askPages T size s.lastUsed walkLimit s.head mem).map fun r => (asked ++ r.1, r.2)
    else some (asked, none, mem)
  | result => result

/-- A well-formed page list, of pages that keep their own invariant. -/
structure Usable (T : SegmentType) (L : PageLaws T.page) (s : Segment) (mem : Memory) (l : List Nat) :
    Prop where
  listed : Listed s mem l
  page : ∀ a ∈ l, ∃ out, L.Inv (mem.page a) out
  maxObject : s.maxObjectSize + logicalPageHeaderSize < 2^64

/-- What the search does with a request: which pages it asks, and what `allocate_internal`
makes of its result. -/
structure NextFit (T : SegmentType) (arena : ArenaAnswers) (size : Nat) (s : Segment) (mem : Memory)
    (l asked : List Nat) (served : Option (Nat × Nat)) (mem' : Memory) : Prop where
  asks : askListed T size s mem = some (asked, served, mem')
  once : asked.Nodup
  listed : ∀ a ∈ asked, a ∈ l
  complete : (∃ page ret, served = some (page, ret)) ↔ ∃ a ∈ l, serves T size mem a = true
  /-- Only a request that every page has refused goes on to growth or to failure. -/
  refused : served = none → asked.Perm l ∧ mem' = mem ∧
    Segment.allocateInternal T arena size s mem =
      if T.concurrency = .threadLocal then some (0, s, mem) else Segment.growAndAllocate T arena size s mem
  taken : ∀ page ret, served = some (page, ret) → page ∈ l ∧ ret ≠ 0 ∧
    (∃ p, T.page.allocate size (mem.page page) = some (ret, p) ∧ mem' = mem.setPage page p) ∧
    Segment.allocateInternal T arena size s mem = some (ret, { s with lastUsed := page }, mem')

section
variable {T : SegmentType} {L : PageLaws T.page} {s : Segment} {mem mem' : Memory}
  {l pre post : List Nat} {a size fuel iter stop : Nat} {arena : ArenaAnswers}

theorem askPages_erase : (askPages T size stop fuel iter mem).map Prod.snd =
    Segment.searchPages T size stop fuel iter mem := by
  induction fuel generalizing iter mem with
  | zero => rfl
  | succ fuel ih =>
    rw [askPages, Segment.searchPages]
    split
    · rfl
    split
    · rfl
    rcases T.page.allocate size (mem.page iter) with _ | ⟨ret, p⟩
    · rfl
    dsimp only
    split
    · rfl
    · rw [← ih, Option.map_map]
      rfl

theorem askListed_erase : (askListed T size s mem).map Prod.snd = Segment.searchListed T size s mem := by
  unfold askListed Segment.searchListed
  rw [← askPages_erase]
  rcases askPages T size 0 walkLimit (if s.lastUsed ≠ 0 then s.lastUsed else s.head) mem with
    _ | ⟨asked, _ | served, mem₁⟩
  · rfl
  · dsimp only [Option.map_some]
    split
    · rw [← askPages_erase, Option.map_map]
      rfl
    · rfl
  · rfl

theorem Usable.size_lt (h : Usable T L s mem l) (hs : size ≤ s.maxObjectSize) : size + 32 < 2^64 := by
  have hmax := h.maxObject
  unfold logicalPageHeaderSize at hmax
  omega

theorem Usable.allocate (h : Usable T L s mem l) (hs : size ≤ s.maxObjectSize) (ha : a ∈ l) :
    ∃ ret p, T.page.allocate size (mem.page a) = some (ret, p) ∧
      (serves T size mem a = true ↔ ret ≠ 0) ∧ (ret = 0 → mem.setPage a p = mem) := by
  obtain ⟨out, hinv⟩ := h.page a ha
  obtain ⟨ret, p, he, hp⟩ := L.allocate_spec hinv (h.size_lt hs)
  refine ⟨ret, p, he, by simp [serves, he], fun h0 => ?_⟩
  rcases hp with ⟨_, rfl⟩ | ⟨hne, _⟩
  · exact mem.setPage_page a
  · exact absurd h0 hne

/-- After a page that refuses, the loop goes on as if the page had not been there. -/
theorem Usable.askPages_step (h : Usable T L s mem l) (hs : size ≤ s.maxObjectSize) (hc : iter ∈ l)
    (hne : iter ≠ stop) (hno : serves T size mem iter = false) :
    askPages T size stop (fuel + 1) iter mem =
      (askPages T size stop fuel (mem.getNext iter) mem).map fun r => (iter :: r.1, r.2) := by
  obtain ⟨ret, p, he, hserves, hkeeps⟩ := h.allocate hs hc
  have h0 : ret = 0 := by
    by_contra hret
    rw [hno] at hserves
    exact absurd (hserves.mpr hret) (by decide)
  rw [askPages, if_neg hne, if_neg (h.listed.ne_zero hc), he]
  dsimp only
  rw [if_neg (not_not.mpr h0), hkeeps h0]

theorem askPages_of_refused (h : Usable T L s mem l) (hs : size ≤ s.maxObjectSize)
    (hpath : Path mem.getNext iter post stop) (hsub : ∀ a ∈ post, a ∈ l) (hstop : stop ∉ post)
    (hfuel : post.length < fuel) (hno : ∀ a ∈ post, serves T size mem a = false) :
    askPages T size stop fuel iter mem = some (post, none, mem) := by
  induction post generalizing iter fuel with
  | nil =>
    obtain ⟨fuel, rfl⟩ := Nat.exists_eq_succ_of_ne_zero (by omega : fuel ≠ 0)
    rw [askPages, if_pos (path_nil.mp hpath)]
  | cons c post ih =>
    obtain ⟨fuel, rfl⟩ := Nat.exists_eq_succ_of_ne_zero (by omega : fuel ≠ 0)
    obtain ⟨rfl, hpath⟩ := hpath
    have hc : iter ∈ l := hsub iter List.mem_cons_self
    have hne : iter ≠ stop := fun e => hstop (e ▸ List.mem_cons_self)
    rw [List.length_cons] at hfuel
    rw [h.askPages_step hs hc hne (hno iter List.mem_cons_self), ih hpath
      (fun a ha => hsub a (List.mem_cons_of_mem _ ha)) (fun hm => hstop (List.mem_cons_of_mem _ hm)) (by omega)
      fun a ha => hno a (List.mem_cons_of_mem _ ha)]
    rfl

theorem askPages_of_served (h : Usable T L s mem l) (hs : size ≤ s.maxObjectSize)
    (hpath : Path mem.getNext iter (pre ++ a :: post) stop) (hsub : ∀ c ∈ pre ++ a :: post, c ∈ l)
    (hstop : stop ∉ pre ++ a :: post) (hfuel : pre.length < fuel)
    (hno : ∀ c ∈ pre, serves T size mem c = false) (hyes : serves T size mem a = true) :
    ∃ ret p, T.page.allocate size (mem.page a) = some (ret, p) ∧ ret ≠ 0 ∧
      askPages T size stop fuel iter mem = some (pre ++ [a], some (a, ret), mem.setPage a p) := by
  induction pre generalizing iter fuel with
  | nil =>
    obtain ⟨fuel, rfl⟩ := Nat.exists_eq_succ_of_ne_zero (by omega : fuel ≠ 0)
    obtain ⟨rfl, hpath⟩ := hpath
    have hc : iter ∈ l := hsub iter List.mem_cons_self
    have hne : iter ≠ stop := fun e => hstop (e ▸ List.mem_cons_self)
    obtain ⟨ret, p, he, hserves, _⟩ := h.allocate hs hc
    refine ⟨ret, p, he, hserves.mp hyes, ?_⟩
    rw [askPages, if_neg hne, if_neg (h.listed.ne_zero hc), he]
    dsimp only
    rw [if_pos (hserves.mp hyes)]
    rfl
  | cons c pre ih =>
    obtain ⟨fuel, rfl⟩ := Nat.exists_eq_succ_of_ne_zero (by omega : fuel ≠ 0)
    obtain ⟨rfl, hpath⟩ := hpath
    have hc : iter ∈ l := hsub iter List.mem_cons_self
    have hne : iter ≠ stop := fun e => hstop (e ▸ List.mem_cons_self)
    rw [List.length_cons] at hfuel
    obtain ⟨ret', p', he', hne', hask⟩ := ih hpath (fun a ha => hsub a (List.mem_cons_of_mem _ ha))
      (fun hm => hstop (List.mem_cons_of_mem _ hm)) (by omega : pre.length < fuel)
      fun a ha => hno a (List.mem_cons_of_mem _ ha)
    refine ⟨ret', p', he', hne', ?_⟩
    rw [h.askPages_step hs hc hne (hno iter List.mem_cons_self), hask]
    rfl

theorem Usable.length_lt (h : Usable T L s mem l) : l.length < walkLimit := by
  unfold walkLimit
  exact h.listed.length_lt

theorem askListed_of_refused (h : Usable T L s mem l) (hs : size ≤ s.maxObjectSize)
    (hno : ∀ a ∈ l, serves T size mem a = false) :
    askListed T size s mem = some (searchOrder s l, none, mem) := by
  have hlen := h.length_lt
  unfold askListed
  by_cases hu : s.lastUsed = 0
  · rw [if_neg (not_not.mpr hu), searchOrder, if_pos hu, askPages_of_refused h hs h.listed.paths.1
      (fun _ ha => ha) h.listed.ring.sentinel_not_mem hlen hno]
    dsimp only
    rw [if_neg (not_not.mpr hu)]
  · obtain ⟨pre, post, hl, horder, hupre, hpre, hpost⟩ := h.listed.searchOrder_split hu
    have hsub : ∀ a, a ∈ pre ∨ a ∈ s.lastUsed :: post → a ∈ l := by
      intro a ha
      rw [hl]
      exact List.mem_append.mpr ha
    have h0 : 0 ∉ s.lastUsed :: post := fun hm => h.listed.ne_zero (hsub 0 (.inr hm)) rfl
    rw [hl, List.length_append] at hlen
    rw [if_pos hu, horder, askPages_of_refused h hs hpost (fun a ha => hsub a (.inr ha)) h0 (by omega)
      fun a ha => hno a (hsub a (.inr ha))]
    dsimp only
    rw [if_pos hu, askPages_of_refused h hs hpre (fun a ha => hsub a (.inl ha)) hupre (by omega)
      fun a ha => hno a (hsub a (.inl ha))]
    rfl

/-- The pages of a list are asked in turn, up to the first one that can serve. -/
theorem serves_split {post : List Nat} (h : ∃ a ∈ post, serves T size mem a = true) :
    ∃ before a after, post = before ++ a :: after ∧ (∀ c ∈ before, serves T size mem c = false) ∧
      serves T size mem a = true := by
  obtain ⟨a, hfind⟩ := Option.isSome_iff_exists.mp (List.find?_isSome.mpr h)
  obtain ⟨hyes, before, after, hpost, hbefore⟩ := List.find?_eq_some_iff_append.mp hfind
  exact ⟨before, a, after, hpost, fun c hc => by simpa using hbefore c hc, hyes⟩

theorem not_serves {post : List Nat} (h : ¬ ∃ a ∈ post, serves T size mem a = true) :
    ∀ a ∈ post, serves T size mem a = false := by
  intro a ha
  by_contra hserves
  exact h ⟨a, ha, by simpa using hserves⟩

/-- One loop over pages of which at least one can serve. -/
theorem askPages_of_exists (h : Usable T L s mem l) (hs : size ≤ s.maxObjectSize)
    (hpath : Path mem.getNext iter post stop) (hsub : ∀ c ∈ post, c ∈ l) (hstop : stop ∉ post)
    (hfuel : post.length < fuel) (hyes : ∃ a ∈ post, serves T size mem a = true) :
    ∃ before a after ret p, post = before ++ a :: after ∧
      T.page.allocate size (mem.page a) = some (ret, p) ∧ ret ≠ 0 ∧
      askPages T size stop fuel iter mem = some (before ++ [a], some (a, ret), mem.setPage a p) := by
  obtain ⟨before, a, after, rfl, hbefore, ha⟩ := serves_split hyes
  rw [List.length_append] at hfuel
  obtain ⟨ret, p, he, hne, hask⟩ := askPages_of_served h hs hpath hsub hstop
    (by omega : before.length < fuel) hbefore ha
  exact ⟨before, a, after, ret, p, rfl, he, hne, hask⟩

theorem askListed_of_served (h : Usable T L s mem l) (hs : size ≤ s.maxObjectSize)
    (hyes : ∃ a ∈ l, serves T size mem a = true) :
    ∃ before a after ret p, searchOrder s l = before ++ a :: after ∧
      T.page.allocate size (mem.page a) = some (ret, p) ∧ ret ≠ 0 ∧
      askListed T size s mem = some (before ++ [a], some (a, ret), mem.setPage a p) := by
  have hlen := h.length_lt
  unfold askListed
  by_cases hu : s.lastUsed = 0
  · obtain ⟨before, a, after, ret, p, hl, he, hne, hask⟩ := askPages_of_exists h hs h.listed.paths.1
      (fun _ ha => ha) h.listed.ring.sentinel_not_mem hlen hyes
    refine ⟨before, a, after, ret, p, ?_, he, hne, ?_⟩
    · rw [searchOrder, if_pos hu, hl]
    · rw [if_neg (not_not.mpr hu), hask]
  · obtain ⟨pre, post, hl, horder, hupre, hpre, hpost⟩ := h.listed.searchOrder_split hu
    have hsub : ∀ c, c ∈ pre ∨ c ∈ s.lastUsed :: post → c ∈ l := by
      intro c hc
      rw [hl]
      exact List.mem_append.mpr hc
    have h0 : 0 ∉ s.lastUsed :: post := fun hm => h.listed.ne_zero (hsub 0 (.inr hm)) rfl
    rw [hl, List.length_append] at hlen
    rw [if_pos hu]
    by_cases hfirst : ∃ a ∈ s.lastUsed :: post, serves T size mem a = true
    · obtain ⟨before, a, after, ret, p, hsplit, he, hne, hask⟩ := askPages_of_exists h hs hpost
        (fun c hc => hsub c (.inr hc)) h0 (by omega : _ < walkLimit) hfirst
      refine ⟨before, a, after ++ pre, ret, p, ?_, he, hne, ?_⟩
      · rw [horder, hsplit, List.append_assoc, List.cons_append]
      · rw [hask]
    · -- the pages from the cursor on refuse, so the one that serves lies before it
      have hsecond : ∃ a ∈ pre, serves T size mem a = true := by
        obtain ⟨a, hal, ha⟩ := hyes
        rw [hl] at hal
        exact ⟨a, (List.mem_append.mp hal).resolve_right fun hm => hfirst ⟨a, hm, ha⟩, ha⟩
      obtain ⟨before, a, after, ret, p, rfl, he, hne, hask⟩ := askPages_of_exists h hs hpre
        (fun c hc => hsub c (.inl hc)) hupre (by omega : _ < walkLimit) hsecond
      refine ⟨(s.lastUsed :: post) ++ before, a, after, ret, p, ?_, he, hne, ?_⟩
      · rw [horder, List.append_assoc]
      · rw [askPages_of_refused h hs hpost (fun c hc => hsub c (.inr hc)) h0 (by omega) (not_serves hfirst)]
        dsimp only
        rw [if_pos hu, hask, List.append_assoc]
        rfl

/-- The search is complete, asks no page twice and leaves the cursor on the page that served. -/
theorem Usable.nextFit (h : Usable T L s mem l) (arena : ArenaAnswers) (hs : size ≤ s.maxObjectSize) :
    ∃ asked served mem', NextFit T arena size s mem l asked served mem' := by
  have hperm := h.listed.searchOrder_perm
  have hnodup := hperm.nodup_iff.mpr h.listed.ring.nodup_list
  have hguard : ¬ s.maxObjectSize < size := by omega
  by_cases hyes : ∃ a ∈ l, serves T size mem a = true
  · obtain ⟨before, a, after, ret, p, horder, he, hne, hask⟩ := askListed_of_served h hs hyes
    have hsearch := @askListed_erase T s mem size
    rw [hask] at hsearch
    rw [horder] at hperm hnodup
    have hasked : before ++ a :: after = (before ++ [a]) ++ after := by simp
    rw [hasked] at hperm hnodup
    have hlisted : ∀ c ∈ before ++ [a], c ∈ l := fun c hc =>
      hperm.mem_iff.mp (List.mem_append_left _ hc)
    refine ⟨before ++ [a], some (a, ret), _, hask, (List.nodup_append.mp hnodup).1, hlisted,
      ⟨fun _ => hyes, fun _ => ⟨a, ret, rfl⟩⟩, fun hnone => (by cases hnone), fun page ret' heq => ?_⟩
    cases heq
    refine ⟨hlisted a (by simp), hne, ⟨p, he, rfl⟩, ?_⟩
    rw [Segment.allocateInternal, if_neg hguard, ← hsearch]
    rfl
  · have hask := askListed_of_refused h hs (not_serves hyes)
    have hsearch := @askListed_erase T s mem size
    rw [hask] at hsearch
    refine ⟨searchOrder s l, none, mem, hask, hnodup, fun c hc => hperm.mem_iff.mp hc,
      ⟨fun hserved => ?_, fun hserves => absurd hserves hyes⟩, fun _ => ⟨hperm, rfl, ?_⟩,
      fun page ret heq => by cases heq⟩
    · obtain ⟨page, ret, heq⟩ := hserved
      cases heq
    · rw [Segment.allocateInternal, if_neg hguard, ← hsearch]
      rfl

theorem SegmentInv.usable {owned : Nat → List Allocation} (h : SegmentInv T L s mem l owned) :
    Usable T L s mem l := by
  have hmax := h.geometry.maxObject
  have hword := h.geometry.word
  exact ⟨h.listed, fun a ha => ⟨_, h.page a ha⟩, by omega⟩

end

/-- Every run keeps its segment usable, and in a usable segment the next-fit search offers an
admitted request to every page before anything else is tried. -/
theorem allocateInternal_nextFit (concurrency : ConcurrencyPolicy) (kind : PageKind)
    (recycling : PageRecyclingPolicy) (aligned : Bool) :
    (∀ sys, HonestRun ⟨concurrency, kind.pageType, recycling, aligned⟩ kind.laws
        (KeepsPages ⟨concurrency, kind.pageType, recycling, aligned⟩) sys →
      ∃ l, Usable ⟨concurrency, kind.pageType, recycling, aligned⟩ kind.laws sys.segment sys.memory l) ∧
    ∀ (s : Segment) (mem : Memory) (l : List Nat) (arena : ArenaAnswers) (size : Nat),
      Usable ⟨concurrency, kind.pageType, recycling, aligned⟩ kind.laws s mem l → size ≤ s.maxObjectSize →
      ∃ asked served mem',
        NextFit ⟨concurrency, kind.pageType, recycling, aligned⟩ arena size s mem l asked served mem' := by
  refine ⟨fun sys h => ?_, fun s mem l arena size h hs => h.nextFit arena hs⟩
  obtain ⟨g, hg⟩ := (h.reachable fun _ _ hc => hc.growsInFull).keepsPages
  exact ⟨g.pages, hg.segment.usable⟩

/-- Five chunks of three pages are taken. Two of them come back, one to the caller of a further
request and one to the second page, and the last request fills the page of the cursor. -/
def freedBehindCursor : List Action :=
  (List.replicate 5 (request 2016)).flatten ++ giveBack ⟨12352, 2016⟩ ++ giveBack ⟨8256, 2016⟩ ++
    [.drain (.allocate 2016), .pop, .pop, .deallocatePopped, .pop, .finish refusingArena] ++ request 2016

/-- The search starts at the last page, goes on from the first one and is served by the second. -/
theorem allocateInternal_nextFit_of_three :
    ∃ sys l, HonestRun ⟨.threadLocal, LogicalPage.pageType, .immediate, false⟩ LogicalPage.laws
        (KeepsPages ⟨.threadLocal, LogicalPage.pageType, .immediate, false⟩) sys ∧
      (sys.segment.head = 8192 ∧ sys.segment.lastUsed = 16384 ∧ 2016 ≤ sys.segment.maxObjectSize) ∧
      Usable ⟨.threadLocal, LogicalPage.pageType, .immediate, false⟩ LogicalPage.laws sys.segment sys.memory l ∧
      ∃ asked served mem',
        NextFit ⟨.threadLocal, LogicalPage.pageType, .immediate, false⟩ refusingArena 2016 sys.segment sys.memory l
          asked served mem' ∧
        asked = [16384, 8192, 12288] ∧ served = some (12288, 12352) := by
  have hstate : (afterSteps ⟨.threadLocal, LogicalPage.pageType, .immediate, false⟩ LogicalPage.laws threePages
      (fun _ _ => true) freedBehindCursor).map (fun sys =>
        (sys.segment.head, sys.segment.lastUsed, sys.segment.maxObjectSize)) = some (8192, 16384, 4032) := by
    decide +kernel
  have hasks : (afterSteps ⟨.threadLocal, LogicalPage.pageType, .immediate, false⟩ LogicalPage.laws threePages
      (fun _ _ => true) freedBehindCursor).map (fun sys =>
        (askListed ⟨.threadLocal, LogicalPage.pageType, .immediate, false⟩ 2016 sys.segment sys.memory).map
          fun r => (r.1, r.2.1)) = some (some ([16384, 8192, 12288], some (12288, 12352))) := by
    decide +kernel
  obtain ⟨sys, hsys, h, hstate⟩ := exists_afterSteps rfl (by decide) (by decide)
    (by simp [freedBehindCursor, request, giveBack, Action.Refused, List.replicate]) hstate
  rw [hsys] at hasks
  simp only [Option.map_some, Option.some.injEq, Prod.mk.injEq] at hstate hasks
  obtain ⟨hhead, hcursor, hmax⟩ := hstate
  have hsize : 2016 ≤ sys.segment.maxObjectSize := by omega
  have hrun : HonestRun ⟨.threadLocal, LogicalPage.pageType, .immediate, false⟩ LogicalPage.laws
      (KeepsPages ⟨.threadLocal, LogicalPage.pageType, .immediate, false⟩) sys :=
    h.honestRun_local rfl fun _ _ hc => hc.keepsPages
  obtain ⟨husable, hfit⟩ := allocateInternal_nextFit .threadLocal .logicalPage .immediate false
  obtain ⟨l, hl⟩ := husable sys hrun
  obtain ⟨asked, served, mem', hnext⟩ := hfit sys.segment sys.memory l refusingArena 2016 hl hsize
  have hasked : some (asked, served) = some ([16384, 8192, 12288], some (12288, 12352)) := by
    rw [← hasks]
    exact (congrArg (Option.map fun r => (r.1, r.2.1)) hnext.asks).symm
  cases hasked
  exact ⟨sys, l, hrun, ⟨hhead, hcursor, hsize⟩, hl, _, _, mem', hnext, rfl, rfl⟩

end Metamalloc.Segments
