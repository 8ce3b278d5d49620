import Metamalloc.Segments.RecyclableFlag
import Metamalloc.Segments.SegmentCalls

/-! Segments that share one memory: whatever a call does to one of them, the others keep
their invariant as long as no two of them own the same address. -/
namespace Metamalloc.Segments
open Library.Word64 Library.ByteMemory Library.LinkedList Pages

/-- The buffer for so many pages is aligned and avoids the given addresses. -/
structure FreshFor (alignment : Nat) (avoid : Nat → Prop) (b length : Nat) : Prop where
  ne_zero : b ≠ 0
  aligned : alignment ∣ b
  inside : b + length < 2^64
  apart : ∀ c, avoid c → c < b ∨ b + length ≤ c

/-- What the arena answers a segment that wants to serve a request. -/
structure ArenaServes (T : SegmentType) (s : Segment) (arena : ArenaAnswers) (size alignment : Nat)
    (avoid : Nat → Prop) : Prop where
  fresh : ∀ n m, Segment.calculateQuantities T size s = some (n, m) →
    arena.request (mul64 s.logicalPageSize n) ≠ 0 →
    FreshFor alignment avoid (arena.request (mul64 s.logicalPageSize n)) (n * s.logicalPageSize)
  refused : ∀ n m, Segment.calculateQuantities T size s = some (n, m) → m < n →
    arena.request (mul64 s.logicalPageSize n) = 0 →
    arena.retry (mul64 s.logicalPageSize m) = 0

section
variable {T : SegmentType} {L : PageLaws T.page} {s : Segment} {mem mem' : Memory} {l : List Nat}
  {owned : Nat → List Allocation} {live : List Allocation} {g : Ghost} {arena : ArenaAnswers}
  {size alignment n b c P : Nat} {avoid R : Nat → Prop}

theorem region_newPages (h : region P (newPages P b n) c) : b ≤ c ∧ c < b + n * P := by
  obtain ⟨a, ha, hlo, hhi⟩ := h
  obtain ⟨i, hi, rfl⟩ := List.mem_map.mp ha
  rw [List.mem_range] at hi
  have hle : (i + 1) * P ≤ n * P := Nat.mul_le_mul_right P hi
  rw [Nat.succ_mul] at hle
  omega

theorem FreshFor.mono {avoid' : Nat → Prop} (h : FreshFor alignment avoid b n) (hsub : ∀ c, avoid' c → avoid c) :
    FreshFor alignment avoid' b n :=
  ⟨h.ne_zero, h.aligned, h.inside, fun c hc => h.apart c (hsub c hc)⟩

/-- A buffer that avoids the pages of a segment is fresh for it. -/
theorem FreshFor.freshBuffer (h : FreshFor alignment avoid b (n * s.logicalPageSize)) (hn : 1 ≤ n)
    (hl : ∀ c, region s.logicalPageSize l c → avoid c) (hpos : 0 < s.logicalPageSize)
    (hdvd : T.bufferAlignedToLogicalPageSize = true → s.logicalPageSize ∣ alignment) :
    FreshBuffer T s.toSegmentConfig l b n := by
  refine ⟨h.ne_zero, h.inside, fun a ha => ?_, fun hal => (hdvd hal).trans h.aligned⟩
  have hle : s.logicalPageSize ≤ n * s.logicalPageSize := Nat.le_mul_of_pos_left _ hn
  -- The higher of the two starts would lie in both.
  have hmax := h.apart (max a b)
  by_contra hmeet
  have hin : region s.logicalPageSize l (max a b) := ⟨a, ha, by omega, by omega⟩
  have := hmax (hl _ hin)
  omega

theorem ArenaServes.promise (h : ArenaServes T s arena size alignment avoid)
    (hl : ∀ c, region s.logicalPageSize l c → avoid c) (hpos : 0 < s.logicalPageSize)
    (hdvd : T.bufferAlignedToLogicalPageSize = true → s.logicalPageSize ∣ alignment) :
    ArenaPromise T s l arena size := by
  refine ⟨fun n m hq h0 => ?_, h.refused⟩
  obtain ⟨hm, hmn⟩ := calculateQuantities_bounds hq
  exact (h.fresh n m hq h0).freshBuffer (hm.trans hmn) hl hpos hdvd

theorem ArenaServes.granted (h : ArenaServes T s arena size alignment avoid)
    (hb : Granted T arena size s n b) : FreshFor alignment avoid b (n * s.logicalPageSize) := by
  obtain ⟨_, m, hq, _, rfl, h0⟩ := hb
  exact h.fresh n m hq h0

theorem SystemInv.of_within (h : SystemInv T L (atRest s mem live) g) (hw : Within mem mem' R)
    (hR : ∀ c, region s.logicalPageSize g.pages c → ¬ R c) :
    SystemInv T L (atRest s mem' live) g :=
  ⟨h.segment.of_within hw hR, h.queue, h.hand, h.kept, h.shared⟩

theorem SystemInv.spares_of_within (h : SystemInv T L (atRest s mem live) g) (hw : Within mem mem' R)
    (hR : ∀ c, region s.logicalPageSize g.pages c → ¬ R c) : Spares mem mem' live := by
  refine h.spares_live fun c y hy b hb => hw.bytes b (hR b ⟨c, h.segment.mem_of_owned hy, ?_⟩)
  have hin := h.segment.owned_inside hy
  simp only [Allocation.Holds] at hb
  exact ⟨by omega, lt_of_lt_of_le hb.2 hin.2.2⟩

end

section
variable {ι : Type} [DecidableEq ι] (T : ι → SegmentType) (L : (i : ι) → PageLaws (T i).page)

/-- The segments that exist keep their invariant, and no address belongs to two of them. -/
structure FamilyInv (created : ι → Prop) (seg : ι → Segment) (mem : Memory)
    (live : ι → List Allocation) (g : ι → Ghost) : Prop where
  system : ∀ i, created i → SystemInv (T i) (L i) (atRest (seg i) mem (live i)) (g i)
  apart : ∀ i j, created i → created j → i ≠ j → ∀ c,
    region (seg i).logicalPageSize (g i).pages c → ¬ region (seg j).logicalPageSize (g j).pages c

def Mapped (created : ι → Prop) (seg : ι → Segment) (g : ι → Ghost) (c : Nat) : Prop :=
  ∃ i, created i ∧ region (seg i).logicalPageSize (g i).pages c

variable {T L} {created : ι → Prop} {seg : ι → Segment} {mem mem' : Memory}
  {live : ι → List Allocation} {g : ι → Ghost} {i : ι} {s' : Segment} {live' : List Allocation}
  {g' : Ghost} {new : List Nat}

/-- One segment changes within a set of addresses that no other one owns. -/
theorem FamilyInv.replace {created' : ι → Prop} {R : Nat → Prop} (h : FamilyInv T L created seg mem live g)
    (hcreated : ∀ j, created' j → j ≠ i → created j)
    (hs : SystemInv (T i) (L i) (atRest s' mem' live') g') (hw : Within mem mem' R)
    (hother : ∀ j, created j → j ≠ i → ∀ c, region (seg j).logicalPageSize (g j).pages c → ¬ R c)
    (hpages : ∀ c, region s'.logicalPageSize g'.pages c → R c) :
    FamilyInv T L created' (Function.update seg i s') mem' (Function.update live i live')
      (Function.update g i g') := by
  refine ⟨fun j hj => ?_, fun j k hj hk hjk c hcj hck => ?_⟩
  · by_cases hji : j = i
    · subst hji
      simpa only [Function.update_self] using hs
    · simp only [Function.update_of_ne hji]
      exact (h.system j (hcreated j hj hji)).of_within hw (hother j (hcreated j hj hji) hji)
  · by_cases hji : j = i
    · subst hji
      rw [Function.update_self, Function.update_self] at hcj
      rw [Function.update_of_ne (Ne.symm hjk), Function.update_of_ne (Ne.symm hjk)] at hck
      exact hother k (hcreated k hk (Ne.symm hjk)) (Ne.symm hjk) c hck (hpages c hcj)
    · rw [Function.update_of_ne hji, Function.update_of_ne hji] at hcj
      by_cases hki : k = i
      · subst hki
        rw [Function.update_self, Function.update_self] at hck
        exact hother j (hcreated j hj hji) hji c hcj (hpages c hck)
      · rw [Function.update_of_ne hki, Function.update_of_ne hki] at hck
        exact h.apart j k (hcreated j hj hji) (hcreated k hk hki) hjk c hcj hck

/-- A call on one segment concerns no other one. -/
theorem FamilyInv.update (h : FamilyInv T L created seg mem live g) (hi : created i)
    (hs : SystemInv (T i) (L i) (atRest s' mem' live') g')
    (ht : Touches (seg i) mem (g i).pages new s' mem' g'.pages)
    (hnew : ∀ c, region (seg i).logicalPageSize new c → ¬ Mapped created seg g c) :
    FamilyInv T L created (Function.update seg i s') mem' (Function.update live i live')
      (Function.update g i g') := by
  refine h.replace (fun _ hj _ => hj) hs ht.within ?_ fun c hc => ?_
  · rintro j hj hne c hc ⟨a, ha, hac⟩
    rcases List.mem_append.mp ha with ha | ha
    · exact h.apart i j hi hj (Ne.symm hne) c ⟨a, ha, hac⟩ hc
    · exact hnew c ⟨a, ha, hac⟩ ⟨j, hj, hc⟩
  · rw [congrArg SegmentConfig.logicalPageSize ht.config] at hc
    exact region_mono ht.pages c hc

theorem FamilyInv.spares (h : FamilyInv T L created seg mem live g) (hi : created i)
    (ht : Touches (seg i) mem (g i).pages new s' mem' g'.pages)
    (hnew : ∀ c, region (seg i).logicalPageSize new c → ¬ Mapped created seg g c) (hs : Spares mem mem' live')
    {j : ι} (hj : created j) : Spares mem mem' (Function.update live i live' j) := by
  by_cases hji : j = i
  · subst hji
    rwa [Function.update_self]
  · rw [Function.update_of_ne hji]
    refine (h.system j hj).spares_of_within ht.within ?_
    rintro c hc ⟨a, ha, hac⟩
    rcases List.mem_append.mp ha with ha | ha
    · exact h.apart i j hi hj (Ne.symm hji) c ⟨a, ha, hac⟩ hc
    · exact hnew c ⟨a, ha, hac⟩ ⟨j, hj, hc⟩

/-- A call that lists no new pages. -/
theorem FamilyInv.update_listed (h : FamilyInv T L created seg mem live g) (hi : created i)
    (hs : SystemInv (T i) (L i) (atRest s' mem' live') g')
    (ht : Touches (seg i) mem (g i).pages [] s' mem' g'.pages) :
    FamilyInv T L created (Function.update seg i s') mem' (Function.update live i live')
      (Function.update g i g') := by
  refine h.update hi hs ht ?_
  rintro c ⟨a, ha, _⟩
  cases ha

theorem FamilyInv.add (h : FamilyInv T L created seg mem live g)
    (hs : SystemInv (T i) (L i) (atRest s' mem' live') g')
    (hw : Within mem mem' (region s'.logicalPageSize g'.pages))
    (hfresh : ∀ c, region s'.logicalPageSize g'.pages c → ¬ Mapped created seg g c) :
    FamilyInv T L (fun j => created j ∨ j = i) (Function.update seg i s') mem'
      (Function.update live i live') (Function.update g i g') :=
  h.replace (fun _ hj hne => hj.resolve_right hne) hs hw
    (fun j hj _ c hc hcs => hfresh c hcs ⟨j, hj, hc⟩) fun _ hc => hc

omit [DecidableEq ι] in
theorem FamilyInv.extend {fresh : ι → Prop} {R : Nat → Prop} {segs : ι → Segment}
    {lives : ι → List Allocation} {gs : ι → Ghost} (h : FamilyInv T L created seg mem live g)
    (hw : Within mem mem' R) (hR : ∀ c, Mapped created seg g c → ¬ R c)
    (hnew : FamilyInv T L fresh segs mem' lives gs)
    (hin : ∀ i, fresh i → ∀ c, region (segs i).logicalPageSize (gs i).pages c → R c)
    (hold : ∀ i, created i → segs i = seg i ∧ lives i = live i ∧ gs i = g i) :
    FamilyInv T L (fun i => created i ∨ fresh i) segs mem' lives gs := by
  have hout : ∀ i, created i → ∀ c, region (segs i).logicalPageSize (gs i).pages c → ¬ R c := by
    intro i hi c hc
    obtain ⟨hseg, _, hg⟩ := hold i hi
    rw [hseg, hg] at hc
    exact hR c ⟨i, hi, hc⟩
  refine ⟨fun i hi => ?_, fun i j hi hj hij c hci hcj => ?_⟩
  · rcases hi with hi | hi
    · obtain ⟨hseg, hlive, hg⟩ := hold i hi
      rw [hseg, hlive, hg]
      exact (h.system i hi).of_within hw fun c hc => hR c ⟨i, hi, hc⟩
    · exact hnew.system i hi
  · rcases hi with hi | hi <;> rcases hj with hj | hj
    · obtain ⟨hseg, _, hg⟩ := hold i hi
      obtain ⟨hseg', _, hg'⟩ := hold j hj
      rw [hseg, hg] at hci
      rw [hseg', hg'] at hcj
      exact h.apart i j hi hj hij c hci hcj
    · exact hout i hi c hci (hin j hj c hcj)
    · exact hout j hj c hcj (hin i hi c hci)
    · exact hnew.apart i j hi hj hij c hci hcj

omit [DecidableEq ι] in
theorem FamilyInv.mono {created' : ι → Prop} (h : FamilyInv T L created seg mem live g)
    (hc : ∀ i, created' i → created i) : FamilyInv T L created' seg mem live g :=
  ⟨fun i hi => h.system i (hc i hi), fun i j hi hj => h.apart i j (hc i hi) (hc j hj)⟩

omit [DecidableEq ι] in
theorem FamilyInv.comap {κ : Type} {f : κ → ι} (hf : Function.Injective f)
    (h : FamilyInv T L created seg mem live g) :
    FamilyInv (fun k => T (f k)) (fun k => L (f k)) (fun k => created (f k)) (fun k => seg (f k)) mem
      (fun k => live (f k)) fun k => g (f k) :=
  ⟨fun k hk => h.system (f k) hk, fun j k hj hk hjk => h.apart (f j) (f k) hj hk fun he => hjk (hf he)⟩

section
variable {β : Type} (place : β → ι) (allocation : β → Allocation)

def liveAt (live : List β) (i : ι) : List Allocation :=
  (live.filter fun x => place x = i).map allocation

variable {place allocation} {held held' : List β} {x : β}

theorem mem_liveAt (hx : x ∈ held) : allocation x ∈ liveAt place allocation held (place x) :=
  List.mem_map_of_mem (List.mem_filter.mpr ⟨hx, by simp⟩)

theorem liveAt_cons (x : β) (held : List β) : liveAt place allocation (x :: held) =
    Function.update (liveAt place allocation held) (place x)
      (allocation x :: liveAt place allocation held (place x)) := by
  funext i
  by_cases h : i = place x
  · subst h
    simp [liveAt]
  · simp [liveAt, Function.update_of_ne h, Ne.symm h]

theorem liveAt_granted {T : SegmentType} {L : PageLaws T.page} {sizeClass size ret : Nat}
    (hx : ret ≠ 0 → allocation x = ⟨ret, L.granted sizeClass size⟩) :
    Function.update (liveAt place allocation held) (place x)
      (System.grant T L sizeClass size ret (liveAt place allocation held (place x))) =
    liveAt place allocation (if ret = 0 then held else x :: held) := by
  by_cases hret : ret = 0
  · rw [System.grant, if_pos hret, if_pos hret, Function.update_eq_self]
  · rw [System.grant, if_neg hret, if_neg hret, liveAt_cons, hx hret]

theorem liveAt_perm (h : held.Perm held') (i : ι) :
    (liveAt place allocation held i).Perm (liveAt place allocation held' i) := (h.filter _).map _

theorem liveAt_perm_cons [DecidableEq β] (hx : x ∈ held) : (liveAt place allocation held (place x)).Perm
    (allocation x :: liveAt place allocation (held.erase x) (place x)) := by
  have hp : (liveAt place allocation held (place x)).Perm
      (liveAt place allocation (x :: held.erase x) (place x)) :=
    liveAt_perm (List.perm_cons_erase hx) _
  rwa [liveAt_cons, Function.update_self] at hp

theorem liveAt_erase [DecidableEq β] (hx : x ∈ held) (i : ι) :
    (Function.update (liveAt place allocation held) (place x)
      ((liveAt place allocation held (place x)).erase (allocation x)) i).Perm
      (liveAt place allocation (held.erase x) i) := by
  by_cases h : i = place x
  · subst h
    rw [Function.update_self]
    exact List.Perm.cons_inv ((List.perm_cons_erase (mem_liveAt hx)).symm.trans (liveAt_perm_cons hx))
  · have hp : (liveAt place allocation held i).Perm (liveAt place allocation (x :: held.erase x) i) :=
      liveAt_perm (List.perm_cons_erase hx) i
    rw [liveAt_cons, Function.update_of_ne h] at hp
    rwa [Function.update_of_ne h]

end

variable {x : Allocation} {size alignment : Nat} {arena : ArenaAnswers} {avoid : Nat → Prop}

theorem FamilyInv.allocate_direct (h : FamilyInv T L created seg mem live g) (hi : created i)
    (hdirect : (T i).concurrency ≠ .threadLocal) (hsize : (T i).page.supportsAnySize = true → size ≠ 0)
    (harena : ArenaServes (T i) (seg i) arena size alignment avoid)
    (havoid : ∀ c, Mapped created seg g c → avoid c) (hgranularity : 4096 ∣ alignment)
    (hdvd : (T i).bufferAlignedToLogicalPageSize = true → (seg i).logicalPageSize ∣ alignment) :
    ∃ ret s' mem' g', Segment.allocate (T i) arena size (seg i) mem = some (ret, s', mem') ∧
      FamilyInv T L created (Function.update seg i s') mem'
        (Function.update live i (System.grant (T i) (L i) (seg i).sizeClass size ret (live i)))
        (Function.update g i g') ∧
      s'.toSegmentConfig = (seg i).toSegmentConfig ∧
      AllocateOutcome (T i) (L i) arena size (seg i) mem (g i).pages (g i).owned ret s' mem' g'.pages
        g'.owned ∧
      ∀ j, created j → Spares mem mem' (live j) := by
  have hsystem := h.system i hi
  have hsegment : SegmentInv (T i) (L i) (seg i) mem (g i).pages (g i).owned := hsystem.segment
  have hpromise := harena.promise (fun c hc => havoid c ⟨i, hi, hc⟩) hsegment.pageSize_pos hdvd
  obtain ⟨ret, s', mem', g', he, hinv, ho⟩ := Segments.allocate_direct hdirect hsystem hsize hpromise
  have haligned : ∀ n b, Granted (T i) arena size (seg i) n b → b % 4096 = 0 := fun n b hb =>
    Nat.mod_eq_zero_of_dvd (hgranularity.trans (harena.granted hb).aligned)
  obtain ⟨new, ht, hnew⟩ := ho.touches haligned hsegment
  have hfresh : ∀ c, region (seg i).logicalPageSize new c → ¬ Mapped created seg g c := by
    intro c hc hmapped
    rcases hnew with rfl | ⟨n, b, hb, rfl⟩
    · obtain ⟨a, ha, _⟩ := hc
      cases ha
    · have hin := region_newPages hc
      have hout := (harena.granted hb).apart c (havoid c hmapped)
      omega
  refine ⟨ret, s', mem', g', he, h.update hi hinv ht hfresh, ht.config, ho, fun j hj => ?_⟩
  have hspares := h.spares hi ht hfresh (hsystem.spares_live ho.spares) hj
  simp only [atRest, Function.update_eq_self] at hspares
  exact hspares

theorem FamilyInv.deallocate_direct {a ptr : Nat} (h : FamilyInv T L created seg mem live g) (hi : created i)
    (hdirect : (T i).concurrency ≠ .threadLocal) (hx : x ∈ live i) (hxa : x ∈ (g i).owned a)
    (hfrees : Frees (L i) (seg i) mem a x ptr) :
    ∃ s' mem' g' rest, Segment.deallocate (T i) ptr (seg i) mem = some (s', mem') ∧
      Segment.deallocateOnPage (T i) a ptr (seg i) mem = some (s', mem') ∧
      FamilyInv T L created (Function.update seg i s') mem'
        (Function.update live i ((live i).erase x)) (Function.update g i g') ∧
      Touches (seg i) mem (g i).pages [] s' mem' g'.pages ∧ ((g i).owned a).Perm (x :: rest) ∧
      g'.owned = Function.update (g i).owned a rest ∧ Spares mem mem' ((live i).erase x) := by
  obtain ⟨s', mem', g', rest, he, hpage, hinv, hp, howned, hf⟩ :=
    Segments.deallocate_direct hdirect (h.system i hi) hx hxa hfrees
  exact ⟨s', mem', g', rest, he, hpage, h.update_listed hi hinv hf.touches, hf.touches, hp, howned,
    hinv.spares_live fun c => howned ▸ hf.payload c⟩

theorem FamilyInv.allocate_local (h : FamilyInv T L created seg mem live g) (hi : created i)
    (hlocal : (T i).concurrency = .threadLocal) (hsize : (T i).page.supportsAnySize = true → size ≠ 0) :
    ∃ ret s' mem' g', Segment.allocate (T i) arena size (seg i) mem = some (ret, s', mem') ∧
      FamilyInv T L created (Function.update seg i s') mem'
        (Function.update live i (System.grant (T i) (L i) (seg i).sizeClass size ret (live i)))
        (Function.update g i g') ∧
      Touches (seg i) mem (g i).pages [] s' mem' g'.pages ∧ Spares mem mem' (live i) := by
  obtain ⟨ret, s', mem', g', he, hinv, ht, hspares⟩ := Segments.allocate_local hlocal (h.system i hi) hsize
  exact ⟨ret, s', mem', g', he, h.update_listed hi hinv ht, ht, hspares⟩

theorem FamilyInv.deallocate_local (h : FamilyInv T L created seg mem live g) (hi : created i)
    (hlocal : (T i).concurrency = .threadLocal) (hx : x ∈ live i) :
    ∃ g', Segment.deallocate (T i) x.ptr (seg i) mem =
        some (Segment.pushDeallocationQueue x.ptr (seg i), mem) ∧
      FamilyInv T L created (Function.update seg i (Segment.pushDeallocationQueue x.ptr (seg i))) mem
        (Function.update live i ((live i).erase x)) (Function.update g i g') ∧
      g'.pages = (g i).pages := by
  obtain ⟨s', g', he, rfl, hinv, hpages⟩ := Segments.deallocate_local hlocal (h.system i hi) hx
  have ht : Touches (seg i) mem (g i).pages [] (Segment.pushDeallocationQueue x.ptr (seg i)) mem g'.pages :=
    ⟨rfl, .refl _ _, fun a ha => List.mem_append_left _ (hpages ▸ ha)⟩
  exact ⟨g', he, h.update_listed hi hinv ht, hpages⟩

/-- One segment has given its empty pages back to the system. -/
theorem FamilyInv.recycled {s' : Segment} {mem' : Memory} {l' released : List Nat}
    (h : FamilyInv T L created seg mem live g) (hi : created i)
    (hr : Recycled (T i) (L i) (seg i) mem (g i).pages (g i).owned released s' mem' l') :
    FamilyInv T L created (Function.update seg i s') mem' live
      (Function.update g i { g i with pages := l' }) := by
  have ht : Touches (seg i) mem (g i).pages [] s' mem' l' := by
    refine ⟨hr.config, ?_, fun a ha => ?_⟩
    · rw [List.append_nil]
      exact hr.within
    · rw [List.append_nil]
      exact hr.pages.symm.subset (List.mem_append_left _ ha)
  have hsystem : SystemInv (T i) (L i) (atRest s' mem' (live i)) { g i with pages := l' } :=
    ((h.system i hi).recycled hr).1
  have hfamily := h.update_listed hi hsystem ht
  rwa [Function.update_eq_self] at hfamily

omit [DecidableEq ι] in
theorem FamilyInv.write (h : FamilyInv T L created seg mem live g) (hi : created i) (hx : x ∈ live i)
    {bytes : Mem} (hb : ∀ y, ¬ x.Holds y → bytes y = mem.bytes y) :
    FamilyInv T L created seg { mem with bytes := bytes } live g := by
  obtain ⟨a, ha, hxa⟩ := (h.system i hi).owner (x := x) (by
    have : 0 < (atRest (seg i) mem (live i)).live.count x := List.count_pos_iff.mpr hx
    omega)
  have hsegment : SegmentInv (T i) (L i) (seg i) mem (g i).pages (g i).owned := (h.system i hi).segment
  refine ⟨fun j hj => ?_, h.apart⟩
  by_cases hji : j = i
  · subst hji
    obtain ⟨_, hq, hh, hk, hshared⟩ := h.system j hj
    exact ⟨hsegment.write hxa hb, hq, hh, hk, hshared⟩
  · have hw : Within mem { mem with bytes := bytes } x.Holds := ⟨fun _ _ => rfl, hb⟩
    refine (h.system j hj).of_within hw fun c hc hholds => ?_
    have hin := hsegment.owned_inside hxa
    simp only [Allocation.Holds] at hholds
    exact h.apart i j hi hj (Ne.symm hji) c ⟨a, ha, by omega, by omega⟩ hc

omit [DecidableEq ι] in
theorem FamilyInv.store (h : FamilyInv T L created seg mem live g) (hi : created i) (hx : x ∈ live i)
    {address : Nat} (hb : x.Holds address) (value : UInt8) :
    FamilyInv T L created seg { mem with bytes := Function.update mem.bytes address value } live g := by
  refine h.write hi hx fun y hy => Function.update_of_ne ?_ _ _
  rintro rfl
  exact hy hb

omit [DecidableEq ι] in
theorem FamilyInv.perm {live' : ι → List Allocation} (h : FamilyInv T L created seg mem live g)
    (hp : ∀ i, (live i).Perm (live' i)) : FamilyInv T L created seg mem live' g := by
  refine ⟨fun i hi => ?_, h.apart⟩
  obtain ⟨hs, hq, hh, hk, hshared⟩ := h.system i hi
  refine ⟨hs, hq, hh, hk, fun y => ?_⟩
  have hy := hshared y
  simp only [atRest, (hp i).count_eq y] at hy ⊢
  exact hy

end
end Metamalloc.Segments
