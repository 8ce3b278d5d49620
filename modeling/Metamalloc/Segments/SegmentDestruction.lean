import Metamalloc.Segments.OversizedRequests
import Metamalloc.Segments.SegmentFamily

/-! What the destruction of segments gives back to the system: every listed page that nobody uses,
and no page in use. A segment with a queue drains it first. -/
namespace Metamalloc.Segments
open Library.Word64 Library.ByteMemory Library.LinkedList Pages

section
variable {T : SegmentType} {s s' : Segment} {mem mem' : Memory} {arena : ArenaAnswers} {size ptr ret : Nat}

theorem createNewLogicalPage_queue {buffer page : Nat} {ok : Bool}
    (h : Segment.createNewLogicalPage T buffer page s mem = (ok, s', mem')) :
    s'.deallocationQueue = s.deallocationQueue := by
  unfold Segment.createNewLogicalPage at h
  split at h <;> cases h <;> rfl

theorem growRest_queue {buffer previousPage : Nat} {pages : List Nat} {last : Option Nat}
    (h : Segment.growRest T buffer pages previousPage s mem = (last, s', mem')) :
    s'.deallocationQueue = s.deallocationQueue := by
  induction pages generalizing previousPage s mem with
  | nil =>
    cases h
    rfl
  | cons i rest ih =>
    rw [Segment.growRest] at h
    split at h
    · rename_i s₁ mem₁ hnew
      cases h
      exact createNewLogicalPage_queue hnew
    · rename_i s₁ mem₁ hnew
      exact (ih h).trans (createNewLogicalPage_queue hnew)

theorem grow_queue {buffer count first : Nat} (h : Segment.grow T buffer count s mem = some (first, s', mem')) :
    s'.deallocationQueue = s.deallocationQueue := by
  unfold Segment.grow at h
  dsimp only at h
  split at h
  · rename_i s₁ mem₁ hnew
    cases h
    exact createNewLogicalPage_queue hnew
  · rename_i s₁ mem₁ hnew
    have h₁ := createNewLogicalPage_queue hnew
    split at h
    · cases h
    · by_cases hhead : s₁.head = 0
      · simp only [if_pos hhead] at h
        split at h <;> rename_i hrest <;> cases h <;> exact (growRest_queue hrest).trans h₁
      · simp only [if_neg hhead] at h
        split at h <;> rename_i hrest <;> cases h <;> exact (growRest_queue hrest).trans h₁

theorem allocateInternal_queue (h : Segment.allocateInternal T arena size s mem = some (ret, s', mem')) :
    s'.deallocationQueue = s.deallocationQueue := by
  unfold Segment.allocateInternal at h
  split at h
  · cases h
    rfl
  split at h
  · cases h
  · cases h
    rfl
  split at h
  · cases h
    rfl
  unfold Segment.growAndAllocate at h
  split at h
  · cases h
  dsimp only at h
  split at h
  · cases h
    rfl
  split at h
  · cases h
  · rename_i hgrow
    have hqueue := grow_queue hgrow
    split at h
    · cases h
      exact hqueue
    split at h
    · cases h
    · cases h
      split <;> exact hqueue

theorem segmentCreate_queue {buffer : Nat} {queueMemory ok : Bool} {params : SegmentCreationParameters}
    (h : Segment.create T buffer queueMemory params s mem = some (ok, s', mem')) :
    s'.deallocationQueue = s.deallocationQueue := by
  unfold Segment.create at h
  split at h
  · cases h
    rfl
  split at h
  · cases h
    rfl
  dsimp only at h
  split at h
  · cases h
  · rename_i hgrow
    have hqueue := grow_queue hgrow
    split at h
    · cases h
      exact hqueue
    split at h <;> cases h <;> exact hqueue

end

/-- Nobody holds anything on the page. -/
def isUnused (pageSize : Nat) (live : List Allocation) (page : Nat) : Bool :=
  live.all fun x => !onPage pageSize page x.ptr

/-- The pages nobody uses are released, and only listed pages were written to. -/
structure ReleasesUnused (s : Segment) (mem : Memory) (l : List Nat) (live : List Allocation)
    (mem' : Memory) : Prop where
  within : Within mem mem' (region s.logicalPageSize l)
  spares : Spares mem mem' live
  log : ∃ released : List Nat, mem'.released = released.map (fun a => (a, s.logicalPageSize)) ++ mem.released ∧
    released.Perm (l.filter (isUnused s.logicalPageSize live))

section
variable {T : SegmentType} {L : PageLaws T.page} {s s' : Segment} {mem mem' : Memory} {l l' released : List Nat}
  {live : List Allocation} {g g' : Ghost} {a pageSize : Nat}

theorem isUnused_iff : isUnused pageSize live a = true ↔ ∀ x ∈ live, onPage pageSize a x.ptr = false := by
  simp [isUnused]

/-- A page without anything in use is one that has given nothing out, once the queue is empty. -/
theorem SystemInv.isUnused_eq (h : SystemInv T L (atRest s mem live) g) (hq : s.deallocationQueue = [])
    (ha : a ∈ g.pages) : isUnused s.logicalPageSize live a = decide ((mem.pages a).usedSize = 0) := by
  have hout : (atRest s mem live).pointersOut = live.map Allocation.ptr := by
    simp [System.pointersOut, atRest, hq, Control.pointers]
  have hused : (mem.pages a).usedSize = 0 ↔ g.owned a = [] := h.segment.used_eq_zero ha
  rw [Bool.eq_iff_iff, isUnused_iff, decide_eq_true_iff, hused]
  constructor
  · intro hunused
    by_contra hne
    obtain ⟨p, hp, hon⟩ := h.exists_onPage ha hne
    rw [hout] at hp
    obtain ⟨x, hx, rfl⟩ := List.mem_map.mp hp
    exact Bool.false_ne_true ((hunused x hx).symm.trans hon)
  · intro hempty x hx
    have hp : x.ptr ∈ (atRest s mem live).pointersOut := hout ▸ List.mem_map_of_mem hx
    exact h.not_onPage ha hempty hp

/-- The sweep of a segment whose queue is empty. -/
theorem SystemInv.releasePages_unused (h : SystemInv T L (atRest s mem live) g)
    (hq : s.deallocationQueue = []) :
    ∃ released : List Nat, released.Perm (g.pages.filter (isUnused s.logicalPageSize live)) ∧
      Segment.releasePages s mem = some ({ s with head := 0, tail := 0 },
        { mem with released := released.map (fun a => (a, s.logicalPageSize)) ++ mem.released }) := by
  refine ⟨_, ?_, h.releasePages⟩
  refine (List.reverse_perm _).trans (List.Perm.of_eq (List.filter_congr fun a ha => ?_))
  exact (h.isUnused_eq hq ha).symm

/-- Nobody uses a page that a drain has taken off the list: what is in use lies on the pages left. -/
theorem SystemInv.unused_of_released (h : SystemInv T L (atRest s mem live) g)
    (h' : SystemInv T L (atRest s' mem' live) g') (hsize : s'.logicalPageSize = s.logicalPageSize)
    (hpages : g.pages.Perm (g'.pages ++ released)) (ha : a ∈ released) :
    isUnused s.logicalPageSize live a = true := by
  refine isUnused_iff.mpr fun x hx => Bool.eq_false_iff.mpr fun hon => ?_
  obtain ⟨b, hb, hxb⟩ := h'.owner (x := x) (by
    have : 0 < (atRest s' mem' live).live.count x := List.count_pos_iff.mpr hx
    omega)
  have hin := h'.segment.owned_inside hxb
  simp only [atRest, hsize] at hin
  have hne : a ≠ b := by
    rintro rfl
    have hnodup := hpages.nodup_iff.mp h.segment.listed.ring.nodup_list
    exact (List.nodup_append.mp hnodup).2.2 a hb a ha rfl
  have hapart := h.segment.apart_of_ne (hpages.symm.subset (List.mem_append_right _ ha))
    (hpages.symm.subset (List.mem_append_left _ hb)) hne
  simp only [onPage, Bool.and_eq_true, decide_eq_true_iff] at hon
  simp only [PagesApart, atRest] at hapart
  omega

/-- A segment releases what its drain empties, and then what nobody uses. -/
theorem SystemInv.destroy (h : SystemInv T L (atRest s mem live) g)
    (hq : T.concurrency ≠ .threadLocal → s.deallocationQueue = []) :
    ∃ s' mem', Segment.destroy T s mem = some (s', mem') ∧ ReleasesUnused s mem g.pages live mem' := by
  by_cases hlocal : T.concurrency = .threadLocal
  · have hdrain : SystemInv T L { atRest s mem live with control := .draining .destroy 0 } g :=
      ⟨h.segment, h.queue, h.hand, fun h0 => absurd rfl h0, h.shared⟩
    have hreturn : false = true ↔ Goal.destroy ≠ .destroy ∧ T.page.supportsAnySize = false := by simp
    obtain ⟨ret, s₁, mem₁, g₁, he, hinv, hkept, hd, hspares⟩ :=
      processQueueLoop_spec hdrain rfl hreturn (Nat.lt_succ_self _)
    obtain rfl := hkept rfl
    have h₁ : SystemInv T L (atRest s₁ mem₁ live) g₁ :=
      ⟨hinv.segment, hinv.queue, hinv.hand, fun h0 => absurd rfl h0, hinv.shared⟩
    obtain ⟨released₁, hlog₁, hpages⟩ := hd.releases
    have hsize : s₁.logicalPageSize = s.logicalPageSize := congrArg SegmentConfig.logicalPageSize hd.config
    obtain ⟨released₂, hperm, he₂⟩ := h₁.releasePages_unused hd.queue
    rw [hsize] at hperm he₂
    have hdestroy : Segment.destroy T s mem = Segment.releasePages s₁ mem₁ := by
      have hprocess : Segment.processDeallocationQueue T false s mem = some (0, s₁, mem₁) := he
      rw [Segment.destroy, if_pos hlocal, hprocess]
    refine ⟨_, _, hdestroy.trans he₂, ?_, hspares, released₂ ++ released₁, ?_, ?_⟩
    · have hwithin := hd.within
      rw [List.append_nil] at hwithin
      exact ⟨hwithin.pages, hwithin.bytes⟩
    · rw [List.map_append, List.append_assoc]
      exact congrArg _ hlog₁
    · -- what the drain released is unused as well
      have hall : released₁.filter (isUnused s.logicalPageSize live) = released₁ :=
        List.filter_eq_self.mpr fun a ha => h.unused_of_released h₁ hsize hpages ha
      have hfilter := hpages.filter (isUnused s.logicalPageSize live)
      rw [List.filter_append, hall] at hfilter
      exact (hperm.append_right _).trans hfilter.symm
  · obtain ⟨released, hperm, he⟩ := h.releasePages_unused (hq hlocal)
    have hdestroy : Segment.destroy T s mem = Segment.releasePages s mem := by
      rw [Segment.destroy, if_neg hlocal]
    exact ⟨_, _, hdestroy.trans he, ⟨fun _ _ => rfl, fun _ _ => rfl⟩, .of_bytes rfl _, released, rfl, hperm⟩

end

section
variable {ι : Type} {T : ι → SegmentType} {L : (i : ι) → PageLaws (T i).page} {created : ι → Prop}
  {seg seg' : ι → Segment} {mem mem' : Memory} {live : ι → List Allocation} {g : ι → Ghost} {i : ι}

def unusedAt (seg : ι → Segment) (live : ι → List Allocation) (g : ι → Ghost) (i : ι) : List (Nat × Nat) :=
  ((g i).pages.filter (isUnused (seg i).logicalPageSize (live i))).map fun a => (a, (seg i).logicalPageSize)

/-- The given members are gone and have released their unused pages; the others are as they were. -/
structure MembersDestroyed (T : ι → SegmentType) (L : (i : ι) → PageLaws (T i).page) (created : ι → Prop)
    (seg : ι → Segment) (mem : Memory) (live : ι → List Allocation) (g : ι → Ghost) (members : List ι)
    (seg' : ι → Segment) (mem' : Memory) : Prop where
  family : FamilyInv T L (fun j => created j ∧ j ∉ members) seg' mem' live g
  others : ∀ j ∉ members, seg' j = seg j
  within : Within mem mem' fun c => ∃ j ∈ members, region (seg j).logicalPageSize (g j).pages c
  spares : ∀ j, created j → Spares mem mem' (live j)
  log : ∃ released, mem'.released = released ++ mem.released ∧
    released.Perm (members.flatMap (unusedAt seg live g))

theorem FamilyInv.destroyed_nil (h : FamilyInv T L created seg mem live g) :
    MembersDestroyed T L created seg mem live g [] seg mem :=
  ⟨h.mono fun _ hj => hj.1, fun _ _ => rfl, .refl _ _, fun _ _ => .of_bytes rfl _, [], rfl, .refl _⟩

theorem FamilyInv.region_of_holds {x : Allocation} {b : Nat} (h : FamilyInv T L created seg mem live g)
    (hi : created i) (hx : x ∈ live i) (hb : x.Holds b) : region (seg i).logicalPageSize (g i).pages b := by
  obtain ⟨a, ha, hxa⟩ := (h.system i hi).owner (x := x) (by
    have : 0 < (atRest (seg i) mem (live i)).live.count x := List.count_pos_iff.mpr hx
    omega)
  have hin := (h.system i hi).segment.owned_inside hxa
  simp only [atRest] at hin
  exact ⟨a, ha, by have := hb.1; omega, by have := hb.2; omega⟩

theorem FamilyInv.destroyed_one (h : FamilyInv T L created seg mem live g) (hi : created i)
    (hr : ReleasesUnused (seg i) mem (g i).pages (live i) mem') (hseg : ∀ j, j ≠ i → seg' j = seg j) :
    MembersDestroyed T L created seg mem live g [i] seg' mem' := by
  have hout : ∀ j, created j → j ≠ i → ∀ c, region (seg j).logicalPageSize (g j).pages c →
      ¬ region (seg i).logicalPageSize (g i).pages c :=
    fun j hj hne => h.apart j i hj hi hne
  refine ⟨⟨fun j hj => ?_, fun j k hj hk hjk => ?_⟩, fun j hj => hseg j (by simpa using hj), ?_, fun j hj => ?_, ?_⟩
  · have hne : j ≠ i := by simpa using hj.2
    rw [hseg j hne]
    exact (h.system j hj.1).of_within hr.within (hout j hj.1 hne)
  · rw [hseg j (by simpa using hj.2), hseg k (by simpa using hk.2)]
    exact h.apart j k hj.1 hk.1 hjk
  · exact hr.within.mono fun c hc => ⟨i, List.mem_singleton_self i, hc⟩
  · by_cases hji : j = i
    · exact hji ▸ hr.spares
    · exact (h.system j hj).spares_of_within hr.within (hout j hj hji)
  · obtain ⟨released, hlog, hperm⟩ := hr.log
    refine ⟨_, hlog, ?_⟩
    rw [List.flatMap_singleton]
    exact hperm.map _

theorem MembersDestroyed.trans {members members' : List ι} {seg'' : ι → Segment} {mem'' : Memory}
    (h₀ : FamilyInv T L created seg mem live g)
    (h : MembersDestroyed T L created seg mem live g members seg' mem')
    (h' : MembersDestroyed T L (fun j => created j ∧ j ∉ members) seg' mem' live g members' seg'' mem'')
    (hnew : ∀ j ∈ members', created j ∧ j ∉ members) :
    MembersDestroyed T L created seg mem live g (members ++ members') seg'' mem'' := by
  have hseg : ∀ j ∈ members', seg' j = seg j := fun j hj => h.others j (hnew j hj).2
  refine ⟨h'.family.mono fun j hj => ?_, fun j hj => ?_, ?_, fun j hj => (h.spares j hj).trans ?_, ?_⟩
  · rw [List.mem_append, not_or] at hj
    exact ⟨⟨hj.1, hj.2.1⟩, hj.2.2⟩
  · rw [List.mem_append, not_or] at hj
    exact (h'.others j hj.2).trans (h.others j hj.1)
  · refine (h.within.mono fun c ⟨j, hj, hc⟩ => ⟨j, List.mem_append_left _ hj, hc⟩).trans
      (h'.within.mono fun c ⟨j, hj, hc⟩ => ⟨j, List.mem_append_right _ hj, ?_⟩)
    rwa [hseg j hj] at hc
  · by_cases hmem : j ∈ members
    · intro x hx b hb
      refine h'.within.bytes b ?_
      rintro ⟨k, hk, hc⟩
      rw [hseg k hk] at hc
      exact h₀.apart j k hj (hnew k hk).1 (fun e => (hnew k hk).2 (e ▸ hmem)) b (h₀.region_of_holds hj hx hb) hc
    · exact h'.spares j ⟨hj, hmem⟩
  · obtain ⟨released, hlog, hperm⟩ := h.log
    obtain ⟨released', hlog', hperm'⟩ := h'.log
    have hsame : members'.flatMap (unusedAt seg' live g) = members'.flatMap (unusedAt seg live g) :=
      List.flatMap_congr fun j hj => by rw [unusedAt, unusedAt, hseg j hj]
    refine ⟨released' ++ released, by rw [hlog', hlog, List.append_assoc], ?_⟩
    rw [List.flatMap_append]
    exact List.perm_append_comm.trans (hperm.append (hsame ▸ hperm'))

end
end Metamalloc.Segments
