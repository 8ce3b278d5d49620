import Metamalloc.Segments.AdmittedSizes

/-! The page counts of a growth. An any-size segment takes the request itself as the object size,
a segment of one size class its size class. The count of the objects never exceeds what one page
holds, so the quotient of the two is at most one, whatever a `double` makes of it. -/
namespace Metamalloc.Segments
open Library.Word64 Pages

def growthObjectSize (T : SegmentType) (size : Nat) (s : Segment) : Nat :=
  if T.page.supportsAnySize then size else s.sizeClass

def growthObjectCount (T : SegmentType) (size : Nat) (s : Segment) : Nat :=
  if T.page.supportsAnySize then 1 else size / s.sizeClass

/-- No division by zero, enough pages, and no fewer than the minimum are desired. -/
def GrowthDefined (T : SegmentType) (size : Nat) (s : Segment) : Prop :=
  ∃ desired minimum, Segment.calculateQuantities T size s = some (desired, minimum) ∧ 1 ≤ minimum ∧
    growthObjectCount T size s ≤
      minimum * ((s.logicalPageSize - T.page.objectSize) / growthObjectSize T size s) ∧
    minimum ≤ desired

section
variable {T : SegmentType} {s s' : Segment} {mem mem' : Memory} {size n m : Nat}

/-- The quotient is rounded up. -/
theorem getRequiredPageCountForAllocation_enough {pageSize headerSize objectSize objectCount : Nat}
    (h : Segment.getRequiredPageCountForAllocation pageSize headerSize objectSize objectCount = some m) :
    objectCount ≤ m * ((pageSize - headerSize) / objectSize) := by
  unfold Segment.getRequiredPageCountForAllocation at h
  split at h
  · cases h
  dsimp only at h
  split at h
  · cases h
  rename_i hper
  cases h
  generalize (pageSize - headerSize) / objectSize = perPage at hper
  have hdiv := Nat.div_add_mod' (objectCount + perPage - 1) perPage
  have hmod := Nat.mod_lt (objectCount + perPage - 1) (Nat.pos_of_ne_zero hper)
  split
  · rename_i h0
    rw [h0] at hdiv
    omega
  · omega

theorem calculateQuantities_enough (h : Segment.calculateQuantities T size s = some (n, m)) :
    growthObjectCount T size s ≤
      m * ((s.logicalPageSize - T.page.objectSize) / growthObjectSize T size s) := by
  unfold Segment.calculateQuantities at h
  obtain ⟨k, hk, he⟩ := Option.map_eq_some_iff.mp h
  have hkm : k = m := by
    split at he
    · exact (Prod.mk.inj he).2
    · exact (Prod.mk.inj he).2
  subst hkm
  unfold growthObjectCount growthObjectSize
  split at hk
  · rename_i hany
    rw [if_pos hany, if_pos hany]
    exact getRequiredPageCountForAllocation_enough hk
  · rename_i hany
    rw [if_neg hany, if_neg hany]
    split at hk
    · cases hk
    · exact getRequiredPageCountForAllocation_enough hk

/-- Without a size class to divide by, an any-size segment divides by the size. -/
theorem calculateQuantities_of_zero (hany : T.page.supportsAnySize = true) :
    Segment.calculateQuantities T 0 s = none := by
  rw [Segment.calculateQuantities, if_pos hany, Segment.getRequiredPageCountForAllocation, if_pos rfl]
  rfl

theorem createNewLogicalPage_config {buffer page : Nat} {success : Bool}
    (h : Segment.createNewLogicalPage T buffer page s mem = (success, s', mem')) :
    s'.toSegmentConfig = s.toSegmentConfig := by
  unfold Segment.createNewLogicalPage at h
  split at h
  · cases h
    rfl
  · cases h
    rfl

theorem growRest_config {buffer previousPage : Nat} {is : List Nat} {last : Option Nat}
    (h : Segment.growRest T buffer is previousPage s mem = (last, s', mem')) :
    s'.toSegmentConfig = s.toSegmentConfig := by
  induction is generalizing previousPage s mem with
  | nil =>
    cases h
    rfl
  | cons i is ih =>
    rw [Segment.growRest] at h
    rcases hnew : Segment.createNewLogicalPage T buffer
      (add64 buffer (mul64 i s.logicalPageSize)) s mem with ⟨success, s₁, mem₁⟩
    rw [hnew] at h
    have hconfig := createNewLogicalPage_config hnew
    cases success with
    | false =>
      cases h
      exact hconfig
    | true => exact (ih h).trans hconfig

theorem grow_config {buffer count first : Nat} (h : Segment.grow T buffer count s mem = some (first, s', mem')) :
    s'.toSegmentConfig = s.toSegmentConfig := by
  obtain ⟨-, -, rfl, -⟩ | ⟨p, s₁, mem₁, last, s₂, -, hstart, -, -, hrest, hlast⟩ := grow_cases h
  · rfl
  have hconfig : s₂.toSegmentConfig = s.toSegmentConfig := (growRest_config hrest).trans hstart
  obtain ⟨-, -, rfl⟩ | ⟨page, -, -, rfl⟩ := hlast
  · exact hconfig
  · exact hconfig

theorem create_sizes {buffer : Nat} {queueMemory : Bool} {params : SegmentCreationParameters}
    (L : PageLaws T.page) (hword : params.logicalPageSize < 2^64)
    (h : Segment.create T buffer queueMemory params {} mem = some (true, s, mem')) :
    s.maxObjectSize = s.logicalPageSize - T.page.objectSize ∧ (T.page.supportsAnySize = false →
      0 < s.sizeClass ∧ s.sizeClass ≤ s.logicalPageSize - T.page.objectSize) := by
  obtain ⟨_, _, _, hobject, first, s₁, hfirst, hgrow, rfl⟩ := create_eq_some h
  have hcreated := create_isSome_of_grow hgrow hfirst
  have hconfig := grow_config hgrow
  simp only [configured] at hcreated
  rw [sub64_of_le hobject.le hword] at hcreated
  have hs₁ : s₁.maxObjectSize = s₁.logicalPageSize - T.page.objectSize ∧ (T.page.supportsAnySize = false →
      0 < s₁.sizeClass ∧ s₁.sizeClass ≤ s₁.logicalPageSize - T.page.objectSize) := by
    rw [hconfig]
    refine ⟨?_, L.create_class hcreated⟩
    rw [L.objectSize_eq]
    rfl
  split
  · exact hs₁
  · exact hs₁

end

/-- For every segment that `create` has accepted, at any later point: the growth arithmetic of an
admitted size is defined and sufficient unless an any-size segment is asked for nothing. -/
theorem growthDefined_iff {concurrency : ConcurrencyPolicy} {kind : PageKind} {recycling : PageRecyclingPolicy}
    {aligned : Bool} {buffer size : Nat} {queueMemory : Bool} {params : SegmentCreationParameters}
    {mem mem' : Memory} {s s' : Segment} (hword : params.logicalPageSize < 2^64)
    (h : Segment.create ⟨concurrency, kind.pageType, recycling, aligned⟩ buffer queueMemory params {} mem =
      some (true, s, mem'))
    (hs' : s'.toSegmentConfig = s.toSegmentConfig) (hsize : size ≤ s'.maxObjectSize) :
    GrowthDefined ⟨concurrency, kind.pageType, recycling, aligned⟩ size s' ↔
      kind = .logicalPage ∨ size ≠ 0 := by
  obtain ⟨hmax, hclass⟩ := create_sizes kind.laws hword h
  rw [← hs'] at hmax hclass
  rw [hmax] at hsize
  have hkind : kind = .logicalPage ∨ size ≠ 0 ↔ (kind.pageType.supportsAnySize = true → size ≠ 0) := by
    cases kind with
    | logicalPage => exact ⟨fun _ hany => absurd hany (by decide), fun _ => .inl rfl⟩
    | logicalPageAnySize policy => exact ⟨fun hor _ => hor.resolve_left nofun, fun hne => .inr (hne rfl)⟩
  rw [hkind]
  constructor
  · rintro ⟨desired, minimum, hq, -⟩ hany rfl
    rw [calculateQuantities_of_zero hany] at hq
    cases hq
  · intro h0
    obtain ⟨desired, minimum, hq⟩ := calculateQuantities_isSome_of_le hsize hclass h0
    obtain ⟨hone, hle⟩ := calculateQuantities_bounds hq
    exact ⟨desired, minimum, hq, hone, calculateQuantities_enough hq, hle⟩

/-- The any-size segment over the page at 12288, and what is left of it after a request. -/
def anySizeAfter (size : Nat) : Option (Segment × Memory) :=
  oneAnySizePage.bind fun sys =>
    (Segment.allocate anySizeType refusingArena size sys.segment sys.memory).map fun r => r.2

theorem create_oneAnySizePage : ∃ s mem, Segment.create anySizeType 12288 true
    { logicalPageSize := 4096, logicalPageCount := 1 } {} ⟨fun _ => 0, fun _ => {}, [], []⟩ =
      some (true, s, mem) ∧ s.maxObjectSize = 4032 := by
  have hok : (Segment.create anySizeType 12288 true { logicalPageSize := 4096, logicalPageCount := 1 } {}
      ⟨fun _ => 0, fun _ => {}, [], []⟩).map (fun r => (r.1, r.2.1.maxObjectSize)) = some (true, 4032) := by
    decide +kernel
  obtain ⟨⟨ok, s, mem⟩, hcreate, heq⟩ := Option.map_eq_some_iff.mp hok
  obtain ⟨rfl, hmax⟩ := Prod.mk.inj heq
  exact ⟨s, mem, hcreate, hmax⟩

theorem growthDefined_iff_of_one : ∃ s : Segment, 4032 ≤ s.maxObjectSize ∧
    (GrowthDefined anySizeType 4032 s ↔ PageKind.logicalPageAnySize .coalesce = .logicalPage ∨ 4032 ≠ 0) := by
  obtain ⟨s, mem, hcreate, hmax⟩ := create_oneAnySizePage
  exact ⟨s, hmax.ge, @growthDefined_iff .singleThread (.logicalPageAnySize .coalesce) .immediate true _ _ _ _ _ _
    _ _ (by decide) hcreate rfl hmax.ge⟩

/-- Nothing is asked for, once the page is full: the growth divides by zero. -/
theorem growth_divides_by_zero : (∃ s mem, Segment.create anySizeType 12288 true
      { logicalPageSize := 4096, logicalPageCount := 1 } {} ⟨fun _ => 0, fun _ => {}, [], []⟩ =
        some (true, s, mem) ∧ 0 ≤ s.maxObjectSize ∧ ¬ GrowthDefined anySizeType 0 s) ∧
    ∃ s mem, anySizeAfter 4016 = some (s, mem) ∧
      Segment.allocate anySizeType refusingArena 0 s mem = none := by
  constructor
  · obtain ⟨s, mem, hcreate, -⟩ := create_oneAnySizePage
    refine ⟨s, mem, hcreate, Nat.zero_le _, ?_⟩
    rintro ⟨desired, minimum, hq, -⟩
    rw [calculateQuantities_of_zero rfl] at hq
    cases hq
  · have hcall : (anySizeAfter 4016).map (fun r =>
        (Segment.allocate anySizeType refusingArena 0 r.1 r.2).isNone) = some true := by decide +kernel
    obtain ⟨⟨s, mem⟩, hafter, hnone⟩ := Option.map_eq_some_iff.mp hcall
    exact ⟨s, mem, hafter, Option.isNone_iff_eq_none.mp hnone⟩

end Metamalloc.Segments
