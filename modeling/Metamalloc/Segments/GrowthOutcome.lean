import Metamalloc.Segments.GrowthBounds
import Metamalloc.Segments.SegmentSystem

/-! The two outcomes of a growth: all of its pages, or none. Nothing is asked of the segment, so the pages it has may
be linked in any way. -/
namespace Metamalloc.Segments
open Library.Word64 Library.ByteMemory Pages

section
variable {T : SegmentType} {kind : PageKind} {s s' : Segment} {mem mem' : Memory} {a a' b i k m n t size : Nat}

/-- Whether a page can be made depends on its address only by the place in a unit of the granularity. -/
theorem create_isSome_of_mod {sizeClass : Nat} {bytes bytes' : Mem}
    (h : (kind.pageType.create a size sizeClass bytes).isSome) (h0 : a' ≠ 0) (hmod : a' % 4096 = a % 4096) :
    (kind.pageType.create a' size sizeClass bytes').isSome := by
  have hsub : sub64 a' 64 % 4096 = sub64 a 64 % 4096 := by
    unfold sub64
    omega
  cases kind with
  | logicalPage =>
    obtain ⟨-, hle, hclass, haligned⟩ := LogicalPage.create_isSome_iff.mp h
    refine LogicalPage.create_isSome_iff.mpr ⟨h0, hle, hclass, ?_⟩
    rw [hmod, LogicalPage.objectSize, hsub]
    exact haligned
  | logicalPageAnySize policy =>
    obtain ⟨hword, hnode, -, haligned⟩ := LogicalPageAnySize.create_isSome_iff.mp h
    refine LogicalPageAnySize.create_isSome_iff.mpr ⟨hword, hnode, h0, ?_⟩
    rw [hmod, LogicalPageAnySize.objectSize, hsub]
    exact haligned

theorem ne_zero_of_create {sizeClass : Nat} {bytes : Mem}
    (h : (kind.pageType.create a size sizeClass bytes).isSome) : a ≠ 0 := by
  cases kind with
  | logicalPage =>
    obtain ⟨hne, -⟩ := LogicalPage.create_isSome_iff.mp h
    exact hne
  | logicalPageAnySize policy =>
    obtain ⟨-, -, hne, -⟩ := LogicalPageAnySize.create_isSome_iff.mp h
    exact hne

/-- Everything a growth can do: the first page fails, or it is linked and the loop makes the others behind it. -/
theorem grow_cases {first : Nat} (h : Segment.grow T b n s mem = some (first, s', mem')) :
    ((Segment.createNewLogicalPage T b b s mem).1 = false ∧ first = 0 ∧ s' = s ∧
      mem' = (mem.setHeader b {}).releaseToSystem b s.logicalPageSize) ∨
    ∃ p s₁ mem₁ last s₂,
      T.page.create (add64 b T.page.objectSize) (sub64 s.logicalPageSize T.page.objectSize) s.sizeClass
        mem.bytes = some p ∧
      s₁.toSegmentConfig = s.toSegmentConfig ∧ s₁.logicalPageCount = add64 s.logicalPageCount 1 ∧
      (mem₁ = mem.placePage b p ∨ mem₁ = Segment.linkAfter s.tail b (mem.placePage b p)) ∧
      Segment.growRest T b (List.range' 1 (n - 1)) b s₁ mem₁ = (last, s₂, mem') ∧
      ((last = none ∧ first = 0 ∧ s' = s₂) ∨ ∃ page, last = some page ∧ first = b ∧ s' = { s₂ with tail := page }) := by
  rw [Segment.grow] at h
  dsimp only at h
  rcases hcreate : Segment.createNewLogicalPage T b b s mem with ⟨_ | _, s₀, mem₀⟩
  · rw [hcreate] at h
    unfold Segment.createNewLogicalPage at hcreate
    split at hcreate
    · cases hcreate
      cases h
      exact .inl ⟨rfl, rfl, rfl, rfl⟩
    · cases hcreate
  · rw [hcreate] at h
    obtain ⟨p, hp, rfl, rfl⟩ := createNewLogicalPage_some hcreate
    dsimp only at h
    split at h
    · cases h
    right
    by_cases hhead : s.head = 0
    · rw [if_pos hhead] at h
      dsimp only at h
      split at h
      · next s₂ mem₂ hrest =>
        cases h
        exact ⟨p, { s with head := b, tail := b, logicalPageCount := add64 s.logicalPageCount 1 }, _, none, _, hp,
          rfl, rfl, .inl rfl, hrest, .inl ⟨rfl, rfl, rfl⟩⟩
      · next last s₂ mem₂ hrest =>
        cases h
        exact ⟨p, { s with head := b, tail := b, logicalPageCount := add64 s.logicalPageCount 1 }, _, some last, _, hp,
          rfl, rfl, .inl rfl, hrest, .inr ⟨last, rfl, rfl, rfl⟩⟩
    · rw [if_neg hhead] at h
      dsimp only at h
      split at h
      · next s₂ mem₂ hrest =>
        cases h
        exact ⟨p, { s with logicalPageCount := add64 s.logicalPageCount 1 }, _, none, _, hp, rfl, rfl, .inr rfl, hrest,
          .inl ⟨rfl, rfl, rfl⟩⟩
      · next last s₂ mem₂ hrest =>
        cases h
        exact ⟨p, { s with logicalPageCount := add64 s.logicalPageCount 1 }, _, some last, _, hp, rfl, rfl, .inr rfl,
          hrest, .inr ⟨last, rfl, rfl, rfl⟩⟩

/-- A growth whose first page is made and whose loop comes to its end returns its buffer. -/
theorem grow_of_growRest (hlisted : s.head = 0 ∨ s.tail ≠ 0) (h : (Segment.createNewLogicalPage T b b s mem).1 = true)
    (hrest : ∀ s' mem', s'.toSegmentConfig = s.toSegmentConfig →
      (Segment.growRest T b (List.range' 1 (n - 1)) b s' mem').1.isSome) :
    ∃ s' mem', Segment.grow T b n s mem = some (b, s', mem') := by
  rw [Segment.grow]
  dsimp only
  rcases hcreate : Segment.createNewLogicalPage T b b s mem with ⟨_ | _, s₀, mem₀⟩
  · rw [hcreate] at h
    cases h
  obtain ⟨p, hp, rfl, rfl⟩ := createNewLogicalPage_some hcreate
  have hend : ∀ s₁ mem₁, s₁.toSegmentConfig = s.toSegmentConfig →
      ∃ last s₂ mem₂, Segment.growRest T b (List.range' 1 (n - 1)) b s₁ mem₁ = (some last, s₂, mem₂) := by
    intro s₁ mem₁ hconfig
    obtain ⟨last, hlast⟩ := Option.isSome_iff_exists.mp (hrest s₁ mem₁ hconfig)
    exact ⟨last, _, _, Prod.ext hlast rfl⟩
  dsimp only
  rw [if_neg fun hc => hlisted.elim hc.1 (fun htail => htail hc.2)]
  by_cases hhead : s.head = 0
  · rw [if_pos hhead]
    obtain ⟨last, s₂, mem₂, he⟩ := hend { s with head := b, tail := b, logicalPageCount := add64 s.logicalPageCount 1 }
      (mem.placePage b p) rfl
    exact ⟨_, _, by dsimp only; rw [he]⟩
  · rw [if_neg hhead]
    obtain ⟨last, s₂, mem₂, he⟩ := hend { s with logicalPageCount := add64 s.logicalPageCount 1 }
      (Segment.linkAfter s.tail b (mem.placePage b p)) rfl
    exact ⟨_, _, by dsimp only; rw [he]⟩

theorem pageObject_mod {pageSize : Nat} (h : pageSize % 4096 = 0) :
    add64 (add64 b (mul64 i pageSize)) k % 4096 = add64 b k % 4096 := by
  have hmul : mul64 i pageSize % 4096 = 0 := mul64_mod_granularity h
  unfold add64
  omega

theorem pageObject_ne_zero {pageSize : Nat} (h : pageSize % 4096 = 0) (hwrap : b + n * pageSize ≤ 2^64) (hi : i < n)
    (h0 : add64 b 64 ≠ 0) : add64 (add64 b (mul64 i pageSize)) 64 ≠ 0 := by
  rcases Nat.eq_zero_or_pos pageSize with rfl | hpos
  · unfold add64 mul64 at *
    rw [Nat.mul_zero, Nat.zero_mod, Nat.add_zero]
    omega
  · have hle : (i + 1) * pageSize ≤ n * pageSize := Nat.mul_le_mul_right _ hi
    rw [Nat.succ_mul] at hle
    have haddress : add64 b (mul64 i pageSize) = b + i * pageSize := by
      rw [mul64_of_lt (by omega), add64_of_lt (by omega)]
    rw [haddress, add64_of_lt (by omega)]
    omega

theorem objectSize_of_kind (hkind : T.page = kind.pageType) : T.page.objectSize = 64 := by
  rw [hkind]
  exact kind.laws.objectSize_eq

/-- With the first page every other one can be made, whatever has become of the memory. -/
theorem createNewLogicalPage_of_first (hkind : T.page = kind.pageType) (hmultiple : s.logicalPageSize % 4096 = 0)
    (hwrap : b + n * s.logicalPageSize ≤ 2^64) (h : (Segment.createNewLogicalPage T b b s mem).1 = true)
    (hi : i < n) (hconfig : s'.toSegmentConfig = s.toSegmentConfig) :
    (Segment.createNewLogicalPage T b (add64 b (mul64 i s.logicalPageSize)) s' mem').1 = true := by
  have hobject := objectSize_of_kind hkind
  rw [createNewLogicalPage_fst, hobject, hkind] at h
  rw [createNewLogicalPage_fst, hobject, hkind, hconfig]
  exact create_isSome_of_mod h (pageObject_ne_zero hmultiple hwrap hi (ne_zero_of_create h)) (pageObject_mod hmultiple)

theorem pageAddresses_eq_newPages {pageSize : Nat} (h : b + (k + m) * pageSize < 2^64) :
    pageAddresses pageSize b k m = newPages pageSize (b + k * pageSize) m := by
  rw [pageAddresses, newPages, List.range'_eq_map_range, List.map_map]
  refine List.map_congr_left fun i hi => ?_
  have hle : (k + i) * pageSize ≤ (k + m) * pageSize :=
    Nat.mul_le_mul_right _ (by rw [List.mem_range] at hi; omega)
  rw [Function.comp_apply, mul64_of_lt (by omega), add64_of_lt (by omega), Nat.add_mul]
  omega

/-- With the first page all the others are made, the failure branch of the loop is not reached, and the buffer is
returned. Where null is returned the segment and its list are as they were; else all the pages have been made. -/
theorem growth_all_or_nothing (kind : PageKind) (hkind : T.page = kind.pageType) (s : Segment) (mem : Memory)
    (b n : Nat) (hb : b ≠ 0) (hn : 1 ≤ n) (hmultiple : s.logicalPageSize % 4096 = 0)
    (hwrap : b + n * s.logicalPageSize < 2^64) :
    ((Segment.createNewLogicalPage T b b s mem).1 = true →
      (∀ i < n, ∀ s' mem', s'.toSegmentConfig = s.toSegmentConfig →
        (Segment.createNewLogicalPage T b (add64 b (mul64 i s.logicalPageSize)) s' mem').1 = true) ∧
      (∀ previousPage s' mem', s'.toSegmentConfig = s.toSegmentConfig →
        (Segment.growRest T b (List.range' 1 (n - 1)) previousPage s' mem').1.isSome) ∧
      (s.head = 0 ∨ s.tail ≠ 0 → ∃ s' mem', Segment.grow T b n s mem = some (b, s', mem'))) ∧
    (∀ s' mem', Segment.grow T b n s mem = some (0, s', mem') → s' = s ∧
      (∀ a, a + T.page.objectSize ≤ b ∨ b + T.page.objectSize ≤ a → mem'.pages a = mem.pages a) ∧
      ∀ l, (∀ a ∈ l, a + T.page.objectSize ≤ b ∨ b + T.page.objectSize ≤ a) → Listed s mem l → Listed s' mem' l) ∧
    ∀ first s' mem', Segment.grow T b n s mem = some (first, s', mem') → first ≠ 0 →
      first = b ∧ PagesMade s mem (newPages s.logicalPageSize b n) s' mem' := by
  have hobject := objectSize_of_kind hkind
  have hall (h : (Segment.createNewLogicalPage T b b s mem).1 = true) (i : Nat) (hi : i < n) (s' : Segment)
      (mem' : Memory) (hconfig : s'.toSegmentConfig = s.toSegmentConfig) :=
    @createNewLogicalPage_of_first T kind s s' mem mem' b i n hkind hmultiple hwrap.le h hi hconfig
  have hrest (h : (Segment.createNewLogicalPage T b b s mem).1 = true) (t : Nat) (s' : Segment) (mem' : Memory)
      (hconfig : s'.toSegmentConfig = s.toSegmentConfig) :
      (Segment.growRest T b (List.range' 1 (n - 1)) t s' mem').1.isSome := by
    refine growRest_isSome (fun i hi => hall h i ?_) hconfig
    have hlt := (List.mem_range'_1.mp hi).2
    omega
  refine ⟨fun h => ⟨hall h, hrest h, fun hlisted => grow_of_growRest hlisted h (hrest h b)⟩, fun s' mem' h => ?_,
    fun first s' mem' h hfirst => ?_⟩
  · obtain ⟨-, -, rfl, rfl⟩ | ⟨p, s₁, mem₁, last, s₂, hp, hconfig, -, -, hloop, hlast⟩ := grow_cases h
    · have hpages (a : Nat) (ha : a + T.page.objectSize ≤ b ∨ b + T.page.objectSize ≤ a) :
          ((mem.setHeader b {}).releaseToSystem b s'.logicalPageSize).pages a = mem.pages a :=
        Function.update_of_ne (by omega) ..
      refine ⟨rfl, hpages, fun l hl hlisted => hlisted.congr rfl rfl rfl hlisted.lastUsed fun a ha => ?_⟩
      rw [Memory.getNext, Memory.getPrevious, hpages a (hl a ha)]
      exact ⟨rfl, rfl⟩
    · have hsome := hrest (by rw [createNewLogicalPage_fst, hp]; rfl) b s₁ mem₁ hconfig
      obtain ⟨rfl, -, -⟩ | ⟨page, -, h0, -⟩ := hlast
      · rw [hloop] at hsome
        cases hsome
      · exact absurd h0.symm hb
  · obtain ⟨-, h0, -⟩ | ⟨p, s₁, mem₁, last, s₂, -, hconfig, hcount, hmem, hloop, hlast⟩ := grow_cases h
    · exact absurd h0 hfirst
    obtain ⟨-, h0, -⟩ | ⟨page, rfl, rfl, rfl⟩ := hlast
    · exact absurd h0 hfirst
    obtain ⟨m, rfl⟩ : ∃ m, n = m + 1 := ⟨n - 1, by omega⟩
    have hmade := growRest_pagesMade hloop
    rw [show s₁.logicalPageSize = s.logicalPageSize by rw [hconfig], Nat.add_sub_cancel,
      pageAddresses_eq_newPages (by rwa [Nat.add_comm 1 m]), Nat.one_mul] at hmade
    have hcreated : mem₁.created = first :: mem.created := by
      rcases hmem with rfl | rfl <;> rfl
    refine ⟨rfl, ?_, ?_⟩
    · rw [hmade.created, hcreated, newPages_succ, List.reverse_cons, List.append_assoc]
      rfl
    · rw [newPages_succ, List.length_cons, ← add64_count, ← hcount]
      exact hmade.count

end

/-- Two pages of 4096 bytes with chunks of 64: with the first one the second is made. -/
theorem growth_all_or_nothing_of_two : ∃ (T : SegmentType) (s : Segment) (mem : Memory),
    T.page = LogicalPage.pageType ∧ s.logicalPageSize = 4096 ∧
    (Segment.createNewLogicalPage T 8192 8192 s mem).1 = true ∧
    (Segment.createNewLogicalPage T 8192 12288 s mem).1 = true ∧
    ∃ s' mem', Segment.grow T 8192 2 s mem = some (8192, s', mem') := by
  let T : SegmentType := ⟨.central, LogicalPage.pageType, .immediate, true⟩
  let s : Segment := { logicalPageSize := 4096, sizeClass := 64 }
  let mem : Memory := { bytes := fun _ => 0, pages := fun _ => {} }
  have hfirst : (Segment.createNewLogicalPage T 8192 8192 s mem).1 = true := by
    rw [createNewLogicalPage_fst]
    exact LogicalPage.create_isSome_iff.mpr (by decide +kernel)
  have hsecond := (growth_all_or_nothing (T := T) .logicalPage rfl s mem 8192 2 (by decide) (by decide)
    (by decide) (by decide)).1 hfirst
  have haddress : add64 8192 (mul64 1 s.logicalPageSize) = 12288 := by decide +kernel
  refine ⟨T, s, mem, rfl, rfl, hfirst, ?_, hsecond.2.2 (.inl rfl)⟩
  rw [← haddress]
  exact hsecond.1 1 (by decide) s mem rfl

end Metamalloc.Segments
