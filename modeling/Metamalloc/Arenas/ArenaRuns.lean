import Metamalloc.Arenas.Arena

/-! An arena among its callers: what it hands out is aligned, lies in memory of the system
and is never shared, over every run of calls. -/
namespace Metamalloc.Arenas
open Library.Word64 Library.Tiling Library.AddressSpace Pages

structure ArenaSystem where
  arena : Arena
  mapped : Mapped
  /-- What the arena was given by the system, the latest range first. -/
  mappings : List Block
  /-- The ranges handed out that their callers still hold. -/
  granted : List Block

inductive ArenaAction where
  | allocate (size : Nat) (answers : SystemAnswers)
  /-- A caller gives a part of its range back to the system. -/
  | release (range part : Block)
  | destroy
  /-- The rest of the process changes what is mapped. -/
  | others (mapped : Mapped)

def Disjoint (b c : Block) : Prop := ∀ x, ¬ (b.Holds x ∧ c.Holds x)

def remaining (range part : Block) : List Block :=
  [⟨range.start, part.start - range.start⟩,
    ⟨part.start + part.size, range.start + range.size - (part.start + part.size)⟩]

namespace ArenaSystem

def after (sys : ArenaSystem) (arena : Arena) (calls : List SystemCall) : ArenaSystem :=
  { sys with
    arena := arena
    mapped := performAll sys.mapped calls
    mappings := Library.AddressSpace.mappings calls ++ sys.mappings }

/-- The pointer returned, the calls of the arena to the system, and the next state. -/
def perform (policy : VirtualMemoryPolicy) (sys : ArenaSystem) :
    ArenaAction → Option (Nat × List SystemCall × ArenaSystem)
  | .allocate size answers =>
    (sys.arena.allocate (allocateFromSystem policy answers) size).map fun (ret, arena, calls) =>
      (ret, calls, if ret = 0 then sys.after arena calls else
        { sys.after arena calls with granted := ⟨ret, size⟩ :: sys.granted })
  | .release range part => some (0, [], { sys with
      mapped := SystemCall.perform sys.mapped (.unmap part)
      granted := remaining range part ++ sys.granted.erase range })
  | .destroy => sys.arena.destroy.map fun (arena, calls) => (0, calls, sys.after arena calls)
  | .others mapped => some (0, [], { sys with mapped := mapped })

def Allowed (alignment : Nat) (sys : ArenaSystem) : ArenaAction → Prop
  | .allocate size _ => 0 < size ∧ alignment ∣ size ∧ size + alignment < 2^64
  | .release range part => range ∈ sys.granted ∧ range.start ≤ part.start ∧
      part.start + part.size ≤ range.start + range.size
  | .destroy => True
  | .others mapped => ∀ x, (∃ g ∈ sys.granted, g.Holds x) ∨
      sys.arena.cacheBuffer ≤ x ∧ x < sys.arena.cacheBuffer + sys.arena.cacheSize → mapped x = sys.mapped x

end ArenaSystem

/-- The runs of an arena that was created with a cache capacity and a page alignment, whether
the first cache could be built or not. -/
inductive ArenaReachable (policy : VirtualMemoryPolicy) (vmPageSize capacity alignment : Nat) :
    ArenaSystem → Prop
  | create {answers : SystemAnswers} {success : Bool} {arena : Arena} {calls : List SystemCall}
      {mapped : Mapped}
      (h : Arena.create (allocateFromSystem policy answers) capacity alignment ⟨vmPageSize, 4096, 0, 0, 0⟩ =
        (success, arena, calls))
      (hsystem : Grants vmPageSize mapped calls) :
      ArenaReachable policy vmPageSize capacity alignment
        ⟨arena, performAll mapped calls, mappings calls, []⟩
  | step {sys sys' : ArenaSystem} {action : ArenaAction} {ret : Nat} {calls : List SystemCall}
      (h : ArenaReachable policy vmPageSize capacity alignment sys) (ha : sys.Allowed alignment action)
      (hp : sys.perform policy action = some (ret, calls, sys'))
      (hsystem : Grants vmPageSize sys.mapped calls) :
      ArenaReachable policy vmPageSize capacity alignment sys'

def Arena.unused (a : Arena) : Block := ⟨a.cacheBuffer + a.cacheUsedSize, a.cacheSize - a.cacheUsedSize⟩

structure ArenaInv (vm alignment : Nat) (a : Arena) : Prop where
  vmPageSize : a.vmPageSize = vm
  pageAlignment : a.pageAlignment = alignment
  buffer : alignment ∣ a.cacheBuffer
  used : alignment ∣ a.cacheUsedSize
  size : vm ∣ a.cacheSize
  used_le : a.cacheUsedSize ≤ a.cacheSize
  inside : a.cacheBuffer + a.cacheSize < 2^64
  nonnull : a.cacheSize ≠ 0 → a.cacheBuffer ≠ 0

structure ArenaSystemInv (vm alignment : Nat) (sys : ArenaSystem) : Prop where
  arena : ArenaInv vm alignment sys.arena
  mapping : sys.arena.cacheSize ≠ 0 → ∃ b, sys.mappings.head? = some b ∧
    b.start ≤ sys.arena.cacheBuffer ∧ sys.arena.cacheBuffer + sys.arena.cacheSize ≤ b.start + b.size
  unused : ∀ x, sys.arena.unused.Holds x → sys.mapped x = true
  granted : ∀ g ∈ sys.granted, ∀ x, g.Holds x → sys.mapped x = true
  apart : sys.granted.Pairwise Disjoint
  cache : ∀ g ∈ sys.granted, Disjoint g sys.arena.unused

section
variable {vm alignment size : Nat} {a : Arena} {fromSystem : Nat → Nat}

/-- The cached pages that are released are pages that were never handed out. -/
theorem releasePages_spec {start stop fuel : Nat} (hvm : 0 < vm) (hle : start ≤ stop)
    (hdvd : vm ∣ stop - start) (hstop : stop < 2^64) (hfuel : stop - start < fuel) :
    ∃ calls, Arena.releasePages vm stop fuel start = some calls ∧
      ∀ call ∈ calls, ∃ b, call = .unmap b ∧ start ≤ b.start ∧ b.start + b.size ≤ stop := by
  induction fuel generalizing start with
  | zero => omega
  | succ fuel ih =>
    rw [Arena.releasePages]
    split
    · rename_i hlt
      have hpage : vm ≤ stop - start := Nat.le_of_dvd (by omega) hdvd
      have hrest : vm ∣ stop - (start + vm) := by
        rw [← Nat.sub_sub]
        exact Nat.dvd_sub hdvd dvd_rfl
      obtain ⟨calls, hcalls, hinside⟩ := ih (by omega) hrest (by omega)
      rw [add64_of_lt (by omega), hcalls]
      refine ⟨_, rfl, fun call hcall => ?_⟩
      rcases List.mem_cons.mp hcall with rfl | hcall
      · exact ⟨_, rfl, le_rfl, by simp only; omega⟩
      · obtain ⟨b, hb, hlo, hhi⟩ := hinside call hcall
        exact ⟨b, hb, by omega, hhi⟩
    · exact ⟨[], rfl, fun call hcall => by cases hcall⟩

def Arena.emptied (a : Arena) : Arena := { a with cacheSize := 0, cacheUsedSize := 0, cacheBuffer := 0 }

/-- The calls give back nothing but unused bytes of the cache. -/
def OnlyUnused (a : Arena) (calls : List SystemCall) : Prop :=
  ∀ call ∈ calls, ∃ b, call = .unmap b ∧ ∀ x, b.Holds x → a.unused.Holds x

theorem ArenaInv.destroy (h : ArenaInv vm alignment a) (hvm : 0 < vm) (hdvd : vm ∣ alignment) :
    ∃ calls, a.destroy = some (a.emptied, calls) ∧ OnlyUnused a calls := by
  have hv := h.vmPageSize
  subst hv
  have hinside := h.inside
  have hused := h.used_le
  unfold Arena.destroy
  split
  · have hpages : a.vmPageSize ∣ a.cacheBuffer + a.cacheSize - (a.cacheBuffer + a.cacheUsedSize) := by
      rw [Nat.add_sub_add_left]
      exact Nat.dvd_sub h.size (hdvd.trans h.used)
    have hfuel : a.cacheBuffer + a.cacheSize - (a.cacheBuffer + a.cacheUsedSize) < a.cacheSize + 1 := by
      omega
    obtain ⟨calls, hcalls, hin⟩ := releasePages_spec hvm (by omega) hpages hinside hfuel
    rw [add64_of_lt (by omega), add64_of_lt (by omega), hcalls]
    refine ⟨calls, rfl, fun call hcall => ?_⟩
    obtain ⟨b, hb, hlo, hhi⟩ := hin call hcall
    refine ⟨b, hb, fun x hx => ?_⟩
    unfold Block.Holds Arena.unused at *
    simp only
    omega
  · exact ⟨[], rfl, fun call hcall => by cases hcall⟩

theorem ArenaInv.emptied (h : ArenaInv vm alignment a) : ArenaInv vm alignment a.emptied :=
  ⟨h.vmPageSize, h.pageAlignment, dvd_zero _, dvd_zero _, dvd_zero _, le_rfl,
    show 0 + 0 < 2^64 by norm_num, fun h0 => absurd rfl h0⟩

/-- What `allocate_aligned` keeps of the range that was mapped for it. -/
structure Trimmed (fromSystem : Nat → Nat) (size alignment ret : Nat) (calls : List SystemCall) : Prop where
  aligned : alignment ∣ ret
  inside : fromSystem (size + alignment) ≤ ret ∧
    ret + size ≤ fromSystem (size + alignment) + (size + alignment)
  calls : ∃ b, calls = [.map ⟨fromSystem (size + alignment), size + alignment⟩, .unmap b] ∧
    ∀ x, b.Holds x → (⟨fromSystem (size + alignment), size + alignment⟩ : Block).Holds x ∧
      ¬ (⟨ret, size⟩ : Block).Holds x

theorem Trimmed.mapped {ret x : Nat} {calls : List SystemCall} (mapped : Mapped)
    (h : Trimmed fromSystem size alignment ret calls) (hx : (⟨ret, size⟩ : Block).Holds x) :
    performAll mapped calls x = true := by
  obtain ⟨excess, rfl, hexcess⟩ := h.calls
  obtain ⟨hlo, hhi⟩ := h.inside
  have hholds : fromSystem (size + alignment) ≤ x ∧
      x < fromSystem (size + alignment) + (size + alignment) := by
    obtain ⟨hx₁, hx₂⟩ := hx
    simp only at hx₁ hx₂
    omega
  have hnew : SystemCall.perform mapped (.map ⟨fromSystem (size + alignment), size + alignment⟩) x = true := by
    simp [SystemCall.perform, hholds]
  have hkept : ∀ b, .unmap b ∈ [SystemCall.unmap excess] → ¬ b.Holds x := by
    intro b hb hbx
    cases List.mem_singleton.mp hb
    exact (hexcess x hbx).2 hx
  change performAll (SystemCall.perform mapped _) [.unmap excess] x = true
  exact performAll_of_mapped hnew hkept

theorem allocateAligned_spec {mapped : Mapped} (ha : 0 < alignment) (hsize : size + alignment < 2^64)
    (hsystem : Grants vm mapped (allocateAligned fromSystem size alignment).2) :
    allocateAligned fromSystem size alignment = (0, []) ∨
      ∃ ret calls, allocateAligned fromSystem size alignment = (ret, calls) ∧ ret ≠ 0 ∧
        Trimmed fromSystem size alignment ret calls := by
  unfold allocateAligned at hsystem ⊢
  rw [add64_of_lt hsize] at hsystem ⊢
  dsimp only at hsystem ⊢
  split at hsystem
  · rw [if_pos ‹_›]
    exact .inl rfl
  · rename_i hbuffer
    rw [if_neg hbuffer]
    rw [modulo_eq] at hsystem ⊢
    have hmod := Nat.mod_lt (fromSystem (size + alignment)) ha
    split at hsystem
    · rename_i hremainder
      obtain ⟨⟨_, hend, _⟩, _⟩ := hsystem
      simp only at hend
      rw [if_pos hremainder, add64_of_lt (by omega)]
      refine .inr ⟨_, _, rfl, by omega, ⟨?_, ⟨by omega, by omega⟩, _, rfl, fun x hx => ?_⟩⟩
      · exact dvd_add_sub_mod ha
      · unfold Block.Holds at *
        simp only at *
        omega
    · rename_i hremainder
      obtain ⟨⟨_, hend, _⟩, _⟩ := hsystem
      simp only at hend
      rw [if_neg hremainder, add64_of_lt hend, sub64_of_le (by omega) hend]
      refine .inr ⟨_, _, rfl, hbuffer, ⟨Nat.dvd_of_mod_eq_zero (by omega), ⟨by omega, by omega⟩, _, rfl,
        fun x hx => ?_⟩⟩
      unfold Block.Holds at *
      simp only at *
      omega

theorem buildCache_spec {mapped : Mapped} (ha : 0 < alignment) (hsize : size + alignment < 2^64)
    (hvm : vm ∣ size) (hv : a.vmPageSize = vm) (hp : a.pageAlignment = alignment)
    (hsystem : Grants vm mapped (a.buildCache fromSystem size).2.2) :
    a.buildCache fromSystem size = (false, a, []) ∨
      ∃ buffer calls, a.buildCache fromSystem size =
          (true, { a with cacheBuffer := buffer, cacheUsedSize := 0, cacheSize := size }, calls) ∧
        ArenaInv vm alignment { a with cacheBuffer := buffer, cacheUsedSize := 0, cacheSize := size } ∧
        buffer ≠ 0 ∧ Trimmed fromSystem size alignment buffer calls := by
  subst hp
  have hsystem' : Grants vm mapped (allocateAligned fromSystem size a.pageAlignment).2 := by
    unfold Arena.buildCache at hsystem
    split at hsystem
    rename_i buffer calls heq
    rw [heq]
    split at hsystem <;> exact hsystem
  unfold Arena.buildCache
  rcases allocateAligned_spec ha hsize hsystem' with heq | ⟨buffer, calls, heq, hne, htrim⟩
  · rw [heq]
    exact .inl rfl
  · rw [heq] at hsystem' ⊢
    dsimp only
    rw [if_neg hne]
    refine .inr ⟨buffer, calls, rfl, ⟨hv, rfl, htrim.aligned, dvd_zero _, hvm, Nat.zero_le _, ?_, fun _ => hne⟩,
      hne, htrim⟩
    obtain ⟨b, hcalls, _⟩ := htrim.calls
    rw [hcalls] at hsystem'
    have hend := hsystem'.1.2.1
    have hinside := htrim.inside
    simp only at hend ⊢
    omega

theorem ArenaInv.serve (h : ArenaInv vm alignment a) (hfit : a.cacheUsedSize + size ≤ a.cacheSize)
    (hdvd : alignment ∣ size) :
    a.serve size = (a.cacheBuffer + a.cacheUsedSize, { a with cacheUsedSize := a.cacheUsedSize + size }) ∧
      ArenaInv vm alignment { a with cacheUsedSize := a.cacheUsedSize + size } := by
  have hinside := h.inside
  refine ⟨?_, h.vmPageSize, h.pageAlignment, h.buffer, Nat.dvd_add h.used hdvd, h.size, hfit, h.inside,
    h.nonnull⟩
  rw [Arena.serve, add64_of_lt (by omega), add64_of_lt (by omega)]

/-- What one call of `allocate` can do. -/
inductive Allocated (fromSystem : Nat → Nat) (alignment size : Nat) (a : Arena) :
    Nat → Arena → List SystemCall → Prop
  | cached (hfit : a.cacheUsedSize + size ≤ a.cacheSize) :
      Allocated fromSystem alignment size a (a.cacheBuffer + a.cacheUsedSize)
        { a with cacheUsedSize := a.cacheUsedSize + size } []
  | refused {released : List SystemCall} (hr : OnlyUnused a released) :
      Allocated fromSystem alignment size a 0 a.emptied released
  | rebuilt {released calls : List SystemCall} {buffer : Nat} (hr : OnlyUnused a released)
      (ht : Trimmed fromSystem size alignment buffer calls) (hne : buffer ≠ 0) :
      Allocated fromSystem alignment size a buffer
        { a.emptied with cacheBuffer := buffer, cacheUsedSize := size, cacheSize := size } (released ++ calls)

theorem ArenaInv.allocate_isSome (h : ArenaInv vm alignment a) (hvm : 0 < vm) (hdvd : vm ∣ alignment) :
    (a.allocate fromSystem size).isSome := by
  unfold Arena.allocate
  split
  · obtain ⟨released, hdestroy, _⟩ := h.destroy hvm hdvd
    rw [hdestroy]
    dsimp only
    split <;> rfl
  · rfl

theorem ArenaInv.allocate {mapped : Mapped} {ret : Nat} {a' : Arena} {calls : List SystemCall}
    (h : ArenaInv vm alignment a) (hvm : 0 < vm) (ha : 0 < alignment) (hdvd : vm ∣ alignment)
    (hsize : alignment ∣ size) (hbound : size + alignment < 2^64)
    (halloc : a.allocate fromSystem size = some (ret, a', calls)) (hsystem : Grants vm mapped calls) :
    Allocated fromSystem alignment size a ret a' calls ∧ ArenaInv vm alignment a' := by
  have hused := h.used_le
  have hinside := h.inside
  unfold Arena.allocate at halloc
  rw [h.pageAlignment, add64_of_lt hbound, sub64_of_le hused (by omega)] at halloc
  split at halloc
  · obtain ⟨released, hdestroy, hr⟩ := h.destroy hvm hdvd
    rw [hdestroy] at halloc
    have hbuild : ∀ calls', (a.emptied.buildCache fromSystem size).2.2 = calls' →
        Grants vm mapped (released ++ calls') →
        Grants vm (performAll mapped released) (a.emptied.buildCache fromSystem size).2.2 := by
      rintro calls' rfl hgrants
      exact hgrants.append
    dsimp only at halloc
    split at halloc
    · rename_i heq
      simp only [Option.some.injEq, Prod.mk.injEq] at halloc
      obtain ⟨rfl, rfl, rfl⟩ := halloc
      have hsys := hbuild _ (by rw [heq]) hsystem
      rcases buildCache_spec ha hbound (hdvd.trans hsize) h.emptied.vmPageSize h.emptied.pageAlignment
        hsys with hfail | ⟨_, _, hok, _⟩
      · cases heq.symm.trans hfail
        rw [List.append_nil]
        exact ⟨.refused hr, h.emptied⟩
      · cases heq.symm.trans hok
    · rename_i heq
      simp only [Option.some.injEq, Prod.mk.injEq] at halloc
      obtain ⟨rfl, rfl, rfl⟩ := halloc
      have hsys := hbuild _ (by rw [heq]) hsystem
      rcases buildCache_spec ha hbound (hdvd.trans hsize) h.emptied.vmPageSize h.emptied.pageAlignment
        hsys with hfail | ⟨buffer, calls, hok, hinv, hne, ht⟩
      · cases heq.symm.trans hfail
      · cases heq.symm.trans hok
        obtain ⟨hserve, hinv'⟩ := hinv.serve (show 0 + size ≤ size by omega) hsize
        rw [hserve]
        simp only [Nat.zero_add, Nat.add_zero] at hinv' ⊢
        exact ⟨.rebuilt hr ht hne, hinv'⟩
  · simp only [Option.some.injEq, Prod.mk.injEq] at halloc
    obtain ⟨rfl, rfl, rfl⟩ := halloc
    obtain ⟨hserve, hinv'⟩ := h.serve (show a.cacheUsedSize + size ≤ a.cacheSize by omega) hsize
    rw [hserve]
    exact ⟨.cached (by omega), hinv'⟩

/-- What one step of a run promises: the arena gives back nothing a caller holds, and a result
is aligned and lies in the range the system mapped last for the arena. -/
structure StepSafe (alignment : Nat) (sys : ArenaSystem) (action : ArenaAction) (ret : Nat)
    (calls : List SystemCall) (sys' : ArenaSystem) : Prop where
  kept : ∀ b, .unmap b ∈ calls → ∀ g ∈ sys.granted, Disjoint b g
  mapped : ∀ g ∈ sys'.granted, ∀ x, g.Holds x → sys'.mapped x = true
  result : ∀ size answers, action = .allocate size answers → ret ≠ 0 →
    alignment ∣ ret ∧ ∃ b, sys'.mappings.head? = some b ∧ b.start ≤ ret ∧ ret + size ≤ b.start + b.size

variable {sys sys' : ArenaSystem} {released : List SystemCall}

/-- Giving back unused bytes of the cache takes nothing from the callers. -/
theorem OnlyUnused.kept (hr : OnlyUnused sys.arena released) (h : ArenaSystemInv vm alignment sys) :
    ∀ b, .unmap b ∈ released → ∀ g ∈ sys.granted, Disjoint b g := by
  intro b hb g hg x ⟨hbx, hgx⟩
  obtain ⟨_, heq, hunused⟩ := hr _ hb
  cases heq
  exact h.cache g hg x ⟨hgx, hunused x hbx⟩

theorem ArenaSystemInv.granted_mapped (h : ArenaSystemInv vm alignment sys)
    (hr : ∀ b, .unmap b ∈ released → ∀ g ∈ sys.granted, Disjoint b g) :
    ∀ g ∈ sys.granted, ∀ x, g.Holds x → performAll sys.mapped released x = true := by
  intro g hg x hx
  apply performAll_of_mapped (h.granted g hg x hx)
  intro b hb hbx
  exact hr b hb g hg x ⟨hbx, hx⟩

theorem emptied_unused (x : Nat) : ¬ a.emptied.unused.Holds x := by
  rintro ⟨hlo, hhi⟩
  exact absurd hhi (Nat.not_lt.mpr hlo)

theorem ArenaSystemInv.emptied (h : ArenaSystemInv vm alignment sys)
    (hr : OnlyUnused sys.arena released) :
    ArenaSystemInv vm alignment (sys.after sys.arena.emptied released) :=
  ⟨h.arena.emptied, fun h0 => absurd rfl h0, fun x hx => absurd hx (emptied_unused x),
    h.granted_mapped (hr.kept h), h.apart, fun _ _ x hx => emptied_unused x hx.2⟩

theorem ArenaSystemInv.cached (h : ArenaSystemInv vm alignment sys)
    (hfit : sys.arena.cacheUsedSize + size ≤ sys.arena.cacheSize)
    (harena : ArenaInv vm alignment { sys.arena with cacheUsedSize := sys.arena.cacheUsedSize + size }) :
    ArenaSystemInv vm alignment { sys with
      arena := { sys.arena with cacheUsedSize := sys.arena.cacheUsedSize + size }
      granted := ⟨sys.arena.cacheBuffer + sys.arena.cacheUsedSize, size⟩ :: sys.granted } := by
  -- Both the new range and what stays in the cache were unused before.
  have hnew : ∀ x, (⟨sys.arena.cacheBuffer + sys.arena.cacheUsedSize, size⟩ : Block).Holds x →
      sys.arena.unused.Holds x := by
    rintro x ⟨hlo, hhi⟩
    unfold Block.Holds Arena.unused
    simp only at hlo hhi ⊢
    omega
  have hrest : ∀ x, ({ sys.arena with cacheUsedSize := sys.arena.cacheUsedSize + size } : Arena).unused.Holds x →
      sys.arena.unused.Holds x ∧
        ¬ (⟨sys.arena.cacheBuffer + sys.arena.cacheUsedSize, size⟩ : Block).Holds x := by
    rintro x ⟨hlo, hhi⟩
    unfold Block.Holds
    unfold Arena.unused at *
    simp only at hlo hhi ⊢
    omega
  refine ⟨harena, fun h0 => h.mapping h0, fun x hx => h.unused x (hrest x hx).1, ?_, ?_, ?_⟩
  · intro g hg x hx
    rcases List.mem_cons.mp hg with rfl | hg
    · exact h.unused x (hnew x hx)
    · exact h.granted g hg x hx
  · refine List.pairwise_cons.mpr ⟨fun g hg x hx => ?_, h.apart⟩
    exact h.cache g hg x ⟨hx.2, hnew x hx.1⟩
  · intro g hg x hx
    rcases List.mem_cons.mp hg with rfl | hg
    · exact (hrest x hx.2).2 hx.1
    · exact h.cache g hg x ⟨hx.1, (hrest x hx.2).1⟩

theorem ArenaSystemInv.rebuilt {calls : List SystemCall} {buffer : Nat} {arena : Arena}
    (h : ArenaSystemInv vm alignment sys)
    (harena : ArenaInv vm alignment
      { arena with cacheBuffer := buffer, cacheUsedSize := size, cacheSize := size })
    (ht : Trimmed fromSystem size alignment buffer calls) (hsystem : Grants vm sys.mapped calls) :
    ArenaSystemInv vm alignment { sys.after
      { arena with cacheBuffer := buffer, cacheUsedSize := size, cacheSize := size } calls with
      granted := ⟨buffer, size⟩ :: sys.granted } ∧
    ∀ b, .unmap b ∈ calls → ∀ g ∈ ⟨buffer, size⟩ :: sys.granted, Disjoint b g := by
  obtain ⟨excess, rfl, hexcess⟩ := ht.calls
  obtain ⟨⟨_, _, hfree⟩, _⟩ := hsystem
  have hinside := ht.inside
  have hnew : ∀ x, (⟨buffer, size⟩ : Block).Holds x →
      (⟨fromSystem (size + alignment), size + alignment⟩ : Block).Holds x := by
    rintro x ⟨hlo, hhi⟩
    unfold Block.Holds
    simp only at hlo hhi ⊢
    omega
  have hheld : ∀ g ∈ sys.granted, ∀ x, g.Holds x →
      ¬ (⟨fromSystem (size + alignment), size + alignment⟩ : Block).Holds x := by
    intro g hg x hx hmapped
    exact Bool.false_ne_true ((hfree x hmapped).symm.trans (h.granted g hg x hx))
  have hkept : ∀ b, .unmap b ∈ [SystemCall.map ⟨fromSystem (size + alignment), size + alignment⟩,
      .unmap excess] → ∀ g ∈ ⟨buffer, size⟩ :: sys.granted, Disjoint b g := by
    intro b hb g hg x hx
    obtain rfl : b = excess := by simpa using hb
    rcases List.mem_cons.mp hg with rfl | hg
    · exact (hexcess x hx.1).2 hx.2
    · exact hheld g hg x hx.2 (hexcess x hx.1).1
  have hunused : ∀ x, ¬ ({ arena with cacheBuffer := buffer, cacheUsedSize := size, cacheSize := size } :
      Arena).unused.Holds x := by
    rintro x ⟨hlo, hhi⟩
    unfold Arena.unused at hlo hhi
    simp only at hlo hhi
    omega
  refine ⟨⟨harena, fun _ => ⟨_, rfl, hinside⟩, fun x hx => absurd hx (hunused x), ?_, ?_, ?_⟩, hkept⟩
  · intro g hg x hx
    rcases List.mem_cons.mp hg with rfl | hg
    · exact ht.mapped _ hx
    · exact h.granted_mapped (fun b hb g hg => hkept b hb g (List.mem_cons_of_mem _ hg)) g hg x hx
  · refine List.pairwise_cons.mpr ⟨fun g hg x hx => ?_, h.apart⟩
    exact hheld g hg x hx.2 (hnew x hx.1)
  · exact fun g _ x hx => hunused x hx.2

section
variable {policy : VirtualMemoryPolicy} {action : ArenaAction} {ret : Nat} {calls : List SystemCall}

def StepOk (policy : VirtualMemoryPolicy) (vm alignment : Nat) (sys : ArenaSystem) (action : ArenaAction) :
    Prop :=
  (sys.perform policy action).isSome ∧ ∀ ret calls sys',
    sys.perform policy action = some (ret, calls, sys') → Grants vm sys.mapped calls →
      ArenaSystemInv vm alignment sys' ∧ StepSafe alignment sys action ret calls sys'

theorem allocate_ok {answers : SystemAnswers} (h : ArenaSystemInv vm alignment sys) (hvm : 0 < vm)
    (halign : 0 < alignment) (hdvd : vm ∣ alignment) (ha : sys.Allowed alignment (.allocate size answers)) :
    StepOk policy vm alignment sys (.allocate size answers) := by
  obtain ⟨hpos, hmultiple, hbound⟩ := ha
  refine ⟨by simpa [ArenaSystem.perform] using h.arena.allocate_isSome hvm hdvd, ?_⟩
  intro ret calls sys' hp hsystem
  simp only [ArenaSystem.perform, Option.map_eq_some_iff, Prod.mk.injEq, Prod.exists] at hp
  obtain ⟨ret, arena, calls, halloc, rfl, rfl, rfl⟩ := hp
  obtain ⟨hallocated, harena⟩ := h.arena.allocate hvm halign hdvd hmultiple hbound halloc hsystem
  have haction : ∀ {n : Nat} {a' : SystemAnswers},
      ArenaAction.allocate size answers = .allocate n a' → n = size := by
    rintro n a' heq
    cases heq
    rfl
  cases hallocated with
  | cached hfit =>
    have hsize : sys.arena.cacheSize ≠ 0 := by omega
    have hret : sys.arena.cacheBuffer + sys.arena.cacheUsedSize ≠ 0 := by
      have := h.arena.nonnull hsize
      omega
    rw [if_neg hret]
    have hinv := h.cached hfit harena
    refine ⟨hinv, fun b hb => absurd hb List.not_mem_nil, hinv.granted, fun n _ heq _ => ?_⟩
    obtain ⟨b, hb, hlo, hhi⟩ := h.mapping hsize
    rw [haction heq]
    exact ⟨Nat.dvd_add h.arena.buffer h.arena.used, b, hb, by omega, by omega⟩
  | refused hr =>
    rw [if_pos rfl]
    have hinv := h.emptied hr
    exact ⟨hinv, hr.kept h, hinv.granted, fun _ _ _ h0 => absurd rfl h0⟩
  | @rebuilt released calls buffer hr ht hne =>
    rw [if_neg hne]
    obtain ⟨hinv, hkept⟩ := (h.emptied hr).rebuilt harena ht hsystem.append
    have hafter : sys.after { sys.arena.emptied with
          cacheBuffer := ret, cacheUsedSize := size, cacheSize := size } (released ++ calls) =
        (sys.after sys.arena.emptied released).after { sys.arena.emptied with
          cacheBuffer := ret, cacheUsedSize := size, cacheSize := size } calls := by
      simp [ArenaSystem.after, performAll_append, mappings_append]
    rw [hafter]
    refine ⟨hinv, fun b hb g hg => ?_, hinv.granted, fun n _ heq _ => ?_⟩
    · rcases List.mem_append.mp hb with hb | hb
      · exact hr.kept h b hb g hg
      · exact hkept b hb g (List.mem_cons_of_mem _ hg)
    · rw [haction heq]
      obtain ⟨_, rfl, _⟩ := ht.calls
      exact ⟨ht.aligned, _, rfl, ht.inside⟩

theorem Disjoint.symm {b c : Block} (h : Disjoint b c) : Disjoint c b := fun x hx => h x ⟨hx.2, hx.1⟩

theorem remaining_holds {range part b : Block} {x : Nat} (hlo : range.start ≤ part.start)
    (hhi : part.start + part.size ≤ range.start + range.size) (hb : b ∈ remaining range part)
    (hx : b.Holds x) : range.Holds x ∧ ¬ part.Holds x := by
  unfold Block.Holds at *
  simp only [remaining, List.mem_cons, List.not_mem_nil, or_false] at hb
  rcases hb with rfl | rfl <;> simp only at hx <;> omega

theorem remaining_pairwise {range part : Block} (hlo : range.start ≤ part.start) :
    (remaining range part).Pairwise Disjoint := by
  simp only [remaining, List.pairwise_cons, List.mem_singleton, forall_eq, List.not_mem_nil,
    IsEmpty.forall_iff, implies_true, List.Pairwise.nil, and_true]
  rintro x ⟨⟨_, hx⟩, hx', _⟩
  simp only at hx hx'
  omega

theorem release_ok {range part : Block} (h : ArenaSystemInv vm alignment sys)
    (ha : sys.Allowed alignment (.release range part)) : StepOk policy vm alignment sys (.release range part) := by
  obtain ⟨hmem, hlo, hhi⟩ := ha
  refine ⟨rfl, fun ret calls sys' hp _ => ?_⟩
  simp only [ArenaSystem.perform, Option.some.injEq, Prod.mk.injEq] at hp
  obtain ⟨rfl, rfl, rfl⟩ := hp
  have hperm := List.perm_cons_erase hmem
  have hapart := (hperm.pairwise_iff Disjoint.symm).mp h.apart
  rw [List.pairwise_cons] at hapart
  have hmapped : ∀ x, sys.mapped x = true → ¬ part.Holds x →
      SystemCall.perform sys.mapped (.unmap part) x = true := by
    intro x hx hpart
    have hpart : ¬ (part.start ≤ x ∧ x < part.start + part.size) := hpart
    simp [SystemCall.perform, hpart, hx]
  have hrange : ∀ x, part.Holds x → range.Holds x := by
    rintro x ⟨hlo', hhi'⟩
    exact ⟨by omega, by omega⟩
  have hinv : ArenaSystemInv vm alignment { sys with
      mapped := SystemCall.perform sys.mapped (.unmap part)
      granted := remaining range part ++ sys.granted.erase range } := by
    refine ⟨h.arena, h.mapping, fun x hx => ?_, fun g hg x hx => ?_, ?_, fun g hg x hx => ?_⟩
    · exact hmapped x (h.unused x hx) fun hpart => h.cache range hmem x ⟨hrange x hpart, hx⟩
    · rcases List.mem_append.mp hg with hg | hg
      · obtain ⟨hin, hout⟩ := remaining_holds hlo hhi hg hx
        exact hmapped x (h.granted range hmem x hin) hout
      · exact hmapped x (h.granted g (List.mem_of_mem_erase hg) x hx) fun hpart =>
          hapart.1 g hg x ⟨hrange x hpart, hx⟩
    · refine List.pairwise_append.mpr ⟨remaining_pairwise hlo, hapart.2, fun b hb g hg x hx => ?_⟩
      exact hapart.1 g hg x ⟨(remaining_holds hlo hhi hb hx.1).1, hx.2⟩
    · rcases List.mem_append.mp hg with hg | hg
      · exact h.cache range hmem x ⟨(remaining_holds hlo hhi hg hx.1).1, hx.2⟩
      · exact h.cache g (List.mem_of_mem_erase hg) x hx
  exact ⟨hinv, fun b hb => absurd hb List.not_mem_nil, hinv.granted, fun _ _ heq => by cases heq⟩

theorem destroy_ok (h : ArenaSystemInv vm alignment sys) (hvm : 0 < vm) (hdvd : vm ∣ alignment) :
    StepOk policy vm alignment sys .destroy := by
  obtain ⟨released, hdestroy, hr⟩ := h.arena.destroy hvm hdvd
  simp only [StepOk, ArenaSystem.perform, hdestroy, Option.map_some, Option.isSome_some, Option.some.injEq,
    Prod.mk.injEq, true_and]
  rintro ret calls sys' ⟨rfl, rfl, rfl⟩ _
  have hinv := h.emptied hr
  exact ⟨hinv, hr.kept h, hinv.granted, fun _ _ heq => by cases heq⟩

theorem others_ok {mapped : Mapped} (h : ArenaSystemInv vm alignment sys)
    (ha : sys.Allowed alignment (.others mapped)) : StepOk policy vm alignment sys (.others mapped) := by
  refine ⟨rfl, fun ret calls sys' hp _ => ?_⟩
  simp only [ArenaSystem.perform, Option.some.injEq, Prod.mk.injEq] at hp
  obtain ⟨rfl, rfl, rfl⟩ := hp
  have hused := h.arena.used_le
  have hinv : ArenaSystemInv vm alignment { sys with mapped := mapped } := by
    refine ⟨h.arena, h.mapping, fun x hx => ?_, fun g hg x hx => ?_, h.apart, h.cache⟩
    · have hcache : sys.arena.cacheBuffer ≤ x ∧ x < sys.arena.cacheBuffer + sys.arena.cacheSize := by
        unfold Block.Holds Arena.unused at hx
        simp only at hx
        omega
      exact (ha x (.inr hcache)).trans (h.unused x hx)
    · exact (ha x (.inl ⟨g, hg, hx⟩)).trans (h.granted g hg x hx)
  exact ⟨hinv, fun b hb => absurd hb List.not_mem_nil, hinv.granted, fun _ _ heq => by cases heq⟩

theorem perform_ok (h : ArenaSystemInv vm alignment sys) (hvm : 0 < vm) (halign : 0 < alignment)
    (hdvd : vm ∣ alignment) (ha : sys.Allowed alignment action) : StepOk policy vm alignment sys action := by
  cases action with
  | allocate size answers => exact allocate_ok h hvm halign hdvd ha
  | release range part => exact release_ok h ha
  | destroy => exact destroy_ok h hvm hdvd
  | others mapped => exact others_ok h ha

theorem create_inv {capacity : Nat} {success : Bool} {arena : Arena} {mapped : Mapped}
    (halign : 0 < alignment) (hcapacity : vm ∣ capacity) (hbound : capacity + alignment < 2^64)
    (h : Arena.create fromSystem capacity alignment ⟨vm, 4096, 0, 0, 0⟩ = (success, arena, calls))
    (hsystem : Grants vm mapped calls) :
    ArenaSystemInv vm alignment ⟨arena, performAll mapped calls, mappings calls, []⟩ := by
  have hcreate : Arena.create fromSystem capacity alignment ⟨vm, 4096, 0, 0, 0⟩ =
      Arena.buildCache fromSystem capacity ⟨vm, alignment, 0, 0, 0⟩ :=
    if_neg (show ¬ (4096 &&& (pageAllocationGranularity - 1) ≠ 0) by decide)
  rw [hcreate] at h
  have hgrants : Grants vm mapped (Arena.buildCache fromSystem capacity ⟨vm, alignment, 0, 0, 0⟩).2.2 := by
    rw [h]
    exact hsystem
  have hspec := buildCache_spec halign hbound hcapacity rfl rfl hgrants
  rw [h] at hspec
  rcases hspec with heq | ⟨buffer, calls, heq, harena, hne, ht⟩
  · cases heq
    have hnone : ∀ x, ¬ (Arena.mk vm alignment 0 0 0).unused.Holds x := by
      rintro x ⟨hlo, hhi⟩
      exact absurd hhi (Nat.not_lt.mpr hlo)
    have harena : ArenaInv vm alignment ⟨vm, alignment, 0, 0, 0⟩ :=
      ⟨rfl, rfl, dvd_zero _, dvd_zero _, dvd_zero _, le_rfl, show 0 + 0 < 2^64 by norm_num,
        fun h0 => absurd rfl h0⟩
    exact ⟨harena, fun h0 => absurd rfl h0, fun x hx => absurd hx (hnone x),
      List.forall_mem_nil _, List.Pairwise.nil, List.forall_mem_nil _⟩
  · cases heq
    refine ⟨harena, fun _ => ?_, fun x hx => ht.mapped mapped hx, List.forall_mem_nil _,
      List.Pairwise.nil, List.forall_mem_nil _⟩
    obtain ⟨_, hcalls, _⟩ := ht.calls
    exact ⟨_, by rw [hcalls]; rfl, ht.inside⟩

theorem ArenaReachable.inv {capacity : Nat} (h : ArenaReachable policy vm capacity alignment sys)
    (hvm : 0 < vm) (halign : 0 < alignment) (hdvd : vm ∣ alignment) (hcapacity : vm ∣ capacity)
    (hbound : capacity + alignment < 2^64) : ArenaSystemInv vm alignment sys := by
  induction h with
  | create h hsystem => exact create_inv halign hcapacity hbound h hsystem
  | step _ ha hp hsystem ih => exact ((perform_ok ih hvm halign hdvd ha).2 _ _ _ hp hsystem).1

/-- In every run of an arena whose first cache fits in the address space, ranges that are
held are disjoint, the cache is never overdrawn, and every allowed step returns and is safe. -/
theorem arena_runs_safe {capacity : Nat} (hvm : 0 < vm) (halign : 0 < alignment) (hdvd : vm ∣ alignment)
    (hcapacity : vm ∣ capacity) (hbound : capacity + alignment < 2^64)
    (h : ArenaReachable policy vm capacity alignment sys) :
    sys.arena.cacheUsedSize ≤ sys.arena.cacheSize ∧ sys.granted.Pairwise Disjoint ∧
    ∀ action, sys.Allowed alignment action → (sys.perform policy action).isSome ∧
      ∀ ret calls sys', sys.perform policy action = some (ret, calls, sys') → Grants vm sys.mapped calls →
        StepSafe alignment sys action ret calls sys' := by
  have hinv := h.inv hvm halign hdvd hcapacity hbound
  refine ⟨hinv.arena.used_le, hinv.apart, fun action ha => ?_⟩
  obtain ⟨hsome, hstep⟩ := perform_ok hinv hvm halign hdvd ha
  exact ⟨hsome, fun ret calls sys' hp hsystem => (hstep ret calls sys' hp hsystem).2⟩

end
end

def mapsAt (address : Nat) : SystemAnswers := ⟨fun _ => address, fun _ => 0⟩

theorem perform_of_cached {policy : VirtualMemoryPolicy} {sys : ArenaSystem} {size ret : Nat}
    {answers : SystemAnswers} {arena : Arena} (h0 : ret ≠ 0)
    (halloc : sys.arena.allocate (allocateFromSystem policy answers) size = some (ret, arena, [])) :
    sys.perform policy (.allocate size answers) =
      some (ret, [], { sys with arena := arena, granted := ⟨ret, size⟩ :: sys.granted }) := by
  rw [ArenaSystem.perform, halloc, Option.map_some]
  dsimp only
  rw [if_neg h0]
  rfl

theorem arena_runs_safe_of_two :
    ∃ sys, ArenaReachable .default 4096 65536 8192 sys ∧ sys.granted = [⟨1056768, 8192⟩, ⟨1048576, 8192⟩] ∧
      sys.granted.Pairwise Disjoint := by
  have hcreate : Arena.create (allocateFromSystem .default (mapsAt 1048576)) 65536 8192
      ⟨4096, 4096, 0, 0, 0⟩ = (true, ⟨4096, 8192, 1048576, 65536, 0⟩,
        [.map ⟨1048576, 73728⟩, .unmap ⟨1114112, 8192⟩]) := by decide +kernel
  have h₀ := @ArenaReachable.create _ _ _ _ _ _ _ _ (fun _ => false) hcreate
    ⟨⟨by decide, by decide, fun _ _ => rfl⟩, trivial⟩
  have hallowed : ∀ sys, ArenaSystem.Allowed 8192 sys (.allocate 8192 (mapsAt 0)) :=
    fun _ => ⟨by decide, dvd_rfl, by decide⟩
  have hfirst : Arena.allocate (allocateFromSystem .default (mapsAt 0)) 8192
      ⟨4096, 8192, 1048576, 65536, 0⟩ = some (1048576, ⟨4096, 8192, 1048576, 65536, 8192⟩, []) := by
    decide +kernel
  have hsecond : Arena.allocate (allocateFromSystem .default (mapsAt 0)) 8192
      ⟨4096, 8192, 1048576, 65536, 8192⟩ = some (1056768, ⟨4096, 8192, 1048576, 65536, 16384⟩, []) := by
    decide +kernel
  have h₁ := h₀.step (hallowed _) (perform_of_cached (by decide) hfirst) trivial
  have h₂ := h₁.step (hallowed _) (perform_of_cached (by decide) hsecond) trivial
  exact ⟨_, h₂, rfl, (arena_runs_safe (by decide) (by decide) (by decide) (by decide) (by decide) h₂).2.1⟩

/-- A capacity so large that its sum with the alignment wraps around: the range the system maps
has one page, and the arena hands out two. -/
theorem arena_grant_outside_mapping :
    ∃ sys ret calls sys', ArenaReachable .default 4096 (2^64 - 4096) 8192 sys ∧
      sys.Allowed 8192 (.allocate 8192 (mapsAt 0)) ∧
      sys.perform .default (.allocate 8192 (mapsAt 0)) = some (ret, calls, sys') ∧
      Grants 4096 sys.mapped calls ∧
      ¬ StepSafe 8192 sys (.allocate 8192 (mapsAt 0)) ret calls sys' := by
  have hcreate : Arena.create (allocateFromSystem .default (mapsAt 1048576)) (2^64 - 4096) 8192
      ⟨4096, 4096, 0, 0, 0⟩ = (true, ⟨4096, 8192, 1048576, 2^64 - 4096, 0⟩,
        [.map ⟨1048576, 4096⟩, .unmap ⟨1044480, 8192⟩]) := by decide +kernel
  have h₀ := @ArenaReachable.create _ _ _ _ _ _ _ _ (fun _ => false) hcreate
    ⟨⟨by decide, by decide, fun _ _ => rfl⟩, trivial⟩
  have halloc : Arena.allocate (allocateFromSystem .default (mapsAt 0)) 8192
      ⟨4096, 8192, 1048576, 2^64 - 4096, 0⟩ =
        some (1048576, ⟨4096, 8192, 1048576, 2^64 - 4096, 8192⟩, []) := by
    decide +kernel
  refine ⟨_, _, _, _, h₀, ⟨by decide, dvd_rfl, by decide⟩, perform_of_cached (by decide) halloc, trivial,
    fun h => ?_⟩
  obtain ⟨_, b, hb, _, hend⟩ := h.result _ _ rfl (by decide)
  cases hb
  exact absurd hend (by decide)

end Metamalloc.Arenas
