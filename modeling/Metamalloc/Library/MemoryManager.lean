import Mathlib.Data.Set.Insert
import Mathlib.Data.Set.Pairwise.Basic
import Metamalloc.Library.Refinement
import Metamalloc.Library.Tiling

/-! What a memory manager is for: clients hold blocks that do not overlap, and find in them what they have stored. -/
namespace Metamalloc.Library.MemoryManager
open Refinement Tiling

/-- The blocks that clients hold, and the bytes in them. -/
structure Manager where
  blocks : Set Block
  bytes : Nat → Option UInt8
  apart : blocks.Pairwise Block.Apart
  nonnull : ∀ b ∈ blocks, b.start ≠ 0
  held : ∀ x, (bytes x).isSome ↔ ∃ b ∈ blocks, b.Holds x

inductive Event where
  /-- A request for so many bytes got a block. -/
  | allocated (size : Nat) (b : Block)
  | released (b : Block)
  | stored (address : Nat) (value : UInt8)
  | loaded (address : Nat) (value : UInt8)
  deriving DecidableEq

def Kept (blocks : Set Block) (m m' : Manager) : Prop :=
  ∀ b ∈ blocks, ∀ x, b.Holds x → m'.bytes x = m.bytes x

inductive Step (m : Manager) : Event → Manager → Prop
  | allocate {m' : Manager} {size : Nat} {b : Block} (hb : b ∉ m.blocks) (hsize : size ≤ b.size)
      (hblocks : m'.blocks = insert b m.blocks) (hkept : Kept m.blocks m m') : Step m (.allocated size b) m'
  | release {m' : Manager} {b : Block} (hb : b ∈ m.blocks) (hblocks : m'.blocks = m.blocks \ {b})
      (hkept : Kept m'.blocks m m') : Step m (.released b) m'
  | store {m' : Manager} {address : Nat} {value : UInt8} (ha : (m.bytes address).isSome)
      (hblocks : m'.blocks = m.blocks) (hbytes : m'.bytes = Function.update m.bytes address (some value)) :
      Step m (.stored address value) m'
  | load {address : Nat} {value : UInt8} (ha : m.bytes address = some value) : Step m (.loaded address value) m

/-- The manager starts without blocks, and none of its steps is internal. -/
def system : TransitionSystem Manager Event where
  start := fun m => m.blocks = ∅
  step := fun m e m' => ∃ event, e = some event ∧ Step m event m'

section
variable {m m' : Manager} {e : Event} {trace : List Event} {address : Nat} {v w : UInt8} {b : Block}

def Event.Leaves (address : Nat) : Event → Prop
  | .released b => ¬ b.Holds address
  | .stored address' _ => address' ≠ address
  | _ => True

theorem Step.bytes_eq (h : Step m e m') (hv : m.bytes address = some v) (he : e.Leaves address) :
    m'.bytes address = some v := by
  obtain ⟨b, hb, hin⟩ := (m.held address).mp (Option.isSome_iff_exists.mpr ⟨v, hv⟩)
  cases h with
  | allocate _ _ _ hkept => exact (hkept b hb address hin).trans hv
  | release _ hblocks hkept =>
    refine (hkept b ?_ address hin).trans hv
    rw [hblocks]
    refine ⟨hb, ?_⟩
    rintro rfl
    exact he hin
  | store _ _ hbytes =>
    rw [hbytes, Function.update_of_ne he.symm, hv]
  | load => exact hv

theorem Step.mem_blocks (h : Step m e m') (hb : b ∈ m.blocks) (he : e ≠ .released b) : b ∈ m'.blocks := by
  cases h with
  | allocate _ _ hblocks _ => exact hblocks ▸ Set.mem_insert_of_mem _ hb
  | release _ hblocks _ =>
    rw [hblocks]
    refine ⟨hb, ?_⟩
    rintro rfl
    exact he rfl
  | store _ hblocks _ => exact hblocks ▸ hb
  | load => exact hb

/-- The last event of a run belongs to its last step. -/
theorem run_concat (h : Run system (trace ++ [e]) m) : ∃ m₀, Run system trace m₀ ∧ Step m₀ e m := by
  generalize htrace : trace ++ [e] = whole at h
  cases h with
  | start => exact absurd htrace (List.append_ne_nil_of_right_ne_nil _ (List.cons_ne_nil _ _))
  | step hr hs =>
    obtain ⟨event, rfl, hstep⟩ := hs
    rw [Option.toList_some] at htrace
    obtain ⟨rfl, hevent⟩ := List.append_inj' htrace rfl
    obtain rfl := List.singleton_inj.mp hevent
    exact ⟨_, hr, hstep⟩

theorem bytes_behind_store {between : List Event} (h : Run system (trace ++ .stored address v :: between) m)
    (hbetween : ∀ e ∈ between, e.Leaves address) : m.bytes address = some v := by
  induction between using List.reverseRecOn generalizing m with
  | nil =>
    obtain ⟨m₀, -, hstep⟩ := run_concat h
    cases hstep with
    | store _ _ hbytes => rw [hbytes, Function.update_self]
  | append_singleton between e ih =>
    rw [← List.cons_append, ← List.append_assoc] at h
    obtain ⟨m₀, hr, hstep⟩ := run_concat h
    have hbefore := ih hr fun e he => hbetween e (List.mem_append_left _ he)
    exact hstep.bytes_eq hbefore (hbetween e (List.mem_append_right _ List.mem_cons_self))

theorem mem_blocks_behind_allocation {size : Nat} {between : List Event}
    (h : Run system (trace ++ .allocated size b :: between) m) (hbetween : .released b ∉ between) : b ∈ m.blocks := by
  induction between using List.reverseRecOn generalizing m with
  | nil =>
    obtain ⟨m₀, -, hstep⟩ := run_concat h
    cases hstep with
    | allocate _ _ hblocks _ => exact hblocks ▸ Set.mem_insert _ _
  | append_singleton between e ih =>
    rw [← List.cons_append, ← List.append_assoc] at h
    obtain ⟨m₀, hr, hstep⟩ := run_concat h
    have hbefore := ih hr fun he => hbetween (List.mem_append_left _ he)
    refine hstep.mem_blocks hbefore ?_
    rintro rfl
    exact hbetween (List.mem_append_right _ List.mem_cons_self)

theorem run_front {behind : List Event} (h : Run system (trace ++ behind) m) : ∃ m₀, Run system trace m₀ := by
  induction behind using List.reverseRecOn generalizing m with
  | nil => exact ⟨m, List.append_nil trace ▸ h⟩
  | append_singleton behind e ih =>
    rw [← List.append_assoc] at h
    obtain ⟨m₀, hr, -⟩ := run_concat h
    exact ih hr

/-- The clients can use what they are given. -/
structure Trusted (trace : List Event) : Prop where
  /-- A client loads what was stored last, as long as the block has not been released. -/
  loads : ∀ before between behind address v w,
    trace = before ++ .stored address v :: between ++ [.loaded address w] ++ behind →
    (∀ e ∈ between, e.Leaves address) → w = v
  /-- A new block does not overlap with one that is still held. -/
  apart : ∀ before between behind size b size' b',
    trace = before ++ .allocated size b :: between ++ [.allocated size' b'] ++ behind →
    .released b ∉ between → b.Apart b'
  fits : ∀ before behind size b, trace = before ++ [.allocated size b] ++ behind → size ≤ b.size ∧ b.start ≠ 0

theorem trusted (h : Run system trace m) : Trusted trace := by
  constructor
  · rintro before between behind address v w rfl hbetween
    obtain ⟨m₁, h₁⟩ := run_front h
    obtain ⟨m₀, hr, hstep⟩ := run_concat h₁
    have hstored := bytes_behind_store hr hbetween
    cases hstep with
    | load hloaded => exact Option.some.inj (hloaded.symm.trans hstored)
  · rintro before between behind size b size' b' rfl hbetween
    obtain ⟨m₁, h₁⟩ := run_front h
    obtain ⟨m₀, hr, hstep⟩ := run_concat h₁
    have hmem := mem_blocks_behind_allocation hr hbetween
    cases hstep with
    | allocate hnew _ hblocks _ =>
      refine m₁.apart (hblocks ▸ Set.mem_insert_of_mem _ hmem) (hblocks ▸ Set.mem_insert _ _) ?_
      rintro rfl
      exact hnew hmem
  · rintro before behind size b rfl
    obtain ⟨m₁, h₁⟩ := run_front h
    obtain ⟨m₀, -, hstep⟩ := run_concat h₁
    cases hstep with
    | allocate _ hsize hblocks _ => exact ⟨hsize, m₁.nonnull b (hblocks ▸ Set.mem_insert _ _)⟩

end

/-- What clients see of a state. -/
structure View (σ : Type*) where
  blocks : σ → Set Block
  bytes : σ → Nat → UInt8

namespace View
variable {σ : Type*} (V : View σ)

structure Valid (s : σ) : Prop where
  apart : (V.blocks s).Pairwise Block.Apart
  nonnull : ∀ b ∈ V.blocks s, b.start ≠ 0

def Keeps (blocks : Set Block) (s s' : σ) : Prop := ∀ b ∈ blocks, ∀ x, b.Holds x → V.bytes s' x = V.bytes s x

/-- What an event says about the step that shows it. -/
def Changes (s s' : σ) : Option Event → Prop
  | none => V.blocks s' = V.blocks s ∧ V.Keeps (V.blocks s) s s'
  | some (.allocated size b) => b ∉ V.blocks s ∧ size ≤ b.size ∧ V.blocks s' = insert b (V.blocks s) ∧
      V.Keeps (V.blocks s) s s'
  | some (.released b) => b ∈ V.blocks s ∧ V.blocks s' = V.blocks s \ {b} ∧ V.Keeps (V.blocks s') s s'
  | some (.stored address value) => (∃ b ∈ V.blocks s, b.Holds address) ∧ V.blocks s' = V.blocks s ∧
      V.bytes s' = Function.update (V.bytes s) address value
  | some (.loaded address value) => (∃ b ∈ V.blocks s, b.Holds address) ∧ s' = s ∧ V.bytes s address = value

def Shows (s : σ) (m : Manager) : Prop :=
  m.blocks = V.blocks s ∧ ∀ b ∈ V.blocks s, ∀ x, b.Holds x → m.bytes x = some (V.bytes s x)

open scoped Classical in
noncomputable def manager (s : σ) (h : V.Valid s) : Manager where
  blocks := V.blocks s
  bytes := fun x => if ∃ b ∈ V.blocks s, b.Holds x then some (V.bytes s x) else none
  apart := h.apart
  nonnull := h.nonnull
  held := by
    intro x
    split
    · next hx => exact iff_of_true rfl hx
    · next hx => exact iff_of_false (by simp) hx

section
variable {V} {s s' : σ} {m : Manager} {e : Option Event} {C : TransitionSystem σ Event} {Inv : σ → Prop}

theorem shows_manager (h : V.Valid s) : V.Shows s (V.manager s h) :=
  ⟨rfl, fun b hb _ hx => if_pos ⟨b, hb, hx⟩⟩

theorem Keeps.kept {blocks : Set Block} {m' : Manager} (h : V.Keeps blocks s s') (hm : V.Shows s m)
    (hm' : V.Shows s' m') (hold : blocks ⊆ V.blocks s) (hnew : blocks ⊆ V.blocks s') : Kept blocks m m' := by
  intro b hb x hx
  rw [hm'.2 b (hnew hb) x hx, hm.2 b (hold hb) x hx, h b hb x hx]

theorem Shows.bytes_eq_none {x : Nat} (hm : V.Shows s m) (hx : ¬ ∃ b ∈ V.blocks s, b.Holds x) : m.bytes x = none := by
  rw [← Option.not_isSome_iff_eq_none, m.held, hm.1]
  exact hx

theorem Shows.store {m' : Manager} {address : Nat} {value : UInt8} (hm : V.Shows s m) (hm' : V.Shows s' m')
    (haddress : ∃ b ∈ V.blocks s, b.Holds address) (hblocks : V.blocks s' = V.blocks s)
    (hbytes : V.bytes s' = Function.update (V.bytes s) address value) : Step m (.stored address value) m' := by
  have hheld : (m.bytes address).isSome := by
    rw [m.held, hm.1]
    exact haddress
  refine .store hheld (by rw [hm'.1, hm.1, hblocks]) (funext fun x => ?_)
  by_cases hx : ∃ b ∈ V.blocks s, b.Holds x
  · obtain ⟨b, hb, hin⟩ := hx
    rw [hm'.2 b (hblocks ▸ hb) x hin, hbytes]
    by_cases heq : x = address
    · rw [heq, Function.update_self, Function.update_self]
    · rw [Function.update_of_ne heq, Function.update_of_ne heq, hm.2 b hb x hin]
  · have hne : x ≠ address := by
      rintro rfl
      exact hx haddress
    rw [Function.update_of_ne hne, hm.bytes_eq_none hx, hm'.bytes_eq_none (by rwa [hblocks])]

theorem Shows.step (hm : V.Shows s m) (hvalid : V.Valid s') (h : V.Changes s s' e) :
    ∃ m', V.Shows s' m' ∧ (system.step m e m' ∨ e = none ∧ m' = m) := by
  have hm' := shows_manager hvalid
  cases e with
  | none =>
    obtain ⟨hblocks, hkeeps⟩ := h
    refine ⟨m, ⟨hm.1.trans hblocks.symm, fun b hb x hx => ?_⟩, .inr ⟨rfl, rfl⟩⟩
    rw [hblocks] at hb
    rw [hm.2 b hb x hx, hkeeps b hb x hx]
  | some e =>
    cases e with
    | allocated size b =>
      obtain ⟨hnew, hsize, hblocks, hkeeps⟩ := h
      have hsub : V.blocks s ⊆ V.blocks s' := hblocks ▸ Set.subset_insert _ _
      refine ⟨_, hm', .inl ⟨_, rfl, .allocate (hm.1 ▸ hnew) hsize (by rw [hm'.1, hm.1, hblocks]) ?_⟩⟩
      rw [hm.1]
      exact hkeeps.kept hm hm' subset_rfl hsub
    | released b =>
      obtain ⟨hb, hblocks, hkeeps⟩ := h
      have hsub : V.blocks s' ⊆ V.blocks s := hblocks ▸ Set.sdiff_subset
      refine ⟨_, hm', .inl ⟨_, rfl, .release (hm.1 ▸ hb) (by rw [hm'.1, hm.1, hblocks]) ?_⟩⟩
      exact hkeeps.kept hm hm' hsub subset_rfl
    | stored address value =>
      obtain ⟨haddress, hblocks, hbytes⟩ := h
      exact ⟨_, hm', .inl ⟨_, rfl, hm.store hm' haddress hblocks hbytes⟩⟩
    | loaded address value =>
      obtain ⟨⟨b, hb, hin⟩, rfl, rfl⟩ := h
      exact ⟨m, hm, .inl ⟨_, rfl, .load (hm.2 b hb address hin)⟩⟩

/-- A system behaves as a memory manager when its steps change what they say, from states with an invariant under
which the blocks are valid. -/
theorem simulates (hstart : ∀ s, C.start s → Inv s ∧ V.blocks s = ∅) (hvalid : ∀ s, Inv s → V.Valid s)
    (hstep : ∀ s e s', Inv s → C.step s e s' → Inv s' ∧ V.Changes s s' e) :
    Simulation C system fun s m => Inv s ∧ V.Shows s m := by
  constructor
  · intro s hs
    obtain ⟨hinv, hempty⟩ := hstart s hs
    exact ⟨V.manager s (hvalid s hinv), hempty, hinv, shows_manager _⟩
  · intro s m e s' hrel hs
    obtain ⟨hinv, hchanges⟩ := hstep s e s' hrel.1 hs
    obtain ⟨m', hm', hmove⟩ := hrel.2.step (hvalid s' hinv) hchanges
    exact ⟨m', ⟨hinv, hm'⟩, hmove⟩

end
end View
end Metamalloc.Library.MemoryManager
