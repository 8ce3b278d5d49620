import Mathlib.Algebra.Order.BigOperators.Group.Finset
import Mathlib.Algebra.Ring.Nat
import Mathlib.Data.List.Perm.Basic
import Mathlib.Order.Interval.Finset.Nat

/-! Blocks of consecutive naturals that share out an interval without overlap. -/
namespace Metamalloc.Library.Tiling

structure Block where
  start : Nat
  size : Nat
  deriving DecidableEq

namespace Block

def Holds (b : Block) (x : Nat) : Prop := b.start ≤ x ∧ x < b.start + b.size
def Apart (b c : Block) : Prop := b.start + b.size ≤ c.start ∨ c.start + c.size ≤ b.start

theorem Apart.symm {b c : Block} (h : b.Apart c) : c.Apart b := Or.symm h

end Block

/-- The blocks are disjoint, nonempty and cover exactly `[lo, hi)`. -/
structure Tiles (blocks : List Block) (lo hi : Nat) : Prop where
  apart : blocks.Pairwise Block.Apart
  pos : ∀ b ∈ blocks, 0 < b.size
  cover : ∀ x, (∃ b ∈ blocks, b.Holds x) ↔ lo ≤ x ∧ x < hi

/-- Every block ends before the ones behind it in the list start, with a gap in between. -/
def Separated (blocks : List Block) : Prop := blocks.Pairwise fun b c => b.start + b.size < c.start

variable {blocks blocks' : List Block} {lo hi a n k : Nat}

theorem tiles_singleton (h : lo < hi) : Tiles [⟨lo, hi - lo⟩] lo hi := by
  refine ⟨by simp, by simpa [Nat.sub_pos_iff_lt] using h, fun x => ?_⟩
  simp only [List.mem_singleton, exists_eq_left, Block.Holds]
  omega

namespace Tiles

theorem perm (h : Tiles blocks lo hi) (hp : blocks.Perm blocks') : Tiles blocks' lo hi := by
  refine ⟨(hp.pairwise_iff Block.Apart.symm).mp h.apart, fun b hb => h.pos b (hp.symm.subset hb), ?_⟩
  intro x
  rw [← h.cover x]
  exact exists_congr fun b => and_congr_left fun _ => hp.symm.mem_iff

/-- Cutting a block in two keeps the tiling; read backwards, so does merging neighbours. -/
theorem split_iff (hn : 0 < n) (hk : 0 < k) :
    Tiles (⟨a, n + k⟩ :: blocks) lo hi ↔ Tiles (⟨a, n⟩ :: ⟨a + n, k⟩ :: blocks) lo hi := by
  have hcover : ∀ x, (∃ b ∈ (⟨a, n⟩ :: ⟨a + n, k⟩ :: blocks : List Block), b.Holds x) ↔
      ∃ b ∈ (⟨a, n + k⟩ :: blocks : List Block), b.Holds x := by
    intro x
    simp only [List.mem_cons, exists_eq_or_imp, Block.Holds]
    rw [← or_assoc]
    refine or_congr_left ?_
    omega
  constructor
  · rintro ⟨hap, hpos, hcov⟩
    rw [List.pairwise_cons] at hap
    refine ⟨?_, ?_, fun x => (hcover x).trans (hcov x)⟩
    · simp only [List.pairwise_cons, List.mem_cons, forall_eq_or_imp]
      refine ⟨⟨.inl le_rfl, fun b hb => ?_⟩, fun b hb => ?_, hap.2⟩ <;>
      · have := hap.1 b hb
        simp only [Block.Apart] at this ⊢
        omega
    · intro b hb
      simp only [List.mem_cons] at hb
      rcases hb with rfl | rfl | hb
      · exact hn
      · exact hk
      · exact hpos b (List.mem_cons_of_mem _ hb)
  · rintro ⟨hap, hpos, hcov⟩
    simp only [List.pairwise_cons, List.mem_cons, forall_eq_or_imp] at hap
    refine ⟨?_, ?_, fun x => (hcover x).symm.trans (hcov x)⟩
    · rw [List.pairwise_cons]
      refine ⟨fun b hb => ?_, hap.2.2⟩
      have h1 := hap.1.2 b hb
      have h2 := hap.2.1 b hb
      have h3 := hpos b (by simp [hb])
      simp only [Block.Apart] at h1 h2 ⊢
      omega
    · intro b hb
      rcases List.mem_cons.mp hb with rfl | hb
      · exact Nat.add_pos_left hn k
      · exact hpos b (by simp [hb])

theorem inside (h : Tiles blocks lo hi) {b : Block} (hb : b ∈ blocks) :
    lo ≤ b.start ∧ b.start + b.size ≤ hi := by
  have hp := h.pos b hb
  have h1 := (h.cover b.start).mp ⟨b, hb, le_rfl, by omega⟩
  have h2 := (h.cover (b.start + b.size - 1)).mp ⟨b, hb, by omega, by omega⟩
  omega

theorem apart_cons {b : Block} (h : Tiles (b :: blocks) lo hi) {c : Block} (hc : c ∈ blocks) :
    b.Apart c := (List.pairwise_cons.mp h.apart).1 c hc

/-- Blocks with gaps between them cover an interval only if there is a single one. -/
theorem eq_singleton (h : Tiles blocks lo hi) (hsep : Separated blocks) (hlt : lo < hi) :
    blocks = [⟨lo, hi - lo⟩] := by
  cases blocks with
  | nil => simpa using (h.cover lo).mpr ⟨le_rfl, hlt⟩
  | cons b rest =>
    obtain ⟨hb, _⟩ := List.pairwise_cons.mp hsep
    have hin := h.inside List.mem_cons_self
    -- the block that holds `lo` is the first, and nothing can hold the byte behind it
    have hfirst : ∀ x, lo ≤ x → x < hi → x ≤ b.start + b.size → b.Holds x := by
      intro x hlo hhi hle
      obtain ⟨c, hc, hholds⟩ := (h.cover x).mpr ⟨hlo, hhi⟩
      rcases List.mem_cons.mp hc with rfl | hc
      · exact hholds
      · have hgap := hb c hc
        simp only [Block.Holds] at hholds
        omega
    have hstart := hfirst lo le_rfl hlt (by omega)
    simp only [Block.Holds] at hfirst hstart
    have hend : b.start + b.size = hi := by
      by_contra hne
      have := hfirst (b.start + b.size) (by omega) (by omega) le_rfl
      omega
    have hrest : rest = [] := by
      apply List.eq_nil_iff_forall_not_mem.mpr
      intro c hc
      have hgap := hb c hc
      have hcin := h.inside (List.mem_cons_of_mem b hc)
      omega
    obtain ⟨start, size⟩ := b
    dsimp only at hin hstart hend
    rw [hrest, List.cons.injEq, Block.mk.injEq]
    exact ⟨⟨by omega, by omega⟩, rfl⟩

private def union (blocks : List Block) : Finset Nat :=
  blocks.foldr (fun b s => Finset.Ico b.start (b.start + b.size) ∪ s) ∅

private theorem mem_union (x : Nat) : x ∈ union blocks ↔ ∃ b ∈ blocks, b.Holds x := by
  induction blocks with
  | nil => simp [union]
  | cons b blocks ih =>
    rw [union, List.foldr_cons, Finset.mem_union, Finset.mem_Ico, List.exists_mem_cons_iff, ← ih]
    rfl

private theorem card_union (h : blocks.Pairwise Block.Apart) :
    (union blocks).card = (blocks.map Block.size).sum := by
  induction blocks with
  | nil => rfl
  | cons b blocks ih =>
    obtain ⟨hb, h⟩ := List.pairwise_cons.mp h
    have hd : Disjoint (Finset.Ico b.start (b.start + b.size)) (union blocks) := by
      rw [Finset.disjoint_left]
      intro x hx hu
      obtain ⟨c, hc, hcx⟩ := (mem_union x).mp hu
      have ha := hb c hc
      rw [Finset.mem_Ico] at hx
      simp only [Block.Apart, Block.Holds] at ha hcx
      omega
    rw [List.map_cons, List.sum_cons, ← ih h]
    change (_ ∪ union blocks).card = _
    rw [Finset.card_union_of_disjoint hd, Nat.card_Ico, Nat.add_sub_cancel_left]

theorem sum_size (h : Tiles blocks lo hi) : (blocks.map Block.size).sum = hi - lo := by
  rw [← card_union h.apart, ← Nat.card_Ico]
  congr 1
  ext x
  rw [mem_union, h.cover, Finset.mem_Ico]

end Tiles
end Metamalloc.Library.Tiling
