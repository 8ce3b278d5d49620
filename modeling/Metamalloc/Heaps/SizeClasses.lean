import Mathlib.Data.Nat.Log
import Metamalloc.Library.Word64

/-! Powers of two: rounding up to one, its logarithm, and the bins of a heap that keeps
one bin for each of them. -/
namespace Metamalloc.Heaps
open Library.Word64

def orShift (input shift : Nat) : Nat := input ||| input >>> shift

/-- Every bit below the highest one is set by shifts of 1, 2, 4, 8 and 16. -/
def getFirstPow2Of (input : Nat) : Nat :=
  if input ≤ 1 then 1
  else add64 (orShift (orShift (orShift (orShift (orShift (input - 1) 1) 2) 4) 8) 16) 1

def log2PowerOfTwo (input : Nat) : Nat := Nat.log2 input

/-- The shifts by one that leave something, counted; a word takes fewer than 64 of them. -/
def countShifts : (fuel n result : Nat) → Nat
  | 0, _, result => result
  | fuel+1, n, result => if n >>> 1 = 0 then result else countShifts fuel (n >>> 1) (result + 1)

def log2 (n : Nat) : Nat := countShifts 64 n 0

def moduloPow2 (first second : Nat) : Nat := first &&& (second - 1)
def modulo (first second : Nat) : Nat := first - first / second * second

abbrev smallObjectMinSizeClass : Nat := 16
abbrev smallObjectBinCount : Nat := 8
abbrev maxSmallObjectBinIndex : Nat := smallObjectBinCount - 1
abbrev largestSmallObjectSizeClass : Nat := 2048

def getPow2BinIndexFromSize (size : Nat) : Fin smallObjectBinCount :=
  let index := sub64 (log2PowerOfTwo size) (log2PowerOfTwo smallObjectMinSizeClass)
  if h : maxSmallObjectBinIndex < index then ⟨maxSmallObjectBinIndex, by decide⟩
  else ⟨index, Nat.lt_of_le_of_lt (Nat.le_of_not_lt h) (by decide)⟩

def adjustSizeForSmallObjectBin (originalSize : Nat) : Nat :=
  let adjustedSize := getFirstPow2Of originalSize
  if adjustedSize < smallObjectMinSizeClass then smallObjectMinSizeClass else adjustedSize

def binSizeClass (i : Fin smallObjectBinCount) : Nat := 2^(i.val + 4)

section
variable {x y i w : Nat}

theorem testBit_orShift (x d i : Nat) :
    (orShift x d).testBit i = (x.testBit i || x.testBit (i + d)) := by
  rw [orShift, Nat.testBit_or, Nat.testBit_shiftRight, Nat.add_comm d i]

/-- Each bit of `y` says whether `x` has a bit set in the window of `w` bits from there on. -/
def Smeared (w x y : Nat) : Prop := ∀ i, y.testBit i = true ↔ ∃ j < w, x.testBit (i + j) = true

theorem Smeared.orShift (h : Smeared w x y) : Smeared (2 * w) x (orShift y w) := by
  intro i
  rw [testBit_orShift, Bool.or_eq_true, h i, h (i + w)]
  constructor
  · rintro (⟨j, hj, hb⟩ | ⟨j, hj, hb⟩)
    · exact ⟨j, by omega, hb⟩
    · exact ⟨w + j, by omega, by rwa [← Nat.add_assoc]⟩
  · rintro ⟨j, hj, hb⟩
    by_cases hw : j < w
    · exact .inl ⟨j, hw, hb⟩
    · refine .inr ⟨j - w, by omega, ?_⟩
      rwa [show i + w + (j - w) = i + j by omega]

def smear (x : Nat) : Nat := orShift (orShift (orShift (orShift (orShift x 1) 2) 4) 8) 16

theorem smeared_smear (x : Nat) : Smeared 32 x (smear x) := by
  have hstart : Smeared 1 x x := by
    intro i
    constructor
    · exact fun hb => ⟨0, by omega, hb⟩
    · rintro ⟨j, hj, hb⟩
      obtain rfl : j = 0 := by omega
      exact hb
  exact hstart.orShift.orShift.orShift.orShift.orShift

theorem le_smear (x : Nat) : x ≤ smear x := by
  have hle (y d : Nat) : y ≤ orShift y d := Nat.left_le_or
  exact ((((hle x 1).trans (hle _ 2)).trans (hle _ 4)).trans (hle _ 8)).trans (hle _ 16)

theorem smear_lt (h : x < 2^w) : smear x < 2^w := by
  have hlt {y d : Nat} (hy : y < 2^w) : orShift y d < 2^w :=
    Nat.or_lt_two_pow hy (Nat.lt_of_le_of_lt (Nat.shiftRight_le _ _) hy)
  exact hlt (hlt (hlt (hlt (hlt h))))

/-- The shifts set all of the lowest bits just when each of them has a bit that is set among the 32 from there on. -/
theorem smear_eq_iff (h : x < 2^w) : smear x = 2^w - 1 ↔ ∀ i < w, ∃ j < 32, x.testBit (i + j) = true := by
  have hsmeared := smeared_smear x
  constructor
  · intro heq i hi
    refine (hsmeared i).mp ?_
    rw [heq, Nat.testBit_two_pow_sub_one]
    exact decide_eq_true hi
  · intro hrun
    apply Nat.eq_of_testBit_eq
    intro i
    rw [Nat.testBit_two_pow_sub_one]
    by_cases hi : i < w
    · rw [decide_eq_true hi]
      exact (hsmeared i).mpr (hrun i hi)
    · rw [decide_eq_false hi]
      exact Nat.testBit_lt_two_pow ((smear_lt h).trans_le (Nat.pow_le_pow_right (by decide) (Nat.not_lt.mp hi)))

/-- No 32 bits in a row are zero below the highest bit that is set. -/
def NoInnerZeroRun (x : Nat) : Prop := ∀ i, 2^i ≤ x → ∃ j < 32, x.testBit (i + j) = true

theorem noInnerZeroRun_of_lt (h : x < 2^32) : NoInnerZeroRun x := by
  intro i hi
  have hx : x ≠ 0 := (Nat.two_pow_pos i).trans_le hi |>.ne'
  have hlog : Nat.log2 x < 32 := (Nat.log2_lt hx).mpr h
  have hle : i ≤ Nat.log2 x := (Nat.le_log2 hx).mpr hi
  refine ⟨Nat.log2 x - i, by omega, ?_⟩
  rw [Nat.add_sub_cancel' hle]
  exact Nat.testBit_log2 hx

/-- Up to `2^63` nothing wraps around, and the next power of two is not passed. -/
theorem getFirstPow2Of_le {input : Nat} (h1 : 1 < input) (h63 : input ≤ 2^63) :
    getFirstPow2Of input = smear (input - 1) + 1 ∧ getFirstPow2Of input ≤ 2^(Nat.log2 (input - 1) + 1) := by
  have hlt : smear (input - 1) < 2^63 := smear_lt (by omega)
  have hpow : smear (input - 1) < 2^(Nat.log2 (input - 1) + 1) := smear_lt Nat.lt_log2_self
  have heq : getFirstPow2Of input = add64 (smear (input - 1)) 1 := if_neg (by omega)
  rw [heq, add64_of_lt (by omega)]
  exact ⟨rfl, hpow⟩

/-- It is reached just when the five shifts reach every bit below the highest one. -/
theorem getFirstPow2Of_eq_iff {input : Nat} (h1 : 1 < input) (h63 : input ≤ 2^63) :
    getFirstPow2Of input = 2^(Nat.log2 (input - 1) + 1) ↔ NoInnerZeroRun (input - 1) := by
  have hx : input - 1 ≠ 0 := by omega
  have hpos := Nat.two_pow_pos (Nat.log2 (input - 1) + 1)
  have hall : getFirstPow2Of input = 2^(Nat.log2 (input - 1) + 1) ↔
      smear (input - 1) = 2^(Nat.log2 (input - 1) + 1) - 1 := by
    rw [(getFirstPow2Of_le h1 h63).1]
    omega
  rw [hall, smear_eq_iff Nat.lt_log2_self]
  refine forall_congr' fun i => ?_
  rw [Nat.lt_succ_iff, Nat.le_log2 hx]

/-- Up to `2^32` the five shifts reach every bit. -/
theorem getFirstPow2Of_eq {input : Nat} (h1 : 1 < input) (h32 : input ≤ 2^32) :
    getFirstPow2Of input = 2^(Nat.log2 (input - 1) + 1) :=
  (getFirstPow2Of_eq_iff h1 (by omega)).mpr (noInnerZeroRun_of_lt (by omega))

theorem getFirstPow2Of_bounds {input : Nat} (h1 : 1 < input) (h32 : input ≤ 2^32) :
    input ≤ getFirstPow2Of input ∧ getFirstPow2Of input < 2 * input := by
  have hlog := Nat.lt_log2_self (n := input - 1)
  have hle := Nat.log2_self_le (by omega : input - 1 ≠ 0)
  rw [getFirstPow2Of_eq h1 h32]
  rw [Nat.pow_succ] at hlog ⊢
  omega

/-- No 32 bits in a row are zero, the top bit of the word included. -/
def NoZeroRun (x : Nat) : Prop := ∀ i < 64, ∃ j < 32, x.testBit (i + j) = true

/-- Rounding up either wraps around to zero or does not go below the input. -/
theorem getFirstPow2Of_cases {input : Nat} (h1 : 1 < input) (hword : input < 2^64) :
    (NoZeroRun (input - 1) ∧ getFirstPow2Of input = 0) ∨
      (¬ NoZeroRun (input - 1) ∧ input ≤ getFirstPow2Of input ∧ getFirstPow2Of input < 2^64) := by
  have hlt : smear (input - 1) < 2^64 := smear_lt (by omega)
  have hle := le_smear (input - 1)
  have heq : getFirstPow2Of input = add64 (smear (input - 1)) 1 := if_neg (by omega)
  rw [heq, NoZeroRun, ← smear_eq_iff (by omega)]
  by_cases hall : smear (input - 1) = 2^64 - 1
  · exact .inl ⟨hall, add64_of_eq (by omega)⟩
  · rw [add64_of_lt (by omega)]
    exact .inr ⟨hall, by omega, by omega⟩

theorem countShifts_eq {fuel n : Nat} (result : Nat) (h : n < 2^fuel) :
    countShifts fuel n result = result + Nat.log2 n := by
  induction fuel generalizing n result with
  | zero =>
    obtain rfl : n = 0 := by simpa using h
    rfl
  | succ fuel ih =>
    have hshift : n >>> 1 = n / 2 := Nat.shiftRight_eq_div_pow n 1
    rw [countShifts, Nat.log2_def, hshift]
    by_cases h2 : 2 ≤ n
    · rw [if_neg (by omega), if_pos h2, ih _ (by omega)]
      omega
    · rw [if_pos (by omega), if_neg h2]
      rfl

theorem log2_eq {n : Nat} (h : n < 2^64) : log2 n = Nat.log2 n := by
  rw [log2, countShifts_eq 0 h, Nat.zero_add]

theorem getPow2BinIndexFromSize_binSizeClass (i : Fin smallObjectBinCount) :
    getPow2BinIndexFromSize (binSizeClass i) = i := by
  revert i
  decide +kernel

/-- A small request goes to a bin whose chunks hold it. -/
theorem adjustSizeForSmallObjectBin_spec {size : Nat} (h : size ≤ largestSmallObjectSizeClass) :
    ∃ i, adjustSizeForSmallObjectBin size = binSizeClass i ∧ size ≤ binSizeClass i := by
  by_cases h16 : size ≤ 16
  · refine ⟨0, ?_, h16⟩
    clear h
    revert size
    decide +kernel
  · have h2048 : size ≤ 2048 := h
    have hlo : 4 ≤ Nat.log2 (size - 1) := (Nat.le_log2 (by omega)).mpr (by omega)
    have hhi : Nat.log2 (size - 1) < 11 := (Nat.log2_lt (by omega)).mpr (by omega)
    have heq := getFirstPow2Of_eq (by omega : 1 < size) (by omega)
    have hle := (getFirstPow2Of_bounds (by omega : 1 < size) (by omega)).1
    have hclass : binSizeClass ⟨Nat.log2 (size - 1) - 3, by simp only [smallObjectBinCount]; omega⟩ =
        getFirstPow2Of size := by
      rw [heq, binSizeClass]
      congr 1
      dsimp only
      omega
    refine ⟨_, ?_, hclass ▸ hle⟩
    rw [adjustSizeForSmallObjectBin, hclass, if_neg]
    simp only [smallObjectMinSizeClass]
    omega

end
end Metamalloc.Heaps
