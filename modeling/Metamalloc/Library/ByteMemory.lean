import Mathlib.Data.Nat.Basic
import Mathlib.Tactic.Ring

/-! Byte-addressed memory with little-endian integer access of any width. -/
namespace Metamalloc.Library.ByteMemory

abbrev Mem := Nat → UInt8

def read (m : Mem) : (address width : Nat) → Nat
  | _, 0 => 0
  | a, w+1 => (m a).toNat + 256 * read m (a+1) w

def write (m : Mem) (address width value : Nat) : Mem := fun x =>
  if address ≤ x ∧ x < address + width then UInt8.ofNat (value / 256^(x - address)) else m x

def fill (m : Mem) (address size : Nat) (value : UInt8) : Mem := fun x =>
  if address ≤ x ∧ x < address + size then value else m x

/-- `memcpy`, between ranges that do not overlap. -/
def copy (m : Mem) (destination source size : Nat) : Mem := fun x =>
  if destination ≤ x ∧ x < destination + size then m (source + (x - destination)) else m x

theorem copy_zero (m : Mem) (destination source : Nat) : copy m destination source 0 = m := by
  funext x
  exact if_neg (by omega)

theorem copy_succ (m : Mem) (destination source n : Nat) : copy m destination source (n + 1) =
    Function.update (copy m destination source n) (destination + n) (m (source + n)) := by
  funext x
  by_cases hx : x = destination + n
  · subst hx
    rw [Function.update_self, copy, if_pos (by omega), Nat.add_sub_cancel_left]
  · rw [Function.update_of_ne hx, copy, copy]
    by_cases hin : destination ≤ x ∧ x < destination + n
    · rw [if_pos hin, if_pos (by omega)]
    · rw [if_neg hin, if_neg (by omega)]

def AgreeOn (m m' : Mem) (lo hi : Nat) : Prop := ∀ x, lo ≤ x → x < hi → m' x = m x

theorem AgreeOn.mono {m m' : Mem} {lo hi lo' hi' : Nat} (h : AgreeOn m m' lo hi)
    (hlo : lo ≤ lo') (hhi : hi' ≤ hi) : AgreeOn m m' lo' hi' :=
  fun x hx hx' => h x (hlo.trans hx) (hx'.trans_le hhi)

theorem read_lt (m : Mem) (a w : Nat) : read m a w < 256^w := by
  induction w generalizing a with
  | zero => simp [read]
  | succ w ih =>
    have hb : (m a).toNat < 256 := (m a).toNat_lt
    have hr := ih (a+1)
    rw [read, pow_succ]
    omega

theorem AgreeOn.read_eq {m m' : Mem} {a w : Nat} (h : AgreeOn m m' a (a+w)) :
    read m' a w = read m a w := by
  induction w generalizing a with
  | zero => rfl
  | succ w ih =>
    rw [read, read, h a le_rfl (by omega), ih (h.mono (by omega) (by omega))]

theorem write_apply_of_lt {m : Mem} {a w v x : Nat} (h : x < a) : write m a w v x = m x := by
  simp [write, Nat.not_le.mpr h]

theorem write_apply_of_ge {m : Mem} {a w v x : Nat} (h : a + w ≤ x) : write m a w v x = m x := by
  simp [write, Nat.not_lt.mpr h]

theorem agreeOn_write {m : Mem} {a w v lo hi : Nat} (h : hi ≤ a ∨ a + w ≤ lo) :
    AgreeOn m (write m a w v) lo hi := by
  intro x hlo hhi
  rcases h with h | h
  · exact write_apply_of_lt (hhi.trans_le h)
  · exact write_apply_of_ge (h.trans hlo)

theorem read_write_of_disjoint {m : Mem} {a w v b n : Nat} (h : b + n ≤ a ∨ a + w ≤ b) :
    read (write m a w v) b n = read m b n :=
  (agreeOn_write h).read_eq

private theorem read_write_suffix (m : Mem) (a w v k n : Nat) (h : k + n = w) :
    read (write m a w v) (a+k) n = (v / 256^k) % 256^n := by
  induction n generalizing k with
  | zero => simp [read, Nat.mod_one]
  | succ n ih =>
    have hb : write m a w v (a+k) = UInt8.ofNat (v / 256^k) := by
      simp [write, show k < w by omega]
    rw [read, hb, Nat.add_assoc, ih (k+1) (by omega), UInt8.toNat_ofNat',
      show 2^8 = 256 from rfl, pow_succ 256 k, ← Nat.div_div_eq_div_mul, pow_succ' 256 n,
      Nat.mod_mul]

theorem read_write_same (m : Mem) (a w v : Nat) : read (write m a w v) a w = v % 256^w := by
  simpa using read_write_suffix m a w v 0 w (by omega)

def read64 (m : Mem) (a : Nat) : Nat := read m a 8
def write64 (m : Mem) (a v : Nat) : Mem := write m a 8 v

theorem read64_lt (m : Mem) (a : Nat) : read64 m a < 2^64 := by
  simpa [read64] using read_lt m a 8

theorem read64_write64_same {m : Mem} {a v : Nat} (h : v < 2^64) :
    read64 (write64 m a v) a = v := by
  rw [read64, write64, read_write_same]
  exact Nat.mod_eq_of_lt (by simpa using h)

theorem read64_write64_of_disjoint {m : Mem} {a b v : Nat} (h : b + 8 ≤ a ∨ a + 8 ≤ b) :
    read64 (write64 m a v) b = read64 m b :=
  read_write_of_disjoint h

theorem write64_apply {m : Mem} {a v b : Nat} (h : b < a ∨ a + 8 ≤ b) : write64 m a v b = m b :=
  h.elim write_apply_of_lt write_apply_of_ge

theorem AgreeOn.read64_eq {m m' : Mem} {a : Nat} (h : AgreeOn m m' a (a+8)) :
    read64 m' a = read64 m a := h.read_eq

theorem agreeOn_write64 {m : Mem} {a v lo hi : Nat} (h : hi ≤ a ∨ a + 8 ≤ lo) :
    AgreeOn m (write64 m a v) lo hi := agreeOn_write h

end Metamalloc.Library.ByteMemory
