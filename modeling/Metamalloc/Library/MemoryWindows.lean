import Metamalloc.Library.ByteMemory
import Metamalloc.Library.SavedCells

/-! Windows of equal size in a byte memory, as cells that are read and written whole. -/
namespace Metamalloc.Library.MemoryWindows
open ByteMemory SavedCells

def window (n : Nat) (m : Mem) (address : Nat) : Fin n → UInt8 := fun i => m (address + i)

def put {n : Nat} (m : Mem) (address : Nat) (v : Fin n → UInt8) : Mem := fun x =>
  if h : address ≤ x ∧ x < address + n then v ⟨x - address, by omega⟩ else m x

def putAll {n : Nat} : List (Nat × (Fin n → UInt8)) → Mem → Mem
  | [], m => m
  | (a, v) :: writes, m => putAll writes (put m a v)

def Outside (n : Nat) (addresses : List Nat) (x : Nat) : Prop := ∀ a ∈ addresses, x < a ∨ a + n ≤ x

def Apart (n a b : Nat) : Prop := a = b ∨ a + n ≤ b ∨ b + n ≤ a

variable {n : Nat} {m m' : Mem} {a b x : Nat} {v : Fin n → UInt8} {writes : List (Nat × (Fin n → UInt8))}

theorem Apart.symm (h : Apart n a b) : Apart n b a := h.imp Eq.symm Or.symm

theorem put_of_outside (h : x < a ∨ a + n ≤ x) : put m a v x = m x := dif_neg (by omega)

theorem window_put_self : window n (put m a v) a = v := by
  funext i
  have hi := i.isLt
  rw [window, put, dif_pos (by omega)]
  congr 1
  exact Fin.ext (Nat.add_sub_cancel_left ..)

theorem window_put (h : Apart n a b) : window n (put m a v) b = Function.update (window n m) a v b := by
  rcases eq_or_ne b a with rfl | hne
  · rw [window_put_self, Function.update_self]
  · rw [Function.update_of_ne hne]
    funext i
    have hi := i.isLt
    refine put_of_outside ?_
    rcases h with rfl | h | h
    · exact absurd rfl hne
    · exact .inr (by omega)
    · exact .inl (by omega)

theorem putAll_of_outside (h : Outside n (keys writes) x) : putAll writes m x = m x := by
  induction writes generalizing m with
  | nil => rfl
  | cons write writes ih =>
    rw [Outside, keys, List.map_cons, List.forall_mem_cons] at h
    rw [putAll, ih h.2, put_of_outside h.1]

theorem window_putAll (h : ∀ a ∈ keys writes, Apart n a b) :
    window n (putAll writes m) b = overwrite writes (window n m) b := by
  induction writes generalizing m with
  | nil => rfl
  | cons write writes ih =>
    rw [keys, List.map_cons, List.forall_mem_cons] at h
    rw [putAll, ih h.2, overwrite]
    exact overwrite_congr (window_put h.1)

/-- What is saved on the way is what the cells hold. -/
theorem saved_put (h : ∀ b ∈ keys writes, Apart n a b) :
    saved writes (window n (put m a v)) = saved writes (Function.update (window n m) a v) :=
  saved_congr fun b hb => window_put (h b hb)

end Metamalloc.Library.MemoryWindows
