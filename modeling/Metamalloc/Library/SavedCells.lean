import Mathlib.Data.List.Nodup

/-! Cells that are overwritten one after the other, each saved before, and then put back in the same order. -/
namespace Metamalloc.Library.SavedCells

variable {α β : Type} [DecidableEq α]

def overwrite : List (α × β) → (α → β) → α → β
  | [], cells => cells
  | (a, v) :: writes, cells => overwrite writes (Function.update cells a v)

def saved : List (α × β) → (α → β) → List (α × β)
  | [], _ => []
  | (a, v) :: writes, cells => (a, cells a) :: saved writes (Function.update cells a v)

/-- The cells after `overwrite`, and whatever happened to the others since, with the saved ones put back. -/
abbrev putBack (writes : List (α × β)) (cells cells' : α → β) : α → β := overwrite (saved writes cells) cells'

abbrev keys (writes : List (α × β)) : List α := writes.map Prod.fst

variable {writes : List (α × β)} {cells cells' : α → β} {a : α}

@[simp] theorem keys_saved : keys (saved writes cells) = keys writes := by
  induction writes generalizing cells with
  | nil => rfl
  | cons write writes ih => exact congrArg (write.1 :: ·) ih

theorem overwrite_of_not_mem (h : a ∉ keys writes) : overwrite writes cells a = cells a := by
  induction writes generalizing cells with
  | nil => rfl
  | cons write writes ih =>
    rw [keys, List.map_cons, List.mem_cons, not_or] at h
    rw [overwrite, ih h.2, Function.update_of_ne h.1]

theorem overwrite_congr (h : cells a = cells' a) : overwrite writes cells a = overwrite writes cells' a := by
  induction writes generalizing cells cells' with
  | nil => exact h
  | cons write writes ih =>
    refine ih ?_
    by_cases hkey : a = write.1
    · subst hkey
      rw [Function.update_self, Function.update_self]
    · rw [Function.update_of_ne hkey, Function.update_of_ne hkey, h]

theorem saved_congr (h : ∀ a ∈ keys writes, cells a = cells' a) : saved writes cells = saved writes cells' := by
  induction writes generalizing cells cells' with
  | nil => rfl
  | cons write writes ih =>
    rw [saved, saved, h _ List.mem_cons_self, ih]
    intro a ha
    by_cases hkey : a = write.1
    · subst hkey
      rw [Function.update_self, Function.update_self]
    · rw [Function.update_of_ne hkey, Function.update_of_ne hkey, h a (List.mem_cons_of_mem _ ha)]

/-- The last write to a cell is what it holds. -/
theorem overwrite_append_cons {before after : List (α × β)} {v : β} (h : a ∉ keys after) :
    overwrite (before ++ (a, v) :: after) cells a = v := by
  induction before generalizing cells with
  | nil => rw [List.nil_append, overwrite, overwrite_of_not_mem h, Function.update_self]
  | cons write before ih => exact ih

theorem overwrite_mem (h : a ∈ keys writes) : (a, overwrite writes cells a) ∈ writes := by
  induction writes generalizing cells with
  | nil => cases h
  | cons write writes ih =>
    by_cases hrest : a ∈ keys writes
    · exact List.mem_cons_of_mem _ (ih hrest)
    · obtain rfl | hrest' := List.mem_cons.mp h
      · rw [overwrite, overwrite_of_not_mem hrest, Function.update_self]
        exact List.mem_cons_self
      · exact absurd hrest' hrest

/-- What is put back was in the cell at first or was written to it. -/
theorem saved_mem {v : β} (h : (a, v) ∈ saved writes cells) : v = cells a ∨ (a, v) ∈ writes := by
  induction writes generalizing cells with
  | nil => cases h
  | cons write writes ih =>
    obtain heq | hrest := List.mem_cons.mp h
    · cases heq
      exact .inl rfl
    · obtain rfl | hwritten := ih hrest
      · by_cases hkey : a = write.1
        · subst hkey
          rw [Function.update_self]
          exact .inr List.mem_cons_self
        · rw [Function.update_of_ne hkey]
          exact .inl rfl
      · exact .inr (List.mem_cons_of_mem _ hwritten)

/-- A cell that is written once gets its first content back. -/
theorem putBack_of_count_eq_one (h : (keys writes).count a = 1) : putBack writes cells cells' a = cells a := by
  induction writes generalizing cells cells' with
  | nil => cases h
  | cons write writes ih =>
    rw [putBack, saved, overwrite]
    by_cases hkey : write.1 = a
    · subst hkey
      rw [keys, List.map_cons, List.count_cons_self, Nat.add_eq_right, List.count_eq_zero] at h
      rw [overwrite_of_not_mem (by rwa [keys_saved]), Function.update_self]
    · rw [keys, List.map_cons, List.count_cons_of_ne hkey] at h
      exact (ih h).trans (Function.update_of_ne (Ne.symm hkey) ..)

/-- A cell that is written again keeps something that was written to it. -/
theorem putBack_of_one_lt_count (h : 1 < (keys writes).count a) : (a, putBack writes cells cells' a) ∈ writes := by
  induction writes generalizing cells cells' with
  | nil => cases h
  | cons write writes ih =>
    rw [putBack, saved, overwrite]
    by_cases hkey : write.1 = a
    · subst hkey
      rw [keys, List.map_cons, List.count_cons_self, Nat.lt_add_left_iff_pos, List.count_pos_iff] at h
      have hrest : write.1 ∈ keys (saved writes (Function.update cells write.1 write.2)) := by rwa [keys_saved]
      obtain heq | hwritten := saved_mem (overwrite_mem hrest)
      · rw [heq, Function.update_self]
        exact List.mem_cons_self
      · exact List.mem_cons_of_mem _ hwritten
    · rw [keys, List.map_cons, List.count_cons_of_ne hkey] at h
      exact List.mem_cons_of_mem _ (ih h)

/-- Putting back in the order of the writes undoes them exactly when no cell is written twice. -/
theorem putBack_eq_iff (hnew : ∀ write ∈ writes, write.2 ≠ cells write.1) :
    (∀ a ∈ keys writes, putBack writes cells cells' a = cells a) ↔ (keys writes).Nodup := by
  rw [List.nodup_iff_count_le_one]
  constructor
  · intro h a
    by_contra hcount
    have hmem : (a, putBack writes cells cells' a) ∈ writes := putBack_of_one_lt_count (Nat.lt_of_not_le hcount)
    exact hnew _ hmem (h a (List.mem_map_of_mem hmem))
  · intro h a ha
    exact putBack_of_count_eq_one (Nat.le_antisymm (h a) (List.count_pos_iff.mpr ha))

end Metamalloc.Library.SavedCells
